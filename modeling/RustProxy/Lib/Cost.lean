import RustProxy.Lib.Session

/-!
# What programs spend

Every operation has a weight: one, to count operations, or the longest time that it may take. `Costs w p n` says that
whatever the answers, the weights of the operations of `p` add up to `n` at most. The bounds add along `bind`, and hold
of every path (`Costs.path`); so a program whose operations end in time ends in time (`Costs.elapsed_le`). That a bound
is attained is shown by a path to a value that spends as much (`Spends`).

`worst` is the least such bound, a measure that every operation brings down (`Costs.worst_answer`).
-/

namespace RustProxy.Lib

namespace Prog

variable {ι : Type} {ο : ι → Type} {ε α β : Type} {w : ι → Nat} {m n : Nat}

/-- Whatever the answers, the weights of the operations add up to `n` at most. -/
def Costs (w : ι → Nat) : Prog ι ο ε α → Nat → Prop
  | .ret _, _ => True
  | .fail _, _ => True
  | .op i k, n => w i ≤ n ∧ ∀ a, Costs w (k a) (n - w i)

theorem Costs.mono {p : Prog ι ο ε α} (hp : p.Costs w m) (h : m ≤ n) : p.Costs w n := by
  induction p generalizing m n with
  | ret a => trivial
  | fail e => trivial
  | op i k ih => exact ⟨hp.1.trans h, fun a => ih a (hp.2 a) (by omega)⟩

theorem costs_op {i : ι} {k : ο i → Prog ι ο ε α} (hk : ∀ a, (k a).Costs w n) : (op i k).Costs w (w i + n) := by
  refine ⟨by omega, fun a => ?_⟩
  rw [Nat.add_sub_cancel_left]
  exact hk a

theorem costs_ofExcept (r : Except ε α) : (ofExcept r : Prog ι ο ε α).Costs w 0 := by
  cases r <;> trivial

theorem Costs.bind {p : Prog ι ο ε α} {f : α → Prog ι ο ε β} (hp : p.Costs w m) (hf : ∀ a, (f a).Costs w n) :
    (p.bind f).Costs w (m + n) := by
  induction p generalizing m with
  | ret a => exact (hf a).mono (by omega)
  | fail e => trivial
  | op i k ih =>
    obtain ⟨hi, hk⟩ := hp
    refine ⟨by omega, fun a => (ih a (hk a)).mono (by omega)⟩

/-- Operations without a weight cost nothing. -/
theorem Respects.costs {G : ι → Prop} {R : (i : ι) → ο i → Prop} {p : Prog ι ο ε α} (hp : Respects G R p)
    (hR : ∀ i a, R i a) (hw : ∀ i, G i → w i = 0) : p.Costs w 0 := by
  induction p with
  | ret a => trivial
  | fail e => trivial
  | op i k ih =>
    have hi := hw i hp.1
    refine ⟨hi.le, fun a => ?_⟩
    rw [hi]
    exact ih a (hp.2 a (hR i a))

/-- What is spent on a path, and what is left. -/
theorem Costs.path {p q : Prog ι ο ε α} {es : List (Σ i, ο i)} (h : p.Path es q) (hp : p.Costs w n) :
    (es.map fun e => w e.1).sum ≤ n ∧ q.Costs w (n - (es.map fun e => w e.1).sum) := by
  induction h generalizing n with
  | nil p => exact ⟨Nat.zero_le n, hp⟩
  | cons _ ih =>
    obtain ⟨hi, hk⟩ := hp
    obtain ⟨hle, hq⟩ := ih (hk _)
    simp only [List.map_cons, List.sum_cons]
    exact ⟨by omega, hq.mono (by omega)⟩

/-- Where every operation costs one, the costs are a bound on their number. -/
theorem Costs.length_le {p q : Prog ι ο ε α} {es : List (Σ i, ο i)} (hp : p.Costs w n) (hw : ∀ i, w i = 1)
    (h : p.Path es q) : es.length ≤ n := by
  simpa [hw] using (Costs.path h hp).1

/-! ## Time -/

/-- A path to the value `a` on which the weights of the operations add up to `n`. -/
def Spends (w : ι → Nat) (p : Prog ι ο ε α) (n : Nat) (a : α) : Prop :=
  ∃ es, p.Path es (.ret a) ∧ (es.map fun e => w e.1).sum = n

theorem Spends.op {i : ι} {k : ο i → Prog ι ο ε α} {a : α} (b : ο i) (h : (k b).Spends w n a) :
    (Prog.op i k).Spends w (w i + n) a := by
  obtain ⟨es, hes, rfl⟩ := h
  exact ⟨⟨i, b⟩ :: es, .cons hes, by simp⟩

theorem Spends.bind {p : Prog ι ο ε α} {f : α → Prog ι ο ε β} {a : α} {b : β} (hp : p.Spends w m a)
    (hf : (f a).Spends w n b) : (p.bind f).Spends w (m + n) b := by
  obtain ⟨es, hes, rfl⟩ := hp
  obtain ⟨fs, hfs, rfl⟩ := hf
  refine ⟨es ++ fs, ?_, by simp⟩
  generalize hr : ret a = r at hes
  induction hes with
  | nil p => subst hr; exact hfs
  | cons _ ih => exact .cons (ih hr)

/-- On every path to a value, the weights of the operations add up to `n`. -/
def Takes (w : ι → Nat) (p : Prog ι ο ε α) (n : Nat) : Prop :=
  ∀ es a, p.Path es (.ret a) → (es.map fun e => w e.1).sum = n

theorem Takes.bind {p : Prog ι ο ε α} {f : α → Prog ι ο ε β} (hp : p.Takes w m) (hf : ∀ a, (f a).Takes w n) :
    (p.bind f).Takes w (m + n) := by
  intro es b h
  rcases h.bind_inv with ⟨p', hp', hne, heq⟩ | ⟨a, es₁, es₂, rfl, h₁, h₂⟩
  · cases p' with
    | ret a => exact absurd rfl (hne a)
    | fail e => cases heq
    | op i k => cases heq
  · simp [hp es₁ a h₁, hf a es₂ b h₂]

/-- The least bound on what the program spends. -/
noncomputable def worst (w : ι → Nat) (p : Prog ι ο ε α) : Nat := sInf {n | p.Costs w n}

theorem Costs.worst_le {p : Prog ι ο ε α} (hp : p.Costs w n) : p.worst w ≤ n := Nat.sInf_le hp

/-- An operation brings the bound down by its weight. -/
theorem Costs.worst_answer {i : ι} {k : ο i → Prog ι ο ε α} (hp : (op i k).Costs w n) (a : ο i) :
    (k a).worst w + w i ≤ (op i k).worst w := by
  obtain ⟨hi, hk⟩ : (op i k).Costs w ((op i k).worst w) := Nat.sInf_mem (s := {n | (op i k).Costs w n}) ⟨n, hp⟩
  have hle := (hk a).worst_le
  omega

end Prog

/-- A part that uses one stream spends what it does alone. -/
theorem Prog.Costs.embed {κ ε α : Type} {A : κ → Type} {w : SessionOp κ → Nat} {n : Nat} {s : Side}
    {p : Prog StreamOp StreamOp.Ans ε α} (hp : p.Costs (fun o => w (.io s o)) n) :
    (p.embed s : Session A ε α).Costs w n := by
  induction p generalizing n with
  | ret a => trivial
  | fail e => trivial
  | op o k ih => exact ⟨hp.1, fun a => ih a (hp.2 a)⟩

theorem Prog.Spends.embed {κ ε α : Type} {A : κ → Type} {w : SessionOp κ → Nat} {n : Nat} {s : Side} {a : α}
    {p : Prog StreamOp StreamOp.Ans ε α} (hp : p.Spends (fun o => w (.io s o)) n a) :
    (p.embed s : Session A ε α).Spends w n a := by
  obtain ⟨es, hes, rfl⟩ := hp
  refine ⟨es.map (StreamEvent.on A s), ?_, by simp [StreamEvent.on, Function.comp_def]⟩
  generalize hr : ret a = r at hes
  induction hes with
  | nil p => subst hr; exact .nil _
  | cons _ ih => exact .cons (ih hr)

end RustProxy.Lib
