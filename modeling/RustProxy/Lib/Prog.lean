import Mathlib.Tactic

/-!
# Programs over operations

A `Prog ι ο ε α` performs operations `i : ι`, is given an answer of type `ο i` for each, and ends with a value or an
error; what the operations do is not part of it. The same program is therefore run

* alone, against a state that answers deterministically (`run`, and `trace` for the operations it performs);
* as one of several parties, where only its own steps matter (`Path`);
* under an assumption on the answers, which bounds the operations it can ever perform (`Respects`).

All three compose along `bind` (`run_bind`, `trace_bind`, `Path.bind_inv`, `Respects.bind`), and what a program can
perform bounds what its run can change (`Respects.run_inv`).
-/

namespace RustProxy.Lib

/-- A program: a value, an error, or an operation followed by what is done with its answer. -/
inductive Prog (ι : Type) (ο : ι → Type) (ε α : Type) : Type
  | ret (a : α) : Prog ι ο ε α
  | fail (e : ε) : Prog ι ο ε α
  | op (i : ι) (k : ο i → Prog ι ο ε α) : Prog ι ο ε α

namespace Prog

variable {ι : Type} {ο : ι → Type} {ε α β γ σ : Type}

/-- Sequencing; an error ends the program. -/
def bind : Prog ι ο ε α → (α → Prog ι ο ε β) → Prog ι ο ε β
  | .ret a, f => f a
  | .fail e, _ => .fail e
  | .op i k, f => .op i fun a => (k a).bind f

instance : Monad (Prog ι ο ε) where
  pure := .ret
  bind := bind

/-- The same program with its errors renamed. -/
def mapError {ε' : Type} (f : ε → ε') : Prog ι ο ε α → Prog ι ο ε' α
  | .ret a => .ret a
  | .fail e => .fail (f e)
  | .op i k => .op i fun a => (k a).mapError f

/-- A result that is already known. -/
def ofExcept : Except ε α → Prog ι ο ε α
  | .ok a => .ret a
  | .error e => .fail e

@[simp] theorem pure_eq (a : α) : (pure a : Prog ι ο ε α) = .ret a := rfl

@[simp] theorem bind_eq (p : Prog ι ο ε α) (f : α → Prog ι ο ε β) : p >>= f = p.bind f := rfl

@[simp] theorem ret_bind (a : α) (f : α → Prog ι ο ε β) : (Prog.ret a).bind f = f a := rfl

@[simp] theorem fail_bind (e : ε) (f : α → Prog ι ο ε β) : (Prog.fail e : Prog ι ο ε α).bind f = .fail e := rfl

@[simp] theorem op_bind (i : ι) (k : ο i → Prog ι ο ε α) (f : α → Prog ι ο ε β) :
    (Prog.op i k).bind f = .op i fun a => (k a).bind f := rfl

@[simp] theorem ofExcept_ok (a : α) : (ofExcept (.ok a) : Prog ι ο ε α) = .ret a := rfl

@[simp] theorem ofExcept_error (e : ε) : (ofExcept (.error e) : Prog ι ο ε α) = .fail e := rfl

theorem bind_assoc (p : Prog ι ο ε α) (f : α → Prog ι ο ε β) (g : β → Prog ι ο ε γ) :
    (p.bind f).bind g = p.bind fun a => (f a).bind g := by
  induction p with
  | ret a => rfl
  | fail e => rfl
  | op i k ih => simp only [op_bind]; congr 1; funext a; exact ih a

theorem bind_ret (p : Prog ι ο ε α) : p.bind .ret = p := by
  induction p with
  | ret a => rfl
  | fail e => rfl
  | op i k ih => simp only [op_bind, ih]

/-! ## Running alone -/

section Run

variable (h : (i : ι) → σ → ο i × σ)

/-- The result of a run against the state `s`, whose answers are given by `h`. -/
def run : Prog ι ο ε α → σ → Except ε α × σ
  | .ret a, s => (.ok a, s)
  | .fail e, s => (.error e, s)
  | .op i k, s => (k (h i s).1).run (h i s).2

/-- The operations of a run, each with the state in which it was performed. -/
def trace : Prog ι ο ε α → σ → List (ι × σ)
  | .ret _, _ => []
  | .fail _, _ => []
  | .op i k, s => (i, s) :: (k (h i s).1).trace (h i s).2

variable {h}

@[simp] theorem run_ret (a : α) (s : σ) : (Prog.ret a : Prog ι ο ε α).run h s = (.ok a, s) := rfl

@[simp] theorem run_fail (e : ε) (s : σ) : (Prog.fail e : Prog ι ο ε α).run h s = (.error e, s) := rfl

@[simp] theorem run_op (i : ι) (k : ο i → Prog ι ο ε α) (s : σ) :
    (Prog.op i k).run h s = (k (h i s).1).run h (h i s).2 := rfl

theorem run_bind (p : Prog ι ο ε α) (f : α → Prog ι ο ε β) (s : σ) :
    (p.bind f).run h s = match p.run h s with
      | (.ok a, s') => (f a).run h s'
      | (.error e, s') => (.error e, s') := by
  induction p generalizing s with
  | ret a => rfl
  | fail e => rfl
  | op i k ih => exact ih _ _

theorem run_bind_ok {p : Prog ι ο ε α} {f : α → Prog ι ο ε β} {s s' : σ} {a : α} (hp : p.run h s = (.ok a, s')) :
    (p.bind f).run h s = (f a).run h s' := by
  rw [run_bind, hp]

theorem run_bind_error {p : Prog ι ο ε α} {f : α → Prog ι ο ε β} {s s' : σ} {e : ε}
    (hp : p.run h s = (.error e, s')) : (p.bind f).run h s = (.error e, s') := by
  rw [run_bind, hp]

theorem run_bind_eq_ok {p : Prog ι ο ε α} {f : α → Prog ι ο ε β} {s s' : σ} {b : β} :
    (p.bind f).run h s = (.ok b, s') ↔ ∃ a s₁, p.run h s = (.ok a, s₁) ∧ (f a).run h s₁ = (.ok b, s') := by
  rw [run_bind]
  obtain ⟨r, s₁⟩ := p.run h s
  cases r with
  | ok a => exact ⟨fun hf => ⟨a, s₁, rfl, hf⟩, by rintro ⟨_, _, ⟨⟩, hf⟩; exact hf⟩
  | error e => exact ⟨by rintro ⟨⟩, by rintro ⟨_, _, ⟨⟩, _⟩⟩

theorem run_ofExcept_eq_ok {r : Except ε α} {s s' : σ} {a : α} :
    (ofExcept r : Prog ι ο ε α).run h s = (.ok a, s') ↔ r = .ok a ∧ s' = s := by
  cases r with
  | ok b => simp only [ofExcept_ok, run_ret, Prod.mk.injEq, Except.ok.injEq, eq_comm]
  | error e => simp

/-- Renaming the result changes nothing else. -/
theorem run_bind_ret (p : Prog ι ο ε α) (f : α → β) (s : σ) :
    (p.bind fun a => .ret (f a)).run h s = ((p.run h s).1.map f, (p.run h s).2) := by
  rw [run_bind]
  obtain ⟨r, s'⟩ := p.run h s
  cases r <;> rfl

theorem run_mapError {ε' : Type} (f : ε → ε') (p : Prog ι ο ε α) (s : σ) :
    (p.mapError f).run h s = ((p.run h s).1.mapError f, (p.run h s).2) := by
  induction p generalizing s with
  | ret a => rfl
  | fail e => rfl
  | op i k ih => exact ih _ _

@[simp] theorem trace_ret (a : α) (s : σ) : (Prog.ret a : Prog ι ο ε α).trace h s = [] := rfl

@[simp] theorem trace_fail (e : ε) (s : σ) : (Prog.fail e : Prog ι ο ε α).trace h s = [] := rfl

@[simp] theorem trace_op (i : ι) (k : ο i → Prog ι ο ε α) (s : σ) :
    (Prog.op i k).trace h s = (i, s) :: (k (h i s).1).trace h (h i s).2 := rfl

theorem trace_bind (p : Prog ι ο ε α) (f : α → Prog ι ο ε β) (s : σ) :
    (p.bind f).trace h s = p.trace h s ++ match p.run h s with
      | (.ok a, s') => (f a).trace h s'
      | (.error _, _) => [] := by
  induction p generalizing s with
  | ret a => rfl
  | fail e => rfl
  | op i k ih => simp only [op_bind, trace_op, run_op, List.cons_append, ih]

theorem trace_bind_ok {p : Prog ι ο ε α} {f : α → Prog ι ο ε β} {s s' : σ} {a : α} (hp : p.run h s = (.ok a, s')) :
    (p.bind f).trace h s = p.trace h s ++ (f a).trace h s' := by
  rw [trace_bind, hp]

/-- Operations of which some fail without an effect: the one with number `n` is answered by its `fault`, if it has one,
where `fails n` holds. The state counts the operations. -/
def failing (h : (i : ι) → σ → ο i × σ) (fault : (i : ι) → Option (ο i)) (fails : Nat → Bool) (i : ι) (st : σ × Nat) :
    ο i × σ × Nat :=
  match fails st.2, fault i with
  | true, some a => (a, st.1, st.2 + 1)
  | _, _ => ((h i st.1).1, (h i st.1).2, st.2 + 1)

theorem failing_ok {fault : (i : ι) → Option (ο i)} {fails : Nat → Bool} {n : Nat} (hn : fails n = false) (i : ι)
    (s : σ) : failing h fault fails i (s, n) = ((h i s).1, (h i s).2, n + 1) := by
  simp only [failing, hn]

theorem failing_fault {fault : (i : ι) → Option (ο i)} {fails : Nat → Bool} {n : Nat} (hn : fails n = true) {i : ι}
    {a : ο i} (ha : fault i = some a) (s : σ) : failing h fault fails i (s, n) = (a, s, n + 1) := by
  simp only [failing, hn, ha]

end Run

/-! ## Operations under an assumption on the answers -/

/-- As long as every answer satisfies `R`, every operation performed satisfies `G`. -/
def Respects (G : ι → Prop) (R : (i : ι) → ο i → Prop) : Prog ι ο ε α → Prop
  | .ret _ => True
  | .fail _ => True
  | .op i k => G i ∧ ∀ a, R i a → Respects G R (k a)

section Respects

variable {G : ι → Prop} {R : (i : ι) → ο i → Prop}

@[simp] theorem respects_ret (a : α) : Respects G R (Prog.ret a : Prog ι ο ε α) := trivial

@[simp] theorem respects_fail (e : ε) : Respects G R (Prog.fail e : Prog ι ο ε α) := trivial

theorem respects_ofExcept (r : Except ε α) : Respects G R (ofExcept r : Prog ι ο ε α) := by
  cases r <;> trivial

/-- One checked operation. -/
theorem respects_opExcept {i : ι} {k : ο i → Except ε α} (hi : G i) :
    Respects G R (.op i fun a => ofExcept (k a) : Prog ι ο ε α) := ⟨hi, fun _ _ => respects_ofExcept _⟩

theorem Respects.mono {G' : ι → Prop} {R' : (i : ι) → ο i → Prop} (hG : ∀ i, G i → G' i)
    (hR : ∀ i a, R' i a → R i a) {p : Prog ι ο ε α} (hp : Respects G R p) : Respects G' R' p := by
  induction p with
  | ret a => trivial
  | fail e => trivial
  | op i k ih => exact ⟨hG i hp.1, fun a ha => ih a (hp.2 a (hR i a ha))⟩

theorem Respects.bind {p : Prog ι ο ε α} {f : α → Prog ι ο ε β} (hp : Respects G R p)
    (hf : ∀ a, Respects G R (f a)) : Respects G R (p.bind f) := by
  induction p with
  | ret a => exact hf a
  | fail e => trivial
  | op i k ih => exact ⟨hp.1, fun a ha => ih a (hp.2 a ha)⟩

theorem Respects.mapError {ε' : Type} (f : ε → ε') {p : Prog ι ο ε α} (hp : Respects G R p) :
    Respects G R (p.mapError f) := by
  induction p with
  | ret a => trivial
  | fail e => trivial
  | op i k ih => exact ⟨hp.1, fun a ha => ih a (hp.2 a ha)⟩

/-- An invariant that the operations allowed by `G` keep, and that makes their answers satisfy `R`, is kept by the run
of a program that respects the two. -/
theorem Respects.run_inv {h : (i : ι) → σ → ο i × σ} {I : σ → Prop}
    (hI : ∀ i s, G i → I s → R i (h i s).1 ∧ I (h i s).2) {p : Prog ι ο ε α} (hp : Respects G R p) {s : σ} (hs : I s) :
    I (p.run h s).2 := by
  induction p generalizing s with
  | ret a => exact hs
  | fail e => exact hs
  | op i k ih =>
    obtain ⟨hR, hs'⟩ := hI i s hp.1 hs
    exact ih _ (hp.2 _ hR) hs'

/-- Whatever the answers, every operation performed satisfies `G`. -/
abbrev Performs (G : ι → Prop) (p : Prog ι ο ε α) : Prop := Respects G (fun _ _ => True) p

theorem Respects.trace {h : (i : ι) → σ → ο i × σ} {p : Prog ι ο ε α} (hp : p.Performs G) (s : σ) :
    ∀ x ∈ p.trace h s, G x.1 := by
  induction p generalizing s with
  | ret a => simp
  | fail e => simp
  | op i k ih =>
    rw [trace_op, List.forall_mem_cons]
    exact ⟨hp.1, ih _ (hp.2 _ trivial) _⟩

end Respects

/-! ## Properties of whatever is left of a program -/

/-- `P` holds of the program, and of what is left of it after any answers that satisfy `R`. -/
def Always (R : (i : ι) → ο i → Prop) (P : Prog ι ο ε α → Prop) : Prog ι ο ε α → Prop
  | .ret a => P (.ret a)
  | .fail e => P (.fail e)
  | .op i k => P (.op i k) ∧ ∀ a, R i a → Always R P (k a)

theorem Always.now {R : (i : ι) → ο i → Prop} {P : Prog ι ο ε α → Prop} {p : Prog ι ο ε α} (h : Always R P p) :
    P p := by
  cases p with
  | ret a => exact h
  | fail e => exact h
  | op i k => exact h.1

/-! ## The steps of one party -/

/-- Nothing is left to do. -/
def Final : Prog ι ο ε α → Prop
  | .ret _ => True
  | .fail _ => True
  | .op _ _ => False

/-- `Path p es q`: from `p`, performing the operations of `es` with the answers recorded there leaves `q`. -/
inductive Path : Prog ι ο ε α → List (Σ i, ο i) → Prog ι ο ε α → Prop
  | nil (p : Prog ι ο ε α) : Path p [] p
  | cons {i : ι} {k : ο i → Prog ι ο ε α} {a : ο i} {es : List (Σ i, ο i)} {q : Prog ι ο ε α} :
      Path (k a) es q → Path (.op i k) (⟨i, a⟩ :: es) q

section Path

variable {p q r : Prog ι ο ε α} {es fs : List (Σ i, ο i)}

theorem Path.snoc {i : ι} {k : ο i → Prog ι ο ε α} (a : ο i) (h : Path p es (.op i k)) :
    Path p (es ++ [⟨i, a⟩]) (k a) := by
  generalize hq : Prog.op i k = q at h
  induction h with
  | nil p => subst hq; exact .cons (.nil _)
  | cons _ ih => exact .cons (ih hq)

/-- A path through `p.bind f` is still inside `p`, or has left it with a value. -/
theorem Path.bind_inv {p : Prog ι ο ε α} {f : α → Prog ι ο ε β} {q : Prog ι ο ε β} (h : Path (p.bind f) es q) :
    (∃ p', Path p es p' ∧ (∀ a, p' ≠ .ret a) ∧ q = p'.bind f) ∨
      ∃ a es₁ es₂, es = es₁ ++ es₂ ∧ Path p es₁ (.ret a) ∧ Path (f a) es₂ q := by
  induction p generalizing es with
  | ret a => exact .inr ⟨a, [], es, rfl, .nil _, h⟩
  | fail e =>
    cases h with
    | nil => exact .inl ⟨_, .nil _, by rintro _ ⟨⟩, rfl⟩
  | op i k ih =>
    cases h with
    | nil => exact .inl ⟨_, .nil _, by rintro _ ⟨⟩, rfl⟩
    | @cons _ _ a es _ h =>
      rcases ih a h with ⟨p', hp, hne, rfl⟩ | ⟨b, es₁, es₂, rfl, hp, hf⟩
      · exact .inl ⟨p', .cons hp, hne, rfl⟩
      · exact .inr ⟨b, _ :: es₁, es₂, rfl, .cons hp, hf⟩

theorem Path.performs {G : ι → Prop} (h : Path p es q) (hp : p.Performs G) : q.Performs G := by
  induction h with
  | nil p => exact hp
  | cons _ ih => exact ih (hp.2 _ trivial)

/-- A path from an operation has not answered it yet, or has. -/
theorem Path.op_inv {i : ι} {k : ο i → Prog ι ο ε α} (h : Path (.op i k) es q) :
    (es = [] ∧ q = .op i k) ∨ ∃ a fs, es = ⟨i, a⟩ :: fs ∧ Path (k a) fs q := by
  cases h with
  | nil => exact .inl ⟨rfl, rfl⟩
  | cons h => exact .inr ⟨_, _, rfl, h⟩

theorem Path.ofExcept_bind_inv {r : Except ε β} {f : β → Prog ι ο ε α} (h : Path ((ofExcept r).bind f) es q) :
    (∃ e, es = [] ∧ q = .fail e) ∨ ∃ b, r = .ok b ∧ Path (f b) es q := by
  cases r with
  | ok b => exact .inr ⟨b, rfl, h⟩
  | error e =>
    cases h with
    | nil => exact .inl ⟨e, rfl, rfl⟩

theorem Path.ret_inv {a : α} (h : Path (.ret a) es q) : es = [] ∧ q = .ret a := by
  cases h; exact ⟨rfl, rfl⟩

theorem Path.fail_inv {e : ε} (h : Path (.fail e) es q) : es = [] ∧ q = .fail e := by
  cases h; exact ⟨rfl, rfl⟩

end Path

end Prog

end RustProxy.Lib
