import RustProxy.Lib.Prog
import RustProxy.Lib.Interleave

/-!
# Programs among others

A program whose operations act on a state that others change in between. `Guarded` says that, as long as the others keep
to `rely`, every operation is performed in a state that allows it, and no error but those expected ends the program. It
composes along `bind` (`Guarded.bind`), and the actions of the others do not break it (`Guarded.tolerates`).

If each allowed operation keeps a shared invariant and is itself within `rely`, then so is any interleaving of guarded
programs (`Pool.guarded_run`): each program is looked at once, alone.
-/

namespace RustProxy.Lib

namespace Prog

variable {ι : Type} {ο : ι → Type} {ε α β σ : Type}

section Guarded

variable (act : (i : ι) → σ → ο i → σ → Prop) (rely : σ → σ → Prop) (allows : σ → ι → Prop) (expected : ε → Prop)

/-- From `s`, every operation is performed where it is allowed, and the program ends with a value that satisfies `Q` or
with an expected error. -/
def Guarded (Q : α → σ → Prop) : Prog ι ο ε α → σ → Prop
  | .ret a, s => Q a s
  | .fail e, _ => expected e
  | .op i k, s => ∀ s', rely s s' → allows s' i ∧ ∀ a s'', act i s' a s'' → Guarded Q (k a) s''

variable {act rely allows expected} {Q : α → σ → Prop} {Q' : β → σ → Prop} {s s' : σ}

theorem Guarded.bind {p : Prog ι ο ε α} {f : α → Prog ι ο ε β} (hp : Guarded act rely allows expected Q p s)
    (hf : ∀ a s', Q a s' → Guarded act rely allows expected Q' (f a) s') :
    Guarded act rely allows expected Q' (p.bind f) s := by
  induction p generalizing s with
  | ret a => exact hf a s hp
  | fail e => exact hp
  | op i k ih =>
    intro s' hs'
    obtain ⟨hallow, hnext⟩ := hp s' hs'
    exact ⟨hallow, fun a s'' hact => ih a (hnext a s'' hact)⟩

theorem Guarded.mono {Q₁ : α → σ → Prop} (hQ : ∀ a s, Q a s → Q₁ a s) {p : Prog ι ο ε α}
    (hp : Guarded act rely allows expected Q p s) : Guarded act rely allows expected Q₁ p s := by
  induction p generalizing s with
  | ret a => exact hQ a s hp
  | fail e => exact hp
  | op i k ih =>
    intro s' hs'
    obtain ⟨hallow, hnext⟩ := hp s' hs'
    exact ⟨hallow, fun a s'' hact => ih a (hnext a s'' hact)⟩

/-- One checked operation. -/
theorem guarded_opExcept {i : ι} {k : ο i → Except ε α}
    (h : ∀ s', rely s s' → allows s' i ∧ ∀ a s'', act i s' a s'' →
      (∀ v, k a = .ok v → Q v s'') ∧ ∀ e, k a = .error e → expected e) :
    Guarded act rely allows expected Q (.op i fun a => ofExcept (k a)) s := by
  intro s' hs'
  obtain ⟨hallow, hnext⟩ := h s' hs'
  refine ⟨hallow, fun a s'' hact => ?_⟩
  obtain ⟨hok, herr⟩ := hnext a s'' hact
  change Guarded act rely allows expected Q (ofExcept (k a)) s''
  cases hk : k a with
  | ok v => exact hok v hk
  | error e => exact herr e hk

theorem Guarded.mapError {ε' : Type} {expected' : ε' → Prop} {f : ε → ε'} (hf : ∀ e, expected e → expected' (f e))
    {p : Prog ι ο ε α} (hp : Guarded act rely allows expected Q p s) :
    Guarded act rely allows expected' Q (p.mapError f) s := by
  induction p generalizing s with
  | ret a => exact hp
  | fail e => exact hf e hp
  | op i k ih =>
    intro s' hs'
    obtain ⟨hallow, hnext⟩ := hp s' hs'
    exact ⟨hallow, fun a s'' hact => ih a (hnext a s'' hact)⟩

/-- What the others do within `rely` changes nothing. -/
theorem Guarded.tolerates (htrans : ∀ s₁ s₂ s₃, rely s₁ s₂ → rely s₂ s₃ → rely s₁ s₃)
    (hQ : ∀ a s s', Q a s → rely s s' → Q a s') {p : Prog ι ο ε α} (hp : Guarded act rely allows expected Q p s)
    (hs : rely s s') : Guarded act rely allows expected Q p s' := by
  cases p with
  | ret a => exact hQ a s s' hp hs
  | fail e => exact hp
  | op i k => exact fun s'' hs'' => hp s'' (htrans s s' s'' hs hs'')

/-- The next operation is allowed, and the rest is guarded. -/
theorem Guarded.step (hrefl : ∀ s, rely s s) {i : ι} {k : ο i → Prog ι ο ε α} {a : ο i}
    (hp : Guarded act rely allows expected Q (.op i k) s) (hact : act i s a s') :
    allows s i ∧ Guarded act rely allows expected Q (k a) s' := by
  obtain ⟨hallow, hnext⟩ := hp s (hrefl s)
  exact ⟨hallow, hnext a s' hact⟩

end Guarded

end Prog

namespace Pool

variable {ι : Type} {ο : ι → Type} {ε α σ τ ℓ : Type}
variable {act : (i : ι) → σ → ο i → σ → Prop} {rely : σ → σ → Prop} {allows : σ → ι → Prop} {expected : ε → Prop}
variable {start : τ → Prop} {step : σ → τ → ℓ → σ → τ → Prop} (rest : τ → Prog ι ο ε α) {I : σ → Prop}

/-- **Rely and guarantee, one step.** Guarded programs keep what their allowed operations keep, and stay guarded. -/
theorem guarded_step {Q : α → Prop}
    (hstep : ∀ s t l s' t', step s t l s' t' → ∃ i k a, rest t = .op i k ∧ act i s a s' ∧ rest t' = k a)
    (hrefl : ∀ s, rely s s) (htrans : ∀ s₁ s₂ s₃, rely s₁ s₂ → rely s₂ s₃ → rely s₁ s₃)
    (hact : ∀ i s a s', I s → allows s i → act i s a s' → I s' ∧ rely s s')
    (hstart : ∀ s t, I s → start t → Prog.Guarded act rely allows expected (fun a _ => Q a) (rest t) s)
    {p p' : Pool σ τ} {l : Label τ ℓ} (h : Step start step p l p')
    (hp : Inv I (fun s t => Prog.Guarded act rely allows expected (fun a _ => Q a) (rest t) s) p) :
    Inv I (fun s t => Prog.Guarded act rely allows expected (fun a _ => Q a) (rest t) s) p' := by
  refine step_inv hstart ?_ ?_ hp (tolerated_true p l) h
  · intro s t l s' t' hI ht hst
    obtain ⟨i, k, a, hrest, ha, hrest'⟩ := hstep s t l s' t' hst
    rw [hrest] at ht
    obtain ⟨hallow, hnext⟩ := ht.step hrefl ha
    rw [hrest']
    exact ⟨(hact i s a s' hI hallow ha).1, hnext⟩
  · intro s t l s' t' u hI ht hst _ hu
    obtain ⟨i, k, a, hrest, ha, -⟩ := hstep s t l s' t' hst
    rw [hrest] at ht
    obtain ⟨hallow, -⟩ := ht.step hrefl ha
    exact hu.tolerates htrans (fun _ _ _ hQ _ => hQ) (hact i s a s' hI hallow ha).2

/-- Guarded programs, interleaved in any way. -/
theorem guarded_run
    (hstep : ∀ s t l s' t', step s t l s' t' → ∃ i k a, rest t = .op i k ∧ act i s a s' ∧ rest t' = k a)
    (hrefl : ∀ s, rely s s) (htrans : ∀ s₁ s₂ s₃, rely s₁ s₂ → rely s₂ s₃ → rely s₁ s₃)
    (hact : ∀ i s a s', I s → allows s i → act i s a s' → I s' ∧ rely s s')
    (hstart : ∀ s t, I s → start t → Prog.Guarded act rely allows expected (fun _ _ => True) (rest t) s)
    {p p' : Pool σ τ} {ls : List (Label τ ℓ)} (h : Run (Step start step) p ls p')
    (hp : Inv I (fun s t => Prog.Guarded act rely allows expected (fun _ _ => True) (rest t) s) p) :
    Inv I (fun s t => Prog.Guarded act rely allows expected (fun _ _ => True) (rest t) s) p' :=
  h.inv (fun _ _ _ hq hst => guarded_step rest hstep hrefl htrans hact hstart hst hq) hp

end Pool

end RustProxy.Lib
