import RustProxy.Lib.Prog
import RustProxy.Lib.Interleave

/-!
# Programs that report

A program over the operations of `ι` that also reports values of `ρ`. A report is an operation of its own, which only
changes what has been reported, and whose answer says nothing; so a program behaves as it does without its reports
(`Prog.silent`), alone (`Prog.run_silent`) and as one of several tasks (`Run.project`).
-/

namespace RustProxy.Lib

/-- The answers of a program that also reports. -/
@[reducible] def Reporting {ι : Type} (ο : ι → Type) (ρ : Type) : ι ⊕ ρ → Type
  | .inl i => ο i
  | .inr _ => Unit

namespace Prog

variable {ι ρ : Type} {ο : ι → Type} {ε α β σ γ : Type}

/-- The program without its reports. -/
def silent : Prog (ι ⊕ ρ) (Reporting ο ρ) ε α → Prog ι ο ε α
  | .ret a => .ret a
  | .fail e => .fail e
  | .op (.inl i) k => .op i fun a => (k a).silent
  | .op (.inr _) k => (k ()).silent

/-- A program that reports nothing. -/
def reportless : Prog ι ο ε α → Prog (ι ⊕ ρ) (Reporting ο ρ) ε α
  | .ret a => .ret a
  | .fail e => .fail e
  | .op i k => .op (.inl i) fun a => (k a).reportless

def report (r : ρ) : Prog (ι ⊕ ρ) (Reporting ο ρ) ε Unit := .op (.inr r) .ret

theorem silent_bind (p : Prog (ι ⊕ ρ) (Reporting ο ρ) ε α) (f : α → Prog (ι ⊕ ρ) (Reporting ο ρ) ε β) :
    (p.bind f).silent = p.silent.bind fun a => (f a).silent := by
  induction p with
  | ret a => rfl
  | fail e => rfl
  | op i k ih =>
    cases i with
    | inl i => simp only [op_bind, silent, ih]
    | inr r => exact ih ()

@[simp] theorem silent_reportless (p : Prog ι ο ε α) : (p.reportless : Prog (ι ⊕ ρ) _ ε α).silent = p := by
  induction p with
  | ret a => rfl
  | fail e => rfl
  | op i k ih => simp only [reportless, silent, ih]

/-- Operations on a state, next to the reports made so far. -/
def reporting (h : (i : ι) → σ → ο i × σ) (f : ρ → γ → γ) : (j : ι ⊕ ρ) → σ × γ → Reporting ο ρ j × σ × γ
  | .inl i, s => ((h i s.1).1, (h i s.1).2, s.2)
  | .inr r, s => ((), s.1, f r s.2)

variable {h : (i : ι) → σ → ο i × σ} {f : ρ → γ → γ}

/-- **Reports change nothing else.** -/
theorem run_silent (p : Prog (ι ⊕ ρ) (Reporting ο ρ) ε α) (s : σ) (g : γ) :
    p.silent.run h s = ((p.run (reporting h f) (s, g)).1, (p.run (reporting h f) (s, g)).2.1) := by
  induction p generalizing s g with
  | ret a => rfl
  | fail e => rfl
  | op i k ih =>
    cases i with
    | inl i => exact ih _ _ _
    | inr r => exact ih _ _ _

theorem run_reportless (p : Prog ι ο ε α) (s : σ) (g : γ) :
    p.reportless.run (reporting h f) (s, g) = ((p.run h s).1, (p.run h s).2, g) := by
  induction p generalizing s with
  | ret a => rfl
  | fail e => rfl
  | op i k ih => exact ih _ _

end Prog

/-- A run seen through a map of the states under which each step is a step, or none. -/
theorem Run.project {σ σ' ℓ ℓ' : Type} {step : σ → ℓ → σ → Prop} {step' : σ' → ℓ' → σ' → Prop} {f : σ → σ'}
    {g : ℓ → Option ℓ'}
    (hstep : ∀ s l s', step s l s' → (∃ l', g l = some l' ∧ step' (f s) l' (f s')) ∨ g l = none ∧ f s' = f s)
    {s s' : σ} {ls : List ℓ} (h : Run step s ls s') : Run step' (f s) (ls.filterMap g) (f s') := by
  induction h with
  | nil s => exact .nil _
  | cons hst _ ih =>
    rcases hstep _ _ _ hst with ⟨l', hl, hst'⟩ | ⟨hl, hf⟩
    · rw [List.filterMap_cons_some hl]
      exact .cons hst' ih
    · rw [List.filterMap_cons_none hl, ← hf]
      exact ih

end RustProxy.Lib
