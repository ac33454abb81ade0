import Mathlib.Tactic

/-!
# Runs and interleavings

* `Run step s ls s'`: a finite run of a labelled step relation. An invariant of the steps is one of the runs
  (`Run.inv`).
* `Pool σ τ`: any number of tasks with local states in `τ` over a shared state in `σ`. A step starts a task or lets
  one task act (`Pool.Step`), so a run of a pool is an interleaving. A shared invariant together with a condition on
  each task that the actions of the others cannot break is an invariant (`Pool.step_inv`, `Pool.run_inv`);
  quantities summed over the tasks change only by what the acting task contributes (`Pool.total_set`).
-/

namespace RustProxy.Lib

/-! ## Runs -/

/-- A finite run with its labels. -/
inductive Run {σ ℓ : Type} (step : σ → ℓ → σ → Prop) : σ → List ℓ → σ → Prop
  | nil (s : σ) : Run step s [] s
  | cons {s s' s'' : σ} {l : ℓ} {ls : List ℓ} : step s l s' → Run step s' ls s'' → Run step s (l :: ls) s''

section Run

variable {σ ℓ : Type} {step : σ → ℓ → σ → Prop}

/-- What every step keeps, every run keeps. -/
theorem Run.inv {I : σ → Prop} (hstep : ∀ s l s', I s → step s l s' → I s') {s s' : σ} {ls : List ℓ}
    (h : Run step s ls s') (hs : I s) : I s' := by
  induction h with
  | nil s => exact hs
  | cons hst _ ih => exact ih (hstep _ _ _ hs hst)

theorem Run.snoc {s s' s'' : σ} {l : ℓ} {ls : List ℓ} (h : Run step s ls s') (hl : step s' l s'') :
    Run step s (ls ++ [l]) s'' := by
  induction h with
  | nil s => exact .cons hl (.nil _)
  | cons hst _ ih => exact .cons hst (ih hl)

theorem Run.append {s s' s'' : σ} {ls ls' : List ℓ} (h : Run step s ls s') (h' : Run step s' ls' s'') :
    Run step s (ls ++ ls') s'' := by
  induction h with
  | nil s => exact h'
  | cons hst _ ih => exact .cons hst (ih h')

/-- A run splits where its labels do. -/
theorem Run.split {ls ls' : List ℓ} : ∀ {s s'' : σ}, Run step s (ls ++ ls') s'' →
    ∃ s', Run step s ls s' ∧ Run step s' ls' s'' := by
  induction ls with
  | nil => intro s s'' h; exact ⟨s, .nil s, h⟩
  | cons l ls ih =>
    intro s s'' h
    cases h with
    | cons hst h =>
      obtain ⟨s', h₁, h₂⟩ := ih h
      exact ⟨s', .cons hst h₁, h₂⟩

/-- Induction on a run from its end, with the steps taken so far. -/
theorem Run.snoc_induction {s : σ} {P : List ℓ → σ → Prop} (hnil : P [] s)
    (hsnoc : ∀ ls s' l s'', Run step s ls s' → P ls s' → step s' l s'' → P (ls ++ [l]) s'') {ls : List ℓ} {s' : σ}
    (h : Run step s ls s') : P ls s' := by
  induction ls using List.reverseRecOn generalizing s' with
  | nil => cases h; exact hnil
  | append_singleton ls l ih =>
    obtain ⟨s₁, h₁, h₂⟩ := h.split
    cases h₂ with
    | cons hst h₂ => cases h₂; exact hsnoc ls s₁ l s' h₁ (ih h₁) hst

theorem Run.mono {step' : σ → ℓ → σ → Prop} (hle : ∀ s l s', step s l s' → step' s l s') {s s' : σ} {ls : List ℓ}
    (h : Run step s ls s') : Run step' s ls s' := by
  induction h with
  | nil s => exact .nil s
  | cons hst _ ih => exact .cons (hle _ _ _ hst) ih

/-- Every step of a run has one of its labels. -/
theorem Run.labelled {s s' : σ} {ls : List ℓ} (h : Run step s ls s') :
    Run (fun s l s' => l ∈ ls ∧ step s l s') s ls s' := by
  induction h with
  | nil s => exact .nil s
  | cons hst _ ih =>
    exact .cons ⟨List.mem_cons_self, hst⟩ (ih.mono fun _ _ _ h => ⟨List.mem_cons_of_mem _ h.1, h.2⟩)

/-- Where runs have a bounded length, every run goes on to a state without a step. -/
theorem Run.exists_stuck {s₀ : σ} {bound : Nat} (hbound : ∀ ls s, Run step s₀ ls s → ls.length ≤ bound) {s : σ}
    {ls : List ℓ} (h : Run step s₀ ls s) : ∃ ls' s', Run step s ls' s' ∧ ∀ l s'', ¬ step s' l s'' := by
  induction hn : bound - ls.length using Nat.strong_induction_on generalizing s ls with
  | _ n ih =>
    by_cases hstuck : ∀ l s'', ¬ step s l s''
    · exact ⟨[], s, .nil s, hstuck⟩
    · push Not at hstuck
      obtain ⟨l, s₁, hst⟩ := hstuck
      have hle := hbound _ _ (h.snoc hst)
      rw [List.length_append, List.length_singleton] at hle
      obtain ⟨ls', s', hrun, hend⟩ := ih (bound - (ls ++ [l]).length) (by simp; omega) (h.snoc hst) rfl
      exact ⟨l :: ls', s', .cons hst hrun, hend⟩

end Run

/-! ## Pools of tasks -/

/-- A shared state and the local states of the tasks started so far. -/
structure Pool (σ τ : Type) where
  shared : σ
  tasks : List τ

namespace Pool

variable {σ τ ℓ : Type}

/-- What a pool step does: start a task, or let the task with this index act. -/
inductive Label (τ ℓ : Type) : Type
  | start (t : τ)
  | act (i : Nat) (l : ℓ)

/-- One step of an interleaving. -/
inductive Step (start : τ → Prop) (act : σ → τ → ℓ → σ → τ → Prop) : Pool σ τ → Label τ ℓ → Pool σ τ → Prop
  | start {p : Pool σ τ} {t : τ} : start t → Step start act p (.start t) ⟨p.shared, p.tasks ++ [t]⟩
  | act {p : Pool σ τ} {i : Nat} {t t' : τ} {l : ℓ} {s' : σ} : p.tasks[i]? = some t → act p.shared t l s' t' →
      Step start act p (.act i l) ⟨s', p.tasks.set i t'⟩

section Invariant

variable {start : τ → Prop} {act : σ → τ → ℓ → σ → τ → Prop} {I : σ → Prop} {J : σ → τ → Prop} {C : τ → ℓ → Prop}

/-- The shared invariant together with the condition on every task. -/
def Inv (I : σ → Prop) (J : σ → τ → Prop) (p : Pool σ τ) : Prop := I p.shared ∧ ∀ t ∈ p.tasks, J p.shared t

/-- Every task but the acting one tolerates the action. -/
def Tolerated (C : τ → ℓ → Prop) (p : Pool σ τ) : Label τ ℓ → Prop
  | .start _ => True
  | .act i l => ∀ j u, j ≠ i → p.tasks[j]? = some u → C u l

/-- Tasks that tolerate everything. -/
theorem tolerated_true (p : Pool σ τ) (l : Label τ ℓ) : Tolerated (fun _ _ => True) p l := by
  cases l with
  | start t => trivial
  | act i l => exact fun _ _ _ _ => trivial

theorem eq_or_other_of_mem_set {ts : List τ} {i : Nat} {t u : τ} (h : u ∈ ts.set i t) :
    u = t ∨ ∃ j, j ≠ i ∧ ts[j]? = some u := by
  obtain ⟨j, hj⟩ := List.mem_iff_getElem?.mp h
  rw [List.getElem?_set] at hj
  split at hj
  · split at hj
    · exact .inl (Option.some.inj hj).symm
    · cases hj
  · exact .inr ⟨j, fun h => by simp_all, hj⟩

/-- **The interleaving rule, one step**: the acting task keeps the shared invariant and its own condition, and does
not break the condition of any task that tolerates the action. -/
theorem step_inv (hstart : ∀ s t, I s → start t → J s t)
    (hact : ∀ s t l s' t', I s → J s t → act s t l s' t' → I s' ∧ J s' t')
    (hother : ∀ s t l s' t' u, I s → J s t → act s t l s' t' → C u l → J s u → J s' u)
    {p p' : Pool σ τ} {l : Label τ ℓ} (hp : Inv I J p) (hl : Tolerated C p l) (h : Step start act p l p') :
    Inv I J p' := by
  obtain ⟨hI, hJ⟩ := hp
  cases h with
  | @start t ht =>
    refine ⟨hI, fun u hu => ?_⟩
    rcases List.mem_append.mp hu with hu | hu
    · exact hJ u hu
    · rw [List.mem_singleton.mp hu]; exact hstart _ t hI ht
  | @act i t t' l s' hi ha =>
    have ht : t ∈ p.tasks := List.mem_of_getElem? hi
    obtain ⟨hI', hJ'⟩ := hact _ _ _ _ _ hI (hJ t ht) ha
    refine ⟨hI', fun u hu => ?_⟩
    rcases eq_or_other_of_mem_set hu with rfl | ⟨j, hji, hj⟩
    · exact hJ'
    · exact hother _ _ _ _ _ u hI (hJ t ht) ha (hl j u hji hj) (hJ u (List.mem_of_getElem? hj))

/-- The interleaving rule for runs whose actions are all tolerated. -/
theorem run_inv (hstart : ∀ s t, I s → start t → J s t)
    (hact : ∀ s t l s' t', I s → J s t → act s t l s' t' → I s' ∧ J s' t')
    (hother : ∀ s t l s' t' u, I s → J s t → act s t l s' t' → C u l → J s u → J s' u)
    {p p' : Pool σ τ} {ls : List (Label τ ℓ)}
    (h : Run (fun p l p' => Tolerated C p l ∧ Step start act p l p') p ls p') (hp : Inv I J p) : Inv I J p' :=
  h.inv (I := Inv I J) (fun _ _ _ hq hst => step_inv hstart hact hother hq hst.1 hst.2) hp

end Invariant

/-! ## Quantities summed over the tasks -/

/-- The sum of a quantity over the tasks. -/
def total (f : τ → Nat) (ts : List τ) : Nat := (ts.map f).sum

theorem total_append (f : τ → Nat) (ts : List τ) (t : τ) : total f (ts ++ [t]) = total f ts + f t := by
  simp [total]

/-- Replacing a task changes the sum by the difference. -/
theorem total_set (f : τ → Nat) {t : τ} (t' : τ) :
    ∀ {ts : List τ} {i : Nat}, ts[i]? = some t → total f (ts.set i t') + f t = total f ts + f t'
  | [], _, h => by simp at h
  | u :: ts, 0, h => by
    simp only [List.getElem?_cons_zero, Option.some.injEq] at h
    subst h
    simp only [total, List.set_cons_zero, List.map_cons, List.sum_cons]
    omega
  | u :: ts, i + 1, h => by
    have ih : total f (ts.set i t') + f t = total f ts + f t' := total_set f t' (by simpa using h)
    simp only [total, List.set_cons_succ, List.map_cons, List.sum_cons] at ih ⊢
    omega

/-- One task contributes at most the sum. -/
theorem le_total (f : τ → Nat) {t : τ} {ts : List τ} (h : t ∈ ts) : f t ≤ total f ts :=
  List.single_le_sum (by simp) _ (List.mem_map_of_mem h)

end Pool

end RustProxy.Lib
