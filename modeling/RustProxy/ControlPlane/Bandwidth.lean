import RustProxy.Lib.Interleave

/-!
# Bandwidth allocation

`BandwidthAllocator` (`bandwidth.rs`): a ceiling and a counter shared by all clones and all outstanding guards.

* `tryReserve` and `release` are what `try_reserve` and the drop of a guard compute when nothing runs in between.
* The loop of `try_reserve` is also given by its atomic steps (`ReserveAct`): a load, a weak compare-exchange that may
  fail at any time, and the `fetch_sub` of the guard's drop. For every interleaving of any number of calls the counter
  is the sum of the granted rates, stays within the ceiling, never wraps, and a refusal was justified by the last load
  (`reserve_interleaved`).
-/

namespace RustProxy.ControlPlane

open Lib

/-- `u64::checked_add`. -/
def checkedAdd (a b : UInt64) : Option UInt64 := if a.toNat + b.toNat < 2 ^ 64 then some (a + b) else none

theorem checkedAdd_some {a b c : UInt64} (h : checkedAdd a b = some c) : c.toNat = a.toNat + b.toNat := by
  unfold checkedAdd at h
  split_ifs at h with hlt
  cases h
  rw [UInt64.toNat_add, Nat.mod_eq_of_lt hlt]

theorem checkedAdd_none {a b : UInt64} (h : checkedAdd a b = none) : 2 ^ 64 ≤ a.toNat + b.toNat := by
  unfold checkedAdd at h
  split_ifs at h with hlt
  exact Nat.le_of_not_lt hlt

/-! ## Without interference -/

structure BandwidthAllocator where
  limit : UInt64
  reserved : UInt64
  deriving DecidableEq

namespace BandwidthAllocator

def new (limitBytesPerSec : UInt64) : BandwidthAllocator := ⟨limitBytesPerSec, 0⟩

/-- Reserve `rate`: the allocator after the reservation, or `none` when it would exceed the ceiling. -/
def tryReserve (a : BandwidthAllocator) (rate : UInt64) : Option BandwidthAllocator :=
  match checkedAdd a.reserved rate with
  | none => none
  | some next => if a.limit < next then none else some { a with reserved := next }

/-- The `fetch_sub` of a dropped guard, which wraps. -/
def release (a : BandwidthAllocator) (rate : UInt64) : BandwidthAllocator :=
  { a with reserved := a.reserved - rate }

theorem tryReserve_some {a b : BandwidthAllocator} {rate : UInt64} (h : a.tryReserve rate = some b) :
    b.limit = a.limit ∧ b.reserved.toNat = a.reserved.toNat + rate.toNat ∧ b.reserved ≤ a.limit := by
  unfold tryReserve at h
  cases hadd : checkedAdd a.reserved rate with
  | none => rw [hadd] at h; cases h
  | some next =>
    rw [hadd] at h
    dsimp only at h
    split_ifs at h with hlt
    cases h
    exact ⟨rfl, checkedAdd_some hadd, UInt64.not_lt.mp hlt⟩

theorem tryReserve_none {a : BandwidthAllocator} {rate : UInt64} (h : a.tryReserve rate = none) :
    a.limit.toNat < a.reserved.toNat + rate.toNat := by
  unfold tryReserve at h
  cases hadd : checkedAdd a.reserved rate with
  | none =>
    have := checkedAdd_none hadd
    have := a.limit.toNat_lt
    omega
  | some next =>
    rw [hadd] at h
    dsimp only at h
    split_ifs at h with hlt
    rw [← checkedAdd_some hadd]
    exact UInt64.lt_iff_toNat_lt.mp hlt

end BandwidthAllocator

/-! ## The atomic steps -/

/-- Where a `try_reserve` call is: at the head of its loop, before the compare-exchange of `current` with `next`,
returned `None`, returned a guard, or that guard dropped. -/
inductive ReservePc
  | load
  | cas (current next : UInt64)
  | refused
  | granted
  | dropped
  deriving DecidableEq

/-- One call of `try_reserve(rate)` and the guard it may return. -/
structure ReserveCall where
  rate : UInt64
  pc : ReservePc
  deriving DecidableEq

inductive ReserveStep
  | load
  | casOk
  | casFail
  | fetchSub
  deriving DecidableEq

/-- What a call does between its load and its next atomic step. -/
def afterLoad (limit rate current : UInt64) : ReservePc :=
  match checkedAdd current rate with
  | none => .refused
  | some next => if limit < next then .refused else .cas current next

/-- The atomic steps of one call on the shared counter. -/
inductive ReserveAct (limit : UInt64) : UInt64 → ReserveCall → ReserveStep → UInt64 → ReserveCall → Prop
  | load {c rate : UInt64} : ReserveAct limit c ⟨rate, .load⟩ .load c ⟨rate, afterLoad limit rate c⟩
  | casOk {c next rate : UInt64} : ReserveAct limit c ⟨rate, .cas c next⟩ .casOk next ⟨rate, .granted⟩
  -- a weak compare-exchange may fail although the counter still holds `current`
  | casFail {c current next rate : UInt64} : ReserveAct limit c ⟨rate, .cas current next⟩ .casFail c ⟨rate, .load⟩
  | fetchSub {c rate : UInt64} : ReserveAct limit c ⟨rate, .granted⟩ .fetchSub (c - rate) ⟨rate, .dropped⟩

/-- A call starts at the head of its loop. -/
def ReserveStart (t : ReserveCall) : Prop := t.pc = .load

/-- Interleavings of any number of calls on one counter. -/
abbrev ReservePoolStep (limit : UInt64) := Pool.Step ReserveStart (ReserveAct limit)

/-- A new allocator: the counter is zero and no call has started. -/
def reserveInit : Pool UInt64 ReserveCall := ⟨0, []⟩

/-- The rate a call holds: that of its guard until it is dropped. -/
def ReserveCall.held (t : ReserveCall) : Nat := if t.pc = .granted then t.rate.toNat else 0

/-- A pending compare-exchange was prepared by a load that left room for the rate. -/
def ReserveCall.Prepared (limit : UInt64) (t : ReserveCall) : Prop :=
  ∀ current next, t.pc = .cas current next → next.toNat = current.toNat + t.rate.toNat ∧ next ≤ limit

/-- The counter is the sum of the granted rates and within the ceiling, and the pending calls are prepared. -/
structure ReserveInv (limit : UInt64) (p : Pool UInt64 ReserveCall) : Prop where
  sum : p.shared.toNat = Pool.total ReserveCall.held p.tasks
  ceiling : p.shared ≤ limit
  prepared : ∀ t ∈ p.tasks, t.Prepared limit

section Invariant

variable {limit : UInt64}

theorem prepared_afterLoad (rate c : UInt64) : ReserveCall.Prepared limit ⟨rate, afterLoad limit rate c⟩ := by
  intro current next h
  simp only [afterLoad] at h
  cases hadd : checkedAdd c rate with
  | none => rw [hadd] at h; cases h
  | some n =>
    rw [hadd] at h
    dsimp only at h
    split_ifs at h with hlt
    cases h
    exact ⟨checkedAdd_some hadd, UInt64.not_lt.mp hlt⟩

/-- A refusal after a load means that the rate did not fit. -/
theorem afterLoad_refused {rate c : UInt64} (h : afterLoad limit rate c = .refused) :
    limit.toNat < c.toNat + rate.toNat := by
  unfold afterLoad at h
  cases hadd : checkedAdd c rate with
  | none =>
    have := checkedAdd_none hadd
    have := limit.toNat_lt
    omega
  | some n =>
    rw [hadd] at h
    dsimp only at h
    split_ifs at h with hlt
    rw [← checkedAdd_some hadd]
    exact UInt64.lt_iff_toNat_lt.mp hlt

theorem afterLoad_ne_granted (rate c : UInt64) : afterLoad limit rate c ≠ .granted := by
  unfold afterLoad
  split
  · simp
  · split_ifs <;> simp

/-- What an atomic step does to the counter, by what the call holds. -/
theorem reserveAct_effect {c c' : UInt64} {t t' : ReserveCall} {l : ReserveStep} (h : ReserveAct limit c t l c' t')
    (hc : c ≤ limit) (hp : t.Prepared limit) (hheld : t.held ≤ c.toNat) :
    c'.toNat + t.held = c.toNat + t'.held ∧ c' ≤ limit ∧ t'.Prepared limit := by
  cases h with
  | load =>
    refine ⟨?_, hc, prepared_afterLoad _ c⟩
    simp [ReserveCall.held, afterLoad_ne_granted]
  | casOk =>
    obtain ⟨hsum, hle⟩ := hp _ _ rfl
    refine ⟨?_, hle, fun _ _ h => by cases h⟩
    simp [ReserveCall.held, hsum]
  | casFail => exact ⟨by simp [ReserveCall.held], hc, fun _ _ h => by cases h⟩
  | fetchSub =>
    rename_i rate
    have hle : rate ≤ c := by
      rw [UInt64.le_iff_toNat_le]; simpa [ReserveCall.held] using hheld
    have hsub : (c - rate).toNat = c.toNat - rate.toNat := UInt64.toNat_sub_of_le _ _ hle
    refine ⟨?_, ?_, fun _ _ h => by cases h⟩
    · have := UInt64.le_iff_toNat_le.mp hle
      simp only [ReserveCall.held, if_true, reduceCtorEq, if_false, hsub]
      omega
    · have := UInt64.le_iff_toNat_le.mp hc
      rw [UInt64.le_iff_toNat_le, hsub]
      omega

theorem reserveInv_init : ReserveInv limit reserveInit :=
  ⟨rfl, UInt64.le_iff_toNat_le.mpr (Nat.zero_le _), fun _ ht => by cases ht⟩

/-- One step of an interleaving keeps the invariant. -/
theorem reserveInv_step {p p' : Pool UInt64 ReserveCall} {l : Pool.Label ReserveCall ReserveStep}
    (hp : ReserveInv limit p) (h : ReservePoolStep limit p l p') : ReserveInv limit p' := by
  cases h with
  | @start t ht =>
    refine ⟨?_, hp.ceiling, fun u hu => ?_⟩
    · have h0 : t.held = 0 := by simp [ReserveCall.held, show t.pc = .load from ht]
      rw [Pool.total_append, h0]; exact hp.sum
    · rcases List.mem_append.mp hu with hu | hu
      · exact hp.prepared u hu
      · rw [List.mem_singleton.mp hu]
        intro current next h
        rw [show t.pc = .load from ht] at h; cases h
  | @act i t t' l s' hi ha =>
    have ht : t ∈ p.tasks := List.mem_of_getElem? hi
    have hheld : t.held ≤ p.shared.toNat := by rw [hp.sum]; exact Pool.le_total _ ht
    obtain ⟨hsum, hle, hprep⟩ := reserveAct_effect ha hp.ceiling (hp.prepared t ht) hheld
    refine ⟨?_, hle, fun u hu => ?_⟩
    · have := Pool.total_set ReserveCall.held t' hi
      have := hp.sum
      simp only
      omega
    · rcases List.mem_or_eq_of_mem_set hu with hu | rfl
      · exact hp.prepared u hu
      · exact hprep

theorem reserveInv_run {ls : List (Pool.Label ReserveCall ReserveStep)} {p : Pool UInt64 ReserveCall}
    (h : Run (ReservePoolStep limit) reserveInit ls p) : ReserveInv limit p :=
  h.inv (fun _ _ _ hp hst => reserveInv_step hp hst) reserveInv_init

end Invariant

/-! ## Refusals -/

/-- In the run `ls`, the last load of call `i` found the counter at `c`. -/
def LastLoad (limit : UInt64) (ls : List (Pool.Label ReserveCall ReserveStep)) (i : Nat) (c : UInt64) : Prop :=
  ∃ ls₁ ls₂ q, ls = ls₁ ++ .act i .load :: ls₂ ∧ Pool.Label.act i .load ∉ ls₂ ∧
    Run (ReservePoolStep limit) reserveInit ls₁ q ∧ q.shared = c

theorem LastLoad.snoc {limit c : UInt64} {ls : List (Pool.Label ReserveCall ReserveStep)} {i : Nat}
    {l : Pool.Label ReserveCall ReserveStep} (h : LastLoad limit ls i c) (hl : l ≠ .act i .load) :
    LastLoad limit (ls ++ [l]) i c := by
  obtain ⟨ls₁, ls₂, q, rfl, hno, hrun, hq⟩ := h
  refine ⟨ls₁, ls₂ ++ [l], q, by simp, ?_, hrun, hq⟩
  simp only [List.mem_append, List.mem_singleton, not_or]
  exact ⟨hno, fun e => hl e.symm⟩

/-- Every call that returned `None` did so on what its last load found. -/
theorem refused_lastLoad {limit : UInt64} {ls : List (Pool.Label ReserveCall ReserveStep)}
    {p : Pool UInt64 ReserveCall} (h : Run (ReservePoolStep limit) reserveInit ls p) :
    ∀ i t, p.tasks[i]? = some t → t.pc = .refused →
      ∃ c, LastLoad limit ls i c ∧ limit.toNat < c.toNat + t.rate.toNat := by
  refine Run.snoc_induction (P := fun ls p => ∀ i t, p.tasks[i]? = some t → t.pc = .refused →
    ∃ c, LastLoad limit ls i c ∧ limit.toNat < c.toNat + t.rate.toNat) (fun i t hi => by simp [reserveInit] at hi)
    (fun ls q l q' hrun ih hst => ?_) h
  intro i t hi ht
  cases hst with
  | @start u hu =>
    rw [List.getElem?_append] at hi
    split_ifs at hi with hlt
    · obtain ⟨c, hc, hgt⟩ := ih i t hi ht
      exact ⟨c, hc.snoc (by simp), hgt⟩
    · -- the new call is at the head of its loop
      have : t = u := by
        rcases Nat.eq_zero_or_pos (i - q.tasks.length) with h0 | h0
        · rw [h0] at hi; simpa using hi.symm
        · rw [List.getElem?_eq_none (by rw [List.length_singleton]; exact h0)] at hi; cases hi
      rw [this, show u.pc = .load from hu] at ht; cases ht
  | @act j u u' l s' hj ha =>
    by_cases hij : j = i
    · subst hij
      have : t = u' := by
        have hlt : j < q.tasks.length := (List.getElem?_eq_some_iff.mp hj).1
        rw [List.getElem?_set_self hlt] at hi; exact (Option.some.inj hi).symm
      subst this
      cases ha with
      | load => exact ⟨q.shared, ⟨ls, [], q, rfl, by simp, hrun, rfl⟩, afterLoad_refused ht⟩
      | casOk => cases ht
      | casFail => cases ht
      | fetchSub => cases ht
    · rw [List.getElem?_set_ne hij] at hi
      obtain ⟨c, hc, hgt⟩ := ih i t hi ht
      exact ⟨c, hc.snoc (by simp [hij]), hgt⟩

/-- **Reservations under interference.** In every state of every interleaving of `try_reserve` calls and guard drops
on one counter: the counter is the sum of the rates of the guards granted and not yet dropped, and at most the
ceiling; a guard's `fetch_sub` never wraps; and a call returned `None` only if at its last load the counter plus its
rate exceeded the ceiling. -/
theorem reserve_interleaved (limit : UInt64) (ls : List (Pool.Label ReserveCall ReserveStep))
    (p : Pool UInt64 ReserveCall) (h : Run (ReservePoolStep limit) reserveInit ls p) :
    p.shared.toNat = Pool.total ReserveCall.held p.tasks ∧ p.shared ≤ limit ∧
      (∀ t ∈ p.tasks, t.pc = .granted → (p.shared - t.rate).toNat = p.shared.toNat - t.rate.toNat ∧
        t.rate ≤ p.shared) ∧
      ∀ i t, p.tasks[i]? = some t → t.pc = .refused →
        ∃ c, LastLoad limit ls i c ∧ limit.toNat < c.toNat + t.rate.toNat := by
  have hinv := reserveInv_run h
  refine ⟨hinv.sum, hinv.ceiling, fun t ht hg => ?_, refused_lastLoad h⟩
  have hle : t.rate ≤ p.shared := by
    have := Pool.le_total ReserveCall.held ht
    rw [UInt64.le_iff_toNat_le, hinv.sum]
    simpa [ReserveCall.held, hg] using this
  exact ⟨UInt64.toNat_sub_of_le _ _ hle, hle⟩

/-- Two callers load an idle counter that has room for only one of them; the loser's exchange fails and its second
load refuses it. -/
def contended : List (Pool.Label ReserveCall ReserveStep) :=
  [.start ⟨7, .load⟩, .start ⟨5, .load⟩, .act 0 .load, .act 1 .load, .act 0 .casOk, .act 1 .casFail, .act 1 .load]

theorem contended_run : Run (ReservePoolStep 10) reserveInit contended ⟨7, [⟨7, .granted⟩, ⟨5, .refused⟩]⟩ :=
  .cons (.start rfl) <| .cons (.start rfl) <| .cons (.act rfl .load) <| .cons (.act rfl .load) <|
    .cons (.act rfl .casOk) <| .cons (.act rfl .casFail) <| .cons (.act rfl .load) (.nil _)

theorem reserve_interleaved_contended :
    Pool.total ReserveCall.held [⟨7, .granted⟩, ⟨5, .refused⟩] = 7 ∧
      ∃ c, LastLoad 10 contended 1 c ∧ (10 : UInt64).toNat < c.toNat + (5 : UInt64).toNat :=
  ⟨(reserve_interleaved 10 contended _ contended_run).1.symm,
    (reserve_interleaved 10 contended _ contended_run).2.2.2 1 _ rfl rfl⟩

end RustProxy.ControlPlane
