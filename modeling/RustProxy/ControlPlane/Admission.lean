import RustProxy.ControlPlane.Service

/-!
# Admission by reserved bandwidth

`select_with_bandwidth` together with the guards its callers hold: sequences of service calls and guard drops.

The allocator of a node is created by the first selection that reaches it and keeps the limit it was created with. Its
counter is always the sum of the rates of the outstanding guards, and within that limit (`Booked`). From this

* what is outstanding for a node that is selected is within its registered limit, if no registration lowers the limit
  below that of an allocator (`reservations_within_limit`; `loweredLimit` is one that does);
* the outstanding guards of a node that is registered once stay within its connection slots exactly if the quotient
  `L / m` is larger than the remainder, or zero (`slots_respected_iff`).
-/

namespace RustProxy.ControlPlane

open Lib

/-! ## Sequences of calls and drops -/

/-- The store and the guards that have been granted and not yet dropped. -/
structure Admission where
  store : Store
  guards : List BandwidthGuard

def Admission.empty : Admission := ⟨.empty, []⟩

inductive AdmissionAct
  | call (now : DateTime) (c : Call)
  /-- The holder of the guard with this index drops it. -/
  | drop (i : Nat)
  deriving DecidableEq

/-- The guard that a call returned. -/
def grantedGuard : Except Error Outcome → Option BandwidthGuard
  | .ok (.selected (some sel)) => some sel.guard
  | _ => none

/-- `Drop for BandwidthGuard`. The guard has a clone of the allocator that the store keeps for its node. -/
def Store.release (s : Store) (g : BandwidthGuard) : Store :=
  match s.allocators g.nodeId with
  | some a => s.setAllocator g.nodeId (a.release g.rate)
  | none => s

namespace Admission

def exec (svc : ControlPlaneService) (st : Admission) : AdmissionAct → Admission
  | .call now c =>
    let r := c.run svc now st.store
    ⟨r.2, (grantedGuard r.1).toList ++ st.guards⟩
  | .drop i =>
    match st.guards[i]? with
    | some g => ⟨st.store.release g, st.guards.eraseIdx i⟩
    | none => st

def runActs (svc : ControlPlaneService) (st : Admission) (acts : List AdmissionAct) : Admission :=
  acts.foldl (exec svc) st

theorem runActs_snoc (svc : ControlPlaneService) (st : Admission) (acts : List AdmissionAct) (a : AdmissionAct) :
    st.runActs svc (acts ++ [a]) = (st.runActs svc acts).exec svc a := by
  simp [runActs]

end Admission

/-- What a guard holds of a node. -/
def BandwidthGuard.rateFor (id : String) (g : BandwidthGuard) : Nat := if g.nodeId = id then g.rate.toNat else 0

/-- The sum of the rates outstanding for a node. -/
def heldRate (id : String) (gs : List BandwidthGuard) : Nat := (gs.map (BandwidthGuard.rateFor id)).sum

/-- The number of guards outstanding for a node. -/
def outstanding (id : String) (gs : List BandwidthGuard) : Nat := gs.countP fun g => g.nodeId = id

/-! ## What calls do to allocators and guards -/

/-- `n` is what the row of its id decodes to. -/
def Store.Registers (s : Store) (n : Node) : Prop := ∃ row, s.registry.find? n.id = some row ∧ Decodes row n

/-- The reservation tried for a candidate. -/
def reserveFor (n : Node) : Op := .reserve n.id n.bandwidthLimit (ControlPlaneService.share n)

/-- The guard in the answer of `reserveLoop`. -/
def loopGuard : Except Error (Option SelectedNode) → Option BandwidthGuard
  | .ok (some sel) => some sel.guard
  | _ => none

section Rules

variable {svc : ControlPlaneService} {now : DateTime} {I : Store → List BandwidthGuard → Prop}

/-- Only a reservation changes an allocator. -/
theorem Op.allocators_exec {o : Op} (ho : ∀ nodeId limit rate, o ≠ .reserve nodeId limit rate) (s : Store) :
    (o.exec now s).2.allocators = s.allocators := by
  cases o with
  | reserve nodeId limit rate => exact absurd rfl (ho nodeId limit rate)
  | _ => rfl

/-- A reservation leaves the registry. -/
theorem reserveFor_registry (n : Node) (s : Store) : ((reserveFor n).exec now s).2.registry = s.registry := by
  simp only [reserveFor, Op.exec]
  cases (s.allocator n.id n.bandwidthLimit).tryReserve (ControlPlaneService.share n) <;> rfl

/-- The answer of a reservation and the store it leaves. -/
inductive ReserveOutcome (n : Node) (s : Store) : Option BandwidthGuard × Store → Prop
  | refused : (s.allocator n.id n.bandwidthLimit).limit.toNat <
        (s.allocator n.id n.bandwidthLimit).reserved.toNat + (ControlPlaneService.share n).toNat →
      ReserveOutcome n s (none, s.setAllocator n.id (s.allocator n.id n.bandwidthLimit))
  | granted {a : BandwidthAllocator} : a.limit = (s.allocator n.id n.bandwidthLimit).limit →
      a.reserved.toNat =
        (s.allocator n.id n.bandwidthLimit).reserved.toNat + (ControlPlaneService.share n).toNat →
      a.reserved ≤ a.limit →
      ReserveOutcome n s (some ⟨n.id, ControlPlaneService.share n⟩, s.setAllocator n.id a)

/-- **What a reservation does.** -/
theorem reserveFor_outcome (now : DateTime) (n : Node) (s : Store) :
    ReserveOutcome n s ((reserveFor n).exec now s) := by
  simp only [reserveFor, Op.exec]
  cases htry : (s.allocator n.id n.bandwidthLimit).tryReserve (ControlPlaneService.share n) with
  | none => exact .refused (BandwidthAllocator.tryReserve_none htry)
  | some a =>
    obtain ⟨hlimit, hcount, hle⟩ := BandwidthAllocator.tryReserve_some htry
    exact .granted hlimit hcount (hlimit ▸ hle)

theorem run_reserveLoop_cons (n : Node) (nodes : List Node) (s : Store) :
    (ControlPlaneService.reserveLoop (n :: nodes)).run (Op.exec now) s = match (reserveFor n).exec now s with
      | (some g, s') => (.ok (some ⟨n, g⟩), s')
      | (none, s') => (ControlPlaneService.reserveLoop nodes).run (Op.exec now) s' := by
  rw [ControlPlaneService.reserveLoop, tryReserve, Prog.bind_eq, Prog.op_bind, Prog.run_op]
  change Prog.run (Op.exec now) (Prog.bind (.ret ((reserveFor n).exec now s).1) _) ((reserveFor n).exec now s).2 = _
  generalize (reserveFor n).exec now s = r
  obtain ⟨a, s'⟩ := r
  cases a <;> rfl

/-- A property kept by each single reservation is kept by the loop over the candidates. -/
theorem reserveLoop_inv {nodes : List Node}
    (hstep : ∀ n ∈ nodes, ∀ s gs, I s gs →
      I ((reserveFor n).exec now s).2 (((reserveFor n).exec now s).1.toList ++ gs))
    {s : Store} (gs : List BandwidthGuard) (hs : I s gs) :
    I ((ControlPlaneService.reserveLoop nodes).run (Op.exec now) s).2
      ((loopGuard ((ControlPlaneService.reserveLoop nodes).run (Op.exec now) s).1).toList ++ gs) := by
  induction nodes generalizing s with
  | nil => exact hs
  | cons n nodes ih =>
    have hn := hstep n List.mem_cons_self s gs hs
    rw [run_reserveLoop_cons]
    generalize (reserveFor n).exec now s = r at hn ⊢
    obtain ⟨a, s'⟩ := r
    cases a with
    | none => exact ih (fun m hm => hstep m (List.mem_cons_of_mem n hm)) hn
    | some g => exact hn

theorem reserveLoop_registry (nodes : List Node) (s : Store) :
    ((ControlPlaneService.reserveLoop nodes).run (Op.exec now) s).2.registry = s.registry :=
  reserveLoop_inv (I := fun s' _ => s'.registry = s.registry)
    (fun n _ s' _ hs' => (reserveFor_registry n s').trans hs') [] rfl

/-- The loop selects one of the candidates, with a guard for its share. -/
theorem reserveLoop_selected {nodes : List Node} {s : Store} {sel : SelectedNode}
    (h : ((ControlPlaneService.reserveLoop nodes).run (Op.exec now) s).1 = .ok (some sel)) :
    sel.node ∈ nodes ∧ sel.guard = ⟨sel.node.id, ControlPlaneService.share sel.node⟩ := by
  induction nodes generalizing s with
  | nil => cases h
  | cons n nodes ih =>
    rw [run_reserveLoop_cons] at h
    have hout := reserveFor_outcome now n s
    generalize (reserveFor n).exec now s = r at h hout
    cases hout with
    | refused _ =>
      obtain ⟨hmem, hguard⟩ := ih h
      exact ⟨List.mem_cons_of_mem n hmem, hguard⟩
    | granted _ _ _ =>
      cases h
      exact ⟨List.mem_cons_self, rfl⟩

/-- What a selection by bandwidth does: nothing if the table cannot be listed, and else the loop over the selectable
nodes by score. -/
theorem run_selectWithBandwidth (s : Store) :
    Call.run svc now .selectWithBandwidth s = match Registry.list s.registry with
      | .error e => (.error e, s)
      | .ok nodes =>
        let r := (ControlPlaneService.reserveLoop (sortByScore svc.weights (nodes.filter Node.isSelectable))).run
          (Op.exec now) s
        (r.1.map Outcome.selected, r.2) := by
  have hrun : Call.run svc now .selectWithBandwidth s =
      ((svc.selectWithBandwidth.run (Op.exec now) s).1.map Outcome.selected,
        (svc.selectWithBandwidth.run (Op.exec now) s).2) :=
    Prog.run_bind_ret svc.selectWithBandwidth Outcome.selected s
  have hlist : svc.selectWithBandwidth.run (Op.exec now) s =
      ((Prog.ofExcept (Registry.list s.registry)).bind fun nodes =>
        ControlPlaneService.reserveLoop (sortByScore svc.weights (nodes.filter Node.isSelectable))).run
          (Op.exec now) s := rfl
  rw [hrun, hlist]
  cases Registry.list s.registry <;> rfl

/-- Only a selection by bandwidth returns a guard. -/
theorem grantedGuard_run {c : Call} (hc : c ≠ .selectWithBandwidth) (s : Store) :
    grantedGuard (c.run svc now s).1 = none := by
  have hnone : ∀ {α : Type} (p : ServiceM α) (f : α → Outcome), (∀ a sel, f a ≠ .selected (some sel)) →
      grantedGuard ((p.bind fun a => .ret (f a)).run (Op.exec now) s).1 = none := by
    intro α p f hf
    rw [Prog.run_bind_ret]
    cases (p.run (Op.exec now) s).1 with
    | error e => rfl
    | ok a =>
      change grantedGuard (.ok (f a)) = none
      cases hfa : f a with
      | selected sel =>
        cases sel with
        | none => rfl
        | some sel => exact absurd hfa (hf a sel)
      | _ => rfl
  cases c with
  | selectWithBandwidth => exact absurd rfl hc
  | _ => exact hnone _ _ (fun _ _ h => by cases h)

/-- A selected node is registered, and still is after the selection. -/
theorem registers_of_selected {s : Store} {sel : SelectedNode}
    (h : (Call.run svc now .selectWithBandwidth s).1 = .ok (.selected (some sel))) :
    (Call.run svc now .selectWithBandwidth s).2.Registers sel.node := by
  rw [run_selectWithBandwidth] at h ⊢
  cases hlist : Registry.list s.registry with
  | error e => rw [hlist] at h; cases h
  | ok nodes =>
    rw [hlist] at h
    dsimp only at h ⊢
    have hout : ((ControlPlaneService.reserveLoop (sortByScore svc.weights (nodes.filter Node.isSelectable))).run
        (Op.exec now) s).1 = .ok (some sel) := by
      revert h
      cases ((ControlPlaneService.reserveLoop (sortByScore svc.weights (nodes.filter Node.isSelectable))).run
        (Op.exec now) s).1 with
      | error e => intro h; cases h
      | ok o => intro h; cases h; rfl
    have hmem := List.mem_of_mem_filter (mem_sortByScore.mp (reserveLoop_selected hout).1)
    obtain ⟨row, hrow, hdec⟩ := Registry.list_mem hlist hmem
    exact ⟨row, by rw [reserveLoop_registry]; exact hrow, Decodes.of_ok hdec⟩

/-- **The rule for calls**: what every operation but a reservation keeps for the guards at hand, and every reservation
for a registered node for the guards with the new one, every call keeps. -/
theorem Admission.exec_call_inv {c : Call} {st : Admission}
    (hop : ∀ o s, c.mayPerform o → (∀ nodeId limit rate, o ≠ .reserve nodeId limit rate) →
      s.allocators = st.store.allocators → I s st.guards → I (o.exec now s).2 st.guards)
    (hres : ∀ n s gs, s.Registers n → I s gs →
      I ((reserveFor n).exec now s).2 (((reserveFor n).exec now s).1.toList ++ gs))
    (h : I st.store st.guards) : I (st.exec svc (.call now c)).store (st.exec svc (.call now c)).guards := by
  by_cases hc : c = .selectWithBandwidth
  · subst hc
    simp only [Admission.exec]
    rw [run_selectWithBandwidth]
    cases hlist : Registry.list st.store.registry with
    | error e => exact h
    | ok nodes =>
      have hstep : ∀ n ∈ sortByScore svc.weights (nodes.filter Node.isSelectable), ∀ s gs,
          s.registry = st.store.registry ∧ I s gs → ((reserveFor n).exec now s).2.registry = st.store.registry ∧
            I ((reserveFor n).exec now s).2 (((reserveFor n).exec now s).1.toList ++ gs) := by
        rintro n hn s gs ⟨hreg, hs⟩
        obtain ⟨row, hrow, hdec⟩ := Registry.list_mem hlist (List.mem_of_mem_filter (mem_sortByScore.mp hn))
        have hn' : s.Registers n := ⟨row, by rw [hreg]; exact hrow, Decodes.of_ok hdec⟩
        exact ⟨(reserveFor_registry n s).trans hreg, hres n s gs hn' hs⟩
      have hloop := reserveLoop_inv (I := fun s gs => s.registry = st.store.registry ∧ I s gs) hstep st.guards ⟨rfl, h⟩
      dsimp only
      generalize (ControlPlaneService.reserveLoop (sortByScore svc.weights (nodes.filter Node.isSelectable))).run
        (Op.exec now) st.store = r at hloop ⊢
      obtain ⟨out, s'⟩ := r
      match out with
      | .error e => exact hloop.2
      | .ok none => exact hloop.2
      | .ok (some sel) => exact hloop.2
  · have hstate : (Call.run svc now c st.store).2.allocators = st.store.allocators ∧
        I (Call.run svc now c st.store).2 st.guards := by
      refine Call.run_inv svc (I := fun s => s.allocators = st.store.allocators ∧ I s st.guards) ?_ ⟨rfl, h⟩
      rintro o s ho ⟨halloc, hs⟩
      have hno : ∀ nodeId limit rate, o ≠ .reserve nodeId limit rate := by
        rintro nodeId limit rate rfl
        exact hc (Call.of_mayPerform ho)
      exact ⟨(Op.allocators_exec hno s).trans halloc, hop o s ho hno halloc hs⟩
    simp only [Admission.exec, grantedGuard_run hc]
    exact hstate.2

end Rules

/-! ## The books -/

/-- What the allocator of a node has handed out. -/
def Store.reservedFor (s : Store) (id : String) : Nat := ((s.allocators id).map fun a => a.reserved.toNat).getD 0

/-- Every counter is the sum of the outstanding rates, and within the limit of its allocator. -/
structure Booked (s : Store) (gs : List BandwidthGuard) : Prop where
  counted : ∀ id, s.reservedFor id = heldRate id gs
  within : ∀ id a, s.allocators id = some a → a.reserved ≤ a.limit

section Booked

variable {s : Store} {gs : List BandwidthGuard}

theorem booked_empty : Booked Admission.empty.store Admission.empty.guards :=
  ⟨fun _ => rfl, fun id a h => by cases h⟩

theorem heldRate_cons (id : String) (g : BandwidthGuard) (gs : List BandwidthGuard) :
    heldRate id (g :: gs) = g.rateFor id + heldRate id gs := by
  simp [heldRate]

theorem outstanding_cons (id : String) (g : BandwidthGuard) (gs : List BandwidthGuard) :
    outstanding id (g :: gs) = outstanding id gs + if g.nodeId = id then 1 else 0 := by
  simp [outstanding, List.countP_cons]

theorem heldRate_eraseIdx (id : String) {i : Nat} {g : BandwidthGuard} (h : gs[i]? = some g) :
    g.rateFor id + heldRate id (gs.eraseIdx i) = heldRate id gs := by
  obtain ⟨hi, rfl⟩ := List.getElem?_eq_some_iff.mp h
  have hperm := (List.getElem_cons_eraseIdx_perm hi).map (BandwidthGuard.rateFor id)
  rw [← heldRate_cons]
  exact hperm.sum_eq

theorem Booked.of_allocators_eq {s' : Store} (h : Booked s gs) (heq : s'.allocators = s.allocators) : Booked s' gs := by
  refine ⟨fun id => ?_, fun id a ha => h.within id a (heq ▸ ha)⟩
  rw [Store.reservedFor, heq]
  exact h.counted id

theorem Store.reservedFor_setAllocator (s : Store) (nodeId id : String) (a : BandwidthAllocator) :
    (s.setAllocator nodeId a).reservedFor id = if id = nodeId then a.reserved.toNat else s.reservedFor id := by
  simp only [Store.reservedFor, Store.setAllocator, Function.update_apply]
  split <;> rfl

theorem Store.allocators_setAllocator {s : Store} {nodeId id : String} {a b : BandwidthAllocator}
    (h : (s.setAllocator nodeId a).allocators id = some b) : (id = nodeId ∧ b = a) ∨ s.allocators id = some b := by
  simp only [Store.setAllocator, Function.update_apply] at h
  split at h
  · exact .inl ⟨‹_›, (Option.some.inj h).symm⟩
  · exact .inr h

/-- Replacing the allocator of a node keeps the books, if the new counter is what is then outstanding. -/
theorem Booked.setAllocator {gs' : List BandwidthGuard} {nodeId : String} {a : BandwidthAllocator} (h : Booked s gs)
    (hcount : a.reserved.toNat = heldRate nodeId gs') (hle : a.reserved ≤ a.limit)
    (hother : ∀ id, id ≠ nodeId → heldRate id gs' = heldRate id gs) : Booked (s.setAllocator nodeId a) gs' := by
  refine ⟨fun id => ?_, fun id b hb => ?_⟩
  · rw [Store.reservedFor_setAllocator]
    split
    · subst id; exact hcount
    · rw [hother id ‹_›]; exact h.counted id
  · rcases Store.allocators_setAllocator hb with ⟨_, rfl⟩ | hb
    · exact hle
    · exact h.within id b hb

/-- The allocator a reservation works on: the cached one, or a new one. -/
theorem Booked.allocator (h : Booked s gs) (nodeId : String) (limit : UInt64) :
    (s.allocator nodeId limit).reserved.toNat = heldRate nodeId gs ∧
      (s.allocator nodeId limit).reserved ≤ (s.allocator nodeId limit).limit := by
  have hcount := h.counted nodeId
  rw [Store.reservedFor] at hcount
  rw [Store.allocator]
  cases ha : s.allocators nodeId with
  | none =>
    rw [ha] at hcount
    exact ⟨hcount, UInt64.zero_le⟩
  | some a =>
    rw [ha] at hcount
    exact ⟨hcount, h.within nodeId a ha⟩

/-- A reservation keeps the books. -/
theorem Booked.reserve (h : Booked s gs) (now : DateTime) (n : Node) :
    Booked ((reserveFor n).exec now s).2 (((reserveFor n).exec now s).1.toList ++ gs) := by
  obtain ⟨hcount, hle⟩ := h.allocator n.id n.bandwidthLimit
  have hout := reserveFor_outcome now n s
  generalize (reserveFor n).exec now s = r at hout ⊢
  cases hout with
  | refused _ => exact h.setAllocator hcount hle fun _ _ => rfl
  | @granted a _ hnew hle' =>
    have hheld : ∀ id, heldRate id (⟨n.id, ControlPlaneService.share n⟩ :: gs) =
        BandwidthGuard.rateFor id ⟨n.id, ControlPlaneService.share n⟩ + heldRate id gs :=
      fun id => heldRate_cons id _ gs
    refine h.setAllocator ?_ hle' fun id hid => ?_
    · have hself : BandwidthGuard.rateFor n.id ⟨n.id, ControlPlaneService.share n⟩ =
          (ControlPlaneService.share n).toNat := if_pos rfl
      exact (hnew.trans (by rw [hcount, hself, Nat.add_comm])).trans (hheld n.id).symm
    · have hne : BandwidthGuard.rateFor id ⟨n.id, ControlPlaneService.share n⟩ = 0 := if_neg (Ne.symm hid)
      exact (hheld id).trans (by rw [hne, Nat.zero_add])

/-- A drop keeps the books; the subtraction does not wrap. -/
theorem Booked.drop (h : Booked s gs) {i : Nat} {g : BandwidthGuard} (hi : gs[i]? = some g) :
    Booked (s.release g) (gs.eraseIdx i) := by
  have hheld : ∀ id, g.rateFor id + heldRate id (gs.eraseIdx i) = heldRate id gs := fun id => heldRate_eraseIdx id hi
  have hself : g.rateFor g.nodeId = g.rate.toNat := if_pos rfl
  have hcount := h.counted g.nodeId
  have hnode := hheld g.nodeId
  rw [Store.reservedFor] at hcount
  rw [Store.release]
  cases ha : s.allocators g.nodeId with
  | none =>
    -- without an allocator nothing is outstanding
    rw [ha] at hcount
    refine ⟨fun id => ?_, h.within⟩
    have hzero : g.rateFor id = 0 := by
      by_cases hid : g.nodeId = id
      · rw [← hid]; change 0 = _ at hcount; omega
      · exact if_neg hid
    rw [h.counted, ← hheld id, hzero, Nat.zero_add]
  | some a =>
    rw [ha] at hcount
    change a.reserved.toNat = _ at hcount
    have hle : g.rate ≤ a.reserved := by rw [UInt64.le_iff_toNat_le]; omega
    have hsub : (a.release g.rate).reserved.toNat = a.reserved.toNat - g.rate.toNat := UInt64.toNat_sub_of_le _ _ hle
    refine h.setAllocator ?_ ?_ fun id hid => ?_
    · omega
    · have hwithin := UInt64.le_iff_toNat_le.mp (h.within _ a ha)
      rw [UInt64.le_iff_toNat_le, hsub]
      exact le_trans (Nat.sub_le _ _) hwithin
    · have hzero : g.rateFor id = 0 := if_neg (Ne.symm hid)
      have := hheld id
      omega

/-- One act keeps the books. -/
theorem Booked.exec {svc : ControlPlaneService} {st : Admission} (h : Booked st.store st.guards) (a : AdmissionAct) :
    Booked (st.exec svc a).store (st.exec svc a).guards := by
  cases a with
  | call now c =>
    refine Admission.exec_call_inv ?_ (fun n s gs _ hs => hs.reserve now n) h
    intro o s _ hno _ hs
    exact hs.of_allocators_eq (Op.allocators_exec hno s)
  | drop i =>
    simp only [Admission.exec]
    cases hi : st.guards[i]? with
    | none => exact h
    | some g => exact h.drop hi

theorem Booked.runActs {svc : ControlPlaneService} {st : Admission} (h : Booked st.store st.guards)
    (acts : List AdmissionAct) : Booked (st.runActs svc acts).store (st.runActs svc acts).guards := by
  induction acts generalizing st with
  | nil => exact h
  | cons a acts ih => exact ih (h.exec a)

end Booked

/-! ## The registered limit -/

/-- The columns of a node's slots and of its bandwidth limit. -/
def Store.capacity (s : Store) (id : String) : Option (Cell × Cell) :=
  (s.registry.find? id).map fun row => (row.maxConnections, row.bandwidthLimit)

/-- Only a registration changes the capacity of a node. -/
theorem Op.capacity_exec (o : Op) (now : DateTime) (s : Store) (id : String) :
    (o.exec now s).2.capacity id = s.capacity id ∨ ∃ req, o = .register req ∧ req.nodeId = id ∧
      (o.exec now s).2.capacity id = some (.ofU32 req.maxConnections, .ofU64 req.bandwidthLimit) := by
  simp only [Store.capacity]
  by_cases hw : o.writes = some id
  · rw [Op.find?_exec_self hw]
    cases o with
    | register req =>
      refine .inr ⟨req, rfl, Option.some.inj hw, ?_⟩
      cases s.registry.find? id <;> rfl
    | _ => left; cases s.registry.find? id <;> rfl
  · rw [Op.find?_exec_of_ne hw]
    exact .inl rfl

/-- A registered node has the capacity in its row. -/
theorem Store.Registers.capacity {s : Store} {n : Node} (h : s.Registers n) :
    ∃ v w, s.capacity n.id = some (.integer v, .integer w) ∧ v.toUInt64.toUInt32 = n.maxConnections ∧
      w.toUInt64 = n.bandwidthLimit := by
  obtain ⟨row, hrow, hdec⟩ := h
  obtain ⟨v, hv, hmax⟩ := hdec.maxConnections
  obtain ⟨w, hw, hlimit⟩ := hdec.bandwidthLimit
  exact ⟨v, w, by rw [Store.capacity, hrow, Option.map_some, hv, hw], hmax, hlimit⟩

/-- After a reservation an allocator is the old one, or that of the node, with the limit it had or got. -/
theorem limit_of_reserve {now : DateTime} {n : Node} {s : Store} {id : String} {b : BandwidthAllocator}
    (h : ((reserveFor n).exec now s).2.allocators id = some b) :
    (id = n.id ∧ b.limit = (s.allocator n.id n.bandwidthLimit).limit) ∨ s.allocators id = some b := by
  have hout := reserveFor_outcome now n s
  generalize (reserveFor n).exec now s = r at h hout
  cases hout with
  | refused _ =>
    rcases Store.allocators_setAllocator h with ⟨hid, rfl⟩ | h
    · exact .inl ⟨hid, rfl⟩
    · exact .inr h
  | granted hlimit _ _ =>
    rcases Store.allocators_setAllocator h with ⟨hid, rfl⟩ | h
    · exact .inl ⟨hid, hlimit⟩
    · exact .inr h

/-- A drop leaves the limits. -/
theorem limit_of_release {s : Store} {g : BandwidthGuard} {id : String} {b : BandwidthAllocator}
    (h : (s.release g).allocators id = some b) : ∃ a, s.allocators id = some a ∧ b.limit = a.limit := by
  simp only [Store.release] at h
  cases ha : s.allocators g.nodeId with
  | none => rw [ha] at h; exact ⟨b, h, rfl⟩
  | some a =>
    rw [ha] at h
    rcases Store.allocators_setAllocator h with ⟨rfl, rfl⟩ | h
    · exact ⟨a, ha, rfl⟩
    · exact ⟨b, h, rfl⟩

theorem capacity_reserve {now : DateTime} (n : Node) (s : Store) (id : String) :
    ((reserveFor n).exec now s).2.capacity id = s.capacity id := by
  rw [Store.capacity, reserveFor_registry]; rfl

theorem capacity_release (s : Store) (g : BandwidthGuard) (id : String) :
    (s.release g).capacity id = s.capacity id := by
  simp only [Store.release]; split <;> rfl

/-- The allocators have limits within those registered for their nodes. -/
def LimitsRegistered (s : Store) : Prop :=
  ∀ id a, s.allocators id = some a → ∃ c w, s.capacity id = some (c, .integer w) ∧ a.limit ≤ w.toUInt64

/-- A registration does not set a limit below that of an allocator that exists for the node. -/
def LimitKept (st : Admission) : AdmissionAct → Prop
  | .call _ (.register req) => ∀ a, st.store.allocators req.nodeId = some a → a.limit ≤ req.bandwidthLimit
  | _ => True

/-- No registration of the sequence does. -/
def LimitsKept (svc : ControlPlaneService) : Admission → List AdmissionAct → Prop
  | _, [] => True
  | st, a :: acts => LimitKept st a ∧ LimitsKept svc (st.exec svc a) acts

section Limits

variable {svc : ControlPlaneService}

/-- A reservation for a registered node leaves limits that are registered. -/
theorem LimitsRegistered.reserve {s : Store} (h : LimitsRegistered s) (now : DateTime) {n : Node} (hn : s.Registers n) :
    LimitsRegistered ((reserveFor n).exec now s).2 := by
  intro id b hb
  rw [capacity_reserve]
  rcases limit_of_reserve hb with ⟨rfl, hlimit⟩ | hb
  · rw [hlimit, Store.allocator]
    cases ha : s.allocators n.id with
    | none =>
      obtain ⟨v, w, hcap, _, hw⟩ := hn.capacity
      exact ⟨_, w, hcap, hw ▸ UInt64.le_refl _⟩
    | some a => exact h n.id a ha
  · exact h id b hb

/-- One act keeps the limits registered, if a registration keeps them. -/
theorem LimitsRegistered.exec {st : Admission} (h : LimitsRegistered st.store) {a : AdmissionAct}
    (ha : LimitKept st a) : LimitsRegistered (st.exec svc a).store := by
  cases a with
  | call now c =>
    refine Admission.exec_call_inv (I := fun s _ => LimitsRegistered s) ?_ (fun n s _ hn hs => hs.reserve now hn) h
    intro o s ho hno halloc hs id a hid
    rw [Op.allocators_exec hno] at hid
    rcases Op.capacity_exec o now s id with hsame | ⟨req, rfl, rfl, hnew⟩
    · rw [hsame]; exact hs id a hid
    · have hkept : a.limit ≤ req.bandwidthLimit := by
        obtain rfl : c = .register req := Call.of_mayPerform ho
        exact ha a (halloc ▸ hid)
      exact ⟨_, _, hnew, by rw [toInt64_toUInt64]; exact hkept⟩
  | drop i =>
    simp only [Admission.exec]
    cases st.guards[i]? with
    | none => exact h
    | some g =>
      intro id b hb
      obtain ⟨a, ha, hlimit⟩ := limit_of_release hb
      rw [capacity_release, hlimit]
      exact h id a ha

theorem LimitsRegistered.runActs {st : Admission} (h : LimitsRegistered st.store) {acts : List AdmissionAct}
    (hkept : LimitsKept svc st acts) : LimitsRegistered (st.runActs svc acts).store := by
  induction acts generalizing st with
  | nil => exact h
  | cons a acts ih => exact ih (h.exec hkept.1) hkept.2

/-- **Reservations stay within the registered limit.** If no registration lowered a limit below that of an allocator,
then whenever a node is selected, the rates of all guards outstanding for it are within its registered limit. -/
theorem reservations_within_limit {acts : List AdmissionAct} {now : DateTime} {n : Node} {g : BandwidthGuard}
    (hkept : LimitsKept svc .empty acts)
    (hsel : (Call.run svc now .selectWithBandwidth (Admission.empty.runActs svc acts).store).1 =
      .ok (.selected (some ⟨n, g⟩))) :
    (Admission.empty.runActs svc (acts ++ [.call now .selectWithBandwidth])).store.Registers n ∧
      heldRate n.id (Admission.empty.runActs svc (acts ++ [.call now .selectWithBandwidth])).guards ≤
        n.bandwidthLimit.toNat := by
  have hempty : LimitsRegistered Admission.empty.store := fun id a h => by cases h
  have hlimits := hempty.runActs hkept
  rw [Admission.runActs_snoc]
  -- the state after the selection
  have hbooked' : Booked ((Admission.empty.runActs svc acts).exec svc (.call now .selectWithBandwidth)).store
      ((Admission.empty.runActs svc acts).exec svc (.call now .selectWithBandwidth)).guards :=
    (booked_empty.runActs acts).exec _
  have hlimits' : LimitsRegistered
      ((Admission.empty.runActs svc acts).exec svc (.call now .selectWithBandwidth)).store := hlimits.exec trivial
  have hreg := registers_of_selected hsel
  refine ⟨hreg, ?_⟩
  rw [← hbooked'.counted n.id, Store.reservedFor]
  cases ha : ((Admission.empty.runActs svc acts).exec svc (.call now .selectWithBandwidth)).store.allocators n.id with
  | none => exact Nat.zero_le _
  | some a =>
    obtain ⟨_, w, hcap, hle⟩ := hlimits' n.id a ha
    obtain ⟨_, w', hcap', _, hw'⟩ := Store.Registers.capacity hreg
    have hww : w = w' := by
      have heq := hcap.symm.trans hcap'
      simp only [Option.some.injEq, Prod.mk.injEq, Cell.integer.injEq] at heq
      exact heq.2
    have hres := UInt64.le_iff_toNat_le.mp (hbooked'.within n.id a ha)
    have hlim := UInt64.le_iff_toNat_le.mp hle
    rw [← hw', ← hww]
    exact le_trans hres hlim

/-- The id and the limit of the node that a call selected. -/
def selectedLimit : Except Error Outcome → Option (String × UInt64)
  | .ok (.selected (some sel)) => some (sel.node.id, sel.node.bandwidthLimit)
  | _ => none

theorem selected_of_selectedLimit {out : Except Error Outcome} {id : String} {limit : UInt64}
    (h : selectedLimit out = some (id, limit)) :
    ∃ n g, out = .ok (.selected (some ⟨n, g⟩)) ∧ n.id = id ∧ n.bandwidthLimit = limit := by
  unfold selectedLimit at h
  split at h
  · cases h; exact ⟨_, _, rfl, rfl, rfl⟩
  · cases h

/-- A node with two slots and a limit of 100 is alive, and one slice of 50 is reserved. -/
def twoSlots : List AdmissionAct :=
  [.call (.ofSecond 0) (.register ⟨"n1", "10.0.0.1:1080", 2, 100⟩),
   .call (.ofSecond 1) (.heartbeat ⟨"n1", 0, 0, 0, 0, 100⟩), .call (.ofSecond 2) .selectWithBandwidth]

/-- The second slice fits. -/
theorem reservations_within_limit_twoSlots :
    ∃ n : Node, n.bandwidthLimit = 100 ∧
      heldRate n.id (Admission.empty.runActs (.new .default)
        (twoSlots ++ [.call (.ofSecond 3) .selectWithBandwidth])).guards ≤ n.bandwidthLimit.toNat := by
  have hsel : selectedLimit (Call.run (.new .default) (.ofSecond 3) .selectWithBandwidth
      (Admission.empty.runActs (.new .default) twoSlots).store).1 = some ("n1", 100) := by decide +kernel
  obtain ⟨n, g, hout, -, hlimit⟩ := selected_of_selectedLimit hsel
  have hkept : LimitsKept (.new .default) .empty twoSlots := ⟨fun a h => (by cases h), trivial, trivial, trivial⟩
  exact ⟨n, hlimit, (reservations_within_limit hkept hout).2⟩

/-- The node registers again with a limit of 60; the allocator of 100 grants another slice, now of 30. -/
theorem loweredLimit :
    ∃ n g, (Call.run (.new .default) (.ofSecond 4) .selectWithBandwidth (Admission.empty.runActs (.new .default)
        (twoSlots ++ [.call (.ofSecond 3) (.register ⟨"n1", "10.0.0.1:1080", 2, 60⟩)])).store).1 =
          .ok (.selected (some ⟨n, g⟩)) ∧
      n.bandwidthLimit.toNat < heldRate n.id (Admission.empty.runActs (.new .default)
        (twoSlots ++ [.call (.ofSecond 3) (.register ⟨"n1", "10.0.0.1:1080", 2, 60⟩),
          .call (.ofSecond 4) .selectWithBandwidth])).guards := by
  have hsel : selectedLimit (Call.run (.new .default) (.ofSecond 4) .selectWithBandwidth
      (Admission.empty.runActs (.new .default)
        (twoSlots ++ [.call (.ofSecond 3) (.register ⟨"n1", "10.0.0.1:1080", 2, 60⟩)])).store).1 =
      some ("n1", 60) := by decide +kernel
  obtain ⟨n, g, hout, hid, hlimit⟩ := selected_of_selectedLimit hsel
  refine ⟨n, g, hout, ?_⟩
  rw [hid, hlimit]
  decide +kernel

end Limits

/-! ## Connection slots -/

/-- The slice of a node with `m` slots and the limit `l`. -/
def slice (m : UInt32) (l : UInt64) : UInt64 := max (l / (max m 1).toUInt64) 1

theorem slice_toNat {m : UInt32} (hm : 1 ≤ m.toNat) (l : UInt64) :
    (slice m l).toNat = max (l.toNat / m.toNat) 1 := by
  have hmax : max m 1 = m := by
    change (if m ≤ 1 then 1 else m) = m
    split
    · rename_i h
      have hle : m.toNat ≤ 1 := UInt32.le_iff_toNat_le.mp h
      exact UInt32.toNat_inj.mp (le_antisymm hm hle)
    · rfl
  have hdiv : (l / m.toUInt64).toNat = l.toNat / m.toNat := by
    rw [UInt64.toNat_div, UInt32.toNat_toUInt64]
  have hle : l / m.toUInt64 ≤ 1 ↔ l.toNat / m.toNat ≤ 1 := by
    rw [UInt64.le_iff_toNat_le, hdiv, UInt64.toNat_one]
  rw [slice, hmax]
  change (if l / m.toUInt64 ≤ 1 then 1 else l / m.toUInt64).toNat = _
  split <;> rename_i h
  · rw [max_eq_right (hle.mp h)]; rfl
  · have hlt : ¬ l.toNat / m.toNat ≤ 1 := fun h' => h (hle.mpr h')
    rw [max_eq_left (by omega), hdiv]

/-- How many slices fit into the limit: at most `m` exactly if the limit is below `m` or leaves a remainder below the
slice. -/
theorem slices_le_iff {m l : Nat} (hm : 1 ≤ m) :
    l / max (l / m) 1 ≤ m ↔ l < m ∨ l % m < l / m := by
  by_cases hlt : l < m
  · have hq : l / m = 0 := Nat.div_eq_of_lt hlt
    have hmax : max (l / m) 1 = 1 := by rw [hq]; rfl
    rw [hmax, Nat.div_one]
    exact ⟨fun _ => .inl hlt, fun _ => hlt.le⟩
  · have hq : 1 ≤ l / m := (Nat.one_le_div_iff (by omega)).mpr (by omega)
    have hdec : m * (l / m) + l % m = l := Nat.div_add_mod l m
    have hmul : (m + 1) * (l / m) = m * (l / m) + l / m := Nat.succ_mul m (l / m)
    rw [max_eq_left hq, ← Nat.lt_succ_iff, Nat.div_lt_iff_lt_mul (by omega), Nat.succ_eq_add_one, hmul]
    omega

/-- At least `min m l` slices always fit. -/
theorem min_le_slices {m l : Nat} (hm : 1 ≤ m) : min m l ≤ l / max (l / m) 1 := by
  by_cases hlt : l < m
  · have hmax : max (l / m) 1 = 1 := by rw [Nat.div_eq_of_lt hlt]; rfl
    rw [hmax, Nat.div_one]
    exact min_le_right m l
  · have hq : 1 ≤ l / m := (Nat.one_le_div_iff (by omega)).mpr (by omega)
    rw [max_eq_left hq, Nat.le_div_iff_mul_le (by omega)]
    exact le_trans (Nat.mul_le_mul_right _ (min_le_left m l)) (Nat.mul_div_le l m)

/-- The registration that an act makes of a node. -/
def registrationOf (id : String) : AdmissionAct → Option RegisterRequest
  | .call _ (.register req) => if req.nodeId = id then some req else none
  | _ => none

/-- The node of `req` is registered once, by `req`. -/
def RegisteredOnce (req : RegisterRequest) (acts : List AdmissionAct) : Prop :=
  acts.filterMap (registrationOf req.nodeId) = [req]

/-- The only selectable node listed is `n`. -/
def OnlySelectable (s : Store) (n : Node) : Prop :=
  ∃ nodes, Registry.list s.registry = .ok nodes ∧ nodes.filter Node.isSelectable = [n]

/-- One slice for each slot: never more guards than slots, and no refusal while fewer than `min m L` are outstanding. -/
def SlotsRespected (svc : ControlPlaneService) (req : RegisterRequest) : Prop :=
  ∀ acts, RegisteredOnce req acts →
    outstanding req.nodeId (Admission.empty.runActs svc acts).guards ≤ req.maxConnections.toNat ∧
    ∀ now n, OnlySelectable (Admission.empty.runActs svc acts).store n → n.id = req.nodeId →
      (Call.run svc now .selectWithBandwidth (Admission.empty.runActs svc acts).store).1 = .ok (.selected none) →
        min req.maxConnections.toNat req.bandwidthLimit.toNat ≤
          outstanding req.nodeId (Admission.empty.runActs svc acts).guards

/-- What holds of the node of `req` as long as every registration of it is `req`. -/
structure SlotInv (req : RegisterRequest) (s : Store) (gs : List BandwidthGuard) : Prop where
  capacity : ∀ c, s.capacity req.nodeId = some c → c = (.ofU32 req.maxConnections, .ofU64 req.bandwidthLimit)
  limit : ∀ a, s.allocators req.nodeId = some a → a.limit = req.bandwidthLimit
  rate : ∀ g ∈ gs, g.nodeId = req.nodeId → g.rate = slice req.maxConnections req.bandwidthLimit

section Slots

variable {svc : ControlPlaneService} {req : RegisterRequest}

/-- A node listed under the id has the registered slots and limit. -/
theorem SlotInv.registers {s : Store} {gs : List BandwidthGuard} (h : SlotInv req s gs) {n : Node}
    (hn : s.Registers n) (hid : n.id = req.nodeId) :
    n.maxConnections = req.maxConnections ∧ n.bandwidthLimit = req.bandwidthLimit := by
  obtain ⟨v, w, hcap, hv, hw⟩ := hn.capacity
  have hcells := h.capacity _ (hid ▸ hcap)
  simp only [Prod.mk.injEq, Cell.ofU32, Cell.ofU64, Cell.integer.injEq] at hcells
  obtain ⟨rfl, rfl⟩ := hcells
  exact ⟨by rw [← hv, toUInt32_ofU32], by rw [← hw, toInt64_toUInt64]⟩

theorem SlotInv.reserve {s : Store} {gs : List BandwidthGuard} (h : SlotInv req s gs) (now : DateTime) {n : Node}
    (hn : s.Registers n) : SlotInv req ((reserveFor n).exec now s).2 (((reserveFor n).exec now s).1.toList ++ gs) := by
  refine ⟨fun c hc => h.capacity c (capacity_reserve n s req.nodeId ▸ hc), fun b hb => ?_, fun g hg hid => ?_⟩
  · rcases limit_of_reserve hb with ⟨hid, hlimit⟩ | hb
    · rw [hlimit, Store.allocator, ← hid]
      cases ha : s.allocators req.nodeId with
      | none => exact (h.registers hn hid.symm).2
      | some a => exact h.limit a ha
    · exact h.limit b hb
  · have hout := reserveFor_outcome now n s
    generalize (reserveFor n).exec now s = r at hg hout
    cases hout with
    | refused _ => exact h.rate g hg hid
    | granted _ _ _ =>
      rcases List.mem_cons.mp hg with rfl | hg
      · obtain ⟨hmax, hlim⟩ := h.registers hn hid
        change slice n.maxConnections n.bandwidthLimit = _
        rw [hmax, hlim]
      · exact h.rate g hg hid

theorem SlotInv.exec {st : Admission} (h : SlotInv req st.store st.guards) {a : AdmissionAct}
    (ha : ∀ req' ∈ registrationOf req.nodeId a, req' = req) :
    SlotInv req (st.exec svc a).store (st.exec svc a).guards := by
  cases a with
  | call now c =>
    refine Admission.exec_call_inv ?_ (fun n s gs hn hs => hs.reserve now hn) h
    intro o s ho hno _ hs
    refine ⟨fun cells hcells => ?_, fun a hid => hs.limit a (Op.allocators_exec hno s ▸ hid), hs.rate⟩
    rcases Op.capacity_exec o now s req.nodeId with hsame | ⟨req', rfl, hid, hnew⟩
    · exact hs.capacity cells (hsame ▸ hcells)
    · have hreq : req' = req := by
        obtain rfl : c = .register req' := Call.of_mayPerform ho
        exact ha req' (if_pos hid)
      rw [hnew, hreq] at hcells
      exact (Option.some.inj hcells).symm
  | drop i =>
    simp only [Admission.exec]
    cases hi : st.guards[i]? with
    | none => exact h
    | some g =>
      refine ⟨fun c hc => h.capacity c (capacity_release _ g _ ▸ hc), fun b hb => ?_,
        fun g' hg' => h.rate g' (List.mem_of_mem_eraseIdx hg')⟩
      obtain ⟨a, ha, hlimit⟩ := limit_of_release hb
      exact hlimit.trans (h.limit a ha)

theorem SlotInv.runActs {st : Admission} (h : SlotInv req st.store st.guards) {acts : List AdmissionAct}
    (hacts : ∀ a ∈ acts, ∀ req' ∈ registrationOf req.nodeId a, req' = req) :
    SlotInv req (st.runActs svc acts).store (st.runActs svc acts).guards := by
  induction acts generalizing st with
  | nil => exact h
  | cons a acts ih =>
    obtain ⟨ha, hrest⟩ := List.forall_mem_cons.mp hacts
    exact ih (h.exec ha) hrest

/-- The guards of the node hold one slice each. -/
theorem SlotInv.heldRate_eq {s : Store} {gs : List BandwidthGuard} (h : SlotInv req s gs) :
    heldRate req.nodeId gs =
      outstanding req.nodeId gs * (slice req.maxConnections req.bandwidthLimit).toNat := by
  have hrate := h.rate
  clear h
  induction gs with
  | nil => simp [heldRate, outstanding]
  | cons g gs ih =>
    obtain ⟨hg, hgs⟩ := List.forall_mem_cons.mp hrate
    rw [heldRate_cons, ih hgs, outstanding_cons, BandwidthGuard.rateFor]
    split
    · rename_i hid
      rw [hg hid]
      ring
    · ring

theorem one_le_slice (hm : 1 ≤ req.maxConnections.toNat) :
    1 ≤ (slice req.maxConnections req.bandwidthLimit).toNat := by
  rw [slice_toNat hm]
  exact le_max_right _ _

/-- The slices of the outstanding guards fit into the limit. -/
theorem SlotInv.slices_le {s : Store} {gs : List BandwidthGuard} (h : SlotInv req s gs) (hb : Booked s gs) :
    outstanding req.nodeId gs * (slice req.maxConnections req.bandwidthLimit).toNat ≤ req.bandwidthLimit.toNat := by
  rw [← h.heldRate_eq, ← hb.counted, Store.reservedFor]
  cases ha : s.allocators req.nodeId with
  | none => exact Nat.zero_le _
  | some a =>
    have hle := UInt64.le_iff_toNat_le.mp (hb.within _ a ha)
    rw [h.limit a ha] at hle
    exact hle

/-- With one selectable node, a selection is one reservation for it. -/
theorem run_select_only {s : Store} {n : Node} (hn : OnlySelectable s n) (now : DateTime) :
    Call.run svc now .selectWithBandwidth s =
      (.ok (.selected (((reserveFor n).exec now s).1.map fun g => ⟨n, g⟩)), ((reserveFor n).exec now s).2) := by
  obtain ⟨nodes, hlist, hfilter⟩ := hn
  have hsort : sortByScore svc.weights [n] = [n] := rfl
  rw [run_selectWithBandwidth, hlist]
  dsimp only
  rw [hfilter, hsort, run_reserveLoop_cons]
  generalize (reserveFor n).exec now s = r
  obtain ⟨a, s'⟩ := r
  cases a <;> rfl

theorem OnlySelectable.registers {s : Store} {n : Node} (hn : OnlySelectable s n) : s.Registers n := by
  obtain ⟨nodes, hlist, hfilter⟩ := hn
  have hmem : n ∈ nodes.filter Node.isSelectable := by rw [hfilter]; exact List.mem_cons_self
  obtain ⟨row, hrow, hdec⟩ := Registry.list_mem hlist (List.mem_of_mem_filter hmem)
  exact ⟨row, hrow, Decodes.of_ok hdec⟩

/-- A reservation for the node is refused only when no further slice fits. -/
theorem SlotInv.refused {s : Store} {gs : List BandwidthGuard} (hm : 1 ≤ req.maxConnections.toNat)
    (h : SlotInv req s gs) (hb : Booked s gs) {n : Node} (hn : s.Registers n) (hid : n.id = req.nodeId)
    {now : DateTime} (hnone : ((reserveFor n).exec now s).1 = none) :
    req.bandwidthLimit.toNat / (slice req.maxConnections req.bandwidthLimit).toNat ≤ outstanding req.nodeId gs := by
  obtain ⟨hmax, hlim⟩ := h.registers hn hid
  have hshare : ControlPlaneService.share n = slice req.maxConnections req.bandwidthLimit := by
    rw [← hmax, ← hlim]; rfl
  have hcount := (hb.allocator n.id n.bandwidthLimit).1
  rw [hid, h.heldRate_eq] at hcount
  have hlimit : (s.allocator req.nodeId n.bandwidthLimit).limit = req.bandwidthLimit := by
    rw [Store.allocator]
    cases ha : s.allocators req.nodeId with
    | none => exact hlim
    | some a => exact h.limit a ha
  have hout := reserveFor_outcome now n s
  generalize (reserveFor n).exec now s = r at hnone hout
  cases hout with
  | granted _ _ _ => cases hnone
  | refused hfull =>
    rw [hid, hlimit, hcount, hshare, ← Nat.succ_mul] at hfull
    exact Nat.le_of_lt_succ ((Nat.div_lt_iff_lt_mul (one_le_slice hm)).mpr hfull)

theorem slotInv_empty : SlotInv req Admission.empty.store Admission.empty.guards :=
  ⟨fun c hc => (by cases hc), fun a ha => (by cases ha), fun g hg => (by cases hg)⟩

theorem RegisteredOnce.slotInv {acts : List AdmissionAct} (h : RegisteredOnce req acts) :
    SlotInv req (Admission.empty.runActs svc acts).store (Admission.empty.runActs svc acts).guards := by
  refine slotInv_empty.runActs fun a ha req' hreq' => ?_
  have hmem : req' ∈ acts.filterMap (registrationOf req.nodeId) := List.mem_filterMap.mpr ⟨a, ha, hreq'⟩
  rw [h] at hmem
  exact List.mem_singleton.mp hmem

/-- If the slices fit, they are respected. -/
theorem slotsRespected_of_slices_le (hm : 1 ≤ req.maxConnections.toNat)
    (hfit : req.bandwidthLimit.toNat / (slice req.maxConnections req.bandwidthLimit).toNat ≤
      req.maxConnections.toNat) : SlotsRespected svc req := by
  intro acts honce
  have hinv : SlotInv req (Admission.empty.runActs svc acts).store (Admission.empty.runActs svc acts).guards :=
    honce.slotInv
  have hbooked : Booked (Admission.empty.runActs svc acts).store (Admission.empty.runActs svc acts).guards :=
    booked_empty.runActs acts
  constructor
  · have hle := (Nat.le_div_iff_mul_le (one_le_slice hm)).mpr (hinv.slices_le hbooked)
    exact hle.trans hfit
  · intro now n hn hid hrefused
    rw [run_select_only hn] at hrefused
    have hnone : ((reserveFor n).exec now (Admission.empty.runActs svc acts).store).1 = none := by
      simp only [Except.ok.injEq, Outcome.selected.injEq] at hrefused
      exact Option.map_eq_none_iff.mp hrefused
    have hfull := hinv.refused hm hbooked hn.registers hid hnone
    rw [slice_toNat hm] at hfull
    exact (min_le_slices hm).trans hfull

/-- The heartbeat of a node without connections. -/
def idleHeartbeat (nodeId : String) : Heartbeat := ⟨nodeId, 0, 0, 0, 0, 0⟩

/-- A node registers, is alive, and `k` selections follow. -/
def fillActs (req : RegisterRequest) (now : DateTime) (k : Nat) : List AdmissionAct :=
  [.call now (.register req), .call now (.heartbeat (idleHeartbeat req.nodeId))] ++
    List.replicate k (.call now .selectWithBandwidth)

theorem registeredOnce_fillActs (req : RegisterRequest) (now : DateTime) (k : Nat) :
    RegisteredOnce req (fillActs req now k) := by
  simp [RegisteredOnce, fillActs, registrationOf]

theorem onlySelectable_of_single {s : Store} (id : String) {row : Row} {n : Node}
    (hrow : s.registry.find? id = some row) (hother : ∀ id', id' ≠ id → s.registry.find? id' = none)
    (hdec : Decodes row n) (hsel : n.isSelectable = true) : OnlySelectable s n :=
  ⟨[n], Registry.list_singleton (Table.rows_eq_singleton hrow hother) hdec, by simp [hsel]⟩

/-- After the heartbeat the node is the only selectable one. -/
theorem onlySelectable_fillActs_zero (svc : ControlPlaneService) (req : RegisterRequest) (now : DateTime) :
    ∃ n, OnlySelectable (Admission.empty.runActs svc (fillActs req now 0)).store n ∧ n.id = req.nodeId := by
  have hfind := find?_register_empty req now
  have hget : Registry.get (idleHeartbeat req.nodeId).nodeId (Registry.register req now Store.empty.registry) =
      .ok (some (Registry.freshNode req now)) :=
    Registry.get_of_decodes ((hfind req.nodeId).trans (if_pos rfl)) (decodes_freshRow req now)
  -- the heartbeat classifies the node as selectable, which is a change
  have hsel : (reclassifyAfterHeartbeat .starting 0 req.maxConnections svc.policy).selectable = true :=
    reclassify_live rfl 0 req.maxConnections svc.policy
  have hne : reclassifyAfterHeartbeat .starting 0 req.maxConnections svc.policy ≠ .starting := fun h => by
    rw [h] at hsel; cases hsel
  have hstate : (Admission.empty.runActs svc (fillActs req now 0)).store =
      ((Op.setState req.nodeId (reclassifyAfterHeartbeat .starting 0 req.maxConnections svc.policy)).exec now
        ((Op.applyHeartbeat (idleHeartbeat req.nodeId)).exec now
          ⟨Registry.register req now Store.empty.registry, Store.empty.allocators⟩).2).2 := by
    simp only [fillActs, Admission.runActs, List.replicate_zero, List.append_nil, List.foldl_cons, List.foldl_nil,
      Admission.exec, Admission.empty]
    rw [heartbeat_state, register_state, hget]
    exact if_pos hne
  have hdec := ((decodes_freshRow req now).heartbeatRow (idleHeartbeat req.nodeId) now).withStatus
    (reclassifyAfterHeartbeat .starting 0 req.maxConnections svc.policy) now
  refine ⟨_, onlySelectable_of_single req.nodeId ?_ (fun id hid => ?_) hdec hsel, rfl⟩
  · rw [hstate, Op.find?_exec_self rfl, Op.find?_exec_self rfl, (hfind req.nodeId).trans (if_pos rfl)]
    rfl
  · have hother : some req.nodeId ≠ some id := fun h => hid (Option.some.inj h).symm
    rw [hstate, Op.find?_exec_of_ne (o := .setState _ _) hother,
      Op.find?_exec_of_ne (o := .applyHeartbeat (idleHeartbeat req.nodeId)) hother]
    exact (hfind id).trans (if_neg hother)

/-- As long as slices fit, every selection is granted. -/
theorem outstanding_fillActs (hm : 1 ≤ req.maxConnections.toNat) (now : DateTime) {n : Node}
    (hn : OnlySelectable (Admission.empty.runActs svc (fillActs req now 0)).store n) (hid : n.id = req.nodeId) {k : Nat}
    (hk : k ≤ req.bandwidthLimit.toNat / (slice req.maxConnections req.bandwidthLimit).toNat) :
    OnlySelectable (Admission.empty.runActs svc (fillActs req now k)).store n ∧
      outstanding req.nodeId (Admission.empty.runActs svc (fillActs req now k)).guards = k := by
  induction k with
  | zero =>
    refine ⟨hn, ?_⟩
    simp [Admission.runActs, fillActs, Admission.exec, grantedGuard_run, outstanding, Admission.empty]
  | succ k ih =>
    obtain ⟨honly, hcount⟩ := ih (by omega)
    have hinv : SlotInv req (Admission.empty.runActs svc (fillActs req now k)).store
        (Admission.empty.runActs svc (fillActs req now k)).guards := (registeredOnce_fillActs req now k).slotInv
    have hbooked : Booked (Admission.empty.runActs svc (fillActs req now k)).store
        (Admission.empty.runActs svc (fillActs req now k)).guards := booked_empty.runActs _
    have hsnoc : fillActs req now (k + 1) = fillActs req now k ++ [.call now .selectWithBandwidth] := by
      simp [fillActs, List.replicate_succ']
    rw [hsnoc, Admission.runActs_snoc]
    generalize Admission.empty.runActs svc (fillActs req now k) = st at *
    have hreg : ((reserveFor n).exec now st.store).2.registry = st.store.registry := reserveFor_registry n st.store
    have hgranted : ((reserveFor n).exec now st.store).1 ≠ none := fun hnone => by
      have := hinv.refused hm hbooked honly.registers hid hnone
      omega
    rw [Admission.exec, run_select_only honly]
    have hout := reserveFor_outcome now n st.store
    generalize (reserveFor n).exec now st.store = r at *
    cases hout with
    | refused _ => exact absurd rfl hgranted
    | granted _ _ _ =>
      refine ⟨by rw [OnlySelectable, hreg]; exact honly, ?_⟩
      change outstanding req.nodeId (⟨n.id, ControlPlaneService.share n⟩ :: st.guards) = k + 1
      rw [outstanding_cons, hcount, if_pos hid]

/-- **One slice for each slot**, exactly if the limit is below the number of slots or the remainder below the
quotient. -/
theorem slots_respected_iff (svc : ControlPlaneService) (req : RegisterRequest) (hm : 1 ≤ req.maxConnections.toNat) :
    SlotsRespected svc req ↔ req.bandwidthLimit.toNat < req.maxConnections.toNat ∨
      req.bandwidthLimit.toNat % req.maxConnections.toNat < req.bandwidthLimit.toNat / req.maxConnections.toNat := by
  rw [← slices_le_iff hm, ← slice_toNat hm]
  refine ⟨fun h => ?_, slotsRespected_of_slices_le hm⟩
  by_contra hgt
  obtain ⟨n, hn, hid⟩ := onlySelectable_fillActs_zero svc req (.ofSecond 0)
  have hfull := (outstanding_fillActs hm _ hn hid (Nat.le_refl _)).2
  obtain ⟨hle, -⟩ := h _ (registeredOnce_fillActs req (.ofSecond 0)
    (req.bandwidthLimit.toNat / (slice req.maxConnections req.bandwidthLimit).toNat))
  rw [hfull] at hle
  exact hgt hle

/-- Two slots of a limit of 4 are respected. -/
theorem slots_respected_even : SlotsRespected (.new .default) ⟨"n1", "10.0.0.1:1080", 2, 4⟩ :=
  (slots_respected_iff (.new .default) ⟨"n1", "10.0.0.1:1080", 2, 4⟩ (by decide)).mpr (by decide)

/-- A node with two slots and a limit of 3: the slice is 1, and three guards are granted. -/
theorem slots_exceeded : ¬ SlotsRespected (.new .default) ⟨"n1", "10.0.0.1:1080", 2, 3⟩ := by
  intro h
  obtain ⟨hle, -⟩ := h (fillActs ⟨"n1", "10.0.0.1:1080", 2, 3⟩ (.ofSecond 0) 3) (registeredOnce_fillActs _ _ _)
  have hthree : outstanding "n1" (Admission.empty.runActs (.new .default)
      (fillActs ⟨"n1", "10.0.0.1:1080", 2, 3⟩ (.ofSecond 0) 3)).guards = 3 := by decide +kernel
  exact absurd (hthree ▸ hle) (by decide)

end Slots

end RustProxy.ControlPlane
