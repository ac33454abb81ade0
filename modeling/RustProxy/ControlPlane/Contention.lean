import RustProxy.ControlPlane.Interleaving
import RustProxy.ControlPlane.Reservation

/-!
# Admission under contention

Any number of service calls at once, with `select_with_bandwidth` as fine as the code is: the table is listed by one
repository call, the allocator of each candidate is looked up under the mutex, and `try_reserve` is its loads and
compare-exchanges on the counter of that allocator. Guards are dropped at any time.

The listing of a selection is out of date as soon as it is read, and its candidates are tried one after the other while
other selections reserve and release. Still

* the books of the sequential service are kept (`booked_of_run`), so a node that is always registered with the same
  slots and limit is never committed beyond the limit (`never_overcommitted`);
* a selection is justified by what it saw: it gives out the first listed candidate, by score, that it did not find full
  at some moment after the listing, and nothing only if it found every one of them full (`selection_justified`).

A reservation that is not interrupted is the single operation of the sequential service (`reserve_alone`).
-/

namespace RustProxy.ControlPlane

open Lib

/-! ## Callers -/

/-- A `try_reserve` in progress, on a clone of the allocator of `nodeId`. -/
structure Reserving where
  nodeId : String
  /-- The limit in the clone. -/
  ceiling : UInt64
  call : ReserveCall

/-- A service call, and the guard it may have returned. -/
inductive Caller
  /-- Between two operations, or returned. -/
  | calling (t : Task)
  /-- Inside `try_reserve`; `k` is how the call goes on. -/
  | reserving (t : Task) (r : Reserving) (k : Option BandwidthGuard → ServiceM Outcome)
  /-- Returned with a guard, which has been dropped. -/
  | dropped (t : Task)

def TaskAct.op : TaskAct → Op
  | .perform o _ => o
  | .fault o => o

inductive CallerAct
  /-- A repository call. -/
  | call (l : TaskAct)
  /-- `self.allocator(node_id, limit)`. -/
  | lookup
  /-- An atomic operation on the counter. -/
  | atomic (l : ReserveStep)
  /-- `try_reserve` returns. -/
  | answer
  /-- The guard is dropped. -/
  | drop

inductive CallerStep : Store → Caller → CallerAct → Store → Caller → Prop
  | call {s s' : Store} {t t' : Task} {l : TaskAct} : TaskStep s t l s' t' →
      (∀ nodeId limit rate, l.op ≠ .reserve nodeId limit rate) → CallerStep s (.calling t) (.call l) s' (.calling t')
  | lookup {s : Store} {t : Task} {nodeId : String} {limit rate : UInt64}
      {k : Option BandwidthGuard → ServiceM Outcome} : t.rest = .op (.reserve nodeId limit rate) k →
      CallerStep s (.calling t) .lookup (s.setAllocator nodeId (s.allocator nodeId limit))
        (.reserving t ⟨nodeId, (s.allocator nodeId limit).limit, ⟨rate, .load⟩⟩ k)
  -- the guard is not dropped before `try_reserve` has returned it
  | atomic {s : Store} {t : Task} {r : Reserving} {k : Option BandwidthGuard → ServiceM Outcome}
      {a : BandwidthAllocator} {l : ReserveStep} {count : UInt64} {call : ReserveCall} :
      s.allocators r.nodeId = some a → l ≠ .fetchSub → ReserveAct r.ceiling a.reserved r.call l count call →
      CallerStep s (.reserving t r k) (.atomic l) (s.setAllocator r.nodeId { a with reserved := count })
        (.reserving t { r with call := call } k)
  | refused {s : Store} {t : Task} {r : Reserving} {k : Option BandwidthGuard → ServiceM Outcome} :
      r.call.pc = .refused → CallerStep s (.reserving t r k) .answer s (.calling { t with rest := k none })
  | granted {s : Store} {t : Task} {r : Reserving} {k : Option BandwidthGuard → ServiceM Outcome} :
      r.call.pc = .granted → CallerStep s (.reserving t r k) .answer s
        (.calling { t with rest := k (some ⟨r.nodeId, r.call.rate⟩) })
  | drop {s : Store} {t : Task} {sel : SelectedNode} : t.rest = .ret (.selected (some sel)) →
      CallerStep s (.calling t) .drop (s.release sel.guard) (.dropped t)

/-- A call that has not done anything yet. -/
def Caller.Fresh (svc : ControlPlaneService) (c : Caller) : Prop := ∃ t, c = .calling t ∧ t.Fresh svc

abbrev AdmissionLabel := Pool.Label Caller CallerAct

abbrev AdmissionStep (svc : ControlPlaneService) := Pool.Step (Caller.Fresh svc) CallerStep

/-- The service before any call. -/
def unused : Pool Store Caller := ⟨.empty, []⟩

/-- The guard that a caller holds. -/
def Caller.guard : Caller → Option BandwidthGuard
  | .calling ⟨_, _, .ret (.selected (some sel))⟩ => some sel.guard
  | .reserving _ ⟨nodeId, _, ⟨rate, .granted⟩⟩ _ => some ⟨nodeId, rate⟩
  | _ => none

/-- The guards that have been granted and not yet dropped. -/
def guards (p : Pool Store Caller) : List BandwidthGuard := p.tasks.filterMap Caller.guard

/-! ## An uninterrupted reservation -/

section Alone

variable {svc : ControlPlaneService} {s : Store} {ts : List Caller} {i : Nat}

theorem Store.allocators_setAllocator_self (s : Store) (nodeId : String) (a : BandwidthAllocator) :
    (s.setAllocator nodeId a).allocators nodeId = some a := by
  simp [Store.setAllocator]

theorem Store.setAllocator_twice (s : Store) (nodeId : String) (a b : BandwidthAllocator) :
    (s.setAllocator nodeId a).setAllocator nodeId b = s.setAllocator nodeId b := by
  simp [Store.setAllocator]

/-- The caller `i` acts again. -/
theorem step_set {s' : Store} {c c' : Caller} {l : CallerAct} (hi : i < ts.length) (h : CallerStep s c l s' c') :
    AdmissionStep svc ⟨s, ts.set i c⟩ (.act i l) ⟨s', ts.set i c'⟩ := by
  have hstep : AdmissionStep svc ⟨s, ts.set i c⟩ (.act i l) ⟨s', (ts.set i c).set i c'⟩ :=
    .act (List.getElem?_set_self hi) h
  rwa [List.set_set] at hstep

theorem step_atomic {t : Task} {r : Reserving} {k : Option BandwidthGuard → ServiceM Outcome} {a : BandwidthAllocator}
    {l : ReserveStep} {count : UInt64} {call : ReserveCall} (hi : i < ts.length) (hl : l ≠ .fetchSub)
    (h : ReserveAct r.ceiling a.reserved r.call l count call) :
    AdmissionStep svc ⟨s.setAllocator r.nodeId a, ts.set i (.reserving t r k)⟩ (.act i (.atomic l))
      ⟨s.setAllocator r.nodeId { a with reserved := count }, ts.set i (.reserving t { r with call := call } k)⟩ := by
  have hstep := CallerStep.atomic (t := t) (k := k) (s.allocators_setAllocator_self r.nodeId a) hl h
  rw [Store.setAllocator_twice] at hstep
  exact step_set hi hstep

/-- **A reservation that is not interrupted is one operation.** -/
theorem reserve_alone {t : Task} {nodeId : String} {limit rate : UInt64}
    {k : Option BandwidthGuard → ServiceM Outcome} (hi : ts[i]? = some (.calling t))
    (ht : t.rest = .op (.reserve nodeId limit rate) k) (now : DateTime) :
    ∃ ls, Run (AdmissionStep svc) ⟨s, ts⟩ ls ⟨((Op.reserve nodeId limit rate).exec now s).2,
      ts.set i (.calling { t with rest := k ((Op.reserve nodeId limit rate).exec now s).1 })⟩ := by
  have hlt : i < ts.length := (List.getElem?_eq_some_iff.mp hi).1
  have hlookup : AdmissionStep svc ⟨s, ts⟩ (.act i .lookup) _ := .act hi (.lookup ht)
  simp only [Op.exec, BandwidthAllocator.tryReserve]
  generalize s.allocator nodeId limit = a at hlookup ⊢
  have hload : AdmissionStep svc _ (.act i (.atomic .load))
      ⟨_, ts.set i (.reserving t ⟨nodeId, a.limit, ⟨rate, afterLoad a.limit rate a.reserved⟩⟩ k)⟩ :=
    step_atomic (s := s) (a := a) (r := ⟨nodeId, a.limit, ⟨rate, .load⟩⟩) hlt (by decide) .load
  -- refused after the load, or granted by the compare-exchange
  unfold afterLoad at hload
  cases hadd : checkedAdd a.reserved rate with
  | none =>
    simp only [hadd] at hload
    exact ⟨_, .cons hlookup (.cons hload (.cons (step_set hlt (.refused rfl)) (.nil _)))⟩
  | some next =>
    simp only [hadd] at hload
    by_cases hfull : a.limit < next
    · simp only [hfull, if_true] at hload ⊢
      exact ⟨_, .cons hlookup (.cons hload (.cons (step_set hlt (.refused rfl)) (.nil _)))⟩
    · simp only [hfull, if_false] at hload ⊢
      have hcas : AdmissionStep svc _ (.act i (.atomic .casOk)) _ :=
        step_atomic (s := s) (t := t) (k := k) (a := a) (r := ⟨nodeId, a.limit, ⟨rate, .cas a.reserved next⟩⟩) hlt
          (by decide) .casOk
      exact ⟨_, .cons hlookup (.cons hload (.cons hcas (.cons (step_set hlt (.granted rfl)) (.nil _))))⟩

end Alone

/-! ## What is left of a call -/

/-- A program that asks for no guard and returns none. -/
def Unguarded (q : ServiceM Outcome) : Prop :=
  q.Performs (fun o => ∀ nodeId limit rate, o ≠ .reserve nodeId limit rate) ∧
    Prog.Always (fun _ _ => True) (fun q => ∀ sel, q ≠ .ret (.selected (some sel))) q

theorem always_ne_selected {α : Type} {f : α → Outcome} (hf : ∀ a sel, f a ≠ .selected (some sel)) (q : ServiceM α) :
    Prog.Always (fun _ _ => True) (fun q => ∀ sel, q ≠ .ret (.selected (some sel))) (q.bind fun a => .ret (f a)) := by
  induction q with
  | ret a =>
    intro sel h
    exact hf a sel (by injection h)
  | fail e =>
    intro sel h
    cases h
  | op o k ih => exact ⟨fun sel h => (by cases h), fun a _ => ih a⟩

/-- Only a selection by bandwidth has to do with guards. -/
theorem Call.unguarded {c : Call} (hc : c ≠ .selectWithBandwidth) (svc : ControlPlaneService) (now : DateTime) :
    Unguarded (c.prog svc now) := by
  constructor
  · refine (c.respects_mayPerform svc now).mono (fun o ho => ?_) fun _ _ _ => trivial
    rintro nodeId limit rate rfl
    exact hc (Call.of_mayPerform ho)
  · cases c with
    | selectWithBandwidth => exact absurd rfl hc
    | _ => exact always_ne_selected (fun _ _ h => by cases h) _

/-- The candidates of a selection that has listed `nodes`, in the order in which it tries them. -/
def ranked (svc : ControlPlaneService) (nodes : List Node) : List Node :=
  sortByScore svc.weights (nodes.filter Node.isSelectable)

/-- What is left of a selection that has still to try `nodes`. -/
def selectRest (nodes : List Node) : ServiceM Outcome :=
  (ControlPlaneService.reserveLoop nodes).bind fun n => .ret (.selected n)

/-- How it goes on when the reservation for `n` has been answered. -/
def afterReserve (n : Node) (nodes : List Node) : Option BandwidthGuard → ServiceM Outcome
  | some g => .ret (.selected (some ⟨n, g⟩))
  | none => selectRest nodes

theorem selectRest_cons (n : Node) (nodes : List Node) :
    selectRest (n :: nodes) =
      .op (.reserve n.id n.bandwidthLimit (ControlPlaneService.share n)) (afterReserve n nodes) := by
  rw [selectRest, ControlPlaneService.reserveLoop, tryReserve, Prog.bind_eq, Prog.op_bind, Prog.op_bind]
  congr 1
  funext g
  cases g <;> rfl

theorem prog_selectWithBandwidth (svc : ControlPlaneService) (now : DateTime) :
    Call.prog svc now .selectWithBandwidth =
      .op .list fun nodes => (Prog.ofExcept nodes).bind fun nodes => selectRest (ranked svc nodes) := by
  change Prog.op Op.list _ = _
  congr 1
  funext nodes
  cases nodes <;> rfl

/-! ## The clones -/

/-- A caller's clone of an allocator has the limit of the allocator, and a pending exchange was prepared for it. -/
def Cloned (s : Store) : Caller → Prop
  | .reserving _ r _ => (∃ a, s.allocators r.nodeId = some a ∧ a.limit = r.ceiling) ∧ r.call.Prepared r.ceiling
  | _ => True

section Cloned

variable {svc : ControlPlaneService} {s s' : Store} {c c' : Caller} {l : CallerAct}

theorem TaskStep.allocators {t t' : Task} {l : TaskAct} (h : TaskStep s t l s' t')
    (hl : ∀ nodeId limit rate, l.op ≠ .reserve nodeId limit rate) : s'.allocators = s.allocators := by
  cases h with
  | perform now hrest => exact Op.allocators_exec hl s
  | fault hrest ha => rfl

theorem Store.setAllocator_limit {nodeId id : String} {a b : BandwidthAllocator}
    (hlimit : ∀ a', s.allocators nodeId = some a' → b.limit = a'.limit) (ha : s.allocators id = some a) :
    ∃ a', (s.setAllocator nodeId b).allocators id = some a' ∧ a'.limit = a.limit := by
  by_cases hid : id = nodeId
  · subst hid
    exact ⟨b, s.allocators_setAllocator_self id b, hlimit a ha⟩
  · exact ⟨a, by simpa [Store.setAllocator, Function.update_of_ne hid] using ha, rfl⟩

/-- An allocator stays, with its limit. -/
theorem CallerStep.limit (h : CallerStep s c l s' c') {id : String} {a : BandwidthAllocator}
    (ha : s.allocators id = some a) : ∃ a', s'.allocators id = some a' ∧ a'.limit = a.limit := by
  cases h with
  | call hst hl => exact ⟨a, hst.allocators hl ▸ ha, rfl⟩
  | lookup hrest =>
    refine Store.setAllocator_limit (fun a' ha' => ?_) ha
    rw [Store.allocator, ha', Option.getD_some]
  | atomic hget _ _ =>
    refine Store.setAllocator_limit (fun a' ha' => ?_) ha
    rw [hget] at ha'
    cases ha'
    rfl
  | refused _ => exact ⟨a, ha, rfl⟩
  | granted _ => exact ⟨a, ha, rfl⟩
  | @drop _ sel _ =>
    rw [Store.release]
    cases hg : s.allocators sel.guard.nodeId with
    | none => exact ⟨a, ha, rfl⟩
    | some b =>
      refine Store.setAllocator_limit (fun a' ha' => ?_) ha
      rw [hg] at ha'
      cases ha'
      rfl

theorem Cloned.other {u : Caller} (h : CallerStep s c l s' c') (hu : Cloned s u) : Cloned s' u := by
  cases u with
  | calling t => trivial
  | dropped t => trivial
  | reserving t r k =>
    obtain ⟨⟨a, ha, hlimit⟩, hprep⟩ := hu
    obtain ⟨a', ha', hlimit'⟩ := h.limit ha
    exact ⟨⟨a', ha', hlimit'.trans hlimit⟩, hprep⟩

theorem Cloned.step (h : CallerStep s c l s' c') (hc : Cloned s c) : Cloned s' c' := by
  cases h with
  | call hst hl => trivial
  | refused _ => trivial
  | granted _ => trivial
  | drop _ => trivial
  | lookup hrest =>
    refine ⟨⟨_, s.allocators_setAllocator_self _ _, rfl⟩, ?_⟩
    intro current next hpc
    cases hpc
  | @atomic t r k a l count call hget hl hact =>
    obtain ⟨⟨b, hb, hlimit⟩, hprep⟩ := hc
    rw [hget] at hb
    cases hb
    refine ⟨⟨_, s.allocators_setAllocator_self _ _, hlimit⟩, ?_⟩
    obtain ⟨nodeId, ceiling, call⟩ := r
    cases hact with
    | load => exact prepared_afterLoad _ _
    | casOk => intro _ _ hpc; cases hpc
    | casFail => intro _ _ hpc; cases hpc
    | fetchSub => intro _ _ hpc; cases hpc

theorem cloned_of_run {ls : List AdmissionLabel} {p : Pool Store Caller} (h : Run (AdmissionStep svc) unused ls p) :
    ∀ c ∈ p.tasks, Cloned p.shared c := by
  have hinv : Pool.Inv (fun _ => True) Cloned p := by
    refine Pool.run_inv ?_ ?_ ?_ (h.mono fun p l _ hst => ⟨Pool.tolerated_true p l, hst⟩) ?_
    · rintro s c - ⟨t, rfl, -⟩
      trivial
    · exact fun s c l s' c' _ hc hst => ⟨trivial, hc.step hst⟩
    · exact fun s c l s' c' u _ _ hst _ hu => hu.other hst
    · exact ⟨trivial, fun c hc => by cases hc⟩
  exact hinv.2

end Cloned

/-! ## What a selection has seen -/

/-- From `q` on, by `ls` to `p`, caller `i` has found the node full: a load found no room for its share. -/
def FoundFull (svc : ControlPlaneService) (i : Nat) (q : Pool Store Caller) (ls : List AdmissionLabel)
    (p : Pool Store Caller) (n : Node) : Prop :=
  ∃ ls₁ ls₂ q' a, ls = ls₁ ++ .act i (.atomic .load) :: ls₂ ∧ Run (AdmissionStep svc) q ls₁ q' ∧
    Run (AdmissionStep svc) q' (.act i (.atomic .load) :: ls₂) p ∧ q'.shared.allocators n.id = some a ∧
    a.limit.toNat < a.reserved.toNat + (ControlPlaneService.share n).toNat

/-- By `ls` to `p`, caller `i` has listed the nodes, and found the candidates in `full` full since; those in `rest` come
after them. -/
def Tried (svc : ControlPlaneService) (i : Nat) (ls : List AdmissionLabel) (p : Pool Store Caller)
    (full rest : List Node) : Prop :=
  ∃ ls₁ ls₂ q now nodes, ls = ls₁ ++ ls₂ ∧ Run (AdmissionStep svc) unused ls₁ q ∧ Run (AdmissionStep svc) q ls₂ p ∧
    ls₂.head? = some (.act i (.call (.perform .list now))) ∧ Registry.list q.shared.registry = .ok nodes ∧
    ranked svc nodes = full ++ rest ∧ ∀ n ∈ full, FoundFull svc i q ls₂ p n

/-- The states of a selection. -/
inductive Selecting (svc : ControlPlaneService) (i : Nat) (ls : List AdmissionLabel) (p : Pool Store Caller) :
    Caller → Prop
  | fresh (began : DateTime) :
      Selecting svc i ls p (.calling ⟨.selectWithBandwidth, began, Call.prog svc began .selectWithBandwidth⟩)
  | trying (began : DateTime) {full rest : List Node} : Tried svc i ls p full rest →
      Selecting svc i ls p (.calling ⟨.selectWithBandwidth, began, selectRest rest⟩)
  | reserving {t : Task} {n : Node} {full rest : List Node} {ceiling : UInt64} {pc : ReservePc} :
      t.call = .selectWithBandwidth → pc ≠ .refused → Tried svc i ls p full (n :: rest) →
      Selecting svc i ls p (.reserving t ⟨n.id, ceiling, ⟨ControlPlaneService.share n, pc⟩⟩ (afterReserve n rest))
  | refused {t : Task} {n : Node} {full rest : List Node} {ceiling : UInt64} :
      t.call = .selectWithBandwidth → Tried svc i ls p (full ++ [n]) rest →
      Selecting svc i ls p (.reserving t ⟨n.id, ceiling, ⟨ControlPlaneService.share n, .refused⟩⟩ (afterReserve n rest))
  | selected (began : DateTime) {n : Node} {full rest : List Node} : Tried svc i ls p full (n :: rest) →
      Selecting svc i ls p (.calling ⟨.selectWithBandwidth, began, .ret (.selected (some (grantFor n)))⟩)
  | failed (began : DateTime) (e : Error) : Selecting svc i ls p (.calling ⟨.selectWithBandwidth, began, .fail e⟩)
  | dropped (t : Task) : Selecting svc i ls p (.dropped t)

section Selecting

variable {svc : ControlPlaneService} {i : Nat} {ls : List AdmissionLabel} {p p' q : Pool Store Caller}
variable {full rest : List Node} {n : Node} {l : AdmissionLabel} {c c' : Caller}

theorem FoundFull.snoc (h : FoundFull svc i q ls p n) (hst : AdmissionStep svc p l p') :
    FoundFull svc i q (ls ++ [l]) p' n := by
  obtain ⟨ls₁, ls₂, q', a, rfl, h₁, h₂, ha, hfull⟩ := h
  exact ⟨ls₁, ls₂ ++ [l], q', a, by simp, h₁, h₂.snoc hst, ha, hfull⟩

theorem Tried.snoc (h : Tried svc i ls p full rest) (hst : AdmissionStep svc p l p') :
    Tried svc i (ls ++ [l]) p' full rest := by
  obtain ⟨ls₁, ls₂, q, now, nodes, rfl, h₁, h₂, hhead, hlist, hsplit, hfull⟩ := h
  refine ⟨ls₁, ls₂ ++ [l], q, now, nodes, by simp, h₁, h₂.snoc hst, ?_, hlist, hsplit,
    fun n hn => (hfull n hn).snoc hst⟩
  rw [List.head?_append, hhead, Option.some_or]

/-- A candidate that a load finds full comes to those found full. -/
theorem Tried.found (h : Tried svc i ls p full (n :: rest)) {a : BandwidthAllocator}
    (ha : p.shared.allocators n.id = some a)
    (hfull : a.limit.toNat < a.reserved.toNat + (ControlPlaneService.share n).toNat)
    (hst : AdmissionStep svc p (.act i (.atomic .load)) p') :
    Tried svc i (ls ++ [.act i (.atomic .load)]) p' (full ++ [n]) rest := by
  obtain ⟨ls₁, ls₂, q, now, nodes, rfl, h₁, h₂, hhead, hlist, hsplit, hold⟩ := h
  refine ⟨ls₁, ls₂ ++ [.act i (.atomic .load)], q, now, nodes, by simp, h₁, h₂.snoc hst, ?_, hlist,
    by rw [hsplit, List.append_assoc, List.singleton_append], fun m hm => ?_⟩
  · rw [List.head?_append, hhead, Option.some_or]
  · rcases List.mem_append.mp hm with hm | hm
    · exact (hold m hm).snoc hst
    · obtain rfl := List.mem_singleton.mp hm
      exact ⟨ls₂, [], p, a, rfl, h₂, .cons hst (.nil _), ha, hfull⟩

/-- A candidate was registered when the nodes were listed. -/
theorem Tried.registers (h : Tried svc i ls p full rest) (hn : n ∈ full ++ rest) :
    ∃ ls₁ ls₂ q, ls = ls₁ ++ ls₂ ∧ Run (AdmissionStep svc) unused ls₁ q ∧ q.shared.Registers n := by
  obtain ⟨ls₁, ls₂, q, now, nodes, rfl, h₁, -, -, hlist, hsplit, -⟩ := h
  rw [← hsplit] at hn
  obtain ⟨row, hrow, hdec⟩ := Registry.list_mem hlist (List.mem_of_mem_filter (mem_sortByScore.mp hn))
  exact ⟨ls₁, ls₂, q, rfl, h₁, row, hrow, Decodes.of_ok hdec⟩

/-- The steps of others leave a selection what it is. -/
theorem Selecting.snoc (h : Selecting svc i ls p c) (hst : AdmissionStep svc p l p') :
    Selecting svc i (ls ++ [l]) p' c := by
  cases h with
  | fresh began => exact .fresh began
  | trying began htried => exact .trying began (htried.snoc hst)
  | reserving hcall hpc htried => exact .reserving hcall hpc (htried.snoc hst)
  | refused hcall htried => exact .refused hcall (htried.snoc hst)
  | selected began htried => exact .selected began (htried.snoc hst)
  | failed began e => exact .failed began e
  | dropped t => exact .dropped t

/-- A selection that calls the repository lists the nodes, or fails. -/
theorem Selecting.call_cases {t t' : Task} {s s' : Store} {l : TaskAct} (h : Selecting svc i ls p (.calling t))
    (hst : TaskStep s t l s' t') (hl : ∀ nodeId limit rate, l.op ≠ .reserve nodeId limit rate) :
    (∃ began e, t' = ⟨.selectWithBandwidth, began, .fail e⟩) ∨
      ∃ began now nodes, l = .perform .list now ∧ Registry.list s.registry = .ok nodes ∧
        t' = ⟨.selectWithBandwidth, began, selectRest (ranked svc nodes)⟩ := by
  obtain ⟨o, k, hrest⟩ : ∃ o k, t.rest = .op o k ∧ ∀ nodeId limit rate, o ≠ .reserve nodeId limit rate := by
    cases hst with
    | perform now hrest => exact ⟨_, _, hrest, hl⟩
    | fault hrest ha => exact ⟨_, _, hrest, hl⟩
  cases h with
  | fresh began =>
    cases hst with
    | @perform o k now hrest =>
      rw [prog_selectWithBandwidth] at hrest
      cases hrest
      have hanswer : ((Op.list).exec now s).1 = Registry.list s.registry := rfl
      rw [hanswer]
      cases Registry.list s.registry with
      | error e => exact .inl ⟨began, e, rfl⟩
      | ok nodes => exact .inr ⟨began, now, nodes, rfl, rfl, rfl⟩
    | @fault o k a hrest ha =>
      rw [prog_selectWithBandwidth] at hrest
      cases hrest
      cases ha
      exact .inl ⟨began, _, rfl⟩
  | @trying began full rest htried =>
    cases rest with
    | nil => cases hrest.1
    | cons n rest =>
      rw [selectRest_cons] at hrest
      cases hrest.1
      exact absurd rfl (hrest.2 _ _ _)
  | selected began htried => cases hrest.1
  | failed began e => cases hrest.1

theorem Selecting.call {t t' : Task} {s' : Store} {l : TaskAct} (h : Selecting svc i ls p (.calling t))
    (hrun : Run (AdmissionStep svc) unused ls p) (hstep : AdmissionStep svc p (.act i (.call l)) p')
    (hst : TaskStep p.shared t l s' t') (hl : ∀ nodeId limit rate, l.op ≠ .reserve nodeId limit rate) :
    Selecting svc i (ls ++ [.act i (.call l)]) p' (.calling t') := by
  rcases h.call_cases hst hl with ⟨began, e, rfl⟩ | ⟨began, now, nodes, rfl, hlist, rfl⟩
  · exact .failed began e
  · have hone : Run (AdmissionStep svc) p [.act i (.call (.perform .list now))] p' := .cons hstep (.nil _)
    have htried : Tried svc i (ls ++ [.act i (.call (.perform .list now))]) p' [] (ranked svc nodes) :=
      ⟨ls, _, p, now, nodes, rfl, hrun, hone, rfl, hlist, rfl, fun n hn => by cases hn⟩
    exact .trying began htried

/-- Its atomic operations find the candidate full, or do not. -/
theorem Selecting.atomic {t : Task} {r : Reserving} {k : Option BandwidthGuard → ServiceM Outcome}
    {a : BandwidthAllocator} {l : ReserveStep} {count : UInt64} {call : ReserveCall}
    (h : Selecting svc i ls p (.reserving t r k)) (hclone : Cloned p.shared (.reserving t r k))
    (hstep : AdmissionStep svc p (.act i (.atomic l)) p') (ha : p.shared.allocators r.nodeId = some a)
    (hact : ReserveAct r.ceiling a.reserved r.call l count call) :
    Selecting svc i (ls ++ [.act i (.atomic l)]) p' (.reserving t { r with call := call } k) := by
  cases h with
  | refused hcall htried => cases hact
  | @reserving _ n full rest ceiling pc hcall hpc htried =>
    obtain ⟨⟨b, hb, hlimit⟩, -⟩ := hclone
    rw [ha] at hb
    cases hb
    change a.limit = ceiling at hlimit
    subst hlimit
    cases hact with
    | load =>
      by_cases hrefused : afterLoad a.limit (ControlPlaneService.share n) a.reserved = .refused
      · simp only [hrefused]
        exact .refused hcall (htried.found ha (afterLoad_refused hrefused) hstep)
      · exact .reserving hcall hrefused (htried.snoc hstep)
    | casOk => exact .reserving hcall (by decide) (htried.snoc hstep)
    | casFail => exact .reserving hcall (by decide) (htried.snoc hstep)
    | fetchSub => exact .reserving hcall (by decide) (htried.snoc hstep)

theorem Selecting.step {s' : Store} {l : CallerAct} (h : Selecting svc i ls p c)
    (hrun : Run (AdmissionStep svc) unused ls p) (hi : p.tasks[i]? = some c) (hclone : Cloned p.shared c)
    (hst : CallerStep p.shared c l s' c') :
    Selecting svc i (ls ++ [.act i l]) ⟨s', p.tasks.set i c'⟩ c' := by
  have hstep : AdmissionStep svc p (.act i l) ⟨s', p.tasks.set i c'⟩ := .act hi hst
  cases hst with
  | call hst hl => exact h.call hrun hstep hst hl
  | @lookup t nodeId limit rate k hrest =>
    cases h with
    | fresh began =>
      rw [prog_selectWithBandwidth] at hrest
      cases hrest
    | @trying began full rest htried =>
      cases rest with
      | nil => cases hrest
      | cons n rest =>
        rw [selectRest_cons] at hrest
        cases hrest
        exact .reserving rfl (by decide) (htried.snoc hstep)
    | selected began htried => cases hrest
    | failed began e => cases hrest
  | atomic ha _ hact => exact h.atomic hclone hstep ha hact
  | @refused t r k hpc =>
    cases h with
    | reserving hcall hne htried => exact absurd hpc hne
    | refused hcall htried =>
      have hrest := Selecting.trying t.began (htried.snoc hstep)
      rw [← hcall] at hrest
      exact hrest
  | @granted t r k hpc =>
    cases h with
    | reserving hcall hne htried =>
      have hrest := Selecting.selected t.began (htried.snoc hstep)
      rw [← hcall] at hrest
      exact hrest
    | refused hcall htried => cases hpc
  | drop _ => exact .dropped _

/-- What holds of caller `i`. -/
def Caller.Ok (svc : ControlPlaneService) (i : Nat) (ls : List AdmissionLabel) (p : Pool Store Caller) (c : Caller) :
    Prop :=
  Selecting svc i ls p c ∨ ∃ t, c = .calling t ∧ t.call ≠ .selectWithBandwidth ∧ Unguarded t.rest

theorem Caller.Ok.of_fresh (hc : c.Fresh svc) : c.Ok svc i ls p := by
  obtain ⟨⟨call, began, rest⟩, rfl, hfresh⟩ := hc
  change rest = call.prog svc began at hfresh
  subst hfresh
  by_cases hcall : call = .selectWithBandwidth
  · subst hcall
    exact .inl (.fresh began)
  · exact .inr ⟨_, rfl, hcall, Call.unguarded hcall svc began⟩

theorem Unguarded.step {s s' : Store} {t t' : Task} {l : TaskAct} (h : Unguarded t.rest) (hst : TaskStep s t l s' t') :
    Unguarded t'.rest := by
  cases hst with
  | perform now hrest =>
    rw [Unguarded, hrest] at h
    exact ⟨h.1.2 _ trivial, h.2.2 _ trivial⟩
  | fault hrest ha =>
    rw [Unguarded, hrest] at h
    exact ⟨h.1.2 _ trivial, h.2.2 _ trivial⟩

theorem Caller.Ok.step {s' : Store} {l : CallerAct} (h : c.Ok svc i ls p) (hrun : Run (AdmissionStep svc) unused ls p)
    (hi : p.tasks[i]? = some c) (hst : CallerStep p.shared c l s' c') :
    c'.Ok svc i (ls ++ [.act i l]) ⟨s', p.tasks.set i c'⟩ := by
  rcases h with hsel | ⟨t, rfl, hcall, hfree⟩
  · exact .inl (hsel.step hrun hi (cloned_of_run hrun c (List.mem_of_getElem? hi)) hst)
  · cases hst with
    | @call _ _ t' l hst hl =>
      have hsame : t'.call = t.call := by cases hst <;> rfl
      exact .inr ⟨t', rfl, hsame ▸ hcall, hfree.step hst⟩
    | lookup hrest =>
      rw [Unguarded, hrest] at hfree
      exact absurd rfl (hfree.1.1 _ _ _)
    | drop hrest => exact absurd hrest (Prog.Always.now hfree.2 _)

theorem Caller.Ok.snoc (h : c.Ok svc i ls p) (hst : AdmissionStep svc p l p') : c.Ok svc i (ls ++ [l]) p' :=
  h.imp (fun hsel => hsel.snoc hst) id

theorem callers_ok (hrun : Run (AdmissionStep svc) unused ls p) :
    ∀ i c, p.tasks[i]? = some c → Caller.Ok svc i ls p c := by
  refine Run.snoc_induction (P := fun ls p => ∀ i c, p.tasks[i]? = some c → Caller.Ok svc i ls p c)
    (fun i c hi => by simp [unused] at hi) (fun ls p l p' hrun ih hst => ?_) hrun
  intro i c hi
  cases hst with
  | @start c₀ hc₀ =>
    have hstep : AdmissionStep svc p (.start c₀) ⟨p.shared, p.tasks ++ [c₀]⟩ := .start hc₀
    rw [List.getElem?_append] at hi
    split_ifs at hi
    · exact (ih i c hi).snoc hstep
    · obtain rfl := List.mem_singleton.mp (List.mem_of_getElem? hi)
      exact .of_fresh hc₀
  | @act j c₀ c₀' l s' hj hact =>
    have hstep : AdmissionStep svc p (.act j l) ⟨s', p.tasks.set j c₀'⟩ := .act hj hact
    by_cases hij : j = i
    · subst hij
      have hlt : j < p.tasks.length := (List.getElem?_eq_some_iff.mp hj).1
      rw [List.getElem?_set_self hlt] at hi
      cases hi
      exact (ih j c₀ hj).step hrun hj hact
    · rw [List.getElem?_set_ne hij] at hi
      exact (ih i c hi).snoc hstep

end Selecting

/-! ## The books -/

section Books

variable {svc : ControlPlaneService} {i : Nat} {ls : List AdmissionLabel} {p p' : Pool Store Caller}
variable {s s' : Store} {c c' : Caller} {l : CallerAct} {gs : List BandwidthGuard}

theorem Booked.perm {gs' : List BandwidthGuard} (h : Booked s gs) (hperm : gs.Perm gs') : Booked s gs' := by
  refine ⟨fun id => ?_, h.within⟩
  rw [h.counted]
  exact (hperm.map _).sum_eq

/-- The guards, that of caller `i` first. -/
theorem guards_perm {ts : List Caller} (hi : ts[i]? = some c) :
    (ts.filterMap Caller.guard).Perm (c.guard.toList ++ (ts.eraseIdx i).filterMap Caller.guard) := by
  obtain ⟨hlt, rfl⟩ := List.getElem?_eq_some_iff.mp hi
  have hperm := (List.getElem_cons_eraseIdx_perm hlt).symm.filterMap Caller.guard
  rw [List.filterMap_cons] at hperm
  cases hg : ts[i].guard with
  | none => simpa [hg] using hperm
  | some g => simpa [hg] using hperm

/-- What a caller inside `try_reserve` holds. -/
theorem heldRate_reserving (id : String) (t : Task) (r : Reserving) (k : Option BandwidthGuard → ServiceM Outcome) :
    heldRate id ((Caller.reserving t r k).guard.toList ++ gs) =
      (if r.nodeId = id then r.call.held else 0) + heldRate id gs := by
  obtain ⟨nodeId, ceiling, rate, pc⟩ := r
  cases pc <;> simp [Caller.guard, ReserveCall.held, heldRate, BandwidthGuard.rateFor]

theorem guard_selectRest (call : Call) (began : DateTime) (nodes : List Node) :
    (Caller.calling ⟨call, began, selectRest nodes⟩).guard = none := by
  cases nodes with
  | nil => rfl
  | cons n nodes => rw [selectRest_cons]; rfl

theorem guard_unguarded {t : Task} (h : Unguarded t.rest) : (Caller.calling t).guard = none := by
  have hne := Prog.Always.now h.2
  unfold Caller.guard
  split
  · next heq =>
    cases heq
    exact absurd rfl (hne _)
  · next heq => cases heq
  · rfl

/-- A caller has no guard before a repository call, nor after it. -/
theorem Caller.Ok.guard_call {t t' : Task} {l : TaskAct} (hok : Caller.Ok svc i ls p (.calling t))
    (hst : TaskStep s t l s' t') (hl : ∀ nodeId limit rate, l.op ≠ .reserve nodeId limit rate) :
    (Caller.calling t).guard = none ∧ (Caller.calling t').guard = none := by
  constructor
  · obtain ⟨call, began, rest⟩ := t
    cases hst with
    | perform now hrest => cases hrest; rfl
    | fault hrest ha => cases hrest; rfl
  · rcases hok with hsel | ⟨_, ⟨⟩, -, hfree⟩
    · rcases hsel.call_cases hst hl with ⟨began, e, rfl⟩ | ⟨began, now, nodes, -, -, rfl⟩
      · rfl
      · exact guard_selectRest _ _ _
    · exact guard_unguarded (hfree.step hst)

/-- **One step keeps the books**, whatever guards the others hold. -/
theorem CallerStep.booked (hst : CallerStep s c l s' c') (hok : c.Ok svc i ls p) (hclone : Cloned s c)
    (hb : Booked s (c.guard.toList ++ gs)) : Booked s' (c'.guard.toList ++ gs) := by
  cases hst with
  | call hst hl =>
    obtain ⟨hnone, hnone'⟩ := hok.guard_call hst hl
    rw [hnone] at hb
    rw [hnone']
    exact hb.of_allocators_eq (hst.allocators hl)
  | @lookup t nodeId limit rate k hrest =>
    have hnone : (Caller.calling t).guard = none := by
      obtain ⟨call, began, rest⟩ := t
      cases hrest
      rfl
    rw [hnone] at hb
    obtain ⟨hcount, hle⟩ := hb.allocator nodeId limit
    exact hb.setAllocator hcount hle fun _ _ => rfl
  | @atomic t r k a l count call ha hl hact =>
    obtain ⟨⟨b, hget, hlimit⟩, hprep⟩ := hclone
    rw [ha] at hget
    cases hget
    have hcount := hb.counted r.nodeId
    rw [Store.reservedFor, ha, heldRate_reserving, if_pos rfl] at hcount
    change a.reserved.toNat = _ at hcount
    have hwithin := hb.within _ a ha
    rw [hlimit] at hwithin
    obtain ⟨hsum, hle, -⟩ := reserveAct_effect hact hwithin hprep (by omega)
    refine hb.setAllocator ?_ (hlimit ▸ hle) fun id hid => ?_
    · rw [heldRate_reserving, if_pos rfl]
      change count.toNat = call.held + _
      omega
    · rw [heldRate_reserving, heldRate_reserving, if_neg (Ne.symm hid), if_neg (Ne.symm hid)]
  | refused hpc =>
    rcases hok with hsel | ⟨_, ⟨⟩, -⟩
    cases hsel with
    | reserving _ hne _ => exact absurd hpc hne
    | refused _ _ =>
      change Booked s ((Caller.calling ⟨_, _, selectRest _⟩).guard.toList ++ gs)
      rw [guard_selectRest]
      exact hb
  | granted hpc =>
    rcases hok with hsel | ⟨_, ⟨⟩, -⟩
    cases hsel with
    | reserving _ _ _ =>
      change _ = ReservePc.granted at hpc
      subst hpc
      exact hb
    | refused _ _ => cases hpc
  | @drop t sel hrest =>
    obtain ⟨call, began, rest⟩ := t
    cases hrest
    exact hb.drop (i := 0) rfl

/-- **The books are kept**, in every interleaving. -/
theorem booked_of_run (hrun : Run (AdmissionStep svc) unused ls p) : Booked p.shared (guards p) := by
  refine Run.snoc_induction (P := fun _ p => Booked p.shared (guards p)) booked_empty
    (fun ls p l p' hrun ih hst => ?_) hrun
  cases hst with
  | @start c hc =>
    obtain ⟨t, rfl, hfresh⟩ := hc
    have hnone : (Caller.calling t).guard = none := by
      obtain ⟨call, began, rest⟩ := t
      obtain rfl : rest = call.prog svc began := hfresh
      cases call <;> rfl
    simpa [guards, hnone] using ih
  | @act i c c' l s' hi hact =>
    have hlt : i < p.tasks.length := (List.getElem?_eq_some_iff.mp hi).1
    have hold := ih.perm (guards_perm hi)
    have hnew := hact.booked (callers_ok hrun i c hi) (cloned_of_run hrun c (List.mem_of_getElem? hi)) hold
    have hperm := guards_perm (List.getElem?_set_self (a := c') hlt)
    rw [List.eraseIdx_set_eq] at hperm
    exact hnew.perm hperm.symm

end Books

/-! ## Schedules -/

inductive AdmissionTurn
  | arrive (now : DateTime) (c : Call)
  | act (now : DateTime) (i : Nat)
  | drop (i : Nat)

/-- The next step of a caller; a compare-exchange succeeds if it can. -/
def Caller.next (now : DateTime) (s : Store) : Caller → Option (CallerAct × Store × Caller)
  | .calling ⟨c, began, .op (.reserve nodeId limit rate) k⟩ =>
    some (.lookup, s.setAllocator nodeId (s.allocator nodeId limit),
      .reserving ⟨c, began, .op (.reserve nodeId limit rate) k⟩
        ⟨nodeId, (s.allocator nodeId limit).limit, ⟨rate, .load⟩⟩ k)
  | .calling ⟨c, began, .op o k⟩ =>
    some (.call (.perform o now), (o.exec now s).2, .calling ⟨c, began, k (o.exec now s).1⟩)
  | .reserving t ⟨nodeId, ceiling, ⟨rate, .load⟩⟩ k =>
    (s.allocators nodeId).map fun a => (.atomic .load, s.setAllocator nodeId a,
      .reserving t ⟨nodeId, ceiling, ⟨rate, afterLoad ceiling rate a.reserved⟩⟩ k)
  | .reserving t ⟨nodeId, ceiling, ⟨rate, .cas current next⟩⟩ k =>
    (s.allocators nodeId).map fun a =>
      if a.reserved = current then
        (.atomic .casOk, s.setAllocator nodeId { a with reserved := next },
          .reserving t ⟨nodeId, ceiling, ⟨rate, .granted⟩⟩ k)
      else (.atomic .casFail, s.setAllocator nodeId a, .reserving t ⟨nodeId, ceiling, ⟨rate, .load⟩⟩ k)
  | .reserving t ⟨_, _, ⟨_, .refused⟩⟩ k => some (.answer, s, .calling { t with rest := k none })
  | .reserving t ⟨nodeId, _, ⟨rate, .granted⟩⟩ k =>
    some (.answer, s, .calling { t with rest := k (some ⟨nodeId, rate⟩) })
  | _ => none

theorem Caller.step_of_next {now : DateTime} {s s' : Store} {c c' : Caller} {l : CallerAct}
    (h : c.next now s = some (l, s', c')) : CallerStep s c l s' c' := by
  unfold Caller.next at h
  split at h
  · cases h
    exact .lookup rfl
  · next hno =>
    cases h
    refine .call (.perform now rfl) fun nodeId limit rate ho => ?_
    change _ = _ at ho
    subst ho
    exact hno _ _ _ _ rfl HEq.rfl
  · next t nodeId ceiling rate k =>
    obtain ⟨a, ha, heq⟩ := Option.map_eq_some_iff.mp h
    cases heq
    exact .atomic (r := ⟨nodeId, ceiling, ⟨rate, .load⟩⟩) ha (by decide) .load
  · next t nodeId ceiling rate current next k =>
    obtain ⟨a, ha, heq⟩ := Option.map_eq_some_iff.mp h
    split at heq
    · next hcurrent =>
      subst hcurrent
      cases heq
      exact .atomic (r := ⟨nodeId, ceiling, ⟨rate, .cas a.reserved next⟩⟩) ha (by decide) .casOk
    · cases heq
      exact .atomic (r := ⟨nodeId, ceiling, ⟨rate, .cas current next⟩⟩) ha (by decide) .casFail
  · cases h
    exact .refused rfl
  · cases h
    exact .granted rfl
  · cases h

/-- The step of a turn. -/
def AdmissionTurn.step (svc : ControlPlaneService) (p : Pool Store Caller) :
    AdmissionTurn → Option (AdmissionLabel × Pool Store Caller)
  | .arrive now c =>
    let t : Caller := .calling ⟨c, now, c.prog svc now⟩
    some (.start t, ⟨p.shared, p.tasks ++ [t]⟩)
  | .act now i => do
    let c ← p.tasks[i]?
    let (l, s', c') ← c.next now p.shared
    some (.act i l, ⟨s', p.tasks.set i c'⟩)
  | .drop i =>
    match p.tasks[i]? with
    | some (.calling ⟨c, began, .ret (.selected (some sel))⟩) =>
      some (.act i .drop, ⟨p.shared.release sel.guard,
        p.tasks.set i (.dropped ⟨c, began, .ret (.selected (some sel))⟩)⟩)
    | _ => none

theorem AdmissionTurn.admissionStep {svc : ControlPlaneService} {p p' : Pool Store Caller} {turn : AdmissionTurn}
    {l : AdmissionLabel} (h : turn.step svc p = some (l, p')) : AdmissionStep svc p l p' := by
  cases turn with
  | arrive now c =>
    cases h
    exact .start ⟨_, rfl, rfl⟩
  | act now i =>
    obtain ⟨c, hi, h⟩ := Option.bind_eq_some_iff.mp h
    obtain ⟨⟨l, s', c'⟩, hnext, h⟩ := Option.bind_eq_some_iff.mp h
    cases h
    exact .act hi (Caller.step_of_next hnext)
  | drop i =>
    simp only [AdmissionTurn.step] at h
    split at h
    · next hi =>
      cases h
      exact .act hi (.drop rfl)
    · cases h

/-- The steps of the turns, one after the other, and the service after them; a turn without a step does nothing. -/
def play (svc : ControlPlaneService) : List AdmissionTurn → Pool Store Caller → List AdmissionLabel × Pool Store Caller
  | [], p => ([], p)
  | turn :: turns, p =>
    match turn.step svc p with
    | some (l, p') => (l :: (play svc turns p').1, (play svc turns p').2)
    | none => play svc turns p

theorem run_of_play (svc : ControlPlaneService) (turns : List AdmissionTurn) (p : Pool Store Caller) :
    Run (AdmissionStep svc) p (play svc turns p).1 (play svc turns p).2 := by
  induction turns generalizing p with
  | nil => exact .nil p
  | cons turn turns ih =>
    rw [play]
    split
    · next l p' hstep => exact .cons (AdmissionTurn.admissionStep hstep) (ih p')
    · exact ih p

/-- A node with one slot; two selections list it, look its allocator up and load its counter before either reserves. -/
def contendedTurns : List AdmissionTurn :=
  let now : DateTime := .ofSecond 0
  [.arrive now (.register ⟨"n1", "10.0.0.1:1080", 1, 1000⟩), .act now 0, .act now 0,
   .arrive now (.heartbeat ⟨"n1", 0, 0, 0, 0, 1000⟩), .act now 1, .act now 1, .act now 1, .act now 1,
   .arrive now .selectWithBandwidth, .arrive now .selectWithBandwidth, .act now 2, .act now 3, .act now 2, .act now 3,
   .act now 2, .act now 3, .act now 2, .act now 3, .act now 3, .act now 2, .act now 3]

/-! ## The registered limit -/

/-- The registration that a step makes. -/
def registeredBy : AdmissionLabel → Option RegisterRequest
  | .act _ (.call (.perform (.register req) _)) => some req
  | _ => none

/-- Every registration of the node of `req` is for its slots and its limit. -/
def KeepsCapacity (req : RegisterRequest) (ls : List AdmissionLabel) : Prop :=
  ∀ l ∈ ls, ∀ req' ∈ registeredBy l, req'.nodeId = req.nodeId →
    req'.maxConnections = req.maxConnections ∧ req'.bandwidthLimit = req.bandwidthLimit

instance (req : RegisterRequest) (ls : List AdmissionLabel) : Decidable (KeepsCapacity req ls) :=
  inferInstanceAs (Decidable (∀ l ∈ ls, ∀ req' ∈ registeredBy l, _ → _))

section Capacity

variable {svc : ControlPlaneService} {i : Nat} {ls : List AdmissionLabel} {p p' : Pool Store Caller}
variable {s s' : Store} {c c' : Caller} {l : CallerAct} {req : RegisterRequest}

theorem CallerStep.capacity (h : CallerStep s c l s' c') (id : String) :
    s'.capacity id = s.capacity id ∨ ∃ req now, l = .call (.perform (.register req) now) ∧ req.nodeId = id ∧
      s'.capacity id = some (.ofU32 req.maxConnections, .ofU64 req.bandwidthLimit) := by
  cases h with
  | call hst hl =>
    cases hst with
    | @perform o k now hrest =>
      rcases o.capacity_exec now s id with hsame | ⟨req, rfl, hid, hnew⟩
      · exact .inl hsame
      · exact .inr ⟨req, now, rfl, hid, hnew⟩
    | fault hrest ha => exact .inl rfl
  | lookup hrest => exact .inl rfl
  | atomic ha hl hact => exact .inl rfl
  | refused hpc => exact .inl rfl
  | granted hpc => exact .inl rfl
  | drop hrest => exact .inl (capacity_release _ _ id)

/-- The row of the node has the slots and the limit. -/
theorem capacity_of_run (hrun : Run (AdmissionStep svc) unused ls p) (hkeep : KeepsCapacity req ls) :
    ∀ cells, p.shared.capacity req.nodeId = some cells →
      cells = (.ofU32 req.maxConnections, .ofU64 req.bandwidthLimit) := by
  refine hrun.labelled.inv (I := fun p => ∀ cells, p.shared.capacity req.nodeId = some cells → cells = _) ?_ ?_
  · rintro p l p' ih ⟨hmem, hst⟩ cells hcells
    cases hst with
    | start hc => exact ih cells hcells
    | act hi hact =>
      rcases hact.capacity req.nodeId with hsame | ⟨req', now, rfl, hid, hnew⟩
      · exact ih cells (hsame ▸ hcells)
      · obtain ⟨hmax, hlimit⟩ := hkeep _ hmem req' rfl hid
        rw [hnew, hmax, hlimit] at hcells
        exact (Option.some.inj hcells).symm
  · intro cells hcells
    cases hcells

/-- And so has every candidate of that id. -/
theorem Tried.capacity {full rest : List Node} {n : Node} (h : Tried svc i ls p full rest)
    (hkeep : KeepsCapacity req ls) (hn : n ∈ full ++ rest) (hid : n.id = req.nodeId) :
    n.maxConnections = req.maxConnections ∧ n.bandwidthLimit = req.bandwidthLimit := by
  obtain ⟨ls₁, ls₂, q, rfl, h₁, hreg⟩ := h.registers hn
  have hkeep₁ : KeepsCapacity req ls₁ := fun l hl => hkeep l (List.mem_append_left _ hl)
  have hslots : SlotInv req ⟨q.shared.registry, fun _ => none⟩ [] :=
    ⟨capacity_of_run h₁ hkeep₁, fun a ha => (by cases ha), fun g hg => (by cases hg)⟩
  exact hslots.registers hreg hid

/-- An allocator has the limit it had, or that of the candidate whose selection has made it. -/
theorem CallerStep.limit_cases (h : CallerStep s c l s' c') (hok : c.Ok svc i ls p) {id : String}
    {b : BandwidthAllocator} (hb : s'.allocators id = some b) :
    (∃ a, s.allocators id = some a ∧ b.limit = a.limit) ∨
      ∃ n full rest, Tried svc i ls p full (n :: rest) ∧ n.id = id ∧ b.limit = n.bandwidthLimit := by
  cases h with
  | call hst hl => exact .inl ⟨b, hst.allocators hl ▸ hb, rfl⟩
  | @lookup t nodeId limit rate k hrest =>
    rcases Store.allocators_setAllocator hb with ⟨rfl, rfl⟩ | hb
    · cases ha : s.allocators id with
      | some a => exact .inl ⟨a, rfl, by rw [Store.allocator, ha, Option.getD_some]⟩
      | none =>
        refine .inr ?_
        rw [Store.allocator, ha, Option.getD_none]
        rcases hok with hsel | ⟨_, ⟨⟩, -, hfree⟩
        · cases hsel with
          | fresh began =>
            rw [prog_selectWithBandwidth] at hrest
            cases hrest
          | @trying began full rest htried =>
            cases rest with
            | nil => cases hrest
            | cons n rest =>
              rw [selectRest_cons] at hrest
              cases hrest
              exact ⟨n, full, rest, htried, rfl, rfl⟩
          | selected began htried => cases hrest
          | failed began e => cases hrest
        · rw [Unguarded, hrest] at hfree
          exact absurd rfl (hfree.1.1 _ _ _)
    · exact .inl ⟨b, hb, rfl⟩
  | atomic ha hl hact =>
    rcases Store.allocators_setAllocator hb with ⟨rfl, rfl⟩ | hb
    · exact .inl ⟨_, ha, rfl⟩
    · exact .inl ⟨b, hb, rfl⟩
  | refused hpc => exact .inl ⟨b, hb, rfl⟩
  | granted hpc => exact .inl ⟨b, hb, rfl⟩
  | drop hrest => exact .inl (limit_of_release hb)

theorem limit_of_run (hrun : Run (AdmissionStep svc) unused ls p) (hkeep : KeepsCapacity req ls) :
    ∀ a, p.shared.allocators req.nodeId = some a → a.limit = req.bandwidthLimit := by
  revert hkeep
  refine Run.snoc_induction (P := fun ls p => KeepsCapacity req ls → ∀ a, p.shared.allocators req.nodeId = some a →
    a.limit = req.bandwidthLimit) (fun _ a ha => by cases ha) (fun ls p l p' hrun ih hst hkeep a ha => ?_) hrun
  have hkeep' : KeepsCapacity req ls := fun l hl => hkeep l (List.mem_append_left _ hl)
  cases hst with
  | start hc => exact ih hkeep' a ha
  | act hi hact =>
    rcases hact.limit_cases (callers_ok hrun _ _ hi) ha with ⟨b, hb, hlimit⟩ | ⟨n, full, rest, htried, hid, hlimit⟩
    · exact hlimit.trans (ih hkeep' b hb)
    · exact hlimit.trans (htried.capacity hkeep' (List.mem_append_right _ List.mem_cons_self) hid).2

/-- A guard is for the share of a candidate. -/
theorem Caller.Ok.guard_share (hok : c.Ok svc i ls p) {g : BandwidthGuard} (hg : c.guard = some g) :
    ∃ n full rest, Tried svc i ls p full (n :: rest) ∧ g = ⟨n.id, ControlPlaneService.share n⟩ := by
  rcases hok with hsel | ⟨t, rfl, -, hfree⟩
  · cases hsel with
    | fresh began => cases hg
    | trying began htried =>
      rw [guard_selectRest] at hg
      cases hg
    | @reserving t n full rest ceiling pc hcall hpc htried =>
      cases pc with
      | granted =>
        cases hg
        exact ⟨n, full, rest, htried, rfl⟩
      | _ => cases hg
    | refused hcall htried => cases hg
    | selected began htried =>
      cases hg
      exact ⟨_, _, _, htried, rfl⟩
    | failed began e => cases hg
    | dropped t => cases hg
  · rw [guard_unguarded hfree] at hg
    cases hg

theorem slotInv_of_run (hrun : Run (AdmissionStep svc) unused ls p) (hkeep : KeepsCapacity req ls) :
    SlotInv req p.shared (guards p) := by
  refine ⟨capacity_of_run hrun hkeep, limit_of_run hrun hkeep, fun g hg hid => ?_⟩
  obtain ⟨c, hc, hguard⟩ := List.mem_filterMap.mp hg
  obtain ⟨i, hi⟩ := List.mem_iff_getElem?.mp hc
  obtain ⟨n, full, rest, htried, rfl⟩ := (callers_ok hrun i c hi).guard_share hguard
  obtain ⟨hmax, hlimit⟩ := htried.capacity hkeep (List.mem_append_right _ List.mem_cons_self) hid
  change slice n.maxConnections n.bandwidthLimit = _
  rw [hmax, hlimit]

/-- **Never over-committed.** In every interleaving of service calls, at the granularity of repository calls, allocator
lookups and atomic operations, and of guard drops: every counter is the sum of the rates of the guards outstanding for
its node; and those of a node that is always registered with the same slots and limit hold one slice each, together at
most the limit. -/
theorem never_overcommitted (hrun : Run (AdmissionStep svc) unused ls p) :
    (∀ id, p.shared.reservedFor id = heldRate id (guards p)) ∧
      ∀ req, KeepsCapacity req ls →
        heldRate req.nodeId (guards p) =
          outstanding req.nodeId (guards p) * (slice req.maxConnections req.bandwidthLimit).toNat ∧
        heldRate req.nodeId (guards p) ≤ req.bandwidthLimit.toNat := by
  have hbooked := booked_of_run hrun
  refine ⟨hbooked.counted, fun req hkeep => ?_⟩
  have hslots := slotInv_of_run hrun hkeep
  exact ⟨hslots.heldRate_eq, hslots.heldRate_eq ▸ hslots.slices_le hbooked⟩

theorem never_overcommitted_contended :
    outstanding "n1" (guards (play (.new .default) contendedTurns unused).2) = 1 ∧
      (play (.new .default) contendedTurns unused).2.shared.reservedFor "n1" = 1000 := by
  have hkeep : KeepsCapacity ⟨"n1", "10.0.0.1:1080", 1, 1000⟩ (play (.new .default) contendedTurns unused).1 := by
    decide +kernel
  have hone : outstanding "n1" (guards (play (.new .default) contendedTurns unused).2) = 1 := by decide +kernel
  obtain ⟨hcounted, hslots⟩ := never_overcommitted (run_of_play (.new .default) contendedTurns unused)
  refine ⟨hone, (hcounted "n1").trans ((hslots _ hkeep).1.trans ?_)⟩
  rw [hone]
  rfl

end Capacity

/-! ## Justified selections -/

/-- What a selection has returned. -/
def Caller.returned : Caller → Option (Option SelectedNode)
  | .calling ⟨.selectWithBandwidth, _, .ret (.selected r)⟩ => some r
  | _ => none

/-- **A selection is justified by what it saw.** In every interleaving, a selection that has returned had listed the
nodes at some moment, and since then found a number of the candidates full, each at a moment of its own, that come
before all others by score; it gives out a slice of the first candidate after them, or nothing if there is none. -/
theorem selection_justified {svc : ControlPlaneService} {ls : List AdmissionLabel} {p : Pool Store Caller} {i : Nat}
    {c : Caller} {r : Option SelectedNode} (hrun : Run (AdmissionStep svc) unused ls p) (hi : p.tasks[i]? = some c)
    (hret : c.returned = some r) : ∃ full rest, Tried svc i ls p full rest ∧ r = rest.head?.map grantFor := by
  rcases callers_ok hrun i c hi with hsel | ⟨t, rfl, hcall, -⟩
  · cases hsel with
    | fresh began => cases hret
    | @trying began full rest htried =>
      cases rest with
      | nil =>
        cases hret
        exact ⟨full, [], htried, rfl⟩
      | cons n rest =>
        rw [selectRest_cons] at hret
        cases hret
    | reserving hcall hpc htried => cases hret
    | refused hcall htried => cases hret
    | selected began htried =>
      cases hret
      exact ⟨_, _, htried, rfl⟩
    | failed began e => cases hret
    | dropped t => cases hret
  · unfold Caller.returned at hret
    split at hret
    · next heq =>
      cases heq
      exact absurd rfl hcall
    · cases hret

/-- The selection that loses the race has found the only candidate full. -/
theorem selection_justified_contended : ∃ full, Tried (.new .default) 3 (play (.new .default) contendedTurns unused).1
    (play (.new .default) contendedTurns unused).2 full [] := by
  have hret : ((play (.new .default) contendedTurns unused).2.tasks[3]?.bind Caller.returned) = some none := by
    decide +kernel
  obtain ⟨c, hi, hret⟩ := Option.bind_eq_some_iff.mp hret
  obtain ⟨full, rest, htried, hnone⟩ := selection_justified (run_of_play _ contendedTurns unused) hi hret
  obtain rfl : rest = [] := by
    cases rest with
    | nil => rfl
    | cons n rest => cases hnone
  exact ⟨full, htried⟩

end RustProxy.ControlPlane
