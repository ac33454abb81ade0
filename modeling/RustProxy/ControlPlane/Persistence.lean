import RustProxy.Lib.Rely
import RustProxy.ControlPlane.Interleaving

/-!
# What concurrent calls never undo

Two facts about a row stay true whatever else is in flight: that it is there, and that a heartbeat is recorded in it
(`Keeps`). Each call is guarded by them alone (`guarded_call`): a heartbeat writes a state that accepts work only after
it has recorded itself in a row that it has read, and a registration finds the row it has written.

`selectable_rows_have_heartbeat` is what follows for every interleaving, at any number of calls: a row in state
`Healthy` or `Degraded` has a recorded heartbeat, no row is removed, and no registration ends with `node disappeared`.
-/

namespace RustProxy.ControlPlane

open Lib

/-! ## Rows -/

/-- A heartbeat is recorded in the row of `id`. -/
def Store.Beaten (s : Store) (id : String) : Prop := ∃ row, s.registry.find? id = some row ∧ row.lastHeartbeat.isSome

/-- What others never undo. -/
structure Keeps (s s' : Store) : Prop where
  rows : ∀ id, (s.registry.find? id).isSome → (s'.registry.find? id).isSome
  beaten : ∀ id, s.Beaten id → s'.Beaten id

theorem Keeps.refl (s : Store) : Keeps s s := ⟨fun _ h => h, fun _ h => h⟩

theorem Keeps.trans (s₁ s₂ s₃ : Store) (h : Keeps s₁ s₂) (h' : Keeps s₂ s₃) : Keeps s₁ s₃ :=
  ⟨fun id hs => h'.rows id (h.rows id hs), fun id hs => h'.beaten id (h.beaten id hs)⟩

/-- Every row in a state that accepts work has a recorded heartbeat. -/
def Store.HeartbeatsRecorded (s : Store) : Prop :=
  ∀ id, ∀ row ∈ s.registry.find? id, row.status.selectable = true → row.lastHeartbeat.isSome

/-- Only a state that accepts work needs anything of the row it is written to. -/
def Op.Allowed (s : Store) : Op → Prop
  | .setState id state => state.selectable = true → s.Beaten id
  | _ => True

/-- One operation, performed or failed. -/
inductive Op.Acts (o : Op) (s : Store) : Ans o → Store → Prop
  | perform (now : DateTime) : Acts o s (o.exec now s).1 (o.exec now s).2
  | fault {a : Ans o} : o.fault = some a → Acts o s a s

theorem lastHeartbeat_rowAfter {o : Op} {row : Row} (h : row.lastHeartbeat.isSome) (now : DateTime) :
    ∃ row' ∈ o.rowAfter now (some row), row'.lastHeartbeat.isSome := by
  cases o with
  | applyHeartbeat hb => exact ⟨_, rfl, rfl⟩
  | _ => exact ⟨_, rfl, h⟩

theorem keeps_exec (o : Op) (now : DateTime) (s : Store) : Keeps s (o.exec now s).2 := by
  constructor
  · intro id h
    exact o.isSome_find?_exec now h
  · rintro id ⟨row, hrow, hbeat⟩
    by_cases hw : o.writes = some id
    · obtain ⟨row', hrow', hbeat'⟩ := lastHeartbeat_rowAfter (o := o) hbeat now
      refine ⟨row', ?_, hbeat'⟩
      rw [Op.find?_exec_self hw, hrow]
      exact hrow'
    · exact ⟨row, by rw [Op.find?_exec_of_ne hw, hrow], hbeat⟩

theorem recorded_upsertRow {found : Option Row} {req : RegisterRequest} {now : DateTime}
    (h : ∀ row ∈ found, row.status.selectable = true → row.lastHeartbeat.isSome)
    (hsel : (Registry.upsertRow req now found).status.selectable = true) :
    (Registry.upsertRow req now found).lastHeartbeat.isSome := by
  cases found with
  | none => cases hsel
  | some old =>
    simp only [Registry.upsertRow, Registry.conflictRow] at hsel ⊢
    split at hsel
    · cases hsel
    · exact h old rfl hsel

/-- An allowed operation keeps the invariant. -/
theorem recorded_exec {o : Op} {s : Store} (hs : s.HeartbeatsRecorded) (hallow : o.Allowed s) (now : DateTime) :
    (o.exec now s).2.HeartbeatsRecorded := by
  intro id row hrow hsel
  rw [Op.find?_exec] at hrow
  split at hrow
  · next hw =>
    cases o with
    | get id' => cases hw
    | list => cases hw
    | reserve nodeId limit rate => cases hw
    | register req =>
      cases hrow
      exact recorded_upsertRow (hs id) hsel
    | applyHeartbeat hb =>
      obtain ⟨old, -, rfl⟩ := Option.map_eq_some_iff.mp hrow
      rfl
    | setDraining id' =>
      obtain ⟨old, -, rfl⟩ := Option.map_eq_some_iff.mp hrow
      cases hsel
    | markOffline id' =>
      obtain ⟨old, -, rfl⟩ := Option.map_eq_some_iff.mp hrow
      cases hsel
    | setState id' state =>
      obtain ⟨old, hold, rfl⟩ := Option.map_eq_some_iff.mp hrow
      cases hw
      obtain ⟨row', hrow', hbeat⟩ := hallow hsel
      cases hold.symm.trans hrow'
      exact hbeat
    | adjustActive id' delta =>
      obtain ⟨old, hold, rfl⟩ := Option.map_eq_some_iff.mp hrow
      exact hs id old hold hsel
    | accumulateBytes id' up down =>
      obtain ⟨old, hold, rfl⟩ := Option.map_eq_some_iff.mp hrow
      exact hs id old hold hsel
  · exact hs id row hrow hsel

theorem Op.Acts.keeps {o : Op} {s s' : Store} {a : Ans o} (hs : s.HeartbeatsRecorded) (hallow : o.Allowed s)
    (h : o.Acts s a s') : s'.HeartbeatsRecorded ∧ Keeps s s' := by
  cases h with
  | perform now => exact ⟨recorded_exec hs hallow now, keeps_exec o now s⟩
  | fault ha => exact ⟨hs, Keeps.refl s⟩

/-! ## Errors of the repository -/

theorem tryGet_ne (column : String) (c : Cell) : c.tryGet column ≠ .error .nodeDisappeared := by
  cases c <;> rintro ⟨⟩

theorem epoch_ne (unix : Int) : epoch unix ≠ .error .nodeDisappeared := by
  unfold epoch
  split <;> rintro ⟨⟩

theorem rowIntoNode_ne (row : Row) : rowIntoNode row ≠ .error .nodeDisappeared := by
  intro h
  simp only [rowIntoNode, bind, Except.bind] at h
  repeat' split at h
  all_goals cases h
  all_goals first
    | exact tryGet_ne _ _ ‹_›
    | exact epoch_ne _ ‹_›

theorem get_ne (id : String) (t : Registry) : Registry.get id t ≠ .error .nodeDisappeared := by
  intro h
  unfold Registry.get at h
  split at h
  · cases h
  · next row _ =>
    cases hr : rowIntoNode row with
    | error e => rw [hr] at h; cases h; exact rowIntoNode_ne row hr
    | ok n => rw [hr] at h; cases h

theorem mapM_ne (rows : List Row) : rows.mapM rowIntoNode ≠ .error .nodeDisappeared := by
  intro h
  induction rows with
  | nil => cases h
  | cons row rows ih =>
    rw [List.mapM_cons] at h
    cases hr : rowIntoNode row with
    | error e => rw [hr] at h; cases h; exact rowIntoNode_ne row hr
    | ok n =>
      cases hrs : rows.mapM rowIntoNode with
      | error e => rw [hr, hrs] at h; cases h; exact ih hrs
      | ok ns => rw [hr, hrs] at h; cases h

/-- An answer is an error that a statement or the decoding of a row can give. -/
def Proper : (o : Op) → Ans o → Prop
  | .reserve .., _ => True
  | .get _, a => a ≠ .error .nodeDisappeared
  | .list, a => a ≠ .error .nodeDisappeared
  | .register _, a | .applyHeartbeat _, a | .setDraining _, a | .markOffline _, a | .setState .., a
  | .adjustActive .., a | .accumulateBytes .., a => a ≠ .error .nodeDisappeared

theorem Op.Acts.proper {o : Op} {s s' : Store} {a : Ans o} (h : o.Acts s a s') : Proper o a := by
  cases h with
  | perform now =>
    cases o with
    | get id => exact get_ne id s.registry
    | list => exact mapM_ne s.registry.rows
    | reserve nodeId limit rate => trivial
    | _ => rintro ⟨⟩
  | fault ha => cases o <;> cases ha <;> rintro ⟨⟩

/-! ## The calls, each alone -/

/-- Guarded by what the others keep; `node disappeared` is not expected. -/
abbrev Guards {α : Type} (Q : α → Store → Prop) (p : ServiceM α) (s : Store) : Prop :=
  Prog.Guarded Op.Acts Keeps (fun s o => o.Allowed s) (· ≠ .nodeDisappeared) Q p s

section Calls

variable {s : Store}

theorem guards_op {α : Type} {o : Op} {k : Ans o → Except Error α} {Q : α → Store → Prop}
    (hallow : ∀ s', Keeps s s' → o.Allowed s') (hk : ∀ a, Proper o a → k a ≠ .error .nodeDisappeared)
    (hQ : ∀ s' a s'' v, Keeps s s' → o.Acts s' a s'' → k a = .ok v → Q v s'') :
    Guards Q (.op o fun a => Prog.ofExcept (k a)) s := by
  apply Prog.guarded_opExcept
  intro s' hs'
  refine ⟨hallow s' hs', fun a s'' hact => ⟨fun v hv => hQ s' a s'' v hs' hact hv, fun e he => ?_⟩⟩
  rintro rfl
  exact hk a hact.proper he

/-- An operation that needs nothing. -/
theorem guards_free {α : Type} {o : Op} {k : Ans o → Except Error α} (hallow : ∀ s', o.Allowed s')
    (hk : ∀ a, Proper o a → k a ≠ .error .nodeDisappeared) :
    Guards (fun _ _ => True) (.op o fun a => Prog.ofExcept (k a)) s :=
  guards_op (fun s' _ => hallow s') hk fun _ _ _ _ _ _ _ => trivial

theorem guards_get {id : String} {Q : Option Node → Store → Prop}
    (hQ : ∀ s' found, Keeps s s' → Registry.get id s'.registry = .ok found → Q found s') :
    Guards Q (Repo.get id) s := by
  apply guards_op (o := .get id) (k := fun a => a)
  · exact fun _ _ => trivial
  · exact fun _ ha => ha
  · intro s' a s'' v hs' hact hv
    cases hact with
    | perform now => exact hQ s' v hs' hv
    | fault ha => cases ha; cases hv

theorem guards_list : Guards (fun _ _ => True) Repo.list s :=
  guards_free (o := .list) (k := fun a => a) (fun _ => trivial) fun _ ha => ha

theorem guards_register (req : RegisterRequest) : Guards (fun _ _ => True) (ControlPlaneService.register req) s := by
  have hwrite : Guards (fun _ s' => (s'.registry.find? req.nodeId).isSome = true) (Repo.register req) s := by
    apply guards_op (o := .register req) (k := fun a => a)
    · exact fun _ _ => trivial
    · exact fun _ ha => ha
    · intro s' a s'' v _ hact hv
      cases hact with
      | perform now =>
        rw [Op.find?_exec_self rfl]
        rfl
      | fault ha => cases ha; cases hv
  refine Prog.Guarded.bind hwrite fun _ s' hsome => ?_
  -- the row is still there when it is read back
  have hread : Guards (fun found _ => found.isSome = true) (Repo.get req.nodeId) s' := by
    apply guards_get
    intro s'' found hs'' hget
    cases found with
    | none =>
      have hnone := hs''.rows req.nodeId hsome
      rw [Registry.get_none hget] at hnone
      cases hnone
    | some n => rfl
  refine Prog.Guarded.bind hread fun found s'' hfound => ?_
  cases found with
  | none => cases hfound
  | some n => trivial

theorem guards_applyHeartbeat {hb : Heartbeat} (hs : (s.registry.find? hb.nodeId).isSome) :
    Guards (fun _ s' => s'.Beaten hb.nodeId) (Repo.applyHeartbeat hb) s := by
  apply guards_op (o := .applyHeartbeat hb) (k := fun a => a)
  · exact fun _ _ => trivial
  · exact fun _ ha => ha
  · intro s' a s'' v hs' hact hv
    cases hact with
    | perform now =>
      obtain ⟨row, hrow⟩ := Option.isSome_iff_exists.mp (hs'.rows hb.nodeId hs)
      refine ⟨Registry.heartbeatRow hb now row, ?_, rfl⟩
      rw [Op.find?_exec_self rfl, hrow]
      rfl
    | fault ha => cases ha; cases hv

theorem guards_heartbeatFound (svc : ControlPlaneService) {hb : Heartbeat} (state : NodeState) (max : UInt32)
    (hs : (s.registry.find? hb.nodeId).isSome) :
    Guards (fun _ _ => True) (svc.heartbeatFound hb state max) s := by
  refine Prog.Guarded.bind (guards_applyHeartbeat hs) fun _ s' hbeaten => ?_
  have htail : ∀ s'', Guards (fun _ _ => True) ((Repo.get hb.nodeId).bind fun _ => .ret ()) s'' := fun s'' =>
    Prog.Guarded.bind (guards_get fun _ _ _ _ => trivial) fun _ _ _ => trivial
  dsimp only
  split
  · refine Prog.Guarded.bind (Q := fun _ _ => True) ?_ fun _ s'' _ => htail s''
    apply guards_op (o := .setState hb.nodeId _) (k := fun a => a)
    · exact fun s'' hs'' _ => hs''.beaten hb.nodeId hbeaten
    · exact fun _ ha => ha
    · exact fun _ _ _ _ _ _ _ => trivial
  · exact htail s'

theorem guards_heartbeat (svc : ControlPlaneService) (hb : Heartbeat) :
    Guards (fun _ _ => True) (svc.heartbeat hb) s := by
  have hread : Guards (fun found s' => found.isSome = true → (s'.registry.find? hb.nodeId).isSome = true)
      (Repo.get hb.nodeId) s := by
    apply guards_get
    intro s' found _ hget hfound
    obtain ⟨n, rfl⟩ := Option.isSome_iff_exists.mp hfound
    obtain ⟨row, hrow, -⟩ := Registry.get_some hget
    rw [hrow]
    rfl
  refine Prog.Guarded.bind hread fun found s' hfound => ?_
  cases found with
  | none => trivial
  | some n => exact guards_heartbeatFound svc n.state n.maxConnections (hfound rfl)

theorem guards_drain (id : String) : Guards (fun _ _ => True) (ControlPlaneService.drain id) s := by
  have hwrite : Guards (fun _ _ => True) (Repo.setDraining id) s :=
    guards_free (o := .setDraining id) (k := fun a => a) (fun _ => trivial) fun _ ha => ha
  exact Prog.Guarded.bind hwrite fun _ _ _ => guards_get fun _ _ _ _ => trivial

theorem guards_markLoop (ids : List String) (marked : Nat) : Guards (fun _ _ => True) (markLoop ids marked) s := by
  induction ids generalizing marked s with
  | nil => trivial
  | cons id ids ih =>
    have hwrite : Guards (fun _ _ => True) (Repo.markOffline id) s :=
      guards_free (o := .markOffline id) (k := fun a => a) (fun _ => trivial) fun _ ha => ha
    exact Prog.Guarded.bind hwrite fun _ _ _ => ih (marked + 1)

theorem guards_reserveLoop (nodes : List Node) :
    Guards (fun _ _ => True) (ControlPlaneService.reserveLoop nodes) s := by
  induction nodes generalizing s with
  | nil => trivial
  | cons node nodes ih =>
    intro s' _
    refine ⟨trivial, fun a s'' _ => ?_⟩
    cases a with
    | none => exact ih
    | some g => trivial

/-- **Every call is guarded**, from any store. -/
theorem guarded_call (svc : ControlPlaneService) (now : DateTime) (c : Call) :
    Guards (fun _ _ => True) (c.prog svc now) s := by
  cases c with
  | register req => exact Prog.Guarded.bind (guards_register req) fun _ _ _ => trivial
  | heartbeat hb => exact Prog.Guarded.bind (guards_heartbeat svc hb) fun _ _ _ => trivial
  | list => exact Prog.Guarded.bind guards_list fun _ _ _ => trivial
  | get id => exact Prog.Guarded.bind (guards_get (Q := fun _ _ => True) fun _ _ _ _ => trivial) fun _ _ _ => trivial
  | drain id => exact Prog.Guarded.bind (guards_drain id) fun _ _ _ => trivial
  | select =>
    have hselect : Guards (fun _ _ => True) svc.select s := Prog.Guarded.bind guards_list fun _ _ _ => trivial
    exact Prog.Guarded.bind hselect fun _ _ _ => trivial
  | selectWithBandwidth =>
    exact Prog.Guarded.bind (Prog.Guarded.bind guards_list fun _ _ _ => guards_reserveLoop _) fun _ _ _ => trivial
  | adjustActive id delta =>
    have hwrite : Guards (fun _ _ => True) (Repo.adjustActive id delta) s :=
      guards_free (o := .adjustActive id delta) (k := fun a => a) (fun _ => trivial) fun _ ha => ha
    exact Prog.Guarded.bind hwrite fun _ _ _ => trivial
  | markStaleOffline =>
    have hsweep : Guards (fun _ _ => True) (svc.markStaleOffline now) s := by
      refine Prog.Guarded.bind guards_list fun nodes _ _ => ?_
      rw [sweepLoop_eq]
      exact guards_markLoop _ 0
    exact Prog.Guarded.bind hsweep fun _ _ _ => trivial

end Calls

/-! ## Any interleaving -/

theorem TaskStep.acts {s s' : Store} {t t' : Task} {l : TaskAct} (h : TaskStep s t l s' t') :
    ∃ o k a, t.rest = .op o k ∧ o.Acts s a s' ∧ t'.rest = k a := by
  cases h with
  | @perform o k now hrest => exact ⟨o, k, _, hrest, .perform now, rfl⟩
  | @fault o k a hrest ha => exact ⟨o, k, a, hrest, .fault ha, rfl⟩

theorem guarded_of_run {svc : ControlPlaneService} {ls : List ServiceLabel} {p : Pool Store Task}
    (h : Run (ServiceStep svc) idle ls p) :
    Pool.Inv Store.HeartbeatsRecorded (fun s t => Guards (fun _ _ => True) t.rest s) p := by
  refine Pool.guarded_run Task.rest (fun _ _ _ _ _ hst => hst.acts) Keeps.refl Keeps.trans
    (fun o s a s' hs hallow hact => hact.keeps hs hallow) (fun s t _ hfresh => ?_) h ⟨?_, ?_⟩
  · rw [hfresh]
    exact guarded_call svc t.began t.call
  · intro id row hrow
    cases hrow
  · intro t ht
    cases ht

/-- A step of the service removes no row. -/
theorem isSome_find?_step {svc : ControlPlaneService} {p p' : Pool Store Task} {l : ServiceLabel} {id : String}
    (hsome : (p.shared.registry.find? id).isSome = true) (h : ServiceStep svc p l p') :
    (p'.shared.registry.find? id).isSome = true := by
  cases h with
  | start _ => exact hsome
  | act _ hst =>
    cases hst with
    | @perform o k now hrest => exact o.isSome_find?_exec now hsome
    | fault _ _ => exact hsome

/-- **What every interleaving keeps.** In every reachable state, a row in state `Healthy` or `Degraded` has a recorded
heartbeat, the rows there are stay there, and no call has ended with `node disappeared after register`. -/
theorem selectable_rows_have_heartbeat {svc : ControlPlaneService} {ls : List ServiceLabel} {p : Pool Store Task}
    (hreach : Run (ServiceStep svc) idle ls p) :
    (∀ id row, p.shared.registry.find? id = some row → (row.status = .healthy ∨ row.status = .degraded) →
      row.lastHeartbeat ≠ none) ∧
    (∀ ls' q id, Run (ServiceStep svc) p ls' q → (p.shared.registry.find? id).isSome = true →
      (q.shared.registry.find? id).isSome = true) ∧
    ∀ t ∈ p.tasks, t.rest ≠ .fail .nodeDisappeared := by
  obtain ⟨hrec, hguard⟩ := guarded_of_run hreach
  refine ⟨?_, ?_, ?_⟩
  · intro id row hrow hstatus
    have hsel : row.status.selectable = true := by rcases hstatus with h | h <;> rw [h] <;> rfl
    exact Option.isSome_iff_ne_none.mp (hrec id row hrow hsel)
  · intro ls' q id hrun hsome
    exact hrun.inv (I := fun p => (p.shared.registry.find? id).isSome = true)
      (fun _ _ _ hs hst => isSome_find?_step hs hst) hsome
  · intro t ht hfail
    have hg : Guards (fun _ _ => True) t.rest p.shared := hguard t ht
    rw [hfail] at hg
    exact hg rfl

/-- Two registrations and a heartbeat of the same node, their steps mixed, and a sweep. -/
def mixedTurns : List Turn :=
  [.arrive (.ofSecond 0) (.register ⟨"n1", "10.0.0.1:1080", 100, 1000⟩), .act (.ofSecond 0) 0,
    .arrive (.ofSecond 0) (.heartbeat ⟨"n1", 95, 0, 0, 0, 1000⟩),
    .arrive (.ofSecond 1) (.register ⟨"n1", "10.0.0.2:1080", 50, 1000⟩), .act (.ofSecond 1) 1, .act (.ofSecond 1) 2,
    .act (.ofSecond 1) 1, .act (.ofSecond 1) 0, .arrive (.ofSecond 2) .markStaleOffline, .act (.ofSecond 2) 3,
    .act (.ofSecond 2) 1]

theorem mixedTurns_heartbeat : ∃ row,
    (runSchedule (.new .default) mixedTurns idle).shared.registry.find? "n1" = some row ∧
      row.status = .degraded ∧ row.lastHeartbeat ≠ none := by
  obtain ⟨_, hreach⟩ := run_of_runSchedule (.new .default) mixedTurns idle
  have hfound : ((runSchedule (.new .default) mixedTurns idle).shared.registry.find? "n1").map Row.status =
      some .degraded := by decide +kernel
  obtain ⟨row, hrow, hstatus⟩ := Option.map_eq_some_iff.mp hfound
  exact ⟨row, hrow, hstatus, (selectable_rows_have_heartbeat hreach).1 "n1" row hrow (.inr hstatus)⟩

end RustProxy.ControlPlane
