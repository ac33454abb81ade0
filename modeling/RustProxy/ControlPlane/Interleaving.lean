import RustProxy.Lib.Interleave
import RustProxy.ControlPlane.Service

/-!
# Concurrent service calls

Any number of service calls in flight at once: each repository call is one atomic step, at its own clock value, and may
fail without an effect.

Between a read and the status writes that follow from it other calls may act, so what can go wrong is read off the
writes a call has already `decided` on. Every decided write of a status comes from a row that was read live
(`Call.always_sound`), and from this

* a node that is draining stays so, if no call had decided on its status when it was drained
  (`drained_not_selectable`; `drainLost` is a heartbeat that had);
* a sweep marks only rows that are still live and stale, if no call drains, marks or revives a node that a sweep has
  decided to mark (`marks_live_stale`; `markedAlive` is a heartbeat that does).
-/

namespace RustProxy.ControlPlane

open Lib

/-! ## Tasks -/

/-- A service call in flight. -/
structure Task where
  call : Call
  /-- The clock value that the call read when it began. -/
  began : DateTime
  rest : ServiceM Outcome

/-- One step of a task: its next repository call is performed, or fails. -/
inductive TaskAct
  | perform (o : Op) (now : DateTime)
  | fault (o : Op)

/-- The answer of a repository call whose statement fails. -/
def Op.fault : (o : Op) → Option (Ans o)
  | .reserve .. => none
  | .register _ | .get _ | .list | .applyHeartbeat _ | .setDraining _ | .markOffline _ | .setState .. | .adjustActive ..
  | .accumulateBytes .. => some (.error .database)

inductive TaskStep : Store → Task → TaskAct → Store → Task → Prop
  | perform {s : Store} {t : Task} {o : Op} {k : Ans o → ServiceM Outcome} (now : DateTime) : t.rest = .op o k →
      TaskStep s t (.perform o now) (o.exec now s).2 { t with rest := k (o.exec now s).1 }
  | fault {s : Store} {t : Task} {o : Op} {k : Ans o → ServiceM Outcome} {a : Ans o} : t.rest = .op o k →
      o.fault = some a → TaskStep s t (.fault o) s { t with rest := k a }

/-- A task that has not done anything yet. -/
def Task.Fresh (svc : ControlPlaneService) (t : Task) : Prop := t.rest = t.call.prog svc t.began

abbrev ServiceLabel := Pool.Label Task TaskAct

/-- One step of the service: a call arrives, or a task acts. -/
abbrev ServiceStep (svc : ControlPlaneService) := Pool.Step (Task.Fresh svc) TaskStep

/-- The service before any call. -/
def idle : Pool Store Task := ⟨.empty, []⟩

/-! ## Decided writes -/

/-- The status writes a call has decided on: those it still makes, if nothing fails, before it reads again. -/
def decided {α : Type} : ServiceM α → List (String × NodeState)
  | .op (.markOffline id) k => (id, .offline) :: decided (k (.ok ()))
  | .op (.setState id state) k => (id, state) :: decided (k (.ok ()))
  | .op (.applyHeartbeat _) k => decided (k (.ok ()))
  | _ => []

/-- The answers a registry gives: a listing names no node twice. -/
def Listed : (o : Op) → Ans o → Prop
  | .list, .ok nodes => nodes.Pairwise fun a b => a.id < b.id
  | _, _ => True

/-- The status writes that a call, begun at `now`, decides on when it reads `a`. -/
def Decides (svc : ControlPlaneService) (c : Call) (now : DateTime) : (o : Op) → Ans o → String × NodeState → Prop
  | .get id, .ok (some n), w => (∃ hb, c = .heartbeat hb) ∧ w.1 = id ∧ n.state.live = true ∧ w.2.live = true
  | .list, .ok nodes, w => c = .markStaleOffline ∧ w.2 = .offline ∧ ∃ n ∈ nodes, n.id = w.1 ∧ svc.due now n = true
  | _, _, _ => False

/-- What is left of a call that decides by its reads only. -/
structure Sound (svc : ControlPlaneService) (c : Call) (now : DateTime) (p : ServiceM Outcome) : Prop where
  /-- No node's status is written twice. -/
  nodup : ((decided p).map Prod.fst).Nodup
  byRead : ∀ o k, p = .op o k → ∀ a, ∀ w ∈ decided (k a), w ∈ decided p ∨ Decides svc c now o a w
  /-- Only a call that is about to mark a node has decided on `Offline`. -/
  live : ∀ o k, p = .op o k → (∀ id, o ≠ .markOffline id) → ∀ w ∈ decided p, w.2.live = true

/-- Operations that neither write a status nor lead up to such a write. -/
def Op.quiet : Op → Bool
  | .markOffline _ | .setState .. | .applyHeartbeat _ => false
  | _ => true

theorem decided_of_quiet {α : Type} {o : Op} (ho : o.quiet = true) (k : Ans o → ServiceM α) :
    decided (.op o k) = [] := by
  cases o <;> first | rfl | cases ho

theorem decided_of_respects {α : Type} {p : ServiceM α}
    (hp : Prog.Respects (fun o => o.quiet = true) (fun _ _ => True) p) : decided p = [] := by
  cases p with
  | ret a => rfl
  | fail e => rfl
  | op o k => exact decided_of_quiet hp.1 k

section Sound

variable {svc : ControlPlaneService} {c : Call} {now : DateTime}

/-- A program with quiet operations only never decides on anything. -/
theorem always_sound_of_quiet {p : ServiceM Outcome}
    (hp : Prog.Respects (fun o => o.quiet = true) (fun _ _ => True) p) :
    Prog.Always Listed (Sound svc c now) p := by
  have hnow : ∀ q : ServiceM Outcome, Prog.Respects (fun o => o.quiet = true) (fun _ _ => True) q →
      Sound svc c now q := by
    intro q hq
    have hnone := decided_of_respects hq
    refine ⟨by rw [hnone]; exact List.nodup_nil, fun o k hk a w hw => ?_, fun o k hk _ w hw => ?_⟩
    · subst hk
      rw [decided_of_respects (hq.2 a trivial)] at hw
      cases hw
    · rw [hnone] at hw
      cases hw
  induction p with
  | ret a => exact hnow _ hp
  | fail e => exact hnow _ hp
  | op o k ih => exact ⟨hnow _ hp, fun a _ => ih a (hp.2 a trivial)⟩

/-- The rest of a sweep over the listed nodes that are left. -/
def sweepRest (svc : ControlPlaneService) (now : DateTime) (nodes : List Node) (marked : Nat) : ServiceM Outcome :=
  (svc.sweepLoop now nodes marked).bind fun count => .ret (.marked count)

/-- The rest of a sweep that marks the nodes with the given ids. -/
def markRest (ids : List String) (marked : Nat) : ServiceM Outcome :=
  (markLoop ids marked).bind fun count => .ret (.marked count)

theorem sweepRest_eq (nodes : List Node) (marked : Nat) :
    sweepRest svc now nodes marked = markRest (dueIds svc now nodes) marked := by
  rw [sweepRest, sweepLoop_eq, markRest]

theorem markRest_cons (id : String) (ids : List String) (marked : Nat) :
    markRest (id :: ids) marked =
      .op (.markOffline id) fun a => (Prog.ofExcept a).bind fun _ => markRest ids (marked + 1) := by
  simp only [markRest, markLoop, Prog.op_bind, Prog.bind_assoc]

/-- A sweep has decided to mark the nodes it has still to mark. -/
theorem decided_markRest (ids : List String) (marked : Nat) :
    decided (markRest ids marked) = ids.map fun id => (id, NodeState.offline) := by
  induction ids generalizing marked with
  | nil => rfl
  | cons id ids ih =>
    rw [markRest_cons, List.map_cons, ← ih (marked + 1)]
    rfl

/-- No node is listed twice, so none is marked twice. -/
theorem nodup_dueIds {nodes : List Node} (hord : nodes.Pairwise fun a b => a.id < b.id) :
    (dueIds svc now nodes).Nodup := by
  rw [dueIds, List.Nodup, List.pairwise_map]
  exact (hord.filter _).imp fun h => ne_of_lt h

theorem always_sound_markRest {ids : List String} (hids : ids.Nodup) (marked : Nat) :
    Prog.Always Listed (Sound svc c now) (markRest ids marked) := by
  induction ids generalizing marked with
  | nil => exact always_sound_of_quiet trivial
  | cons id ids ih =>
    have hnodup : ((decided (markRest (id :: ids) marked)).map Prod.fst).Nodup := by
      rw [decided_markRest, List.map_map]
      exact (List.map_id (id :: ids)).symm ▸ hids
    rw [markRest_cons] at hnodup ⊢
    refine ⟨⟨hnodup, fun o k hk a w hw => ?_, fun o k hk hmark => ?_⟩, fun a _ => ?_⟩
    · cases hk
      cases a with
      | error e => cases hw
      | ok u => exact .inl (List.mem_cons_of_mem _ hw)
    · cases hk
      exact absurd rfl (hmark id)
    · cases a with
      | error e => exact always_sound_of_quiet trivial
      | ok u => exact ih (List.nodup_cons.mp hids).2 (marked + 1)

theorem quiet_heartbeatTail (hb : Heartbeat) :
    Prog.Respects (fun o => o.quiet = true) (fun _ _ => True) (heartbeatTail hb) :=
  ⟨rfl, fun a _ => by cases a <;> trivial⟩

/-- A heartbeat that has read the row decides on the new status, if there is one. -/
theorem decided_heartbeatFound (hb : Heartbeat) (state : NodeState) (max : UInt32) :
    decided ((svc.heartbeatFound hb state max).bind fun _ => .ret Outcome.done) =
      if reclassifyAfterHeartbeat state hb.activeConnections max svc.policy ≠ state then
        [(hb.nodeId, reclassifyAfterHeartbeat state hb.activeConnections max svc.policy)]
      else [] := by
  rw [heartbeatFound_eq]
  simp only [decided, Prog.ofExcept_ok, Prog.ret_bind]
  split
  · simp only [decided, Prog.ofExcept_ok, Prog.ret_bind, decided_of_respects (quiet_heartbeatTail hb)]
  · exact decided_of_respects (quiet_heartbeatTail hb)

theorem mem_decided_heartbeatFound (hb : Heartbeat) (state : NodeState) (max : UInt32) :
    ∀ w ∈ decided ((svc.heartbeatFound hb state max).bind fun _ => .ret Outcome.done),
      w.1 = hb.nodeId ∧ state.live = true ∧ w.2.live = true := by
  intro w hw
  rw [decided_heartbeatFound] at hw
  split at hw
  · rename_i hne
    have hlive := live_of_reclassify_ne hne
    rw [List.mem_singleton.mp hw]
    exact ⟨rfl, hlive, live_of_selectable (reclassify_live hlive _ _ _)⟩
  · cases hw

/-- A heartbeat that writes the status, and then reads the row once more. -/
theorem always_sound_setState (hb : Heartbeat) {state : NodeState} (hlive : state.live = true) :
    Prog.Always Listed (Sound svc c now)
      (.op (.setState hb.nodeId state) fun a => (Prog.ofExcept a).bind fun _ => heartbeatTail hb) := by
  have hdec : decided (.op (.setState hb.nodeId state) fun a => (Prog.ofExcept a).bind fun _ => heartbeatTail hb) =
      [(hb.nodeId, state)] := by
    simp only [decided, Prog.ofExcept_ok, Prog.ret_bind, decided_of_respects (quiet_heartbeatTail hb)]
  refine ⟨⟨by rw [hdec]; exact List.nodup_singleton _, fun o k hk a w hw => ?_, fun o k hk _ w hw => ?_⟩, fun a _ => ?_⟩
  · cases hk
    cases a with
    | error e => cases hw
    | ok u => exact .inl (List.mem_cons_of_mem _ hw)
  · rw [hdec] at hw
    rw [List.mem_singleton.mp hw]
    exact hlive
  · cases a with
    | error e => exact always_sound_of_quiet trivial
    | ok u => exact always_sound_of_quiet (quiet_heartbeatTail hb)

theorem always_sound_heartbeatFound (hb : Heartbeat) (state : NodeState) (max : UInt32) :
    Prog.Always Listed (Sound svc c now) ((svc.heartbeatFound hb state max).bind fun _ => .ret Outcome.done) := by
  have hlive : ∀ w ∈ decided ((svc.heartbeatFound hb state max).bind fun _ => .ret Outcome.done), w.2.live = true :=
    fun w hw => (mem_decided_heartbeatFound hb state max w hw).2.2
  have hnodup : ((decided ((svc.heartbeatFound hb state max).bind fun _ => .ret Outcome.done)).map Prod.fst).Nodup := by
    rw [decided_heartbeatFound]; split <;> simp
  rw [heartbeatFound_eq] at hlive hnodup ⊢
  refine ⟨⟨hnodup, fun o k hk a w hw => ?_, fun o k hk _ w hw => hlive w hw⟩, fun a _ => ?_⟩
  · cases hk
    cases a with
    | error e => cases hw
    | ok u => exact .inl hw
  · cases a with
    | error e => exact always_sound_of_quiet trivial
    | ok u =>
      simp only [Prog.ofExcept_ok, Prog.ret_bind]
      split
      · rename_i hne
        exact always_sound_setState hb (live_of_selectable (reclassify_live (live_of_reclassify_ne hne) _ _ _))
      · exact always_sound_of_quiet (quiet_heartbeatTail hb)

/-- A heartbeat decides on a status when it reads the row, and only if the row is live. -/
theorem always_sound_heartbeat (hb : Heartbeat) :
    Prog.Always Listed (Sound svc (.heartbeat hb) now) (Call.prog svc now (.heartbeat hb)) := by
  refine ⟨⟨List.nodup_nil, fun o k hk a w hw => ?_, fun o k hk _ w hw => by cases hw⟩, fun a _ => ?_⟩
  · cases hk
    match a with
    | .error e => cases hw
    | .ok none => cases hw
    | .ok (some n) =>
      obtain ⟨hid, hstate, hlive⟩ := mem_decided_heartbeatFound hb n.state n.maxConnections w hw
      exact .inr ⟨⟨hb, rfl⟩, hid, hstate, hlive⟩
  · match a with
    | .error e => exact always_sound_of_quiet trivial
    | .ok none => exact always_sound_of_quiet trivial
    | .ok (some n) => exact always_sound_heartbeatFound hb n.state n.maxConnections

theorem Call.always_sound (c : Call) : Prog.Always Listed (Sound svc c now) (c.prog svc now) := by
  have hquiet : (∀ o, c.mayPerform o → o.quiet = true) → Prog.Always Listed (Sound svc c now) (c.prog svc now) :=
    fun h => always_sound_of_quiet ((c.respects_mayPerform svc now).mono h fun _ _ _ => trivial)
  cases c with
  | heartbeat hb => exact always_sound_heartbeat hb
  | markStaleOffline =>
    refine ⟨⟨List.nodup_nil, fun o k hk a w hw => ?_, fun o k hk _ w hw => by cases hw⟩, fun a ha => ?_⟩
    · cases hk
      cases a with
      | error e => cases hw
      | ok nodes =>
        have hw' : w ∈ decided (sweepRest svc now nodes 0) := hw
        rw [sweepRest_eq, decided_markRest] at hw'
        obtain ⟨id, hid, rfl⟩ := List.mem_map.mp hw'
        obtain ⟨n, hn, hdue, hnid⟩ := mem_dueIds.mp hid
        exact .inr ⟨rfl, rfl, n, hn, hnid, hdue⟩
    · cases a with
      | error e => exact always_sound_of_quiet trivial
      | ok nodes =>
        change Prog.Always Listed (Sound svc _ now) (sweepRest svc now nodes 0)
        rw [sweepRest_eq]
        exact always_sound_markRest (nodup_dueIds ha) 0
  | register req => exact hquiet (by rintro o (rfl | rfl) <;> rfl)
  | list => exact hquiet (by rintro o rfl; rfl)
  | get id => exact hquiet (by rintro o rfl; rfl)
  | drain id => exact hquiet (by rintro o (rfl | rfl) <;> rfl)
  | select => exact hquiet (by rintro o rfl; rfl)
  | selectWithBandwidth => exact hquiet (by rintro o (rfl | ⟨_, _, _, rfl⟩) <;> rfl)
  | adjustActive id delta => exact hquiet (by rintro o rfl; rfl)

end Sound

/-! ## Tasks in a run -/

/-- The rest of a task is sound, however it goes on. -/
def Task.Ok (svc : ControlPlaneService) (t : Task) : Prop := Prog.Always Listed (Sound svc t.call t.began) t.rest

theorem listed_exec (o : Op) (now : DateTime) (s : Store) : Listed o (o.exec now s).1 := by
  cases o with
  | list =>
    change Listed .list (Registry.list s.registry)
    cases h : Registry.list s.registry with
    | error e => trivial
    | ok nodes => exact Registry.list_ordered h
  | _ => trivial

theorem listed_fault {o : Op} {a : Ans o} (h : o.fault = some a) : Listed o a := by
  cases o <;> cases h <;> trivial

section Tasks

variable {svc : ControlPlaneService} {s s' : Store} {t t' : Task} {l : TaskAct}

theorem Task.Ok.of_fresh (h : t.Fresh svc) : t.Ok svc := by
  rw [Task.Ok, h]
  exact Call.always_sound t.call

theorem Task.Ok.step (ht : t.Ok svc) (h : TaskStep s t l s' t') : t'.Ok svc := by
  cases h with
  | @perform o k now hrest =>
    rw [Task.Ok, hrest] at ht
    exact ht.2 _ (listed_exec o now s)
  | @fault o k a hrest ha =>
    rw [Task.Ok, hrest] at ht
    exact ht.2 _ (listed_fault ha)

/-- A new call has read nothing yet. -/
theorem decided_of_fresh (h : t.Fresh svc) : decided t.rest = [] := by
  rw [h]
  cases t.call <;> rfl

/-- A failed read decides on nothing. -/
theorem not_decides_fault {c : Call} {now : DateTime} {o : Op} {a : Ans o} {w : String × NodeState}
    (ha : o.fault = some a) : ¬ Decides svc c now o a w := by
  cases o <;> cases ha <;> exact id

/-- **A status is decided on by reading a live row**, and the decision to mark a node by reading a stale one. -/
theorem Decides.exists_row {c : Call} {began now : DateTime} {o : Op} {w : String × NodeState}
    (h : Decides svc c began o (o.exec now s).1 w) :
    ∃ row, s.registry.find? w.1 = some row ∧ row.status.live = true ∧
      (w.2 = .offline → isStale (optEpoch row.lastHeartbeat) began svc.policy = true) := by
  cases o with
  | get id =>
    change Decides svc c began (.get id) (Registry.get id s.registry) w at h
    match hget : Registry.get id s.registry with
    | .error e => rw [hget] at h; exact h.elim
    | .ok none => rw [hget] at h; exact h.elim
    | .ok (some n) =>
      rw [hget] at h
      obtain ⟨_, hid, hlive, hw⟩ := h
      obtain ⟨row, hrow, hdec⟩ := Registry.get_some hget
      refine ⟨row, hid ▸ hrow, (Decodes.of_ok hdec).state ▸ hlive, fun hoff => ?_⟩
      rw [hoff] at hw
      cases hw
  | list =>
    change Decides svc c began .list (Registry.list s.registry) w at h
    cases hlist : Registry.list s.registry with
    | error e => rw [hlist] at h; exact h.elim
    | ok nodes =>
      rw [hlist] at h
      obtain ⟨_, _, n, hn, hid, hdue⟩ := h
      obtain ⟨row, hrow, hdec⟩ := Registry.list_mem hlist hn
      have hdec := Decodes.of_ok hdec
      rw [ControlPlaneService.due, Bool.and_eq_true, hdec.state, hdec.lastHeartbeat] at hdue
      exact ⟨row, hid ▸ hrow, hdue.1, fun _ => hdue.2⟩
  | _ => exact h.elim

/-- A step's new decisions come from the row they are about; the others were there before. -/
theorem Task.Ok.decided_step (ht : t.Ok svc) (h : TaskStep s t l s' t') {w : String × NodeState}
    (hw : w ∈ decided t'.rest) : w ∈ decided t.rest ∨
      s' = s ∧ ∃ row, s.registry.find? w.1 = some row ∧ row.status.live = true ∧
        (w.2 = .offline → isStale (optEpoch row.lastHeartbeat) t.began svc.policy = true) := by
  have hsound := (Prog.Always.now ht).byRead
  cases h with
  | @perform o k now hrest =>
    rcases hsound o k hrest _ w hw with hold | hdec
    · exact .inl hold
    · refine .inr ⟨?_, hdec.exists_row⟩
      cases o <;> first | rfl | exact hdec.elim
  | @fault o k a hrest ha =>
    rcases hsound o k hrest _ w hw with hold | hdec
    · exact .inl hold
    · exact absurd hdec (not_decides_fault ha)

/-- A status write that is not a drain or an upsert has been decided on. -/
theorem mem_decided_of_markOffline {id : String} {k : Ans (.markOffline id) → ServiceM Outcome}
    (h : t.rest = .op (.markOffline id) k) : (id, NodeState.offline) ∈ decided t.rest := by
  rw [h]; exact List.mem_cons_self

theorem mem_decided_of_setState {id : String} {state : NodeState} {k : Ans (.setState id state) → ServiceM Outcome}
    (h : t.rest = .op (.setState id state) k) : (id, state) ∈ decided t.rest := by
  rw [h]; exact List.mem_cons_self

end Tasks

theorem ok_of_run {svc : ControlPlaneService} {ls : List ServiceLabel} {p : Pool Store Task}
    (h : Run (ServiceStep svc) idle ls p) : ∀ t ∈ p.tasks, t.Ok svc := by
  have hinv : Pool.Inv (fun _ => True) (fun _ t => Task.Ok svc t) p := by
    refine Pool.run_inv ?_ ?_ ?_ (h.mono fun p l _ hst => ⟨Pool.tolerated_true p l, hst⟩) ?_
    · exact fun s t _ ht => Task.Ok.of_fresh ht
    · exact fun s t l s' t' _ ht hst => ⟨trivial, ht.step hst⟩
    · exact fun s t l s' t' u _ _ _ _ hu => hu
    · exact ⟨trivial, fun t ht => by cases ht⟩
  exact hinv.2

/-! ## Schedules

Concrete interleavings, as the order in which calls arrive and tasks act. -/

inductive Turn
  | arrive (now : DateTime) (c : Call)
  | act (now : DateTime) (i : Nat)

/-- Let the task with index `i` perform its next operation. -/
def performAt (now : DateTime) (i : Nat) (p : Pool Store Task) : Option (Op × Pool Store Task) :=
  match p.tasks[i]? with
  | some ⟨c, began, .op o k⟩ =>
    some (o, ⟨(o.exec now p.shared).2, p.tasks.set i ⟨c, began, k (o.exec now p.shared).1⟩⟩)
  | _ => none

/-- The pool after the turns; a turn of a finished task does nothing. -/
def runSchedule (svc : ControlPlaneService) : List Turn → Pool Store Task → Pool Store Task
  | [], p => p
  | .arrive now c :: turns, p => runSchedule svc turns ⟨p.shared, p.tasks ++ [⟨c, now, c.prog svc now⟩]⟩
  | .act now i :: turns, p => runSchedule svc turns (((performAt now i p).map Prod.snd).getD p)

theorem step_of_performAt {start : Task → Prop} {now : DateTime} {i : Nat} {p p' : Pool Store Task} {o : Op}
    (h : performAt now i p = some (o, p')) : Pool.Step start TaskStep p (.act i (.perform o now)) p' := by
  unfold performAt at h
  split at h
  · rename_i c began o' k hi
    cases h
    exact .act hi (.perform now rfl)
  · cases h

/-- The step of a single turn. -/
theorem step_of_turn {svc : ControlPlaneService} {now : DateTime} {i : Nat} {p : Pool Store Task} {o : Op}
    (h : (performAt now i p).map Prod.fst = some o) :
    ServiceStep svc p (.act i (.perform o now)) (runSchedule svc [.act now i] p) := by
  obtain ⟨⟨o', p'⟩, hp, rfl⟩ := Option.map_eq_some_iff.mp h
  rw [runSchedule, runSchedule, hp]
  exact step_of_performAt hp

/-- The call that arrives satisfies `A`, and the step of the turn satisfies `T`. -/
def Turn.Allowed (svc : ControlPlaneService) (A : Call → Prop) (T : Pool Store Task → ServiceLabel → Prop)
    (p : Pool Store Task) : Turn → Prop
  | .arrive now c => A c ∧ T p (.start ⟨c, now, c.prog svc now⟩)
  | .act now i => ∀ o ∈ (performAt now i p).map Prod.fst, T p (.act i (.perform o now))

instance (svc : ControlPlaneService) (A : Call → Prop) [DecidablePred A] (T : Pool Store Task → ServiceLabel → Prop)
    [∀ p, DecidablePred (T p)] (p : Pool Store Task) : DecidablePred (Turn.Allowed svc A T p)
  | .arrive .. => inferInstanceAs (Decidable (_ ∧ _))
  | .act .. => inferInstanceAs (Decidable (∀ o ∈ (_ : Option Op), _))

/-- A schedule whose turns are allowed is a run of allowed steps. -/
theorem run_of_turns (svc : ControlPlaneService) {A : Call → Prop} {T : Pool Store Task → ServiceLabel → Prop} :
    ∀ (turns : List Turn) (p : Pool Store Task),
      (∀ k < turns.length, ∀ turn ∈ turns[k]?, turn.Allowed svc A T (runSchedule svc (turns.take k) p)) →
      ∃ ls, Run (fun p l p' => T p l ∧ Pool.Step (fun t => Task.Fresh svc t ∧ A t.call) TaskStep p l p') p ls
        (runSchedule svc turns p)
  | [], p, _ => ⟨[], .nil p⟩
  | .arrive now c :: turns, p, h => by
    have hfresh : Task.Fresh svc ⟨c, now, c.prog svc now⟩ := rfl
    obtain ⟨hA, hT⟩ := h 0 (Nat.succ_pos _) _ rfl
    obtain ⟨ls, hrun⟩ := run_of_turns svc turns (runSchedule svc [.arrive now c] p)
      fun k hk => h (k + 1) (Nat.succ_lt_succ hk)
    exact ⟨_, .cons ⟨hT, .start ⟨hfresh, hA⟩⟩ hrun⟩
  | .act now i :: turns, p, h => by
    have hT := h 0 (Nat.succ_pos _) _ rfl
    obtain ⟨ls, hrun⟩ := run_of_turns svc turns (((performAt now i p).map Prod.snd).getD p)
      fun k hk => h (k + 1) (Nat.succ_lt_succ hk)
    cases hp : performAt now i p with
    | none => exact ⟨ls, by simpa [runSchedule, hp] using hrun⟩
    | some op =>
      have hrun' : Run (fun p l p' => T p l ∧ Pool.Step (fun t => Task.Fresh svc t ∧ A t.call) TaskStep p l p') op.2 ls
          (runSchedule svc (.act now i :: turns) p) := by simpa [runSchedule, hp] using hrun
      exact ⟨_, .cons ⟨hT op.1 (by simp [runSchedule, hp]), step_of_performAt hp⟩ hrun'⟩

/-- A schedule is a run, with whatever holds of the labels in the pools it passes. -/
theorem run_of_runSchedule_of (svc : ControlPlaneService) {P : Pool Store Task → Prop}
    {T : Pool Store Task → ServiceLabel → Prop} (hT : ∀ p l, P p → T p l) (turns : List Turn) (p : Pool Store Task)
    (h : ∀ k < turns.length, P (runSchedule svc (turns.take k) p)) :
    ∃ ls, Run (fun p l p' => T p l ∧ ServiceStep svc p l p') p ls (runSchedule svc turns p) := by
  obtain ⟨ls, hrun⟩ := run_of_turns svc (A := fun _ => True) (T := T) turns p fun k hk turn _ => by
    cases turn with
    | arrive now c => exact ⟨trivial, hT _ _ (h k hk)⟩
    | act now i => exact fun o _ => hT _ _ (h k hk)
  refine ⟨ls, hrun.mono fun q l q' hst => ⟨hst.1, ?_⟩⟩
  cases hst.2 with
  | start hstart => exact .start hstart.1
  | act hi hact => exact .act hi hact

theorem run_of_runSchedule (svc : ControlPlaneService) (turns : List Turn) (p : Pool Store Task) :
    ∃ ls, Run (ServiceStep svc) p ls (runSchedule svc turns p) := by
  obtain ⟨ls, hrun⟩ := run_of_runSchedule_of svc (P := fun _ => True) (T := fun _ _ => True)
    (fun _ _ _ => trivial) turns p fun _ _ => trivial
  exact ⟨ls, hrun.mono fun _ _ _ h => h.2⟩

/-! ## Draining -/

/-- No task has decided on the status of `id`. -/
def Undecided (id : String) (p : Pool Store Task) : Prop := ∀ t ∈ p.tasks, ∀ w ∈ decided t.rest, w.1 ≠ id

instance (id : String) (p : Pool Store Task) : Decidable (Undecided id p) :=
  inferInstanceAs (Decidable (∀ t ∈ p.tasks, ∀ w ∈ decided t.rest, w.1 ≠ id))

section Draining

variable {svc : ControlPlaneService} {id : String}

/-- A task that has not decided on the status of a draining node leaves it draining. -/
theorem TaskStep.draining {s s' : Store} {t t' : Task} {l : TaskAct} (hs : s.statusOf id = some .draining)
    (ht : ∀ w ∈ decided t.rest, w.1 ≠ id) (h : TaskStep s t l s' t') : s'.statusOf id = some .draining := by
  cases h with
  | fault hrest ha => exact hs
  | @perform o k now hrest =>
    rw [Op.statusOf_exec, hs]
    split
    · rename_i hw
      cases o with
      | markOffline id' => exact absurd (Option.some.inj hw) (ht _ (mem_decided_of_markOffline hrest))
      | setState id' state => exact absurd (Option.some.inj hw) (ht _ (mem_decided_of_setState hrest))
      | _ => rfl
    · rfl

/-- One step of the service keeps a node draining that nobody has decided on. -/
theorem draining_step {p p' : Pool Store Task} {l : ServiceLabel}
    (hp : Pool.Inv (fun s => s.statusOf id = some .draining) (fun _ t => t.Ok svc ∧ ∀ w ∈ decided t.rest, w.1 ≠ id) p)
    (h : ServiceStep svc p l p') :
    Pool.Inv (fun s => s.statusOf id = some .draining) (fun _ t => t.Ok svc ∧ ∀ w ∈ decided t.rest, w.1 ≠ id) p' := by
  refine Pool.step_inv ?_ ?_ ?_ hp (Pool.tolerated_true p l) h
  · intro s t _ ht
    refine ⟨Task.Ok.of_fresh ht, fun w hw => ?_⟩
    rw [decided_of_fresh ht] at hw
    cases hw
  · intro s t l s' t' hs ht hstep
    refine ⟨TaskStep.draining hs ht.2 hstep, ht.1.step hstep, fun w hw => ?_⟩
    rcases ht.1.decided_step hstep hw with hold | ⟨_, row, hrow, hlive, _⟩
    · exact ht.2 w hold
    · -- a new decision would have read the row live
      rintro rfl
      rw [Store.statusOf, hrow] at hs
      rw [Option.some.inj hs] at hlive
      cases hlive
  · exact fun s t l s' t' u _ _ _ _ hu => hu

theorem draining_run {p p' : Pool Store Task} {ls : List ServiceLabel} (hs : p.shared.statusOf id = some .draining)
    (hok : ∀ t ∈ p.tasks, t.Ok svc) (hun : Undecided id p) (h : Run (ServiceStep svc) p ls p') :
    p'.shared.statusOf id = some .draining :=
  (h.inv (fun _ _ _ hq hst => draining_step hq hst) ⟨hs, fun t ht => ⟨hok t ht, hun t ht⟩⟩).1

/-- The drain itself writes the status and decides on nothing. -/
theorem drain_step {p p' : Pool Store Task} {i : Nat} {now : DateTime} (hok : ∀ t ∈ p.tasks, t.Ok svc)
    (hreg : (p.shared.registry.find? id).isSome = true) (hun : Undecided id p)
    (h : ServiceStep svc p (.act i (.perform (.setDraining id) now)) p') :
    p'.shared.statusOf id = some .draining ∧ Undecided id p' := by
  obtain ⟨row, hrow⟩ := Option.isSome_iff_exists.mp hreg
  cases h with
  | @act i t t' l s' hi ha =>
    have ht := List.mem_of_getElem? hi
    cases ha with
    | @perform o k now hrest =>
      refine ⟨?_, fun u hu w hw => ?_⟩
      · have hold : p.shared.statusOf id = some row.status := by rw [Store.statusOf, hrow]; rfl
        have hnew := Op.statusOf_exec (.setDraining id) now p.shared id
        rw [hold] at hnew
        exact hnew.trans (if_pos rfl)
      · rcases List.mem_or_eq_of_mem_set hu with hu | rfl
        · exact hun u hu w hw
        · rcases (hok t ht).now.byRead _ k hrest _ w hw with hold | hdec
          · exact hun t ht w hold
          · exact hdec.elim

/-- **Draining lasts.** If no call in flight had decided on the status of a registered node when it was drained, the
node is not selectable in any later state, whatever calls are made. -/
theorem drained_not_selectable {ls ls' : List ServiceLabel} {p p' q : Pool Store Task} {i : Nat} {now : DateTime}
    (hreach : Run (ServiceStep svc) idle ls p) (hreg : (p.shared.registry.find? id).isSome = true)
    (hun : Undecided id p) (hdrain : ServiceStep svc p (.act i (.perform (.setDraining id) now)) p')
    (hlater : Run (ServiceStep svc) p' ls' q) : ¬ q.shared.Selectable id := by
  obtain ⟨hs, hun'⟩ := drain_step (ok_of_run hreach) hreg hun hdrain
  have hq := draining_run hs (ok_of_run (hreach.snoc hdrain)) hun' hlater
  rintro ⟨state, hstate, hsel⟩
  rw [hq] at hstate
  cases hstate
  cases hsel

/-- **No weaker condition does.** A task that has decided on the status of a registered node writes it, if it is left
to go on alone. -/
theorem decided_written {state : NodeState} {i : Nat} (now : DateTime) (r : ServiceM Outcome) {p : Pool Store Task}
    {t : Task} (hi : p.tasks[i]? = some t) (hr : t.rest = r) (hw : (id, state) ∈ decided r)
    (hreg : (p.shared.registry.find? id).isSome = true) :
    ∃ ls q, Run (ServiceStep svc) p ls q ∧ q.shared.statusOf id = some state := by
  induction r generalizing p t with
  | ret a => cases hw
  | fail e => cases hw
  | op o k ih =>
    have hstep : ServiceStep svc p (.act i (.perform o now))
        ⟨(o.exec now p.shared).2, p.tasks.set i { t with rest := k (o.exec now p.shared).1 }⟩ :=
      .act hi (.perform now hr)
    have hlen : i < p.tasks.length := (List.getElem?_eq_some_iff.mp hi).1
    -- after its next operation the task has still decided on the status
    have hlater : (id, state) ∈ decided (k (o.exec now p.shared).1) →
        ∃ ls q, Run (ServiceStep svc) p ls q ∧ q.shared.statusOf id = some state := by
      intro hw'
      obtain ⟨ls, q, hrun, hq⟩ := ih _ (p := ⟨(o.exec now p.shared).2, p.tasks.set i _⟩)
        (t := { t with rest := k (o.exec now p.shared).1 }) (List.getElem?_set_self hlen) rfl hw'
        (o.isSome_find?_exec now hreg)
      exact ⟨_, q, .cons hstep hrun, hq⟩
    -- or it has just written it
    have hwritten : o.writes = some id → (∀ old : NodeState, o.statusAfter (some old) = some state) →
        ∃ ls q, Run (ServiceStep svc) p ls q ∧ q.shared.statusOf id = some state := by
      intro hid hafter
      refine ⟨_, _, .cons hstep (.nil _), ?_⟩
      obtain ⟨row, hrow⟩ := Option.isSome_iff_exists.mp hreg
      rw [Op.statusOf_exec, if_pos hid, Store.statusOf, hrow]
      exact hafter row.status
    cases o with
    | markOffline id' =>
      rcases List.mem_cons.mp hw with heq | hrest
      · cases heq; exact hwritten rfl fun _ => rfl
      · exact hlater hrest
    | setState id' new =>
      rcases List.mem_cons.mp hw with heq | hrest
      · cases heq; exact hwritten rfl fun _ => rfl
      · exact hlater hrest
    | applyHeartbeat hb => exact hlater hw
    | _ => cases hw

/-- Registered, alive, and a drain has arrived. -/
def drainTurns : List Turn :=
  [.arrive (.ofSecond 0) (.register ⟨"n1", "10.0.0.1:1080", 100, 1000⟩), .act (.ofSecond 0) 0, .act (.ofSecond 0) 0,
   .arrive (.ofSecond 1) (.heartbeat ⟨"n1", 0, 0, 0, 0, 1000⟩), .arrive (.ofSecond 1) (.drain "n1")]

/-- The heartbeat comes after the drain and keeps the node draining. -/
theorem drained_not_selectable_heartbeat :
    ¬ (runSchedule (.new .default) [.act (.ofSecond 2) 1, .act (.ofSecond 2) 1, .act (.ofSecond 2) 1]
      (runSchedule (.new .default) [.act (.ofSecond 1) 2]
        (runSchedule (.new .default) drainTurns idle))).shared.Selectable "n1" := by
  obtain ⟨_, hreach⟩ := run_of_runSchedule (.new .default) drainTurns idle
  obtain ⟨_, hlater⟩ := run_of_runSchedule (.new .default)
    [.act (.ofSecond 2) 1, .act (.ofSecond 2) 1, .act (.ofSecond 2) 1]
    (runSchedule (.new .default) [.act (.ofSecond 1) 2] (runSchedule (.new .default) drainTurns idle))
  exact drained_not_selectable hreach (by decide +kernel) (by decide +kernel) (step_of_turn (by decide +kernel)) hlater

/-- A heartbeat that read the row before the drain and writes the status after it: the node is healthy again. -/
theorem drainLost :
    ∃ (ls ls' : List ServiceLabel) (p p' q : Pool Store Task), Run (ServiceStep (.new .default)) idle ls p ∧
      (p.shared.registry.find? "n1").isSome = true ∧
      ServiceStep (.new .default) p (.act 2 (.perform (.setDraining "n1") (.ofSecond 1))) p' ∧
      Run (ServiceStep (.new .default)) p' ls' q ∧ q.shared.Selectable "n1" := by
  obtain ⟨ls, hreach⟩ := run_of_runSchedule (.new .default) (drainTurns ++ [.act (.ofSecond 1) 1]) idle
  obtain ⟨ls', hlater⟩ := run_of_runSchedule (.new .default) [.act (.ofSecond 1) 1, .act (.ofSecond 1) 1]
    (runSchedule (.new .default) [.act (.ofSecond 1) 2]
      (runSchedule (.new .default) (drainTurns ++ [.act (.ofSecond 1) 1]) idle))
  exact ⟨ls, ls', _, _, _, hreach, by decide +kernel, step_of_turn (by decide +kernel), hlater, .healthy,
    by decide +kernel, rfl⟩

end Draining

/-! ## Sweeps -/

/-- The row of `id` is live, and stale for a sweep that began at `now`. -/
def LiveStale (svc : ControlPlaneService) (now : DateTime) (id : String) (s : Store) : Prop :=
  ∃ row, s.registry.find? id = some row ∧ row.status.live = true ∧
    isStale (optEpoch row.lastHeartbeat) now svc.policy = true

/-- What the sweep `u` tolerates: no node it has decided to mark is drained, marked by another sweep, or revived by a
heartbeat. -/
def SweepTolerates (svc : ControlPlaneService) (u : Task) : TaskAct → Prop
  | .perform o now => ∀ id, (id, .offline) ∈ decided u.rest →
      o ≠ .setDraining id ∧ o ≠ .markOffline id ∧
        ∀ hb, o = .applyHeartbeat hb → hb.nodeId = id → isStale (some now.trunc) u.began svc.policy = true
  | .fault _ => True

section Sweeps

variable {svc : ControlPlaneService} {id : String} {began : DateTime}

theorem LiveStale.of_find?_eq {s s' : Store} (h : LiveStale svc began id s)
    (heq : s'.registry.find? id = s.registry.find? id) : LiveStale svc began id s' := by
  obtain ⟨row, hrow, hlive, hstale⟩ := h
  exact ⟨row, heq.trans hrow, hlive, hstale⟩

/-- A row stays live and stale under every operation that neither drains nor marks it, nor records a heartbeat that is
not stale, nor sets a state that is not live. -/
theorem LiveStale.exec {s : Store} {o : Op} {now : DateTime} (h : LiveStale svc began id s)
    (hdrain : o ≠ .setDraining id) (hmark : o ≠ .markOffline id)
    (hbeat : ∀ hb, o = .applyHeartbeat hb → hb.nodeId = id → isStale (some now.trunc) began svc.policy = true)
    (hset : ∀ state, o = .setState id state → state.live = true) : LiveStale svc began id (o.exec now s).2 := by
  by_cases hw : o.writes = some id
  · obtain ⟨row, hrow, hlive, hstale⟩ := h
    have hnew := Op.find?_exec_self hw now s
    rw [hrow] at hnew
    cases o with
    | register req =>
      refine ⟨_, hnew, ?_, hstale⟩
      change (if row.status = .offline ∨ row.status = .starting then NodeState.starting else row.status).live = true
      split
      · rfl
      · exact hlive
    | applyHeartbeat hb =>
      refine ⟨_, hnew, hlive, ?_⟩
      have hrec : optEpoch (some now.timestamp) = some now.trunc := DateTime.fromTimestamp_timestamp now
      change isStale (optEpoch (some now.timestamp)) began svc.policy = true
      rw [hrec]
      exact hbeat hb rfl (Option.some.inj hw)
    | setDraining id' => exact absurd (congrArg Op.setDraining (Option.some.inj hw)) hdrain
    | markOffline id' => exact absurd (congrArg Op.markOffline (Option.some.inj hw)) hmark
    | setState id' state =>
      cases hw
      exact ⟨_, hnew, hset state rfl, hstale⟩
    | adjustActive id' delta => exact ⟨_, hnew, hlive, hstale⟩
    | accumulateBytes id' up down => exact ⟨_, hnew, hlive, hstale⟩
    | get id' => cases hw
    | list => cases hw
    | reserve nodeId limit rate => cases hw
  · exact h.of_find?_eq (Op.find?_exec_of_ne hw now s)

/-- A task keeps the rows live and stale that it has still to mark. -/
theorem TaskStep.own_liveStale {s s' : Store} {t t' : Task} {l : TaskAct} (hok : t.Ok svc)
    (ht : ∀ id, (id, .offline) ∈ decided t.rest → LiveStale svc t.began id s) (h : TaskStep s t l s' t') :
    ∀ id, (id, .offline) ∈ decided t'.rest → LiveStale svc t'.began id s' := by
  intro id hid
  have hbegan : t'.began = t.began := by cases h <;> rfl
  rw [hbegan]
  rcases hok.decided_step h hid with hold | ⟨rfl, row, hrow, hlive, hstale⟩
  · cases h with
    | fault hrest ha => exact ht id hold
    | @perform o k now hrest =>
      have hlive := hok.now.live o k hrest
      refine (ht id hold).exec ?_ ?_ ?_ ?_
      · rintro rfl
        rw [hrest] at hold
        cases hold
      · -- it has just marked this row, and marks no row twice
        rintro rfl
        have hnodup := hok.now.nodup
        rw [hrest] at hnodup
        exact absurd (List.mem_map_of_mem hid) (List.nodup_cons.mp hnodup).1
      · rintro hb rfl _
        cases hlive (fun _ h => by cases h) _ hold
      · rintro state rfl
        exact hlive (fun _ h => by cases h) _ (mem_decided_of_setState hrest)
  · exact ⟨row, hrow, hlive, hstale rfl⟩

/-- Any other task keeps those that the sweep tolerates. -/
theorem TaskStep.other_liveStale {s s' : Store} {t t' u : Task} {l : TaskAct} (hok : t.Ok svc)
    (h : TaskStep s t l s' t') (htol : SweepTolerates svc u l)
    (hu : ∀ id, (id, .offline) ∈ decided u.rest → LiveStale svc u.began id s) :
    ∀ id, (id, .offline) ∈ decided u.rest → LiveStale svc u.began id s' := by
  intro id hid
  cases h with
  | fault hrest ha => exact hu id hid
  | @perform o k now hrest =>
    obtain ⟨hdrain, hmark, hbeat⟩ := htol id hid
    refine (hu id hid).exec hdrain hmark hbeat fun state ho => ?_
    subst ho
    exact hok.now.live _ k hrest (fun _ h => by cases h) _ (mem_decided_of_setState hrest)

/-- **A sweep marks only live and stale rows**, in every run whose actions are tolerated by the sweeps that have decided
to mark a node. -/
theorem marks_live_stale {ls : List ServiceLabel} {p p' : Pool Store Task} {i : Nat} {now : DateTime}
    (hrun : Run (fun p l p' => Pool.Tolerated (SweepTolerates svc) p l ∧ ServiceStep svc p l p') idle ls p)
    (hmark : ServiceStep svc p (.act i (.perform (.markOffline id) now)) p') :
    ∃ t row, p.tasks[i]? = some t ∧ p.shared.registry.find? id = some row ∧ row.status.live = true ∧
      isStale (optEpoch row.lastHeartbeat) t.began svc.policy = true := by
  have hinv : Pool.Inv (fun _ => True)
      (fun s t => t.Ok svc ∧ ∀ id, (id, .offline) ∈ decided t.rest → LiveStale svc t.began id s) p := by
    refine Pool.run_inv ?_ ?_ ?_ hrun ⟨trivial, fun t ht => by cases ht⟩
    · intro s t _ ht
      refine ⟨Task.Ok.of_fresh ht, fun id hid => ?_⟩
      rw [decided_of_fresh ht] at hid
      cases hid
    · exact fun s t l s' t' _ ht hst => ⟨trivial, ht.1.step hst, hst.own_liveStale ht.1 ht.2⟩
    · exact fun s t l s' t' u _ ht hst htol hu => ⟨hu.1, hst.other_liveStale ht.1 htol hu.2⟩
  cases hmark with
  | @act i t t' l s' hi ha =>
    cases ha with
    | @perform o k now hrest =>
      obtain ⟨row, hrow, hlive, hstale⟩ :=
        (hinv.2 t (List.mem_of_getElem? hi)).2 id (mem_decided_of_markOffline hrest)
      exact ⟨t, row, hi, hrow, hlive, hstale⟩

/-- No task has decided to mark a node. -/
def Calm (p : Pool Store Task) : Prop := ∀ t ∈ p.tasks, ∀ w ∈ decided t.rest, w.2 ≠ .offline

instance (p : Pool Store Task) : Decidable (Calm p) :=
  inferInstanceAs (Decidable (∀ t ∈ p.tasks, ∀ w ∈ decided t.rest, w.2 ≠ .offline))

theorem Calm.tolerated {p : Pool Store Task} (h : Calm p) (l : ServiceLabel) :
    Pool.Tolerated (SweepTolerates svc) p l := by
  cases l with
  | start t => trivial
  | act i l =>
    intro j u _ hj
    cases l with
    | fault o => trivial
    | perform o now => exact fun id hid => absurd rfl (h u (List.mem_of_getElem? hj) _ hid)

/-- A node that was silent for 40 s; a sweep has listed it and a heartbeat has arrived. -/
def reviveTurns : List Turn :=
  [.arrive (.ofSecond 0) (.register ⟨"n1", "10.0.0.1:1080", 100, 1000⟩), .act (.ofSecond 0) 0, .act (.ofSecond 0) 0,
   .arrive (.ofSecond 0) (.heartbeat ⟨"n1", 0, 0, 0, 0, 1000⟩), .act (.ofSecond 0) 1, .act (.ofSecond 0) 1,
   .act (.ofSecond 0) 1, .act (.ofSecond 0) 1,
   .arrive (.ofSecond 40) .markStaleOffline, .arrive (.ofSecond 40) (.heartbeat ⟨"n1", 0, 0, 0, 0, 1000⟩),
   .act (.ofSecond 40) 2]

/-- The heartbeat is recorded before the sweep marks the node: the row is healthy and not stale, and goes offline. -/
theorem markedAlive :
    ∃ (ls : List ServiceLabel) (p p' : Pool Store Task), Run (ServiceStep (.new .default)) idle ls p ∧
      ServiceStep (.new .default) p (.act 2 (.perform (.markOffline "n1") (.ofSecond 40))) p' ∧
      p.tasks[2]?.map Task.began = some (.ofSecond 40) ∧
      isStale (p.shared.recordedHeartbeat "n1") (.ofSecond 40) HealthPolicy.default = false ∧
      p.shared.statusOf "n1" = some .healthy ∧ p'.shared.statusOf "n1" = some .offline := by
  obtain ⟨ls, hrun⟩ := run_of_runSchedule (.new .default)
    (reviveTurns ++ [.act (.ofSecond 40) 3, .act (.ofSecond 40) 3]) idle
  exact ⟨ls, _, _, hrun, step_of_turn (by decide +kernel), by decide +kernel, by decide +kernel, by decide +kernel,
    by decide +kernel⟩

/-- Without the heartbeat the sweep marks a node that is healthy and stale. -/
theorem marks_live_stale_silent :
    ∃ t row, (runSchedule (.new .default) reviveTurns idle).tasks[2]? = some t ∧
      (runSchedule (.new .default) reviveTurns idle).shared.registry.find? "n1" = some row ∧
      row.status.live = true ∧ isStale (optEpoch row.lastHeartbeat) t.began HealthPolicy.default = true := by
  obtain ⟨_, hrun⟩ := run_of_runSchedule_of (.new .default) (P := Calm)
    (T := Pool.Tolerated (SweepTolerates (.new .default))) (fun _ l h => h.tolerated l) reviveTurns idle
    (by decide +kernel)
  have hmark : ServiceStep (.new .default) (runSchedule (.new .default) reviveTurns idle)
      (.act 2 (.perform (.markOffline "n1") (.ofSecond 40))) _ := step_of_turn (by decide +kernel)
  exact marks_live_stale hrun hmark

end Sweeps

end RustProxy.ControlPlane
