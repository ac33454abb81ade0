import RustProxy.ControlPlane.GracePeriod
import RustProxy.ControlPlane.Interleaving

/-!
# The state that concurrent heartbeats leave

A heartbeat reads the row, stores its load, and writes the state that follows from the load, unless the state it read
was that one already. The load and the state are two writes, so the row can end with the load of one heartbeat and the
state of another (`mixed_heartbeats`).

`Staged` is where a heartbeat in flight stands and what it may rely on: the state it found right is still stored as long
as it has not stored its load, and the load stored is one that classifies to the state it is about to write. Others
break this only by writing a different class in between (`LoadTolerates`); without it the state settles
(`heartbeats_settle`).
-/

namespace RustProxy.ControlPlane

open Lib

/-! ## A heartbeat in flight -/

/-- The class of a load; the current state plays no part in it while the node is live. -/
def ControlPlaneService.classify (svc : ControlPlaneService) (active max : UInt32) : NodeState :=
  reclassifyAfterHeartbeat .starting active max svc.policy

theorem reclassify_eq_classify (svc : ControlPlaneService) {state : NodeState} (h : state.live = true)
    (active max : UInt32) : reclassifyAfterHeartbeat state active max svc.policy = svc.classify active max := by
  cases state with
  | draining => cases h
  | offline => cases h
  | _ => rfl

theorem classify_live (svc : ControlPlaneService) (active max : UInt32) : (svc.classify active max).live = true :=
  live_of_selectable (reclassify_live rfl active max svc.policy)

/-- What is left of a heartbeat that has its state to write. -/
def setRest (hb : Heartbeat) (state : NodeState) : ServiceM Outcome :=
  .op (.setState hb.nodeId state) fun a => (Prog.ofExcept a).bind fun _ => heartbeatTail hb

/-- What is left of a heartbeat that has read the row, in state `state`, of a live node. -/
def foundRest (svc : ControlPlaneService) (max : UInt32) (hb : Heartbeat) (state : NodeState) : ServiceM Outcome :=
  .op (.applyHeartbeat hb) fun a => (Prog.ofExcept a).bind fun _ =>
    if svc.classify hb.activeConnections max ≠ state then setRest hb (svc.classify hb.activeConnections max)
    else heartbeatTail hb

theorem foundRest_eq (svc : ControlPlaneService) {state : NodeState} (h : state.live = true) (max : UInt32)
    (hb : Heartbeat) :
    ((svc.heartbeatFound hb state max).bind fun _ => .ret Outcome.done) = foundRest svc max hb state := by
  have hnext := reclassify_eq_classify svc h hb.activeConnections max
  rw [heartbeatFound_eq, foundRest, ← hnext]
  rfl

/-- The node that `id` reads as: live, with the given maximum. -/
structure Loaded (id : String) (max : UInt32) (s : Store) (n : Node) : Prop where
  get : Registry.get id s.registry = .ok (some n)
  max : n.maxConnections = max
  live : n.state.live = true

/-- The state stored is the class of the load stored. -/
def Node.Settled (svc : ControlPlaneService) (n : Node) : Prop :=
  n.state = svc.classify n.activeConnections n.maxConnections

/-- Where a heartbeat of `id` stands, and what it relies on. -/
inductive Staged (svc : ControlPlaneService) (max : UInt32) (n : Node) (hb : Heartbeat) : ServiceM Outcome → Prop
  | unread (now : DateTime) : Staged svc max n hb ((Call.heartbeat hb).prog svc now)
  /-- The state read, if it is to be left as it is, is still stored. -/
  | read (state : NodeState) : (svc.classify hb.activeConnections max = state → n.state = state) →
      Staged svc max n hb (foundRest svc max hb state)
  /-- The load stored classifies to the state about to be written. -/
  | stored : svc.classify n.activeConnections max = svc.classify hb.activeConnections max →
      Staged svc max n hb (setRest hb (svc.classify hb.activeConnections max))
  | written : Staged svc max n hb (heartbeatTail hb)
  | done : Staged svc max n hb (.ret .done)
  | failed (e : Error) : Staged svc max n hb (.fail e)

/-! ## The two writes -/

section Writes

variable {id : String} {max : UInt32} {s : Store} {n : Node}

theorem Loaded.applyHeartbeat (h : Loaded id max s n) {hb : Heartbeat} (hid : hb.nodeId = id) (now : DateTime) :
    ∃ n', Loaded id max ((Op.applyHeartbeat hb).exec now s).2 n' ∧ n'.state = n.state ∧
      n'.activeConnections = hb.activeConnections := by
  obtain ⟨row, hrow, hdec⟩ := Registry.get_some h.get
  have hrow' : ((Op.applyHeartbeat hb).exec now s).2.registry.find? id = some (Registry.heartbeatRow hb now row) := by
    rw [Op.find?_exec_self (o := .applyHeartbeat hb) (congrArg some hid), hrow]
    rfl
  exact ⟨_, ⟨Registry.get_of_decodes hrow' ((Decodes.of_ok hdec).heartbeatRow hb now), h.max, h.live⟩, rfl, rfl⟩

theorem Loaded.setState (h : Loaded id max s n) {state : NodeState} (hlive : state.live = true) (now : DateTime) :
    ∃ n', Loaded id max ((Op.setState id state).exec now s).2 n' ∧ n'.state = state ∧
      n'.activeConnections = n.activeConnections := by
  obtain ⟨row, hrow, hdec⟩ := Registry.get_some h.get
  have hrow' : ((Op.setState id state).exec now s).2.registry.find? id =
      some { row with status := state, updatedAt := now.timestamp } := by
    rw [Op.find?_exec_self rfl, hrow]
    rfl
  exact ⟨_, ⟨Registry.get_of_decodes hrow' ((Decodes.of_ok hdec).withStatus state now), h.max, hlive⟩, rfl, rfl⟩

end Writes

/-- The heartbeat has stored its load. -/
def Applied (rest : ServiceM Outcome) : Prop :=
  (∃ hb state, rest = setRest hb state) ∨ (∃ hb, rest = heartbeatTail hb) ∨ rest = .ret .done

/-- What a step of a heartbeat in flight can do. -/
inductive Effect (svc : ControlPlaneService) (id : String) (max : UInt32) (n : Node) (hb : Heartbeat) (s s' : Store)
    (rest rest' : ServiceM Outcome) : TaskAct → Prop
  /-- Nothing is written; a state that was to be written is not, only if the statement fails. -/
  | quiet {l : TaskAct} : s' = s → Staged svc max n hb rest' → (Applied rest' → Applied rest) →
      (∀ hb' state, rest = setRest hb' state → l = .fault (.setState hb'.nodeId state)) →
      Effect svc id max n hb s s' rest rest' l
  | load {now : DateTime} {n' : Node} : Loaded id max s' n' → n'.state = n.state →
      n'.activeConnections = hb.activeConnections → Staged svc max n' hb rest' →
      (n'.Settled svc ∨ ∃ state, rest' = setRest hb state) →
      Effect svc id max n hb s s' rest rest' (.perform (.applyHeartbeat hb) now)
  | state {now : DateTime} {n' : Node} : Loaded id max s' n' → n'.activeConnections = n.activeConnections →
      n'.state = svc.classify hb.activeConnections max → Staged svc max n' hb rest' → n'.Settled svc →
      Effect svc id max n hb s s' rest rest' (.perform (.setState id (svc.classify hb.activeConnections max)) now)

theorem TaskStep.exists_op {s s' : Store} {t t' : Task} {l : TaskAct} (h : TaskStep s t l s' t') :
    ∃ o k, t.rest = .op o k := by
  cases h with
  | perform _ hrest => exact ⟨_, _, hrest⟩
  | fault hrest _ => exact ⟨_, _, hrest⟩

/-- The step of a task whose next operation is known. -/
theorem TaskStep.of_rest {s s' : Store} {t t' : Task} {l : TaskAct} {o : Op} {k : Ans o → ServiceM Outcome}
    (hrest : t.rest = .op o k) (h : TaskStep s t l s' t') :
    (∃ now, l = .perform o now ∧ s' = (o.exec now s).2 ∧ t'.rest = k (o.exec now s).1) ∨
      ∃ a, o.fault = some a ∧ l = .fault o ∧ s' = s ∧ t'.rest = k a := by
  cases h with
  | @perform o' k' now hk =>
    cases hrest.symm.trans hk
    exact .inl ⟨now, rfl, rfl, rfl⟩
  | @fault o' k' a hk ha =>
    cases hrest.symm.trans hk
    exact .inr ⟨a, ha, rfl, rfl, rfl⟩

section Steps

variable {svc : ControlPlaneService} {id : String} {max : UInt32} {n : Node} {hb : Heartbeat} {s s' : Store}
  {t t' : Task} {l : TaskAct}

theorem not_applied_fail (e : Error) : ¬ Applied (.fail e) := by
  rintro (⟨_, _, h⟩ | ⟨_, h⟩ | h) <;> cases h

theorem not_applied_foundRest (state : NodeState) : ¬ Applied (foundRest svc max hb state) := by
  rintro (⟨_, _, h⟩ | ⟨_, h⟩ | h) <;> cases h

theorem get_ne_setRest {id' : String} {k : Ans (.get id') → ServiceM Outcome} {state : NodeState} :
    Prog.op (.get id') k ≠ setRest hb state := by
  rintro ⟨⟩

/-- A statement that fails ends the heartbeat, without an effect. -/
theorem effect_of_fault {o : Op} {k : Ans o → ServiceM Outcome} {rest' : ServiceM Outcome}
    (hfail : rest' = .fail .database) : Effect svc id max n hb s s (.op o k) rest' (.fault o) := by
  subst hfail
  refine .quiet rfl (.failed _) (fun h => absurd h (not_applied_fail _)) ?_
  intro hb' state h
  cases h
  rfl

theorem effect_unread {now : DateTime} (hload : Loaded id max s n) (hid : hb.nodeId = id)
    (hrest : t.rest = (Call.heartbeat hb).prog svc now) (h : TaskStep s t l s' t') :
    Effect svc id max n hb s s' t.rest t'.rest l := by
  have hop : (Call.heartbeat hb).prog svc now = (svc.heartbeat hb).bind fun _ => .ret .done := rfl
  rw [hop, heartbeat_eq] at hrest
  rcases h.of_rest hrest with ⟨now', rfl, rfl, hnext⟩ | ⟨a, ha, rfl, rfl, hnext⟩
  · have hget := hload.get
    rw [← hid] at hget
    have hread : t'.rest = foundRest svc max hb n.state := by
      rw [hnext, ← foundRest_eq svc hload.live max hb, ← hload.max]
      dsimp only [Op.exec]
      rw [hget]
      rfl
    rw [hread, hrest]
    refine .quiet rfl (.read n.state fun _ => rfl) (fun h => absurd h (not_applied_foundRest _)) ?_
    intro hb' state h
    exact absurd h get_ne_setRest
  · rw [hrest]
    cases ha
    exact effect_of_fault hnext

theorem effect_read {state : NodeState} (hload : Loaded id max s n) (hid : hb.nodeId = id)
    (hkept : svc.classify hb.activeConnections max = state → n.state = state)
    (hrest : t.rest = foundRest svc max hb state) (h : TaskStep s t l s' t') :
    Effect svc id max n hb s s' t.rest t'.rest l := by
  rcases h.of_rest hrest with ⟨now, rfl, rfl, hnext⟩ | ⟨a, ha, rfl, rfl, hnext⟩
  · obtain ⟨n', hload', hstate, hactive⟩ := hload.applyHeartbeat hid now
    have hclass : svc.classify n'.activeConnections max = svc.classify hb.activeConnections max := by rw [hactive]
    by_cases hskip : svc.classify hb.activeConnections max = state
    · have hrest' : t'.rest = heartbeatTail hb := hnext.trans (if_neg (not_not.mpr hskip))
      have hsettled : n'.Settled svc := by
        rw [Node.Settled, hload'.max, hclass, hstate, hkept hskip, hskip]
      rw [hrest']
      exact .load hload' hstate hactive .written (.inl hsettled)
    · have hrest' : t'.rest = setRest hb (svc.classify hb.activeConnections max) := hnext.trans (if_pos hskip)
      rw [hrest']
      exact .load hload' hstate hactive (.stored hclass) (.inr ⟨_, rfl⟩)
  · rw [hrest]
    cases ha
    exact effect_of_fault hnext

theorem effect_stored (hload : Loaded id max s n) (hid : hb.nodeId = id)
    (hclass : svc.classify n.activeConnections max = svc.classify hb.activeConnections max)
    (hrest : t.rest = setRest hb (svc.classify hb.activeConnections max)) (h : TaskStep s t l s' t') :
    Effect svc id max n hb s s' t.rest t'.rest l := by
  rcases h.of_rest hrest with ⟨now, rfl, rfl, hnext⟩ | ⟨a, ha, rfl, rfl, hnext⟩
  · subst hid
    obtain ⟨n', hload', hstate, hactive⟩ := hload.setState (classify_live svc hb.activeConnections max) now
    have hrest' : t'.rest = heartbeatTail hb := hnext
    have hsettled : n'.Settled svc := by
      rw [Node.Settled, hload'.max, hactive, hclass, hstate]
    rw [hrest']
    exact .state hload' hactive hstate .written hsettled
  · rw [hrest]
    cases ha
    exact effect_of_fault hnext

theorem effect_written (hrest : t.rest = heartbeatTail hb) (h : TaskStep s t l s' t') :
    Effect svc id max n hb s s' t.rest t'.rest l := by
  have hnotset : ∀ hb' state, t.rest = setRest hb' state → l = .fault (.setState hb'.nodeId state) := by
    intro hb' state h'
    rw [hrest] at h'
    exact absurd h' get_ne_setRest
  have happlied : Applied t.rest := .inr (.inl ⟨hb, hrest⟩)
  rcases h.of_rest hrest with ⟨now, rfl, rfl, hnext⟩ | ⟨a, ha, rfl, rfl, hnext⟩
  · refine .quiet rfl ?_ (fun _ => happlied) hnotset
    rw [hnext]
    dsimp only [Op.exec]
    cases Registry.get hb.nodeId s'.registry with
    | ok found => exact .done
    | error e => exact .failed e
  · refine .quiet rfl ?_ (fun _ => happlied) hnotset
    cases ha
    rw [hnext]
    exact .failed _

/-- **What a step of a heartbeat in flight can do.** -/
theorem effect_step (hload : Loaded id max s n) (hid : hb.nodeId = id) (hstaged : Staged svc max n hb t.rest)
    (h : TaskStep s t l s' t') : Effect svc id max n hb s s' t.rest t'.rest l := by
  generalize hrest : t.rest = rest at hstaged
  rw [← hrest]
  cases hstaged with
  | unread now => exact effect_unread hload hid hrest h
  | read state hkept => exact effect_read hload hid hkept hrest h
  | stored hclass => exact effect_stored hload hid hclass hrest h
  | written => exact effect_written hrest h
  | done =>
    obtain ⟨o, k, hk⟩ := h.exists_op
    cases hrest.symm.trans hk
  | failed e =>
    obtain ⟨o, k, hk⟩ := h.exists_op
    cases hrest.symm.trans hk

end Steps

/-! ## Any number of heartbeats -/

/-- A heartbeat of `id`. -/
def Call.beats (id : String) : Call → Bool
  | .heartbeat hb => hb.nodeId = id
  | _ => false

/-- One step of a service that only serves heartbeats of `id`. -/
abbrev HeartbeatStep (svc : ControlPlaneService) (id : String) :=
  Pool.Step (fun t => Task.Fresh svc t ∧ t.call.beats id = true) TaskStep

/-- The state that is written next. -/
def pendingState : ServiceM Outcome → Option NodeState
  | .op (.setState _ state) _ => some state
  | _ => none

/-- The load that is stored next and not followed by a state. -/
def lastLoad : ServiceM Outcome → Option UInt32
  | .op (.applyHeartbeat hb) k => if decided (.op (.applyHeartbeat hb) k) = [] then some hb.activeConnections else none
  | _ => none

/-- What a heartbeat in flight tolerates of the others: a load, if it classifies to the state it is about to write; and
a state, if its own load, of which it found the state right, classifies to it. -/
def LoadTolerates (svc : ControlPlaneService) (max : UInt32) (u : Task) : TaskAct → Prop
  | .perform (.applyHeartbeat hb) _ => ∀ state ∈ pendingState u.rest, state = svc.classify hb.activeConnections max
  | .perform (.setState _ state) _ => ∀ active ∈ lastLoad u.rest, svc.classify active max = state
  | _ => True

/-- No write of a state fails. -/
def StateWritten : ServiceLabel → Prop
  | .act _ (.fault (.setState ..)) => False
  | _ => True

/-- A heartbeat of `id` that stands where it may. -/
def InFlight (svc : ControlPlaneService) (id : String) (max : UInt32) (s : Store) (t : Task) : Prop :=
  ∃ hb, hb.nodeId = id ∧ ∀ n, Loaded id max s n → Staged svc max n hb t.rest

section Runs

variable {svc : ControlPlaneService} {id : String} {max : UInt32}

theorem Loaded.unique {s : Store} {n n' : Node} (h : Loaded id max s n) (h' : Loaded id max s n') : n = n' := by
  have heq := h.get.symm.trans h'.get
  cases heq
  rfl

/-- A heartbeat that found its state right writes none. -/
theorem lastLoad_foundRest {hb : Heartbeat} {state : NodeState} (h : svc.classify hb.activeConnections max = state) :
    lastLoad (foundRest svc max hb state) = some hb.activeConnections := by
  have hnone : decided (foundRest svc max hb state) = [] := by
    change decided (if svc.classify hb.activeConnections max ≠ state then
      setRest hb (svc.classify hb.activeConnections max) else heartbeatTail hb) = []
    rw [if_neg (not_not.mpr h)]
    rfl
  exact if_pos hnone

/-- The load another heartbeat stores. -/
theorem Staged.load {n n' : Node} {hb hb' : Heartbeat} {now : DateTime} {u : Task} (hu : Staged svc max n hb u.rest)
    (htol : LoadTolerates svc max u (.perform (.applyHeartbeat hb') now)) (hstate : n'.state = n.state)
    (hactive : n'.activeConnections = hb'.activeConnections) : Staged svc max n' hb u.rest := by
  generalize hrest : u.rest = rest at hu
  cases hu with
  | unread now' => exact .unread now'
  | read state hkept => exact .read state fun h => hstate.trans (hkept h)
  | stored hclass =>
    have hsame := htol _ (by rw [hrest]; rfl)
    exact .stored (by rw [hactive, hsame])
  | written => exact .written
  | done => exact .done
  | failed e => exact .failed e

/-- The state another heartbeat writes. -/
theorem Staged.state {n n' : Node} {hb : Heartbeat} {state : NodeState} {id' : String} {now : DateTime} {u : Task}
    (hu : Staged svc max n hb u.rest) (htol : LoadTolerates svc max u (.perform (.setState id' state) now))
    (hstate : n'.state = state) (hactive : n'.activeConnections = n.activeConnections) :
    Staged svc max n' hb u.rest := by
  generalize hrest : u.rest = rest at hu
  cases hu with
  | unread now' => exact .unread now'
  | read state' hkept =>
    refine .read state' fun h => ?_
    have hsame := htol _ (by rw [hrest]; exact lastLoad_foundRest h)
    rw [hstate, ← hsame, h]
  | stored hclass => exact .stored (by rw [hactive, hclass])
  | written => exact .written
  | done => exact .done
  | failed e => exact .failed e

theorem Call.beats_eq_true {c : Call} (h : c.beats id = true) : ∃ hb, c = .heartbeat hb ∧ hb.nodeId = id := by
  cases c with
  | heartbeat hb => exact ⟨hb, rfl, of_decide_eq_true h⟩
  | _ => cases h

theorem inFlight_of_fresh {s : Store} {t : Task} (hfresh : Task.Fresh svc t) (hcall : t.call.beats id = true) :
    InFlight svc id max s t := by
  obtain ⟨hb, hcall, hid⟩ := Call.beats_eq_true hcall
  refine ⟨hb, hid, fun n _ => ?_⟩
  rw [hfresh, hcall]
  exact .unread t.began

/-- Reading `n` is all that is left. -/
def ReadsLast (n : Node) : ServiceM Outcome → Prop
  | .op (.get _) k => k (.ok (some n)) = .ret .done
  | _ => False

theorem not_applied_unread {hb : Heartbeat} {now : DateTime} (n : Node) :
    ¬ Applied ((Call.heartbeat hb).prog svc now) := by
  rintro (⟨_, _, h⟩ | ⟨hb', h⟩ | h)
  · cases h
  · have hlast : ReadsLast n (heartbeatTail hb') := rfl
    rw [← h] at hlast
    cases hlast
  · cases h

/-- The acting heartbeat stands where it may, in the store that it leaves. -/
theorem Effect.staged {n : Node} {hb : Heartbeat} {s s' : Store} {rest rest' : ServiceM Outcome} {l : TaskAct}
    (hload : Loaded id max s n) (h : Effect svc id max n hb s s' rest rest' l) :
    ∃ n', Loaded id max s' n' ∧ Staged svc max n' hb rest' := by
  cases h with
  | quiet hs hstaged _ _ => exact ⟨n, hs ▸ hload, hstaged⟩
  | load hload' _ _ hstaged _ => exact ⟨_, hload', hstaged⟩
  | state hload' _ _ hstaged _ => exact ⟨_, hload', hstaged⟩

/-- So does every other one that tolerates the action. -/
theorem Effect.other {n : Node} {hb hb' : Heartbeat} {s s' : Store} {rest rest' : ServiceM Outcome} {l : TaskAct}
    {u : Task} (hload : Loaded id max s n) (h : Effect svc id max n hb s s' rest rest' l)
    (htol : LoadTolerates svc max u l) (hu : Staged svc max n hb' u.rest) :
    ∃ n', Loaded id max s' n' ∧ Staged svc max n' hb' u.rest := by
  cases h with
  | quiet hs _ _ _ => exact ⟨n, hs ▸ hload, hu⟩
  | load hload' hstate hactive _ _ => exact ⟨_, hload', hu.load htol hstate hactive⟩
  | state hload' hactive hstate _ _ => exact ⟨_, hload', hu.state htol hstate hactive⟩

/-- Heartbeats that tolerate each other stand where they may after each step. -/
theorem inFlight_step {p p' : Pool Store Task} {l : ServiceLabel}
    (hp : Pool.Inv (fun s => ∃ n, Loaded id max s n) (InFlight svc id max) p)
    (htol : Pool.Tolerated (LoadTolerates svc max) p l) (h : HeartbeatStep svc id p l p') :
    Pool.Inv (fun s => ∃ n, Loaded id max s n) (InFlight svc id max) p' := by
  refine Pool.step_inv ?_ ?_ ?_ hp htol h
  · intro s t _ hstart
    exact inFlight_of_fresh hstart.1 hstart.2
  · intro s t l s' t' hs ht hst
    obtain ⟨n, hload⟩ := hs
    obtain ⟨hb, hid, hstaged⟩ := ht
    obtain ⟨n', hload', hstaged'⟩ := (effect_step hload hid (hstaged n hload) hst).staged hload
    exact ⟨⟨n', hload'⟩, hb, hid, fun m hm => hload'.unique hm ▸ hstaged'⟩
  · intro s t l s' t' u hs ht hst htol hu
    obtain ⟨n, hload⟩ := hs
    obtain ⟨hb, hid, hstaged⟩ := ht
    obtain ⟨hb', hid', hstaged'⟩ := hu
    obtain ⟨n', hload', hu'⟩ :=
      (effect_step hload hid (hstaged n hload) hst).other hload htol (hstaged' n hload)
    exact ⟨hb', hid', fun m hm => hload'.unique hm ▸ hu'⟩

/-- Once a load has been stored, the state is settled or about to be written. -/
def Settling (svc : ControlPlaneService) (id : String) (max : UInt32) (p : Pool Store Task) : Prop :=
  (∃ t ∈ p.tasks, Applied t.rest) →
    (∃ n, Loaded id max p.shared n ∧ n.Settled svc) ∨ ∃ t ∈ p.tasks, ∃ hb state, t.rest = setRest hb state

theorem mem_set_of_ne {ts : List Task} {i j : Nat} {t' u : Task} (hne : j ≠ i) (hu : ts[j]? = some u) :
    u ∈ ts.set i t' := by
  apply List.mem_of_getElem? (i := j)
  rw [List.getElem?_set_ne hne.symm]
  exact hu

theorem settling_step {p p' : Pool Store Task} {l : ServiceLabel}
    (hinv : Pool.Inv (fun s => ∃ n, Loaded id max s n) (InFlight svc id max) p) (hp : Settling svc id max p)
    (hwritten : StateWritten l) (h : HeartbeatStep svc id p l p') : Settling svc id max p' := by
  obtain ⟨⟨n, hload⟩, htasks⟩ := hinv
  cases h with
  | @start t hstart =>
    obtain ⟨hfresh, hcall⟩ := hstart
    obtain ⟨hb, hcall, -⟩ := Call.beats_eq_true hcall
    rintro ⟨u, hu, happlied⟩
    have hold : ∃ u ∈ p.tasks, Applied u.rest := by
      rcases List.mem_append.mp hu with hu | hu
      · exact ⟨u, hu, happlied⟩
      · rw [List.mem_singleton.mp hu, hfresh, hcall] at happlied
        exact absurd happlied (not_applied_unread n)
    rcases hp hold with hsettled | ⟨v, hv, hset⟩
    · exact .inl hsettled
    · exact .inr ⟨v, List.mem_append_left _ hv, hset⟩
  | @act i t t' l s' hi hst =>
    have ht : t ∈ p.tasks := List.mem_of_getElem? hi
    have ht' : t' ∈ p.tasks.set i t' := by
      apply List.mem_of_getElem? (i := i)
      rw [List.getElem?_set_self (List.getElem?_eq_some_iff.mp hi).1]
    obtain ⟨hb, hid, hstaged⟩ := htasks t ht
    intro happlied
    cases effect_step hload hid (hstaged n hload) hst with
    | load hload' _ _ _ hnext =>
      rcases hnext with hsettled | ⟨state, hrest'⟩
      · exact .inl ⟨_, hload', hsettled⟩
      · exact .inr ⟨t', ht', hb, state, hrest'⟩
    | state hload' _ _ _ hsettled => exact .inl ⟨_, hload', hsettled⟩
    | quiet hs _ hback hfault =>
      obtain ⟨u, hu, hua⟩ := happlied
      have hold : ∃ u ∈ p.tasks, Applied u.rest := by
        rcases Pool.eq_or_other_of_mem_set hu with rfl | ⟨j, -, hj⟩
        · exact ⟨t, ht, hback hua⟩
        · exact ⟨u, List.mem_of_getElem? hj, hua⟩
      rcases hp hold with ⟨m, hm, hsettled⟩ | ⟨v, hv, hb', state, hset⟩
      · exact .inl ⟨m, hs ▸ hm, hsettled⟩
      · -- the write that is pending is not the acting task's, which could only have failed
        obtain ⟨j, hj⟩ := List.mem_iff_getElem?.mp hv
        by_cases hji : j = i
        · subst hji
          cases hj.symm.trans hi
          rw [hfault hb' state hset] at hwritten
          exact hwritten.elim
        · exact .inr ⟨v, mem_set_of_ne hji hj, hb', state, hset⟩

/-- When nothing is left to write, the state is settled. -/
theorem settled_of_final {p : Pool Store Task} (hp : Settling svc id max p) (hdone : ∀ t ∈ p.tasks, t.rest.Final)
    (hsome : ∃ t ∈ p.tasks, t.rest = .ret .done) : ∃ n, Loaded id max p.shared n ∧ n.Settled svc := by
  obtain ⟨t, ht, hret⟩ := hsome
  rcases hp ⟨t, ht, .inr (.inr hret)⟩ with hsettled | ⟨u, hu, hb, state, hset⟩
  · exact hsettled
  · have hfinal := hdone u hu
    rw [hset] at hfinal
    exact hfinal.elim

end Runs

/-- The share of a node's connections in use, all of it if it takes none. -/
def Node.utilization (n : Node) : ℚ :=
  if n.maxConnections = 0 then 1 else (n.activeConnections.toNat : ℚ) / n.maxConnections.toNat

theorem classify_eq_degraded {svc : ControlPlaneService} {n : Node} :
    svc.classify n.activeConnections n.maxConnections = .degraded ↔ svc.policy.degradedThreshold ≤ n.utilization := by
  change (if svc.policy.degradedThreshold ≤ n.utilization then NodeState.degraded else .healthy) = .degraded ↔ _
  split <;> simp_all

/-- A step of heartbeats of `id` that tolerate each other's writes and whose state writes do not fail. -/
abbrev TolerantStep (svc : ControlPlaneService) (id : String) (max : UInt32) (p : Pool Store Task) (l : ServiceLabel)
    (p' : Pool Store Task) : Prop :=
  (Pool.Tolerated (LoadTolerates svc max) p l ∧ StateWritten l) ∧ HeartbeatStep svc id p l p'

/-- **Concurrent heartbeats settle.** From any store with a live node, after any interleaving of heartbeats of the node
in which no load is stored before a pending state of another class, no state is written over one that another heartbeat
has found right for its class, and no state write fails: once all are done, at least one of them with success, the
stored state is the class of the stored load. -/
theorem heartbeats_settle {svc : ControlPlaneService} {id : String} {s₀ : Store} {n₀ : Node} {ls : List ServiceLabel}
    {p : Pool Store Task} (hfound : Registry.get id s₀.registry = .ok (some n₀)) (hdrain : n₀.state ≠ .draining)
    (hoff : n₀.state ≠ .offline) (hrun : Run (TolerantStep svc id n₀.maxConnections) ⟨s₀, []⟩ ls p)
    (hdone : ∀ t ∈ p.tasks, t.rest.Final) (hsome : ∃ t ∈ p.tasks, t.rest = .ret .done) :
    ∃ n, Registry.get id p.shared.registry = .ok (some n) ∧
      n.state = reclassifyAfterHeartbeat n₀.state n.activeConnections n.maxConnections svc.policy ∧
      (n.state = .degraded ↔ svc.policy.degradedThreshold ≤ n.utilization) := by
  have hlive : n₀.state.live = true := by
    cases hstate : n₀.state with
    | draining => exact absurd hstate hdrain
    | offline => exact absurd hstate hoff
    | _ => rfl
  have hinv : Pool.Inv (fun s => ∃ n, Loaded id n₀.maxConnections s n) (InFlight svc id n₀.maxConnections) p ∧
      Settling svc id n₀.maxConnections p := by
    apply hrun.inv (I := fun p => Pool.Inv (fun s => ∃ n, Loaded id n₀.maxConnections s n)
      (InFlight svc id n₀.maxConnections) p ∧ Settling svc id n₀.maxConnections p)
    · intro q l q' hq hst
      obtain ⟨⟨htol, hwritten⟩, hst⟩ := hst
      exact ⟨inFlight_step hq.1 htol hst, settling_step hq.1 hq.2 hwritten hst⟩
    · refine ⟨⟨⟨n₀, hfound, rfl, hlive⟩, fun t ht => by cases ht⟩, ?_⟩
      rintro ⟨t, ht, -⟩
      cases ht
  obtain ⟨n, hload, hsettled⟩ := settled_of_final hinv.2 hdone hsome
  refine ⟨n, hload.get, ?_, ?_⟩
  · rw [reclassify_eq_classify svc hlive]
    exact hsettled
  · rw [hsettled]
    exact classify_eq_degraded

/-! ## Two interleavings -/

instance (svc : ControlPlaneService) (max : UInt32) (u : Task) : DecidablePred (LoadTolerates svc max u)
  -- by what the option holds, not by trying all words
  | .perform (.applyHeartbeat _) _ | .perform (.setState ..) _ => Option.decidableForallMem _
  | .perform (.register _) _ | .perform (.get _) _ | .perform .list _ | .perform (.setDraining _) _
  | .perform (.markOffline _) _ | .perform (.adjustActive ..) _ | .perform (.accumulateBytes ..) _
  | .perform (.reserve ..) _ | .fault _ => inferInstanceAs (Decidable True)

/-- Every task tolerates the action. -/
def AllTolerate (svc : ControlPlaneService) (max : UInt32) (p : Pool Store Task) : ServiceLabel → Prop
  | .start _ => True
  | .act _ (.perform o now) => ∀ u ∈ p.tasks, LoadTolerates svc max u (.perform o now)
  | .act _ (.fault _) => False

theorem AllTolerate.tolerated {svc : ControlPlaneService} {max : UInt32} {p : Pool Store Task} {l : ServiceLabel}
    (h : AllTolerate svc max p l) : Pool.Tolerated (LoadTolerates svc max) p l ∧ StateWritten l := by
  cases l with
  | start t => exact ⟨trivial, trivial⟩
  | act i a =>
    cases a with
    | perform o now => exact ⟨fun j u _ hu => h u (List.mem_of_getElem? hu), trivial⟩
    | fault o => exact h.elim

instance (svc : ControlPlaneService) (max : UInt32) (p : Pool Store Task) : DecidablePred (AllTolerate svc max p)
  | .start _ => inferInstanceAs (Decidable True)
  | .act _ (.perform ..) => inferInstanceAs (Decidable (∀ u ∈ p.tasks, _))
  | .act _ (.fault _) => inferInstanceAs (Decidable False)

/-- A node that takes ten connections and has none, and is healthy. -/
def healthyStore : Store :=
  runCalls (.new .default) [(.ofSecond 0, .register ⟨"n1", "10.0.0.1:1080", 10, 1000⟩),
    (.ofSecond 1, .heartbeat ⟨"n1", 0, 0, 0, 0, 1000⟩)] .empty

def healthyNode : Node where
  id := "n1"
  address := "10.0.0.1:1080"
  state := .healthy
  lastHeartbeat := some (.ofSecond 1)
  maxConnections := 10
  activeConnections := 0
  bandwidthLimit := 1000
  bytesUp := 0
  bytesDown := 0
  latencyMs := 0
  createdAt := .ofSecond 0
  updatedAt := .ofSecond 1

theorem get_healthyStore : Registry.get "n1" healthyStore.registry = .ok (some healthyNode) := by decide +kernel

/-- Whether a heartbeat has ended with success. -/
def succeeded : ServiceM Outcome → Bool
  | .ret .done => true
  | _ => false

theorem eq_done_of_succeeded {rest : ServiceM Outcome} (h : succeeded rest = true) : rest = .ret .done := by
  unfold succeeded at h
  split at h
  · rfl
  · cases h

theorem final_of_succeeded {p : Pool Store Task} (h : ∀ t ∈ p.tasks, succeeded t.rest = true) :
    ∀ t ∈ p.tasks, t.rest.Final := by
  intro t ht
  rw [eq_done_of_succeeded (h t ht)]
  trivial

theorem exists_done_of_succeeded {p : Pool Store Task} (h : ∀ t ∈ p.tasks, succeeded t.rest = true)
    (hne : 0 < p.tasks.length) : ∃ t ∈ p.tasks, t.rest = .ret .done := by
  obtain ⟨t, ht⟩ := List.exists_mem_of_length_pos hne
  exact ⟨t, ht, eq_done_of_succeeded (h t ht)⟩

/-- Two heartbeats of a full node, step by step. -/
def fullTurns : List Turn :=
  [.arrive (.ofSecond 2) (.heartbeat ⟨"n1", 10, 0, 0, 0, 1000⟩),
    .arrive (.ofSecond 2) (.heartbeat ⟨"n1", 9, 0, 0, 0, 1000⟩),
    .act (.ofSecond 2) 0, .act (.ofSecond 2) 1, .act (.ofSecond 2) 0, .act (.ofSecond 2) 1, .act (.ofSecond 2) 0,
    .act (.ofSecond 2) 0, .act (.ofSecond 2) 1, .act (.ofSecond 2) 1]

theorem fullTurns_settle : ∃ n,
    Registry.get "n1" (runSchedule (.new .default) fullTurns ⟨healthyStore, []⟩).shared.registry = .ok (some n) ∧
      n.state = reclassifyAfterHeartbeat .healthy n.activeConnections n.maxConnections .default ∧
      (n.state = .degraded ↔ HealthPolicy.default.degradedThreshold ≤ n.utilization) := by
  obtain ⟨_, hrun⟩ := run_of_turns (.new .default) (A := fun c => c.beats "n1" = true)
    (T := AllTolerate (.new .default) healthyNode.maxConnections) fullTurns ⟨healthyStore, []⟩ (by decide +kernel)
  have hdone : ∀ t ∈ (runSchedule (.new .default) fullTurns ⟨healthyStore, []⟩).tasks, succeeded t.rest = true := by
    decide +kernel
  exact heartbeats_settle get_healthyStore (by decide) (by decide)
    (hrun.mono fun _ _ _ hst => ⟨hst.1.tolerated, hst.2⟩) (final_of_succeeded hdone)
    (exists_done_of_succeeded hdone (by decide +kernel))

/-- A heartbeat of a full node and one of an empty node, both read before either writes. -/
def mixedLoadTurns : List Turn :=
  [.arrive (.ofSecond 2) (.heartbeat ⟨"n1", 10, 0, 0, 0, 1000⟩),
    .arrive (.ofSecond 2) (.heartbeat ⟨"n1", 0, 0, 0, 0, 1000⟩),
    .act (.ofSecond 2) 0, .act (.ofSecond 2) 1, .act (.ofSecond 2) 0, .act (.ofSecond 2) 0, .act (.ofSecond 2) 1,
    .act (.ofSecond 2) 0, .act (.ofSecond 2) 1]

/-- The load of the one and the state of the other: an empty node is left degraded. -/
theorem mixed_heartbeats : ∃ (ls : List ServiceLabel) (p : Pool Store Task) (n : Node),
    Run (HeartbeatStep (.new .default) "n1") ⟨healthyStore, []⟩ ls p ∧ (∀ t ∈ p.tasks, t.rest.Final) ∧
      (∃ t ∈ p.tasks, t.rest = .ret .done) ∧ Registry.get "n1" p.shared.registry = .ok (some n) ∧
      n.state = .degraded ∧ n.activeConnections = 0 ∧
      n.state ≠ reclassifyAfterHeartbeat .healthy n.activeConnections n.maxConnections .default := by
  obtain ⟨ls, hrun⟩ := run_of_turns (.new .default) (A := fun c => c.beats "n1" = true) (T := fun _ _ => True)
    mixedLoadTurns ⟨healthyStore, []⟩ (by decide +kernel)
  have hdone : ∀ t ∈ (runSchedule (.new .default) mixedLoadTurns ⟨healthyStore, []⟩).tasks,
      succeeded t.rest = true := by
    decide +kernel
  have hget : Registry.get "n1" (runSchedule (.new .default) mixedLoadTurns ⟨healthyStore, []⟩).shared.registry =
      .ok (some { healthyNode with
        state := .degraded
        lastHeartbeat := some (.ofSecond 2)
        updatedAt := .ofSecond 2 }) := by
    decide +kernel
  exact ⟨ls, _, _, hrun.mono fun _ _ _ hst => hst.2, final_of_succeeded hdone,
    exists_done_of_succeeded hdone (by decide +kernel), hget, rfl, rfl, by decide +kernel⟩

end RustProxy.ControlPlane
