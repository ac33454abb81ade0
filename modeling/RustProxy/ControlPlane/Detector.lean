import RustProxy.ControlPlane.Interleaving
import RustProxy.ControlPlane.Lifecycle

/-!
# Heartbeats as a failure detector

What heartbeats and sweeps are for: a node that is heard of in time is in service, and one that is not goes out of it.
Both hold of any number of calls in flight, whose repository calls are interleaved in any order and may fail.

* Accuracy (`prompt_in_service`): a node that nobody drains, and whose recorded heartbeat is younger than the timeout
  whenever a sweep lists the nodes, is in a live state ever after its registration, and no sweep marks it.
* Completeness (`silent_out_of_service`): once a sweep that has listed a node with a stale heartbeat is through, the
  node is in no live state, if since the listing nobody has registered it and no heartbeat has written its status.

A sweep acts on what it has listed and not on what is stored by then, so it is the listing at which a heartbeat has to
be young or old.
-/

namespace RustProxy.ControlPlane

open Lib

/-! ## Out of service -/

/-- The node has no row, or one that is offline or draining. -/
def OutOfService (nodeId : String) (s : Store) : Prop := ∀ state ∈ s.statusOf nodeId, state.live = false

section OutOfService

variable {svc : ControlPlaneService} {nodeId : String} {s : Store} {now : DateTime}

theorem OutOfService.not_selectable (h : OutOfService nodeId s) : ¬ s.Selectable nodeId := by
  rintro ⟨state, hstate, hsel⟩
  have hlive := live_of_selectable hsel
  rw [h state hstate] at hlive
  cases hlive

/-- Only a registration, or the classification of a live node, brings a node into service. -/
theorem OutOfService.exec {o : Op} (h : OutOfService nodeId s)
    (hregister : ∀ req, o = .register req → req.nodeId ≠ nodeId)
    (hset : ∀ id st, o = .setState id st → id ≠ nodeId) : OutOfService nodeId (o.exec now s).2 := by
  intro state hstate
  rw [Op.statusOf_exec] at hstate
  split at hstate
  · next hw =>
    cases o with
    | register req => exact absurd (Option.some.inj hw) (hregister req rfl)
    | setState id st => exact absurd (Option.some.inj hw) (hset id st rfl)
    | setDraining id =>
      obtain ⟨_, -, rfl⟩ := Option.map_eq_some_iff.mp hstate
      rfl
    | markOffline id =>
      obtain ⟨_, -, rfl⟩ := Option.map_eq_some_iff.mp hstate
      rfl
    | _ => exact h state hstate
  · exact h state hstate

end OutOfService

/-! ## Accuracy -/

/-- What a task does next: `id` is not drained, and if a sweep lists the nodes, the recorded heartbeat of `id` is
young. -/
def Prompt (svc : ControlPlaneService) (id : String) (s : Store) (t : Task) : TaskAct → Prop
  | .perform (.setDraining id') _ => id' ≠ id
  | .perform .list _ => t.call = .markStaleOffline → isStale (s.recordedHeartbeat id) t.began svc.policy = false
  | _ => True

def PromptAct (svc : ControlPlaneService) (id : String) (s : Store) (t : Task) (l : TaskAct) (s' : Store) (t' : Task) :
    Prop :=
  TaskStep s t l s' t' ∧ Prompt svc id s t l

abbrev PromptStep (svc : ControlPlaneService) (id : String) := Pool.Step (Task.Fresh svc) (PromptAct svc id)

/-- The node is in a live state, if it is registered. -/
def InService (id : String) (s : Store) : Prop := ∀ state ∈ s.statusOf id, state.live = true

/-- The task has not decided on taking the node out of service. -/
def Spares (svc : ControlPlaneService) (id : String) (t : Task) : Prop :=
  t.Ok svc ∧ ∀ w ∈ decided t.rest, w.1 = id → w.2.live = true

section Accuracy

variable {svc : ControlPlaneService} {id : String} {s s' : Store} {t t' : Task} {l : TaskAct}

theorem Spares.not_markOffline (ht : Spares svc id t) {k : Ans (.markOffline id) → ServiceM Outcome}
    (hrest : t.rest = .op (.markOffline id) k) : False := by
  have hlive := ht.2 _ (mem_decided_of_markOffline hrest) rfl
  cases hlive

/-- A task that spares the node keeps it in service. -/
theorem InService.step (hs : InService id s) (ht : Spares svc id t) (h : PromptAct svc id s t l s' t') :
    InService id s' := by
  obtain ⟨hstep, hprompt⟩ := h
  cases hstep with
  | fault _ _ => exact hs
  | @perform o k now hrest =>
    intro state hstate
    rw [Op.statusOf_exec] at hstate
    split at hstate
    · next hw =>
      cases o with
      | register req =>
        cases hold : s.statusOf id with
        | none =>
          rw [hold] at hstate
          cases hstate
          rfl
        | some old =>
          rw [hold] at hstate
          cases hstate
          split
          · rfl
          · exact hs old hold
      | setDraining id' => exact absurd (Option.some.inj hw) hprompt
      | markOffline id' =>
        cases hw
        exact (ht.not_markOffline hrest).elim
      | setState id' new =>
        obtain ⟨_, -, rfl⟩ := Option.map_eq_some_iff.mp hstate
        exact ht.2 _ (mem_decided_of_setState hrest) (Option.some.inj hw)
      | _ => exact hs state hstate
    · exact hs state hstate

/-- A task goes on to spare the node: what it decides on, it decides on by reading. -/
theorem Spares.step (ht : Spares svc id t) (h : PromptAct svc id s t l s' t') : Spares svc id t' := by
  obtain ⟨hstep, hprompt⟩ := h
  refine ⟨ht.1.step hstep, fun w hw hid => ?_⟩
  have hread := (Prog.Always.now ht.1).byRead
  cases hstep with
  | @fault o k a hrest ha =>
    rcases hread o k hrest _ w hw with hold | hnew
    · exact ht.2 w hold hid
    · exact absurd hnew (not_decides_fault ha)
  | @perform o k now hrest =>
    rcases hread o k hrest _ w hw with hold | hnew
    · exact ht.2 w hold hid
    · obtain ⟨row, hrow, -, hstale⟩ := hnew.exists_row
      cases o with
      | get id' =>
        change Decides svc t.call t.began (.get id') (Registry.get id' s.registry) w at hnew
        match hget : Registry.get id' s.registry with
        | .error e => rw [hget] at hnew; exact hnew.elim
        | .ok none => rw [hget] at hnew; exact hnew.elim
        | .ok (some n) => rw [hget] at hnew; exact hnew.2.2.2
      | list =>
        change Decides svc t.call t.began .list (Registry.list s.registry) w at hnew
        cases hlist : Registry.list s.registry with
        | error e => rw [hlist] at hnew; exact hnew.elim
        | ok nodes =>
          rw [hlist] at hnew
          -- a sweep that decides on marking the node has found its heartbeat stale
          have hyoung := hprompt hnew.1
          rw [Store.recordedHeartbeat, ← hid, hrow, Option.bind_some, hstale hnew.2.1] at hyoung
          cases hyoung
      | _ => exact hnew.elim

theorem prompt_step {p p' : Pool Store Task} {l : ServiceLabel}
    (hp : Pool.Inv (InService id) (fun _ t => Spares svc id t) p) (h : PromptStep svc id p l p') :
    Pool.Inv (InService id) (fun _ t => Spares svc id t) p' := by
  refine Pool.step_inv ?_ ?_ ?_ hp (Pool.tolerated_true p l) h
  · intro s t _ ht
    refine ⟨Task.Ok.of_fresh ht, fun w hw => ?_⟩
    rw [decided_of_fresh ht] at hw
    cases hw
  · exact fun s t l s' t' hs ht hstep => ⟨hs.step ht hstep, ht.step hstep⟩
  · exact fun s t l s' t' u _ _ _ _ hu => hu

/-- **Accuracy.** Whatever calls are made, in whatever order they are performed and wherever they fail: if nobody drains
the node, and its recorded heartbeat is younger than the timeout whenever a sweep lists the nodes, then the node, once
registered, is in a live state, and is never marked. -/
theorem prompt_in_service {ls : List ServiceLabel} {p : Pool Store Task} (hrun : Run (PromptStep svc id) idle ls p) :
    InService id p.shared ∧ ∀ i now, .act i (.perform (.markOffline id) now) ∉ ls := by
  have hinv : Pool.Inv (InService id) (fun _ t => Spares svc id t) p ∧
      ∀ i now, .act i (.perform (.markOffline id) now) ∉ ls := by
    refine hrun.snoc_induction (P := fun ls p => Pool.Inv (InService id) (fun _ t => Spares svc id t) p ∧
      ∀ i now, .act i (.perform (.markOffline id) now) ∉ ls) ?_ ?_
    · refine ⟨⟨fun state hstate => ?_, fun t ht => by cases ht⟩, fun i now h => by cases h⟩
      cases hstate
    · intro ls p l p' _ ⟨hp, hls⟩ hstep
      refine ⟨prompt_step hp hstep, fun i now hmem => ?_⟩
      rcases List.mem_append.mp hmem with hmem | hmem
      · exact hls i now hmem
      · obtain rfl := List.mem_singleton.mp hmem
        cases hstep with
        | act hi hact =>
          have ht := hp.2 _ (List.mem_of_getElem? hi)
          cases hact.1 with
          | perform _ hrest => exact ht.not_markOffline hrest
  exact ⟨hinv.1.1, hinv.2⟩

end Accuracy

/-- A registration, a heartbeat, and a sweep 15 seconds later. -/
def promptTurns : List Turn :=
  [.arrive (.ofSecond 0) (.register ⟨"n1", "10.0.0.1:1080", 100, 1000⟩), .act (.ofSecond 0) 0, .act (.ofSecond 0) 0,
   .arrive (.ofSecond 5) (.heartbeat ⟨"n1", 0, 0, 0, 0, 1000⟩), .act (.ofSecond 5) 1, .act (.ofSecond 5) 1,
   .act (.ofSecond 5) 1, .arrive (.ofSecond 20) .markStaleOffline, .act (.ofSecond 20) 2]

/-- The label of a prompt step. -/
def PromptLabel (svc : ControlPlaneService) (id : String) (p : Pool Store Task) : ServiceLabel → Prop
  | .start _ => True
  | .act i l => ∀ t ∈ p.tasks[i]?, Prompt svc id p.shared t l

instance (svc : ControlPlaneService) (id : String) (s : Store) (t : Task) : DecidablePred (Prompt svc id s t)
  | .perform (.setDraining _) _ => inferInstanceAs (Decidable (_ ≠ _))
  | .perform .list _ => inferInstanceAs (Decidable (_ → _))
  | .perform (.register _) _ | .perform (.get _) _ | .perform (.applyHeartbeat _) _ | .perform (.markOffline _) _
  | .perform (.setState ..) _ | .perform (.adjustActive ..) _ | .perform (.accumulateBytes ..) _
  | .perform (.reserve ..) _ | .fault _ => .isTrue trivial

instance (svc : ControlPlaneService) (id : String) (p : Pool Store Task) : DecidablePred (PromptLabel svc id p)
  | .start _ => .isTrue trivial
  | .act .. => inferInstanceAs (Decidable (∀ t ∈ (_ : Option Task), _))

theorem prompt_in_service_swept : ∃ ls,
    Run (PromptStep (.new .default) "n1") idle ls (runSchedule (.new .default) promptTurns idle) ∧
    (runSchedule (.new .default) promptTurns idle).shared.statusOf "n1" = some .healthy ∧
    InService "n1" (runSchedule (.new .default) promptTurns idle).shared := by
  obtain ⟨ls, hrun⟩ := run_of_turns (.new .default) (A := fun _ => True) (T := PromptLabel (.new .default) "n1")
    promptTurns idle (by decide +kernel)
  have hprompt : Run (PromptStep (.new .default) "n1") idle ls (runSchedule (.new .default) promptTurns idle) := by
    refine hrun.mono fun p l p' hstep => ?_
    obtain ⟨hlabel, hstep⟩ := hstep
    cases hstep with
    | start hfresh => exact .start hfresh.1
    | act hi hact => exact .act hi ⟨hact, hlabel _ hi⟩
  exact ⟨ls, hprompt, by decide +kernel, (prompt_in_service hprompt).1⟩

/-! ## Completeness -/

/-- What a task does next neither registers `id` nor, as a heartbeat does, writes a status of it. -/
def Silent (id : String) : TaskAct → Prop
  | .perform (.register req) _ => req.nodeId ≠ id
  | .perform (.setState id' _) _ => id' ≠ id
  | _ => True

def SilentAct (id : String) (s : Store) (t : Task) (l : TaskAct) (s' : Store) (t' : Task) : Prop :=
  TaskStep s t l s' t' ∧ Silent id l

abbrev SilentStep (svc : ControlPlaneService) (id : String) := Pool.Step (Task.Fresh svc) (SilentAct id)

/-- What a sweep that has listed the node with a stale heartbeat may have come to: it has still to mark the node, or it
has failed, or the node is out of service. -/
def Sweeping (id : String) (s : Store) (t : Task) : Prop :=
  (∃ ids marked, t.rest = markRest ids marked ∧ id ∈ ids) ∨ (∃ e, t.rest = .fail e) ∨ OutOfService id s

section Completeness

variable {svc : ControlPlaneService} {id : String} {s s' : Store} {t t' u : Task} {l : TaskAct}

theorem OutOfService.silent (hs : OutOfService id s) (h : SilentAct id s t l s' t') : OutOfService id s' := by
  obtain ⟨hstep, hsilent⟩ := h
  cases hstep with
  | fault _ _ => exact hs
  | perform now hrest =>
    refine hs.exec ?_ ?_
    · rintro req rfl
      exact hsilent
    · rintro id' st rfl
      exact hsilent

/-- The other tasks leave the sweep where it is. -/
theorem Sweeping.other (hu : Sweeping id s u) (h : SilentAct id s t l s' t') : Sweeping id s' u :=
  hu.imp_right (Or.imp_right fun hs => hs.silent h)

/-- Each step of the sweep marks a node, or fails. -/
theorem Sweeping.step (ht : Sweeping id s t) (h : SilentAct id s t l s' t') : Sweeping id s' t' := by
  rcases ht with ⟨ids, marked, hrest, hid⟩ | ⟨e, hrest⟩ | hs
  · cases ids with
    | nil => cases hid
    | cons id' ids =>
      rw [markRest_cons] at hrest
      cases h.1 with
      | fault hop ha =>
        cases hop.symm.trans hrest
        cases ha
        exact .inr (.inl ⟨_, rfl⟩)
      | perform now hop =>
        cases hop.symm.trans hrest
        rcases List.mem_cons.mp hid with rfl | hid
        · -- the node itself has just been marked
          have hwrites : (Op.markOffline id).writes = some id := rfl
          refine .inr (.inr fun state hstate => ?_)
          rw [Op.statusOf_exec, if_pos hwrites] at hstate
          obtain ⟨_, -, rfl⟩ := Option.map_eq_some_iff.mp hstate
          rfl
        · exact .inl ⟨ids, marked + 1, rfl, hid⟩
  · cases h.1 with
    | fault hop ha => cases hop.symm.trans hrest
    | perform now hop => cases hop.symm.trans hrest
  · exact .inr (.inr (hs.silent h))

theorem sweeping_run {p q : Pool Store Task} {ls : List ServiceLabel} {i : Nat}
    (hp : ∃ t, p.tasks[i]? = some t ∧ Sweeping id p.shared t) (hrun : Run (SilentStep svc id) p ls q) :
    ∃ t, q.tasks[i]? = some t ∧ Sweeping id q.shared t := by
  refine hrun.inv (I := fun p => ∃ t, p.tasks[i]? = some t ∧ Sweeping id p.shared t) (fun p l p' hp hstep => ?_) hp
  obtain ⟨t, hi, ht⟩ := hp
  have hlen : i < p.tasks.length := (List.getElem?_eq_some_iff.mp hi).1
  cases hstep with
  | start _ => exact ⟨t, by rw [List.getElem?_append_left hlen]; exact hi, ht⟩
  | @act j u u' l s' hj hact =>
    by_cases hji : j = i
    · subst hji
      cases hi.symm.trans hj
      exact ⟨u', List.getElem?_set_self hlen, ht.step hact⟩
    · exact ⟨t, by rw [List.getElem?_set_ne hji]; exact hi, ht.other hact⟩

/-- A sweep that lists the nodes has to mark those that are live and stale. -/
theorem sweeping_listed {now : DateTime} (hfresh : t.Fresh svc) (hcall : t.call = .markStaleOffline)
    (hstale : isStale (s.recordedHeartbeat id) t.began svc.policy = true)
    (hlist : TaskStep s t (.perform .list now) s' t') : Sweeping id s' t' := by
  cases hlist with
  | @perform _ k _ hrest =>
    rw [Task.Fresh, hcall, hrest] at hfresh
    cases hfresh
    cases hnodes : Registry.list s.registry with
    | error e => exact .inr (.inl ⟨e, by simp only [Op.exec, hnodes]; rfl⟩)
    | ok nodes =>
      by_cases hlive : OutOfService id s
      · exact .inr (.inr hlive)
      · refine .inl ⟨dueIds svc t.began nodes, 0, ?_, mem_dueIds.mpr ?_⟩
        · rw [← sweepRest_eq]
          simp only [Op.exec, hnodes]
          rfl
        · -- the row is live, and was listed
          simp only [OutOfService, Store.statusOf, Option.mem_def, Option.map_eq_some_iff, forall_exists_index, and_imp,
            forall_apply_eq_imp_iff₂, not_forall, Bool.not_eq_false] at hlive
          obtain ⟨row, hrow, hlive⟩ := hlive
          obtain ⟨n, hn, hdec⟩ := Registry.exists_mem_list hnodes hrow
          have hdec := Decodes.of_ok hdec
          refine ⟨n, hn, ?_, hdec.id.trans (Table.key_of_find? hrow)⟩
          rw [Store.recordedHeartbeat, hrow, Option.bind_some] at hstale
          rw [ControlPlaneService.due, Bool.and_eq_true, hdec.state, hdec.lastHeartbeat]
          exact ⟨hlive, hstale⟩

/-- **Completeness.** A sweep lists the nodes when the recorded heartbeat of `id` is as old as the timeout. If it comes
to its end, and in the meantime nobody has registered the node and no heartbeat has written its status, then the node is
in no live state, and is not selectable; whatever the other calls do. -/
theorem silent_out_of_service {ls : List ServiceLabel} {p p' q : Pool Store Task} {i : Nat} {now : DateTime}
    (hi : p.tasks[i]? = some t) (hfresh : t.Fresh svc) (hcall : t.call = .markStaleOffline)
    (hstale : isStale (p.shared.recordedHeartbeat id) t.began svc.policy = true)
    (hlist : ServiceStep svc p (.act i (.perform .list now)) p') (hrun : Run (SilentStep svc id) p' ls q)
    (hi' : q.tasks[i]? = some t') {o : Outcome} (hdone : t'.rest = .ret o) :
    OutOfService id q.shared ∧ ¬ q.shared.Selectable id := by
  have hlisted : ∃ u, p'.tasks[i]? = some u ∧ Sweeping id p'.shared u := by
    cases hlist with
    | act hj hact =>
      cases hi.symm.trans hj
      have hlen : i < p.tasks.length := (List.getElem?_eq_some_iff.mp hi).1
      exact ⟨_, List.getElem?_set_self hlen, sweeping_listed hfresh hcall hstale hact⟩
  obtain ⟨u, hu, hsweep⟩ := sweeping_run hlisted hrun
  cases hi'.symm.trans hu
  -- a sweep that has come to its end has nothing to mark, and has not failed
  rcases hsweep with ⟨ids, marked, hrest, hid⟩ | ⟨e, hrest⟩ | hout
  · cases ids with
    | nil => cases hid
    | cons id' ids =>
      rw [markRest_cons] at hrest
      cases hdone.symm.trans hrest
  · cases hdone.symm.trans hrest
  · exact ⟨hout, hout.not_selectable⟩

end Completeness

/-- Registered, and heard of once. -/
def silentTurns : List Turn :=
  [.arrive (.ofSecond 0) (.register ⟨"n1", "10.0.0.1:1080", 100, 1000⟩), .act (.ofSecond 0) 0, .act (.ofSecond 0) 0,
   .arrive (.ofSecond 1) (.heartbeat ⟨"n1", 0, 0, 0, 0, 1000⟩), .act (.ofSecond 1) 1, .act (.ofSecond 1) 1,
   .act (.ofSecond 1) 1, .act (.ofSecond 1) 1]

/-- A sweep that begins 99 seconds later has arrived. -/
def sweepArrived : Pool Store Task :=
  runSchedule (.new .default) [.arrive (.ofSecond 100) .markStaleOffline]
    (runSchedule (.new .default) silentTurns idle)

def Task.returned (t : Task) : Bool :=
  match t.rest with
  | .ret _ => true
  | _ => false

/-- The sweep lists the nodes, marks this one, and is through. -/
theorem silent_out_of_service_swept : ∃ ls q, sweepArrived.shared.Selectable "n1" ∧
    Run (SilentStep (.new .default) "n1") (runSchedule (.new .default) [.act (.ofSecond 100) 2] sweepArrived) ls q ∧
    ¬ q.shared.Selectable "n1" := by
  have hlen : (runSchedule (.new .default) silentTurns idle).tasks.length = 2 := by decide +kernel
  have hi : sweepArrived.tasks[2]? =
      some ⟨.markStaleOffline, .ofSecond 100, Call.prog (.new .default) (.ofSecond 100) .markStaleOffline⟩ := by
    rw [← hlen]
    exact List.getElem?_concat_length
  have hmark : ∃ q, ServiceStep (.new .default) (runSchedule (.new .default) [.act (.ofSecond 100) 2] sweepArrived)
      (.act 2 (.perform (.markOffline "n1") (.ofSecond 100))) q ∧ q.tasks[2]?.any Task.returned = true :=
    ⟨_, step_of_turn (by decide +kernel), by decide +kernel⟩
  obtain ⟨q, hstep, hdone⟩ := hmark
  obtain ⟨t', hi', hreturned⟩ := (Option.any_eq_true _ _).mp hdone
  have hrun : Run (SilentStep (.new .default) "n1") (runSchedule (.new .default) [.act (.ofSecond 100) 2] sweepArrived)
      [.act 2 (.perform (.markOffline "n1") (.ofSecond 100))] q := by
    refine .cons ?_ (.nil q)
    cases hstep with
    | act hi hact => exact .act hi ⟨hact, trivial⟩
  unfold Task.returned at hreturned
  split at hreturned
  · next o ho =>
    exact ⟨_, q, ⟨.healthy, by decide +kernel, rfl⟩, hrun, (silent_out_of_service hi (by rfl) rfl (by decide +kernel)
      (step_of_turn (by decide +kernel)) hrun hi' ho).2⟩
  · cases hreturned

end RustProxy.ControlPlane
