import Mathlib.Data.List.DropRight
import RustProxy.Lib.Interleave
import RustProxy.ControlPlane.FiniteMap
import RustProxy.ControlPlane.GracePeriod

/-!
# The lifecycle of a node by its history

What has to have happened for a node to be selectable, over any sequence of service calls.

* `LifeStep` is the lifecycle as a machine of five phases, driven by what happens to one id; the phase is a function of
  the history (`describes_run`), and the node is active exactly if the history is `KeptAlive`.
* The service refines the machine, call by call (`lifeStep_call`), wherever a heartbeat can read its row. It cannot once
  `adjust_active` has overflowed the count of the node, and the heartbeat is then lost
  (`heartbeat_lost_after_overflow`); without an overflow it always can (`heartbeatsRead_of_fit`).
* `selectable_iff_history` puts the two together.
-/

namespace RustProxy.ControlPlane

open Lib

/-! ## The machine -/

/-- What a call can mean for one id. -/
inductive LifeEvent
  /-- A registration that found the id absent or offline. -/
  | joined
  /-- Any other registration of the id. -/
  | renewed
  | beat
  | drained
  /-- A sweep that marked the id offline. -/
  | marked
  | other
  deriving DecidableEq

def LifeEvent.registers : LifeEvent → Bool
  | joined | renewed => true
  | _ => false

inductive Phase
  | absent
  | starting
  | active
  | draining
  | offline
  deriving DecidableEq

inductive LifeStep : Phase → LifeEvent → Phase → Prop
  | joined {p : Phase} : p = .absent ∨ p = .offline → LifeStep p .joined .starting
  | renewed {p : Phase} : p ≠ .absent → p ≠ .offline → LifeStep p .renewed p
  | beatLive {p : Phase} : p = .starting ∨ p = .active → LifeStep p .beat .active
  | beatIgnored {p : Phase} : p ≠ .starting → p ≠ .active → LifeStep p .beat p
  | drainedAbsent : LifeStep .absent .drained .absent
  | drained {p : Phase} : p ≠ .absent → LifeStep p .drained .draining
  | marked {p : Phase} : p = .starting ∨ p = .active → LifeStep p .marked .offline
  | other {p : Phase} : LifeStep p .other p

/-! ## Histories -/

/-- The id has been registered. -/
def Registered (es : List LifeEvent) : Prop := ∃ e ∈ es, e.registers = true

/-- What happened from the first registration on. -/
def sinceRegistration (es : List LifeEvent) : List LifeEvent := es.dropWhile fun e => !e.registers

/-- What happened after the last registration that found the id absent or offline. -/
def sinceLastJoin (es : List LifeEvent) : List LifeEvent := es.rtakeWhile (· ≠ .joined)

/-- The id is registered, not drained since, and after its last join a heartbeat came and no sweep marked it. -/
def KeptAlive (es : List LifeEvent) : Prop :=
  Registered es ∧ .drained ∉ sinceRegistration es ∧ .beat ∈ sinceLastJoin es ∧ .marked ∉ sinceLastJoin es

instance : DecidablePred Registered := fun es => inferInstanceAs (Decidable (∃ e ∈ es, _))

instance : DecidablePred KeptAlive := fun _ => inferInstanceAs (Decidable (_ ∧ _))

section Histories

variable {es : List LifeEvent}

theorem registered_snoc {e : LifeEvent} : Registered (es ++ [e]) ↔ Registered es ∨ e.registers = true := by
  simp [Registered, or_and_right, exists_or]

theorem sinceRegistration_eq_nil : sinceRegistration es = [] ↔ ¬ Registered es := by
  simp [sinceRegistration, Registered, List.dropWhile_eq_nil_iff]

theorem registered_of_drained (h : .drained ∈ sinceRegistration es) : Registered es := by
  by_contra hes
  rw [sinceRegistration_eq_nil.mpr hes] at h
  cases h

theorem drained_snoc {e : LifeEvent} : .drained ∈ sinceRegistration (es ++ [e]) ↔
    .drained ∈ sinceRegistration es ∨ e = .drained ∧ Registered es := by
  have happ : sinceRegistration (es ++ [e]) =
      if (sinceRegistration es).isEmpty then sinceRegistration [e] else sinceRegistration es ++ [e] :=
    List.dropWhile_append
  rw [happ]
  split
  · next h =>
    have hnil := List.isEmpty_iff.mp h
    simp only [sinceRegistration_eq_nil.mp hnil, hnil, and_false, or_false]
    cases e <;> simp [sinceRegistration, LifeEvent.registers]
  · next h =>
    have hes : Registered es := by
      by_contra hes
      exact h (List.isEmpty_iff.mpr (sinceRegistration_eq_nil.mpr hes))
    rw [List.mem_append, List.mem_singleton]
    exact or_congr_right ⟨fun he => ⟨he.symm, hes⟩, fun he => he.1.symm⟩

theorem mem_sinceLastJoin_snoc {e e' : LifeEvent} :
    e' ∈ sinceLastJoin (es ++ [e]) ↔ e ≠ .joined ∧ (e' ∈ sinceLastJoin es ∨ e = e') := by
  unfold sinceLastJoin
  by_cases h : e = .joined
  · rw [List.rtakeWhile_concat_neg _ _ _ (by simp [h])]
    simp [h]
  · rw [List.rtakeWhile_concat_pos _ _ _ (by simp [h])]
    simp [h, eq_comm]

end Histories

/-- What the phase says of the history. -/
def Describes (es : List LifeEvent) : Phase → Prop
  | .absent => ¬ Registered es
  | .starting => Registered es ∧ .drained ∉ sinceRegistration es ∧ .beat ∉ sinceLastJoin es ∧ .marked ∉ sinceLastJoin es
  | .active => KeptAlive es
  | .draining => .drained ∈ sinceRegistration es
  | .offline => Registered es ∧ .drained ∉ sinceRegistration es ∧ .marked ∈ sinceLastJoin es

theorem describes_step {es : List LifeEvent} {p p' : Phase} {e : LifeEvent} (hp : Describes es p)
    (h : LifeStep p e p') : Describes (es ++ [e]) p' := by
  cases h with
  | joined hfrom =>
    have hundrained : .drained ∉ sinceRegistration es := by
      rcases hfrom with rfl | rfl
      · exact fun hd => hp (registered_of_drained hd)
      · exact hp.2.1
    simp [Describes, registered_snoc, drained_snoc, mem_sinceLastJoin_snoc, LifeEvent.registers, hundrained]
  | renewed hne hne' =>
    cases p <;> simp_all [Describes, KeptAlive, registered_snoc, drained_snoc, mem_sinceLastJoin_snoc]
  | beatLive hfrom =>
    rcases hfrom with rfl | rfl <;>
      simp_all [Describes, KeptAlive, registered_snoc, drained_snoc, mem_sinceLastJoin_snoc]
  | beatIgnored hne hne' =>
    cases p <;>
      simp_all [Describes, registered_snoc, drained_snoc, mem_sinceLastJoin_snoc, LifeEvent.registers]
  | drainedAbsent => simpa [Describes, registered_snoc, LifeEvent.registers] using hp
  | drained hne =>
    have hreg : Registered es := by
      cases p with
      | absent => exact absurd rfl hne
      | starting => exact hp.1
      | active => exact hp.1
      | draining => exact registered_of_drained hp
      | offline => exact hp.1
    simp [Describes, drained_snoc, hreg]
  | marked hfrom =>
    rcases hfrom with rfl | rfl <;>
      simp_all [Describes, KeptAlive, registered_snoc, drained_snoc, mem_sinceLastJoin_snoc]
  | other =>
    cases p <;>
      simp_all [Describes, KeptAlive, registered_snoc, drained_snoc, mem_sinceLastJoin_snoc, LifeEvent.registers]

theorem describes_run {es : List LifeEvent} {p : Phase} (h : Run LifeStep .absent es p) : Describes es p := by
  apply Run.snoc_induction _ _ h
  · simp [Describes, Registered]
  · intro es p e p' _ hp hstep
    exact describes_step hp hstep

/-- **The phase by the history.** -/
theorem active_iff_keptAlive {es : List LifeEvent} {p : Phase} (h : Run LifeStep .absent es p) :
    p = .active ↔ KeptAlive es := by
  have hp := describes_run h
  cases p with
  | absent => simp only [reduceCtorEq, false_iff]; exact fun hk => hp hk.1
  | starting => simp only [reduceCtorEq, false_iff]; exact fun hk => hp.2.2.1 hk.2.2.1
  | active => exact ⟨fun _ => hp, fun _ => rfl⟩
  | draining => simp only [reduceCtorEq, false_iff]; exact fun hk => hk.2.1 hp
  | offline => simp only [reduceCtorEq, false_iff]; exact fun hk => hk.2.2.2 hp.2.2

/-! ## The service refines the machine -/

def Phase.of : Option NodeState → Phase
  | none => absent
  | some .starting => starting
  | some .healthy | some .degraded => active
  | some .draining => draining
  | some .offline => offline

theorem Phase.of_selectable {state : NodeState} (h : state.selectable = true) : Phase.of (some state) = .active := by
  cases state with
  | healthy => rfl
  | degraded => rfl
  | _ => cases h

/-- What a call, executed in the store `s`, means for `id`. -/
def lifeEvent (svc : ControlPlaneService) (id : String) (s : Store) : TimedCall → LifeEvent
  | (_, .register req) =>
    if req.nodeId = id then
      if s.statusOf id = none ∨ s.statusOf id = some .offline then .joined else .renewed
    else .other
  | (_, .heartbeat hb) => if hb.nodeId = id then .beat else .other
  | (_, .drain id') => if id' = id then .drained else .other
  | (now, .markStaleOffline) =>
    if s.statusOf id ≠ some .offline ∧ (Call.run svc now .markStaleOffline s).2.statusOf id = some .offline then .marked
    else .other
  | _ => .other

/-- The history of `id` over the calls. -/
def lifeline (svc : ControlPlaneService) (id : String) : List TimedCall → Store → List LifeEvent
  | [], _ => []
  | (now, c) :: cs, s => lifeEvent svc id s (now, c) :: lifeline svc id cs (c.run svc now s).2

/-- A heartbeat of `id` can read its row. -/
def HeartbeatReads (id : String) (s : Store) : Call → Prop
  | .heartbeat hb => hb.nodeId = id → (Registry.get id s.registry).isOk = true
  | _ => True

/-- Every heartbeat of `id` can read its row. -/
def HeartbeatsRead (svc : ControlPlaneService) (id : String) : List TimedCall → Store → Prop
  | [], _ => True
  | (now, c) :: cs, s => HeartbeatReads id s c ∧ HeartbeatsRead svc id cs (c.run svc now s).2

section Calls

variable {svc : ControlPlaneService} {id : String} {now : DateTime} {s : Store}

/-- A call whose operations leave the status of `id` leaves it. -/
theorem Call.statusOf_run {c : Call}
    (hc : ∀ o, c.mayPerform o → o.writes ≠ some id ∨ ∀ state, o.statusAfter state = state) :
    (c.run svc now s).2.statusOf id = s.statusOf id := by
  refine Call.run_inv svc (I := fun s' => s'.statusOf id = s.statusOf id) (fun o s' ho hs' => ?_) rfl
  rw [Op.statusOf_exec]
  split
  · next hw =>
    rcases hc o ho with hne | hkeep
    · exact absurd hw hne
    · rw [hkeep, hs']
  · exact hs'

theorem lifeStep_register (req : RegisterRequest) :
    LifeStep (.of (s.statusOf id)) (lifeEvent svc id s (now, .register req))
      (.of ((Call.run svc now (.register req) s).2.statusOf id)) := by
  have hstatus : (Call.run svc now (.register req) s).2.statusOf id =
      if some req.nodeId = some id then (Op.register req).statusAfter (s.statusOf id) else s.statusOf id := by
    rw [register_state]
    exact (Op.register req).statusOf_exec now s id
  rw [hstatus]
  by_cases hid : req.nodeId = id
  · rw [if_pos (congrArg some hid)]
    simp only [lifeEvent, if_pos hid]
    cases s.statusOf id with
    | none => exact .joined (.inl rfl)
    | some state =>
      cases state with
      | offline => exact .joined (.inr rfl)
      | _ => exact .renewed (by simp [Phase.of]) (by simp [Phase.of])
  · rw [if_neg (by simpa using hid)]
    simp only [lifeEvent, if_neg hid]
    exact .other

theorem lifeStep_drain (id' : String) :
    LifeStep (.of (s.statusOf id)) (lifeEvent svc id s (now, .drain id'))
      (.of ((Call.run svc now (.drain id') s).2.statusOf id)) := by
  have hstatus : (Call.run svc now (.drain id') s).2.statusOf id =
      if some id' = some id then (Op.setDraining id').statusAfter (s.statusOf id) else s.statusOf id := by
    rw [drain_state]
    exact (Op.setDraining id').statusOf_exec now s id
  rw [hstatus]
  by_cases hid : id' = id
  · rw [if_pos (congrArg some hid)]
    simp only [lifeEvent, if_pos hid]
    cases s.statusOf id with
    | none => exact .drainedAbsent
    | some state => exact .drained (by cases state <;> simp [Phase.of])
  · rw [if_neg (by simpa using hid)]
    simp only [lifeEvent, if_neg hid]
    exact .other

/-- A heartbeat that reads its row leaves the status that it computes from it. -/
theorem statusOf_heartbeat (svc : ControlPlaneService) (now : DateTime) {hb : Heartbeat} {n : Node}
    (hget : Registry.get hb.nodeId s.registry = .ok (some n)) :
    s.statusOf hb.nodeId = some n.state ∧ (Call.run svc now (.heartbeat hb) s).2.statusOf hb.nodeId =
      some (reclassifyAfterHeartbeat n.state hb.activeConnections n.maxConnections svc.policy) := by
  obtain ⟨row, hrow, hdec⟩ := Registry.get_some hget
  have hbefore : s.statusOf hb.nodeId = some n.state := by
    rw [Store.statusOf, hrow, (Decodes.of_ok hdec).state]
    rfl
  refine ⟨hbefore, ?_⟩
  rw [heartbeat_state, hget]
  dsimp only
  split
  · rw [Op.statusOf_exec, Op.statusOf_exec, hbefore]
    simp [Op.writes, Op.statusAfter]
  · next hsame =>
    rw [Op.statusOf_exec, hbefore, not_not.mp hsame]
    simp [Op.writes, Op.statusAfter]

theorem lifeStep_heartbeat {hb : Heartbeat} (hread : HeartbeatReads id s (.heartbeat hb)) :
    LifeStep (.of (s.statusOf id)) (lifeEvent svc id s (now, .heartbeat hb))
      (.of ((Call.run svc now (.heartbeat hb) s).2.statusOf id)) := by
  by_cases hid : hb.nodeId = id
  · subst hid
    simp only [lifeEvent, if_true]
    match hget : Registry.get hb.nodeId s.registry with
    | .error e =>
      have hok := hread rfl
      rw [hget] at hok
      cases hok
    | .ok none =>
      have hnone : s.statusOf hb.nodeId = none := by
        rw [Store.statusOf, Registry.get_none hget]
        rfl
      rw [heartbeat_state, hget]
      dsimp only
      rw [hnone]
      exact .beatIgnored (by simp [Phase.of]) (by simp [Phase.of])
    | .ok (some n) =>
      obtain ⟨hbefore, hafter⟩ := statusOf_heartbeat svc now hget
      rw [hbefore, hafter]
      cases hstate : n.state with
      | draining => exact .beatIgnored (by simp [Phase.of]) (by simp [Phase.of])
      | offline => exact .beatIgnored (by simp [Phase.of]) (by simp [Phase.of])
      | starting =>
        rw [Phase.of_selectable (reclassify_live rfl _ _ _)]
        exact .beatLive (.inl rfl)
      | healthy =>
        rw [Phase.of_selectable (reclassify_live rfl _ _ _)]
        exact .beatLive (.inr rfl)
      | degraded =>
        rw [Phase.of_selectable (reclassify_live rfl _ _ _)]
        exact .beatLive (.inr rfl)
  · simp only [lifeEvent, if_neg hid]
    rw [Call.statusOf_run]
    · exact .other
    · rintro o (rfl | rfl | ⟨state, rfl⟩)
      · exact .inr fun _ => rfl
      · exact .inr fun _ => rfl
      · exact .inl (by simpa [Op.writes] using hid)

/-- A sweep turns a live node offline, or leaves it. -/
theorem sweep_statusOf_cases (svc : ControlPlaneService) (now : DateTime) (id : String) (s : Store) :
    (Call.run svc now .markStaleOffline s).2.statusOf id = s.statusOf id ∨
    (∃ state, s.statusOf id = some state ∧ state.live = true) ∧
      (Call.run svc now .markStaleOffline s).2.statusOf id = some .offline := by
  simp only [Store.statusOf, sweep_find?]
  cases hlist : Registry.list s.registry with
  | error e => exact .inl rfl
  | ok nodes =>
    dsimp only
    split
    · next hdue =>
      obtain ⟨n, hn, hdue, rfl⟩ := hdue
      obtain ⟨row, hrow, hdec⟩ := Registry.list_mem hlist hn
      have hlive : n.state.live = true := (Bool.and_eq_true _ _ ▸ hdue).1
      rw [(Decodes.of_ok hdec).state] at hlive
      rw [hrow]
      exact .inr ⟨⟨row.status, rfl, hlive⟩, rfl⟩
    · exact .inl rfl

theorem lifeStep_sweep :
    LifeStep (.of (s.statusOf id)) (lifeEvent svc id s (now, .markStaleOffline))
      (.of ((Call.run svc now .markStaleOffline s).2.statusOf id)) := by
  change LifeStep _ (if s.statusOf id ≠ some .offline ∧
    (Call.run svc now .markStaleOffline s).2.statusOf id = some .offline then .marked else .other) _
  rcases sweep_statusOf_cases svc now id s with hsame | ⟨⟨state, hstate, hlive⟩, hoff⟩
  · rw [hsame, if_neg fun h => h.1 h.2]
    exact .other
  · have hne : s.statusOf id ≠ some .offline := by
      rw [hstate]
      rintro ⟨⟩
      cases hlive
    rw [if_pos ⟨hne, hoff⟩, hoff, hstate]
    apply LifeStep.marked
    cases state with
    | starting => exact .inl rfl
    | healthy => exact .inr rfl
    | degraded => exact .inr rfl
    | _ => cases hlive

/-- **Refinement.** A call moves the phase of every id as the machine does. -/
theorem lifeStep_call {c : Call} (hread : HeartbeatReads id s c) :
    LifeStep (.of (s.statusOf id)) (lifeEvent svc id s (now, c)) (.of ((c.run svc now s).2.statusOf id)) := by
  cases c with
  | register req => exact lifeStep_register req
  | heartbeat hb => exact lifeStep_heartbeat hread
  | drain id' => exact lifeStep_drain id'
  | markStaleOffline => exact lifeStep_sweep
  | list =>
    rw [Call.statusOf_run fun o ho => .inr (by rw [show o = .list from ho]; exact fun _ => rfl)]
    exact .other
  | get id' =>
    rw [Call.statusOf_run fun o ho => .inr (by rw [show o = .get id' from ho]; exact fun _ => rfl)]
    exact .other
  | select =>
    rw [Call.statusOf_run fun o ho => .inr (by rw [show o = .list from ho]; exact fun _ => rfl)]
    exact .other
  | selectWithBandwidth =>
    rw [Call.statusOf_run fun o ho => .inr (by rcases ho with rfl | ⟨_, _, _, rfl⟩ <;> exact fun _ => rfl)]
    exact .other
  | adjustActive id' delta =>
    rw [Call.statusOf_run fun o ho => .inr (by rw [show o = .adjustActive id' delta from ho]; exact fun _ => rfl)]
    exact .other

end Calls

theorem run_lifeline {svc : ControlPlaneService} {id : String} {cs : List TimedCall} {s : Store}
    (hread : HeartbeatsRead svc id cs s) :
    Run LifeStep (.of (s.statusOf id)) (lifeline svc id cs s) (.of ((runCalls svc cs s).statusOf id)) := by
  induction cs generalizing s with
  | nil => exact .nil _
  | cons c cs ih => exact .cons (lifeStep_call hread.1) (ih hread.2)

theorem selectable_iff_active {s : Store} {id : String} : s.Selectable id ↔ Phase.of (s.statusOf id) = .active := by
  constructor
  · rintro ⟨state, hstate, hsel⟩
    rw [hstate]
    exact Phase.of_selectable hsel
  · intro h
    cases hstate : s.statusOf id with
    | none => rw [hstate] at h; cases h
    | some state =>
      rw [hstate] at h
      refine ⟨state, hstate, ?_⟩
      cases state with
      | healthy => rfl
      | degraded => rfl
      | _ => cases h

/-- **Selectable by history.** After any sequence of calls whose heartbeats of `id` can read its row, `id` is selectable
exactly if it was registered, not drained afterwards, and, since it last joined, a heartbeat came and no sweep marked
it. -/
theorem selectable_iff_history (svc : ControlPlaneService) (cs : List TimedCall) (id : String)
    (hread : HeartbeatsRead svc id cs .empty) :
    (runCalls svc cs .empty).Selectable id ↔ KeptAlive (lifeline svc id cs .empty) := by
  have hrun : Run LifeStep .absent (lifeline svc id cs .empty) (.of ((runCalls svc cs .empty).statusOf id)) :=
    run_lifeline hread
  rw [selectable_iff_active, active_iff_keptAlive hrun]

/-! ## When a heartbeat can read its row -/

instance (id : String) (s : Store) : DecidablePred (HeartbeatReads id s)
  | .heartbeat hb => inferInstanceAs (Decidable (hb.nodeId = id → _))
  | .register _ | .list | .get _ | .drain _ | .select | .selectWithBandwidth | .adjustActive .. | .markStaleOffline =>
    inferInstanceAs (Decidable True)

instance decidableHeartbeatsRead (svc : ControlPlaneService) (id : String) :
    ∀ (cs : List TimedCall) (s : Store), Decidable (HeartbeatsRead svc id cs s)
  | [], _ => inferInstanceAs (Decidable True)
  | (now, c) :: cs, s =>
    have := decidableHeartbeatsRead svc id cs (c.run svc now s).2
    inferInstanceAs (Decidable (_ ∧ _))

/-- Offline after a silent minute, back with a heartbeat after it registered again. -/
def comebackCalls : List TimedCall :=
  [(.ofSecond 0, .register ⟨"a", "10.0.0.1:1080", 10, 1000⟩), (.ofSecond 1, .heartbeat ⟨"a", 3, 10, 20, 5, 100⟩),
    (.ofSecond 61, .markStaleOffline), (.ofSecond 62, .register ⟨"a", "10.0.0.1:1080", 10, 1000⟩),
    (.ofSecond 63, .adjustActive "a" 1), (.ofSecond 64, .heartbeat ⟨"a", 9, 10, 20, 5, 100⟩)]

theorem selectable_after_comeback : (runCalls (.new .default) comebackCalls .empty).Selectable "a" :=
  (selectable_iff_history (.new .default) comebackCalls "a" (by decide +kernel)).mpr (by decide +kernel)

/-- The count of the node is adjusted past the largest 64-bit integer before its first heartbeat. -/
def lostHeartbeatCalls : List TimedCall :=
  [(.ofSecond 0, .register ⟨"a", "10.0.0.1:1080", 10, 1000⟩), (.ofSecond 1, .adjustActive "a" 9223372036854775807),
    (.ofSecond 2, .adjustActive "a" 1), (.ofSecond 3, .heartbeat ⟨"a", 3, 10, 20, 5, 100⟩)]

/-- The heartbeat cannot read the row, and the node stays in state `Starting`. -/
theorem heartbeat_lost_after_overflow :
    KeptAlive (lifeline (.new .default) "a" lostHeartbeatCalls .empty) ∧
      ¬ (runCalls (.new .default) lostHeartbeatCalls .empty).Selectable "a" := by
  refine ⟨by decide +kernel, ?_⟩
  rintro ⟨state, hstate, hsel⟩
  have hstarting : (runCalls (.new .default) lostHeartbeatCalls .empty).statusOf "a" = some .starting := by
    decide +kernel
  rw [hstarting] at hstate
  cases hstate
  cases hsel

/-- No adjustment of a count overflows. -/
def CallsFit (svc : ControlPlaneService) : List TimedCall → Store → Prop
  | [], _ => True
  | (now, c) :: cs, s =>
    (∀ id delta, c = .adjustActive id delta → (Op.adjustActive id delta).Fits s) ∧ CallsFit svc cs (c.run svc now s).2

theorem Call.fits_of_mayPerform {c : Call} {o : Op} (ho : c.mayPerform o) (s : Store)
    (hc : ∀ id delta, c ≠ .adjustActive id delta) : o.Fits s := by
  cases o with
  | adjustActive id delta => exact absurd (Call.of_mayPerform ho) (hc id delta)
  | accumulateBytes id up down => exact (Call.of_mayPerform ho).elim
  | _ => trivial

theorem Call.run_readable {svc : ControlPlaneService} {now : DateTime} {c : Call} {s : Store} (hs : s.Readable)
    (hfit : ∀ id delta, c = .adjustActive id delta → (Op.adjustActive id delta).Fits s) :
    (c.run svc now s).2.Readable := by
  by_cases hc : ∃ id delta, c = .adjustActive id delta
  · obtain ⟨id, delta, rfl⟩ := hc
    exact readable_exec (hfit id delta rfl) hs now
  · apply Call.run_inv svc (I := Store.Readable) _ hs
    intro o s' ho hs'
    exact readable_exec (Call.fits_of_mayPerform ho s' fun id delta h => hc ⟨id, delta, h⟩) hs' now

/-- Without an overflow, every heartbeat can read its row. -/
theorem heartbeatsRead_of_fit {svc : ControlPlaneService} {cs : List TimedCall} {s : Store} (hs : s.Readable)
    (hfit : CallsFit svc cs s) (id : String) : HeartbeatsRead svc id cs s := by
  induction cs generalizing s with
  | nil => trivial
  | cons c cs ih =>
    refine ⟨?_, ih (Call.run_readable hs hfit.1) hfit.2⟩
    cases hc : c.2 with
    | heartbeat hb =>
      intro _
      cases hrow : s.registry.find? id with
      | none => rw [Registry.get, hrow]; rfl
      | some row =>
        obtain ⟨n, hn⟩ := hs id row hrow
        rw [Registry.get_of_decodes hrow hn]
        rfl
    | _ => trivial

end RustProxy.ControlPlane
