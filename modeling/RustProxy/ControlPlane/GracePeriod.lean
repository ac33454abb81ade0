import RustProxy.ControlPlane.Service

/-!
# The grace period of a registration

Service calls executed one after the other, each at its own clock value, and how long a node that has registered is
safe from the sweep.

The sweep reads the recorded heartbeat of a row, which a registration leaves as it is and a heartbeat sets to a whole
second. `GraceRun.not_turnedOffline` gives the node the whole timeout when no heartbeat recorded before the
registration is left in the row; `turnsOffline_of_earlier_heartbeat` shows that a heartbeat that is left there always
cuts the timeout short, and `rejoin` is the case of a node that comes back after it was marked offline.
-/

namespace RustProxy.ControlPlane

/-! ## Sequential runs -/

/-- A call and the clock value at which it executes. -/
abbrev TimedCall := DateTime × Call

/-- The store after the calls, executed in order. -/
def runCalls (svc : ControlPlaneService) : List TimedCall → Store → Store
  | [], s => s
  | (now, c) :: cs, s => runCalls svc cs (c.run svc now s).2

/-- The clock never goes back. -/
def Clocked (cs : List TimedCall) : Prop := cs.Pairwise fun a b => a.1 ≤ b.1

instance (cs : List TimedCall) : Decidable (Clocked cs) := inferInstanceAs (Decidable (cs.Pairwise _))

/-- A run with a registration and, some calls later, a sweep. -/
structure GraceRun where
  before : List TimedCall
  registeredAt : DateTime
  req : RegisterRequest
  between : List TimedCall
  sweptAt : DateTime
  clocked : Clocked (before ++ (registeredAt, .register req) :: (between ++ [(sweptAt, .markStaleOffline)]))

namespace GraceRun

variable (svc : ControlPlaneService) (r : GraceRun)

/-- The store that the registration finds. -/
def found : Store := runCalls svc r.before .empty

/-- The store that the registration leaves. -/
def registered : Store := (Call.run svc r.registeredAt (.register r.req) (r.found svc)).2

/-- The store that the sweep finds. -/
def unswept : Store := runCalls svc r.between (r.registered svc)

/-- The store that the sweep leaves. -/
def swept : Store := (Call.run svc r.sweptAt .markStaleOffline (r.unswept svc)).2

/-- The registration leaves the node in state `Starting`. -/
def Starting : Prop := (r.registered svc).statusOf r.req.nodeId = some .starting

/-- The sweep comes before the timeout has passed since the registration. -/
def InWindow : Prop := r.sweptAt.nanos - r.registeredAt.nanos < svc.policy.offlineTimeout

/-- The sweep turns the node offline. -/
def TurnedOffline : Prop :=
  (r.unswept svc).statusOf r.req.nodeId ≠ some .offline ∧ (r.swept svc).statusOf r.req.nodeId = some .offline

instance : Decidable (r.Starting svc) := inferInstanceAs (Decidable (_ = _))

instance : Decidable (r.InWindow svc) := inferInstanceAs (Decidable (_ < _))

instance : Decidable (r.TurnedOffline svc) := inferInstanceAs (Decidable (_ ∧ _))

/-- No heartbeat recorded before the registration is left in the row, and the whole second recorded by each later
heartbeat of the node is not before the registration either. -/
structure NoEarlierHeartbeat : Prop where
  row : ∀ ts ∈ (r.found svc).recordedHeartbeat r.req.nodeId, r.registeredAt ≤ ts
  later : ∀ c ∈ r.between, ∀ hb, c.2 = .heartbeat hb → hb.nodeId = r.req.nodeId → r.registeredAt ≤ c.1.trunc

end GraceRun

/-! ## The recorded heartbeat -/

/-- The recorded heartbeat of `id`, if there is one, is not before `t`. -/
def HeartbeatSince (t : DateTime) (id : String) (s : Store) : Prop := ∀ ts ∈ s.recordedHeartbeat id, t ≤ ts

/-- One call keeps recorded heartbeats recent, if a heartbeat of the node is itself recorded as recent. -/
theorem Call.run_heartbeatSince {svc : ControlPlaneService} {t : DateTime} {id : String} {c : TimedCall}
    (hc : ∀ hb, c.2 = .heartbeat hb → hb.nodeId = id → t ≤ c.1.trunc) {s : Store} (hs : HeartbeatSince t id s) :
    HeartbeatSince t id (c.2.run svc c.1 s).2 := by
  obtain ⟨now, c⟩ := c
  refine Call.run_inv svc (fun o s ho hs => ?_) hs
  intro ts hts
  obtain hsame | ⟨hb, rfl, hid, hnew⟩ := Op.recordedHeartbeat_exec o now s id
  · exact hs ts (hsame ▸ hts)
  · rw [hnew, Option.mem_some_iff] at hts
    subst hts
    exact hc hb (Call.of_mayPerform ho) hid

/-- The calls after a registration keep recorded heartbeats recent. -/
theorem runCalls_heartbeatSince {svc : ControlPlaneService} {t : DateTime} {id : String} {cs : List TimedCall}
    (hcs : ∀ c ∈ cs, ∀ hb, c.2 = .heartbeat hb → hb.nodeId = id → t ≤ c.1.trunc) {s : Store}
    (hs : HeartbeatSince t id s) : HeartbeatSince t id (runCalls svc cs s) := by
  induction cs generalizing s with
  | nil => exact hs
  | cons c cs ih =>
    obtain ⟨hc, hrest⟩ := List.forall_mem_cons.mp hcs
    exact ih hrest (Call.run_heartbeatSince hc hs)

/-- A sweep within the timeout of `t` leaves the status of a node whose recorded heartbeat is not before `t`. -/
theorem sweep_statusOf {svc : ControlPlaneService} {t now : DateTime} {id : String} {s : Store}
    (hs : HeartbeatSince t id s) (hle : t ≤ now) (hwin : now.nanos - t.nanos < svc.policy.offlineTimeout) :
    (Call.run svc now .markStaleOffline s).2.statusOf id = s.statusOf id := by
  rw [Store.statusOf, sweep_find?]
  cases hlist : Registry.list s.registry with
  | error e => rfl
  | ok nodes =>
    dsimp only
    rw [if_neg]
    · rfl
    rintro ⟨n, hn, hdue, rfl⟩
    obtain ⟨row, hrow, hdec⟩ := Registry.list_mem hlist hn
    have hlast := (Decodes.of_ok hdec).lastHeartbeat
    have hstale : isStale n.lastHeartbeat now svc.policy = true := (Bool.and_eq_true _ _ ▸ hdue).2
    have hrec : s.recordedHeartbeat n.id = n.lastHeartbeat := by rw [Store.recordedHeartbeat, hrow, hlast]; rfl
    cases hts : n.lastHeartbeat with
    | none => rw [hts] at hstale; cases hstale
    | some ts =>
      rw [hts, isStale_some] at hstale
      have hge := hs ts (hrec.trans hts)
      rw [DateTime.le_def] at hge hle
      omega

namespace GraceRun

variable {svc : ControlPlaneService} {r : GraceRun}

theorem registeredAt_le_sweptAt (r : GraceRun) : r.registeredAt ≤ r.sweptAt := by
  have h := (List.pairwise_append.mp r.clocked).2.1
  exact (List.pairwise_cons.mp h).1 (r.sweptAt, .markStaleOffline) (by simp)

/-- **The grace period.** A node that has registered, in whose row no heartbeat from before the registration is left,
is not turned offline by any sweep within the timeout. -/
theorem not_turnedOffline (hfresh : r.NoEarlierHeartbeat svc) (hwin : r.InWindow svc) : ¬ r.TurnedOffline svc := by
  rintro ⟨hbefore, hafter⟩
  have hreg : HeartbeatSince r.registeredAt r.req.nodeId (r.registered svc) := by
    refine Call.run_heartbeatSince (c := (r.registeredAt, .register r.req)) ?_ hfresh.row
    rintro hb ⟨⟩
  have hunswept : HeartbeatSince r.registeredAt r.req.nodeId (r.unswept svc) :=
    runCalls_heartbeatSince hfresh.later hreg
  have hsame := sweep_statusOf hunswept r.registeredAt_le_sweptAt hwin
  exact hbefore (hsame ▸ hafter)

/-- A first registration, a heartbeat and a sweep: the node stays. -/
def firstLife : GraceRun where
  before := []
  registeredAt := .ofSecond 0
  req := ⟨"n1", "10.0.0.1:1080", 100, 1000⟩
  between := [(.ofSecond 5, .heartbeat ⟨"n1", 1, 0, 0, 0, 1000⟩)]
  sweptAt := .ofSecond 29
  clocked := by decide

theorem firstLife_not_turnedOffline :
    firstLife.InWindow (.new .default) ∧ ¬ firstLife.TurnedOffline (.new .default) := by
  have hfresh : firstLife.NoEarlierHeartbeat (.new .default) := by
    constructor
    · intro ts hts
      cases hts
    · intro c hc hb _ _
      rw [List.mem_singleton.mp hc]
      decide
  exact ⟨by decide, not_turnedOffline hfresh (by decide)⟩

/-- A node that was marked offline registers again at 41 s; its last heartbeat of before is still in the row, so the
sweep one second later marks it offline again. -/
def rejoin : GraceRun where
  before :=
    [(.ofSecond 0, .register ⟨"n1", "10.0.0.1:1080", 100, 1000⟩),
     (.ofSecond 0, .heartbeat ⟨"n1", 0, 0, 0, 0, 1000⟩),
     (.ofSecond 40, .markStaleOffline)]
  registeredAt := .ofSecond 41
  req := ⟨"n1", "10.0.0.1:1080", 100, 1000⟩
  between := []
  sweptAt := .ofSecond 42
  clocked := by decide

theorem rejoin_turnedOffline :
    rejoin.Starting (.new .default) ∧ rejoin.InWindow (.new .default) ∧ rejoin.TurnedOffline (.new .default) := by
  decide +kernel

end GraceRun

/-- **No shorter condition does.** A heartbeat from before `t` that is left in the row of a live node lets a sweep
within the timeout of `t` turn the node offline, whenever the table can be listed. -/
theorem turnsOffline_of_earlier_heartbeat {svc : ControlPlaneService} {t now ts : DateTime} {id : String} {s : Store}
    {nodes : List Node} {state : NodeState} (hlist : Registry.list s.registry = .ok nodes)
    (hstate : s.statusOf id = some state) (hlive : state.live = true) (hts : s.recordedHeartbeat id = some ts)
    (hlt : ts.nanos < t.nanos) (hnow : now.nanos - t.nanos + 1 = svc.policy.offlineTimeout) :
    (Call.run svc now .markStaleOffline s).2.statusOf id = some .offline := by
  obtain ⟨row, hrow, rfl⟩ := Option.map_eq_some_iff.mp hstate
  have hlast : optEpoch row.lastHeartbeat = some ts := by rw [Store.recordedHeartbeat, hrow] at hts; exact hts
  obtain ⟨n, hn, hdec⟩ := Registry.exists_mem_list hlist hrow
  have hdec := Decodes.of_ok hdec
  have hdue : svc.due now n = true := by
    rw [ControlPlaneService.due, hdec.state, hlive, hdec.lastHeartbeat, hlast, Bool.true_and, isStale_some]
    omega
  have hkey : row.id = id := Lib.Table.key_of_find? hrow
  rw [Store.statusOf, sweep_find?, hlist]
  dsimp only
  rw [if_pos ⟨n, hn, hdue, hdec.id.trans hkey⟩, hrow]
  rfl

end RustProxy.ControlPlane
