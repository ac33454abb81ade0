import RustProxy.Lib.Interleave
import RustProxy.ControlPlane.Service

/-!
# Transfer accounting of the node agent

The agent of one registered node (`node/src/server.rs`) and the control plane it reports to: relays that end, ticks of
the heartbeat loop, and heartbeat requests that are applied or fail.

`NodeStats` has byte counters, which each tick swaps out and reports, but a relay that ends adds its bytes to the
process metrics only. So the counters are never anything but zero, nor are the bytes stored for the node
(`Accounting.inv_run`), and the books balance exactly as long as no relay has carried a byte (`accounted_iff`).
-/

namespace RustProxy.Agent

open Lib ControlPlane

/-! ## The agent -/

/-- The counters shared by the connections and the heartbeat loop. -/
structure NodeStats where
  bytesUp : UInt64
  bytesDown : UInt64
  activeConnections : UInt32

def NodeStats.new : NodeStats := ⟨0, 0, 0⟩

/-- The values, and the counters with the bytes swapped for zero. -/
def NodeStats.snapshotAndReset (stats : NodeStats) : (UInt64 × UInt64 × UInt32) × NodeStats :=
  ((stats.bytesUp, stats.bytesDown, stats.activeConnections), { stats with bytesUp := 0, bytesDown := 0 })

structure HeartbeatPayload where
  activeConnections : UInt32
  bytesUp : UInt64
  bytesDown : UInt64
  latencyMs : UInt32
  availableBandwidth : UInt64

/-- The heartbeat that the control plane makes of the payload and the id in the path. -/
def HeartbeatPayload.toHeartbeat (nodeId : String) (p : HeartbeatPayload) : Heartbeat :=
  ⟨nodeId, p.activeConnections, p.bytesUp, p.bytesDown, p.latencyMs, p.availableBandwidth⟩

/-- What the process exports of transfers and heartbeats. -/
structure NodeMetrics where
  bytesUp : UInt64
  bytesDown : UInt64
  heartbeats : UInt64
  heartbeatErrors : UInt64

def NodeMetrics.new : NodeMetrics := ⟨0, 0, 0, 0⟩

/-- The end of a relay in `run_with_ctx`. -/
def NodeMetrics.recordRelay (up down : UInt64) (m : NodeMetrics) : NodeMetrics :=
  { m with bytesUp := m.bytesUp + up, bytesDown := m.bytesDown + down }

structure NodeConfig where
  nodeId : String
  address : String
  maxConnections : UInt32
  bandwidthLimit : UInt64

/-- The registration that the agent sends when it starts. -/
def NodeConfig.registration (cfg : NodeConfig) : RegisterRequest :=
  ⟨cfg.nodeId, cfg.address, cfg.maxConnections, cfg.bandwidthLimit⟩

/-- What a tick of the heartbeat loop sends, and the counters it leaves. -/
def heartbeatTick (cfg : NodeConfig) (stats : NodeStats) : HeartbeatPayload × NodeStats :=
  let ((up, down, active), stats) := stats.snapshotAndReset
  (⟨active, up, down, 0, cfg.bandwidthLimit⟩, stats)

/-! ## The agent and the control plane -/

structure World where
  stats : NodeStats
  metrics : NodeMetrics
  /-- The heartbeat request that has not been answered. -/
  inFlight : Option HeartbeatPayload
  store : Store
  /-- The bytes of the relays that have completed, up and down. -/
  relays : List (UInt64 × UInt64)

inductive Event
  | accepted
  | relayed (up down : UInt64)
  /-- The end of a connection that completed no relay. -/
  | closed
  | tick
  | applied (now : DateTime)
  | failed

/-- One step. The heartbeat loop awaits each answer, so there is one request in flight at most. -/
inductive World.Step (svc : ControlPlaneService) (cfg : NodeConfig) : World → Event → World → Prop
  | accepted (w : World) : Step svc cfg w .accepted
      { w with stats := { w.stats with activeConnections := w.stats.activeConnections + 1 } }
  | relayed (w : World) (up down : UInt64) : Step svc cfg w (.relayed up down)
      { w with
        metrics := w.metrics.recordRelay up down
        stats := { w.stats with activeConnections := w.stats.activeConnections - 1 }
        relays := w.relays ++ [(up, down)] }
  | closed (w : World) : Step svc cfg w .closed
      { w with stats := { w.stats with activeConnections := w.stats.activeConnections - 1 } }
  | tick {w : World} : w.inFlight = none → Step svc cfg w .tick
      { w with inFlight := some (heartbeatTick cfg w.stats).1, stats := (heartbeatTick cfg w.stats).2 }
  | applied {w : World} {p : HeartbeatPayload} (now : DateTime) : w.inFlight = some p → Step svc cfg w (.applied now)
      { w with
        inFlight := none
        store := (Call.run svc now (.heartbeat (p.toHeartbeat cfg.nodeId)) w.store).2
        metrics := { w.metrics with heartbeats := w.metrics.heartbeats + 1 } }
  | failed {w : World} {p : HeartbeatPayload} : w.inFlight = some p → Step svc cfg w .failed
      { w with
        inFlight := none
        metrics := { w.metrics with heartbeatErrors := w.metrics.heartbeatErrors + 1 } }

/-- The agent has just registered. -/
def World.registered (svc : ControlPlaneService) (cfg : NodeConfig) (now : DateTime) : World where
  stats := .new
  metrics := .new
  inFlight := none
  store := (Call.run svc now (.register cfg.registration) .empty).2
  relays := []

/-- The stored bytes and those still held by the agent are the bytes of the completed relays. -/
def World.Accounted (cfg : NodeConfig) (w : World) : Prop :=
  ∃ n, Registry.get cfg.nodeId w.store.registry = .ok (some n) ∧
    n.bytesUp.toNat + w.stats.bytesUp.toNat = (w.relays.map fun r => r.1.toNat).sum ∧
    n.bytesDown.toNat + w.stats.bytesDown.toNat = (w.relays.map fun r => r.2.toNat).sum

/-! ## Nothing is ever counted -/

/-- The row of the node can be read, and has no bytes. -/
def StoredZero (nodeId : String) (s : Store) : Prop :=
  ∃ row n, s.registry.find? nodeId = some row ∧ Decodes row n ∧ n.bytesUp = 0 ∧ n.bytesDown = 0

structure World.Inv (cfg : NodeConfig) (w : World) : Prop where
  up : w.stats.bytesUp = 0
  down : w.stats.bytesDown = 0
  sent : ∀ p ∈ w.inFlight, p.bytesUp = 0 ∧ p.bytesDown = 0
  stored : StoredZero cfg.nodeId w.store

section Accounting

variable {svc : ControlPlaneService} {cfg : NodeConfig}

/-- A heartbeat that reports no bytes stores none. -/
theorem StoredZero.heartbeat {nodeId : String} {hb : Heartbeat} (hup : hb.bytesUp = 0) (hdown : hb.bytesDown = 0)
    {s : Store} (hs : StoredZero nodeId s) (now : DateTime) :
    StoredZero nodeId (Call.run svc now (.heartbeat hb) s).2 := by
  refine Call.run_inv svc (fun o s ho hs => ?_) hs
  obtain ⟨row, n, hrow, hdec, hu, hd⟩ := hs
  by_cases hw : o.writes = some nodeId
  · have hnew := Op.find?_exec_self hw now s
    rw [hrow] at hnew
    rcases ho with rfl | rfl | ⟨state, rfl⟩
    · cases hw
    · exact ⟨_, _, hnew, hdec.heartbeatRow hb now, hup, hdown⟩
    · exact ⟨_, _, hnew, hdec.withStatus state now, hu, hd⟩
  · exact ⟨row, n, (Op.find?_exec_of_ne hw now s).trans hrow, hdec, hu, hd⟩

theorem inv_registered (now : DateTime) : (World.registered svc cfg now).Inv cfg := by
  refine ⟨rfl, rfl, fun p hp => (by cases hp), ?_⟩
  refine ⟨Registry.freshRow cfg.registration now, _, ?_, decodes_freshRow cfg.registration now, rfl, rfl⟩
  rw [World.registered, register_state]
  exact (find?_register_empty cfg.registration now cfg.nodeId).trans (if_pos rfl)

theorem inv_step {w w' : World} {e : Event} (hw : w.Inv cfg) (h : World.Step svc cfg w e w') : w'.Inv cfg := by
  cases h with
  | accepted => exact ⟨hw.up, hw.down, hw.sent, hw.stored⟩
  | relayed up down => exact ⟨hw.up, hw.down, hw.sent, hw.stored⟩
  | closed => exact ⟨hw.up, hw.down, hw.sent, hw.stored⟩
  | tick hidle =>
    refine ⟨rfl, rfl, fun p hp => ?_, hw.stored⟩
    rw [← Option.some.inj hp]
    exact ⟨hw.up, hw.down⟩
  | @applied p now hp =>
    obtain ⟨hup, hdown⟩ : (p.toHeartbeat cfg.nodeId).bytesUp = 0 ∧ (p.toHeartbeat cfg.nodeId).bytesDown = 0 :=
      hw.sent p hp
    exact ⟨hw.up, hw.down, fun q hq => (by cases hq), StoredZero.heartbeat hup hdown hw.stored now⟩
  | failed hp => exact ⟨hw.up, hw.down, fun q hq => (by cases hq), hw.stored⟩

theorem inv_run {es : List Event} {w : World} {now : DateTime}
    (h : Run (World.Step svc cfg) (.registered svc cfg now) es w) : w.Inv cfg :=
  h.inv (fun _ _ _ hw hst => inv_step hw hst) (inv_registered now)

/-- A sum of sizes vanishes only if they all do. -/
theorem sum_eq_zero_iff (f : UInt64 × UInt64 → UInt64) (rs : List (UInt64 × UInt64)) :
    (rs.map fun r => (f r).toNat).sum = 0 ↔ ∀ r ∈ rs, f r = 0 := by
  simp only [List.sum_eq_zero_iff, List.mem_map, forall_exists_index, and_imp, forall_apply_eq_imp_iff₂]
  refine forall₂_congr fun r _ => ?_
  rw [← UInt64.toNat_inj, UInt64.toNat_zero]

theorem World.Inv.accounted {w : World} (hw : w.Inv cfg) :
    w.Accounted cfg ↔ ∀ r ∈ w.relays, r.1 = 0 ∧ r.2 = 0 := by
  obtain ⟨hup, hdown, _, row, n, hrow, hdec, hu, hd⟩ := hw
  have hget : Registry.get cfg.nodeId w.store.registry = .ok (some n) := Registry.get_of_decodes hrow hdec
  have hiff : w.Accounted cfg ↔
      (w.relays.map fun r => r.1.toNat).sum = 0 ∧ (w.relays.map fun r => r.2.toNat).sum = 0 := by
    constructor
    · rintro ⟨m, hm, hmu, hmd⟩
      rw [hget] at hm
      cases hm
      rw [hu, hup] at hmu
      rw [hd, hdown] at hmd
      exact ⟨hmu.symm, hmd.symm⟩
    · rintro ⟨hsu, hsd⟩
      exact ⟨n, hget, by rw [hu, hup, hsu]; rfl, by rw [hd, hdown, hsd]; rfl⟩
  rw [hiff, sum_eq_zero_iff Prod.fst, sum_eq_zero_iff Prod.snd]
  exact ⟨fun h r hr => ⟨h.1 r hr, h.2 r hr⟩, fun h => ⟨fun r hr => (h r hr).1, fun r hr => (h r hr).2⟩⟩

/-- **When the books balance**: at any point, exactly if no completed relay carried a byte. -/
theorem accounted_iff {es : List Event} {w : World} {now : DateTime}
    (h : Run (World.Step svc cfg) (.registered svc cfg now) es w) :
    w.Accounted cfg ↔ ∀ r ∈ w.relays, r.1 = 0 ∧ r.2 = 0 := (inv_run h).accounted

end Accounting

/-- A configuration for concrete runs. -/
def exampleConfig : NodeConfig := ⟨"n1", "10.0.0.1:1080", 100, 1000⟩

/-- One relay, and a heartbeat after it that is applied. -/
theorem oneRelay (up down : UInt64) :
    ∃ w : World, Run (World.Step (.new .default) exampleConfig)
        (.registered (.new .default) exampleConfig (.ofSecond 0))
        [.accepted, .relayed up down, .tick, .applied (.ofSecond 5)] w ∧
      w.inFlight = none ∧ w.relays = [(up, down)] :=
  ⟨_, .cons (.accepted _) (.cons (.relayed _ up down) (.cons (.tick rfl) (.cons (.applied _ rfl) (.nil _)))), rfl, rfl⟩

/-- After an empty relay the books balance. -/
theorem accounted_empty_relay :
    ∃ (es : List Event) (w : World),
      Run (World.Step (.new .default) exampleConfig) (.registered (.new .default) exampleConfig (.ofSecond 0)) es w ∧
        w.relays = [(0, 0)] ∧ w.Accounted exampleConfig := by
  obtain ⟨w, hrun, -, hrelays⟩ := oneRelay 0 0
  refine ⟨_, w, hrun, hrelays, (accounted_iff hrun).mpr fun r hr => ?_⟩
  rw [hrelays] at hr
  rw [List.mem_singleton.mp hr]
  exact ⟨rfl, rfl⟩

/-- After a relay of 1000 bytes up and 5000 down neither the control plane nor the agent has any of them. -/
theorem unaccounted_relay :
    ∃ (es : List Event) (w : World),
      Run (World.Step (.new .default) exampleConfig) (.registered (.new .default) exampleConfig (.ofSecond 0)) es w ∧
        w.inFlight = none ∧ w.relays = [(1000, 5000)] ∧ ¬ w.Accounted exampleConfig := by
  obtain ⟨w, hrun, hidle, hrelays⟩ := oneRelay 1000 5000
  refine ⟨_, w, hrun, hidle, hrelays, fun hacc => ?_⟩
  have hzero := (inv_run hrun).accounted.mp hacc (1000, 5000) (by rw [hrelays]; exact List.mem_singleton_self _)
  exact absurd hzero.1 (by decide)

end RustProxy.Agent
