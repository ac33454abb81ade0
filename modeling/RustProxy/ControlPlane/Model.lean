import Mathlib.Tactic
import Mathlib.Data.Rat.Lemmas
import Mathlib.Algebra.Order.Ring.Rat

/-!
# The domain model of the control plane

The clock, the lifecycle states, the node value and the health rules (`model.rs`, `health.rs`).

* A clock value is a `DateTime` with nanosecond precision; what is stored is its whole second (`DateTime.timestamp`),
  read back with zero nanoseconds (`DateTime.fromTimestamp`).
* `f64` ratios and thresholds are exact rationals.
-/

namespace RustProxy.ControlPlane

/-! ## Time -/

/-- Nanoseconds in a second. -/
def nanosPerSec : Int := 1000000000

/-- The first second of chrono's range. -/
def minTimestamp : Int := -8334601228800

/-- The last second of chrono's range. -/
def maxTimestamp : Int := 8210266876799

/-- `chrono::DateTime<Utc>`: nanoseconds since the epoch, within chrono's range. -/
@[ext] structure DateTime where
  nanos : Int
  inRange : minTimestamp * nanosPerSec ≤ nanos ∧ nanos < (maxTimestamp + 1) * nanosPerSec
  deriving DecidableEq

/-- `Duration::from_secs`; a `std::time::Duration` is a number of nanoseconds. -/
def fromSecs (secs : Nat) : Nat := secs * 1000000000

namespace DateTime

instance : LE DateTime := ⟨fun a b => a.nanos ≤ b.nanos⟩

instance (a b : DateTime) : Decidable (a ≤ b) := inferInstanceAs (Decidable (a.nanos ≤ b.nanos))

theorem le_def {a b : DateTime} : a ≤ b ↔ a.nanos ≤ b.nanos := Iff.rfl

/-- Whole seconds since the epoch, rounded down. -/
def timestamp (t : DateTime) : Int := t.nanos / nanosPerSec

/-- `DateTime::from_timestamp(secs, 0)`. -/
def fromTimestamp (secs : Int) : Option DateTime :=
  if h : minTimestamp ≤ secs ∧ secs ≤ maxTimestamp then
    some ⟨secs * nanosPerSec, by obtain ⟨h₁, h₂⟩ := h; simp only [nanosPerSec]; omega⟩
  else none

/-- `signed_duration_since`. -/
def signedDurationSince (a b : DateTime) : Int := a.nanos - b.nanos

/-- The whole second that is stored for `t`. -/
def trunc (t : DateTime) : DateTime :=
  ⟨t.timestamp * nanosPerSec, by
    obtain ⟨h₁, h₂⟩ := t.inRange
    simp only [timestamp, nanosPerSec, minTimestamp, maxTimestamp] at *
    omega⟩

/-- A stored second is read back as the truncated clock value. -/
@[simp] theorem fromTimestamp_timestamp (t : DateTime) : fromTimestamp t.timestamp = some t.trunc := by
  obtain ⟨h₁, h₂⟩ := t.inRange
  have h : minTimestamp ≤ t.timestamp ∧ t.timestamp ≤ maxTimestamp := by
    simp only [timestamp, nanosPerSec, minTimestamp, maxTimestamp] at *
    omega
  rw [fromTimestamp, dif_pos h]
  rfl

/-- A whole second of the first hours, for concrete runs. -/
def ofSecond (secs : UInt16) : DateTime :=
  ⟨secs.toNat * nanosPerSec, by
    have hsecs := secs.toNat_lt
    simp only [minTimestamp, maxTimestamp, nanosPerSec]
    omega⟩

end DateTime

/-- `TimeDelta::to_std`: negative differences have no `Duration`. -/
def toStd (d : Int) : Option Nat := if 0 ≤ d then some d.toNat else none

/-! ## Nodes -/

/-- The lifecycle state of a node. -/
inductive NodeState
  | starting
  | healthy
  | degraded
  | draining
  | offline
  deriving DecidableEq, Repr

namespace NodeState

def asStr : NodeState → String
  | starting => "starting"
  | healthy => "healthy"
  | degraded => "degraded"
  | draining => "draining"
  | offline => "offline"

def parse : String → Option NodeState
  | "starting" => some starting
  | "healthy" => some healthy
  | "degraded" => some degraded
  | "draining" => some draining
  | "offline" => some offline
  | _ => none

/-- A stored status text is always recognised. -/
@[simp] theorem parse_asStr (s : NodeState) : parse s.asStr = some s := by cases s <;> rfl

/-- `Healthy` and `Degraded` accept new work. -/
def selectable : NodeState → Bool
  | healthy | degraded => true
  | _ => false

/-- The states the sweep considers. -/
def live : NodeState → Bool
  | starting | healthy | degraded => true
  | _ => false

end NodeState

/-- A node as read from the registry. -/
structure Node where
  id : String
  address : String
  state : NodeState
  lastHeartbeat : Option DateTime
  maxConnections : UInt32
  activeConnections : UInt32
  bandwidthLimit : UInt64
  bytesUp : UInt64
  bytesDown : UInt64
  latencyMs : UInt32
  createdAt : DateTime
  updatedAt : DateTime
  deriving DecidableEq

namespace Node

def isSelectable (n : Node) : Bool := n.state.selectable

/-- `max_connections.saturating_sub(active_connections)`. -/
def availableCapacity (n : Node) : UInt32 :=
  if n.activeConnections ≤ n.maxConnections then n.maxConnections - n.activeConnections else 0

/-- The connection ratio clamped to `[0, 1]`, and `1` for a node without slots. -/
def bandwidthUtilization (n : Node) : ℚ :=
  if n.maxConnections = 0 then 1
  else max 0 (min 1 ((n.activeConnections.toNat : ℚ) / n.maxConnections.toNat))

end Node

/-! ## Health -/

structure HealthPolicy where
  /-- In nanoseconds. -/
  offlineTimeout : Nat
  degradedThreshold : ℚ
  deriving DecidableEq

/-- The built-in policy: 30 seconds, 90 percent. -/
def HealthPolicy.default : HealthPolicy := ⟨fromSecs 30, 9 / 10⟩

/-- Draining and offline nodes keep their state; the others are classified by their load. -/
def reclassifyAfterHeartbeat (current : NodeState) (activeConnections maxConnections : UInt32)
    (policy : HealthPolicy) : NodeState :=
  match current with
  | .draining | .offline => current
  | _ =>
    let utilization : ℚ :=
      if maxConnections = 0 then 1 else (activeConnections.toNat : ℚ) / maxConnections.toNat
    if policy.degradedThreshold ≤ utilization then .degraded else .healthy

/-- A heartbeat at least `offline_timeout` old is stale; one in the future counts as age zero, and no heartbeat is
never stale. -/
def isStale (lastHeartbeat : Option DateTime) (now : DateTime) (policy : HealthPolicy) : Bool :=
  match lastHeartbeat with
  | none => false
  | some ts =>
    let elapsed := (toStd (now.signedDurationSince ts)).getD 0
    policy.offlineTimeout ≤ elapsed

@[simp] theorem reclassify_draining (a m : UInt32) (policy : HealthPolicy) :
    reclassifyAfterHeartbeat .draining a m policy = .draining := rfl

@[simp] theorem reclassify_offline (a m : UInt32) (policy : HealthPolicy) :
    reclassifyAfterHeartbeat .offline a m policy = .offline := rfl

/-- A live node is classified as selectable. -/
theorem reclassify_live {s : NodeState} (h : s.live = true) (a m : UInt32) (policy : HealthPolicy) :
    (reclassifyAfterHeartbeat s a m policy).selectable = true := by
  cases s <;> simp only [NodeState.live, Bool.false_eq_true] at h <;>
    simp only [reclassifyAfterHeartbeat] <;> split <;> (split <;> rfl)

/-- A classification that changes the state comes from a live state. -/
theorem live_of_reclassify_ne {state : NodeState} {active max : UInt32} {policy : HealthPolicy}
    (h : reclassifyAfterHeartbeat state active max policy ≠ state) : state.live = true := by
  cases state with
  | draining => exact absurd rfl h
  | offline => exact absurd rfl h
  | _ => rfl

theorem live_of_selectable {state : NodeState} (h : state.selectable = true) : state.live = true := by
  cases state <;> first | rfl | cases h

@[simp] theorem isStale_none (now : DateTime) (policy : HealthPolicy) : isStale none now policy = false := rfl

/-- Within the timeout nothing is stale. -/
theorem isStale_some {ts now : DateTime} {policy : HealthPolicy} :
    isStale (some ts) now policy = true ↔
      policy.offlineTimeout = 0 ∨ (policy.offlineTimeout : Int) ≤ now.nanos - ts.nanos := by
  have hdef : isStale (some ts) now policy = true ↔
      policy.offlineTimeout ≤ (toStd (now.nanos - ts.nanos)).getD 0 := decide_eq_true_iff
  rw [hdef, toStd]
  split
  · simp only [Option.getD_some]; omega
  · simp only [Option.getD_none]; omega

end RustProxy.ControlPlane
