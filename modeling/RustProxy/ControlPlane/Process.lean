import RustProxy.ControlPlane.Api
import RustProxy.ControlPlane.Sweep

/-!
# The control plane process

What the `control-plane` command of `main.rs` builds from its configuration, and the sweeps that the process then runs.

The service gets the default policy, whatever `offline_timeout` the configuration has. `find?_sweep` says what a sweep
does to every row; from it, a sweep marks the nodes that the configuration asks for exactly if no live node has a
heartbeat whose age lies between the configured timeout and the default one (`sweep_follows_config_iff`).
-/

namespace RustProxy.ControlPlane

open Lib

/-! ## From the configuration to the service -/

/-- `ControlPlaneConfig`, as far as the process uses it once it runs; durations are nanoseconds. -/
structure ControlPlaneConfig where
  offlineTimeout : Nat := fromSecs 30
  sweepInterval : Nat := fromSecs 5
  apiToken : Option String := none

/-- What the command builds before it serves. -/
def controlPlane (cfg : ControlPlaneConfig) : AppState :=
  appState (.new HealthPolicy.default) cfg.apiToken

/-- A sweep of the process at the clock value `now`. An interval of length zero is a panic of the task that would run
it. -/
def healthSweep (cfg : ControlPlaneConfig) (now : DateTime) (s : Store) : Option Store :=
  if cfg.sweepInterval = 0 then none else some (Call.run (controlPlane cfg).service now .markStaleOffline s).2

theorem service_controlPlane (cfg : ControlPlaneConfig) : (controlPlane cfg).service = .new HealthPolicy.default := by
  unfold controlPlane appState
  split
  · rfl
  · rfl

/-! ## What is documented -/

/-- Starting, healthy or degraded, with a heartbeat of at least the given age. -/
def Row.DueAfter (timeout : Nat) (now : DateTime) (row : Row) : Prop :=
  row.status.live = true ∧ ∃ ts ∈ optEpoch row.lastHeartbeat, (timeout : Int) ≤ now.signedDurationSince ts

instance (timeout : Nat) (now : DateTime) (row : Row) : Decidable (row.DueAfter timeout now) :=
  inferInstanceAs (Decidable (_ ∧ _))

/-- The rows whose heartbeat has the age are marked. -/
def SweptAfter (timeout : Nat) (now : DateTime) (s s' : Store) : Prop :=
  MarkedBy (Row.DueAfter timeout now) now s s'

/-- A live row whose heartbeat is as old as one of the two timeouts, but not as the other. -/
def Row.Between (timeout timeout' : Nat) (now : DateTime) (row : Row) : Prop :=
  row.status.live = true ∧ ∃ ts ∈ optEpoch row.lastHeartbeat,
    ((min timeout timeout' : Nat) : Int) ≤ now.signedDurationSince ts ∧
      now.signedDurationSince ts < (max timeout timeout' : Nat)

theorem Row.not_between_iff {timeout timeout' : Nat} {now : DateTime} {row : Row} :
    ¬ row.Between timeout timeout' now ↔ (row.DueAfter timeout now ↔ row.DueAfter timeout' now) := by
  simp only [Row.Between, Row.DueAfter]
  cases hlive : row.status.live with
  | false => simp
  | true =>
    cases optEpoch row.lastHeartbeat with
    | none => simp
    | some ts =>
      simp only [true_and, Option.mem_def, Option.some.injEq, exists_eq_left']
      omega

/-! ## What a sweep does -/

/-- With a timeout that is not zero, the sweep's test is the age of the row's heartbeat. -/
theorem due_iff {policy : HealthPolicy} (hpos : policy.offlineTimeout ≠ 0) {now : DateTime} {row : Row} :
    row.Due policy now ↔ row.DueAfter policy.offlineTimeout now := by
  refine and_congr_right fun _ => exists_congr fun ts => and_congr_right fun _ => ?_
  unfold age
  omega

/-- A live row is changed by being marked. -/
theorem offlineRow_ne {now : DateTime} {row : Row} (hlive : row.status.live = true) : offlineRow now row ≠ row := by
  intro heq
  have hstatus : row.status = .offline := (congrArg Row.status heq).symm
  rw [hstatus] at hlive
  cases hlive

/-- Two ways to mark live rows agree exactly if the same rows are due. -/
theorem markedBy_congr {due due' : Row → Prop} [DecidablePred due] [DecidablePred due'] {now : DateTime} {s s' : Store}
    (hlive : ∀ row, due row → row.status.live = true) (hlive' : ∀ row, due' row → row.status.live = true)
    (h : MarkedBy due' now s s') :
    MarkedBy due now s s' ↔ ∀ id, ∀ row ∈ s.registry.find? id, (due row ↔ due' row) := by
  constructor
  · intro hmarked id row hrow
    have heq := (hmarked id).symm.trans (h id)
    rw [Option.mem_def.mp hrow, Option.map_some, Option.map_some, Option.some.injEq] at heq
    by_cases hdue : due row <;> by_cases hdue' : due' row
    · exact iff_of_true hdue hdue'
    · rw [if_pos hdue, if_neg hdue'] at heq
      exact absurd heq (offlineRow_ne (hlive row hdue))
    · rw [if_neg hdue, if_pos hdue'] at heq
      exact absurd heq.symm (offlineRow_ne (hlive' row hdue'))
    · exact iff_of_false hdue hdue'
  · intro hrows id
    rw [h id]
    cases hrow : s.registry.find? id with
    | none => rfl
    | some row => simp only [Option.map_some, hrows id row hrow]

/-- **What a sweep does to every row**, in a table that can be read and in one that cannot. -/
theorem find?_sweep (svc : ControlPlaneService) (hpos : svc.policy.offlineTimeout ≠ 0) (now : DateTime) (s : Store) :
    (s.Readable → SweptAfter svc.policy.offlineTimeout now s (Call.run svc now .markStaleOffline s).2) ∧
      (¬ s.Readable → (Call.run svc now .markStaleOffline s).2 = s) := by
  constructor
  · intro hread
    rw [run_of_readable hread]
    have hmarks : Marks (dueRows svc.policy now s) now s _ := marks_markAll fun row hrow => List.mem_of_mem_filter hrow
    have hlive : ∀ row ∈ dueRows svc.policy now s, row.status.live = true :=
      fun row hrow => (of_decide_eq_true (List.mem_filter.mp hrow).2).1
    refine (markedBy_congr (fun _ hdue => hdue.1) hlive hmarks.1).mpr fun id row hrow => ?_
    rw [mem_dueRows hrow, due_iff hpos]
  · intro hread
    rw [run_markStaleOffline]
    cases hlist : Registry.list s.registry with
    | ok ns => exact absurd (readable_iff_list.mpr ⟨ns, hlist⟩) hread
    | error e => rfl

theorem sweptAfter_congr {timeout timeout' : Nat} {now : DateTime} {s s' : Store} (h : SweptAfter timeout' now s s') :
    SweptAfter timeout now s s' ↔ ∀ id, ∀ row ∈ s.registry.find? id, ¬ row.Between timeout timeout' now := by
  simp only [Row.not_between_iff]
  exact markedBy_congr (fun _ hdue => hdue.1) (fun _ hdue => hdue.1) h

/-- Nothing is marked where nothing is due. -/
theorem sweptAfter_self {timeout : Nat} {now : DateTime} {s : Store} :
    SweptAfter timeout now s s ↔ ∀ id, ∀ row ∈ s.registry.find? id, ¬ row.DueAfter timeout now := by
  have hself : MarkedBy (fun _ => False) now s s := by
    intro id
    simp
  have hcongr : SweptAfter timeout now s s ↔ _ :=
    markedBy_congr (fun _ hdue => hdue.1) (fun _ hdue => hdue.elim) hself
  simpa only [iff_false] using hcongr

/-! ## The configured timeout -/

/-- No sweep of the process can tell the configured timeout from the default one: it runs no sweep at all; or the table
can be read, and no live node has a heartbeat whose age lies between the two; or the table cannot be read, and no live
node is due. -/
def TimeoutsAgree (cfg : ControlPlaneConfig) (now : DateTime) (s : Store) : Prop :=
  cfg.sweepInterval = 0 ∨
    (s.Readable ∧ ∀ id, ∀ row ∈ s.registry.find? id, ¬ row.Between cfg.offlineTimeout (fromSecs 30) now) ∨
      (¬ s.Readable ∧ ∀ id, ∀ row ∈ s.registry.find? id, ¬ row.DueAfter cfg.offlineTimeout now)

/-- **The configured timeout.** A sweep that the process runs marks exactly the live nodes whose heartbeat is at least
`offline_timeout` old if and only if the age of no heartbeat lies between that timeout and the default of 30 seconds. -/
theorem sweep_follows_config_iff (cfg : ControlPlaneConfig) (now : DateTime) (s : Store) :
    (∀ s' ∈ healthSweep cfg now s, SweptAfter cfg.offlineTimeout now s s') ↔ TimeoutsAgree cfg now s := by
  obtain ⟨hread, hunread⟩ := find?_sweep (.new HealthPolicy.default) (by decide) now s
  by_cases hinterval : cfg.sweepInterval = 0
  · exact iff_of_true (by simp [healthSweep, hinterval]) (.inl hinterval)
  · have hall : (∀ s' ∈ healthSweep cfg now s, SweptAfter cfg.offlineTimeout now s s') ↔
        SweptAfter cfg.offlineTimeout now s (Call.run (.new HealthPolicy.default) now .markStaleOffline s).2 := by
      simp [healthSweep, hinterval, service_controlPlane]
    rw [hall, TimeoutsAgree]
    by_cases hreadable : s.Readable
    · simp only [hinterval, hreadable, true_and, not_true_eq_false, false_and, false_or, or_false]
      exact sweptAfter_congr (hread hreadable)
    · simp only [hinterval, hreadable, not_false_eq_true, true_and, false_and, false_or]
      rw [hunread hreadable]
      exact sweptAfter_self

/-- A configuration that allows a minute. -/
def minuteConfig : ControlPlaneConfig := { offlineTimeout := fromSecs 60 }

/-- One node, registered and heard from at time zero. -/
def heardFrom : Store :=
  let start := DateTime.ofSecond 0
  let svc := ControlPlaneService.new .default
  let registered := (Call.run svc start (.register ⟨"n1", "10.0.0.1:1080", 10, 1000⟩) .empty).2
  (Call.run svc start (.heartbeat ⟨"n1", 0, 0, 0, 0, 1000⟩) registered).2

/-- After 40 seconds of silence the node is marked, although a minute was configured. -/
theorem marked_before_configured_timeout :
    heardFrom.statusOf "n1" = some .healthy ∧
      (healthSweep minuteConfig (.ofSecond 40) heardFrom).map (·.statusOf "n1") = some (some .offline) ∧
      ¬ ∀ s' ∈ healthSweep minuteConfig (.ofSecond 40) heardFrom,
        SweptAfter minuteConfig.offlineTimeout (.ofSecond 40) heardFrom s' := by
  refine ⟨by decide +kernel, by decide +kernel, fun h => ?_⟩
  have hrow := h _ rfl "n1"
  revert hrow
  decide +kernel

end RustProxy.ControlPlane
