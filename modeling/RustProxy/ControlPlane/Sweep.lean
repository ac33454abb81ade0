import RustProxy.ControlPlane.FiniteMap
import RustProxy.ControlPlane.Interleaving

/-!
# The sweep as a whole

What `mark_stale_offline` does to any table at any clock value, also if one of its statements fails.

The loop marks the due nodes in id order and stops at the first failure, so that a prefix of them is marked
(`run_markLoop_fault`). In a table that can be read the due nodes are the due rows (`dueIds_eq`), and once they are
marked none is due (`dueRows_of_marks`). The one thing that can keep the sweep from its work is a row that cannot be
decoded (`sweeps_due_iff`).
-/

namespace RustProxy.ControlPlane

open Lib

/-! ## Due rows -/

/-- The age of a heartbeat, zero for one in the future. -/
def age (now ts : DateTime) : Nat := (now.signedDurationSince ts).toNat

/-- Starting, healthy or degraded, with a heartbeat that is at least `offline_timeout` old. -/
def Row.Due (policy : HealthPolicy) (now : DateTime) (row : Row) : Prop :=
  row.status.live = true ∧ ∃ ts ∈ optEpoch row.lastHeartbeat, policy.offlineTimeout ≤ age now ts

instance (policy : HealthPolicy) (now : DateTime) (row : Row) : Decidable (row.Due policy now) :=
  inferInstanceAs (Decidable (_ ∧ _))

/-- The rows that are due, in id order. -/
def dueRows (policy : HealthPolicy) (now : DateTime) (s : Store) : List Row :=
  s.registry.rows.filter (Row.Due policy now ·)

theorem mem_dueRows {policy : HealthPolicy} {now : DateTime} {s : Store} {id : String} {row : Row}
    (hrow : s.registry.find? id = some row) : row ∈ dueRows policy now s ↔ row.Due policy now := by
  rw [← Table.key_of_find? hrow, ← Table.mem_rows] at hrow
  simp [dueRows, hrow]

theorem due_iff_row {svc : ControlPlaneService} {row : Row} {n : Node} (hdec : Decodes row n) (now : DateTime) :
    svc.due now n = true ↔ row.Due svc.policy now := by
  rw [ControlPlaneService.due, Bool.and_eq_true, hdec.state, hdec.lastHeartbeat, Row.Due]
  refine and_congr_right fun _ => ?_
  cases optEpoch row.lastHeartbeat with
  | none => simp
  | some ts =>
    simp only [isStale_some, age, DateTime.signedDurationSince, Option.mem_def, Option.some.injEq, exists_eq_left']
    omega

/-- The due nodes of a listing have the ids of the due rows. -/
theorem dueIds_eq (svc : ControlPlaneService) (now : DateTime) {rows : List Row} {ns : List Node}
    (hall : List.Forall₂ (fun row n => rowIntoNode row = .ok n) rows ns) :
    dueIds svc now ns = (rows.filter (Row.Due svc.policy now ·)).map Row.id := by
  unfold dueIds
  induction hall with
  | nil => rfl
  | @cons row n rows ns hn _ ih =>
    have hdec : Decodes row n := .of_ok hn
    by_cases hdue : row.Due svc.policy now
    · rw [List.filter_cons_of_pos ((due_iff_row hdec now).mpr hdue), List.filter_cons_of_pos (by simpa using hdue),
        List.map_cons, List.map_cons, hdec.id, ih]
    · rw [List.filter_cons_of_neg (mt (due_iff_row hdec now).mp hdue), List.filter_cons_of_neg (by simpa using hdue),
        ih]

/-! ## Marked rows -/

/-- The rows that are due are marked, and the others are as they were. -/
def MarkedBy (due : Row → Prop) [DecidablePred due] (now : DateTime) (s s' : Store) : Prop :=
  ∀ id, s'.registry.find? id = (s.registry.find? id).map fun row => if due row then offlineRow now row else row

/-- The given rows, and only they, are marked. -/
def Marks (rows : List Row) (now : DateTime) (s s' : Store) : Prop :=
  MarkedBy (· ∈ rows) now s s' ∧ s'.allocators = s.allocators

section Marks

variable {now : DateTime} {s s' : Store}

theorem markAll_allocators (now : DateTime) (ids : List String) (s : Store) :
    (markAll now ids s).allocators = s.allocators := by
  induction ids generalizing s with
  | nil => rfl
  | cons id ids ih => exact ih _

theorem marks_markAll {rows : List Row} (hsub : ∀ row ∈ rows, row ∈ s.registry.rows) :
    Marks rows now s (markAll now (rows.map Row.id) s) := by
  refine ⟨fun id => ?_, markAll_allocators now _ s⟩
  rw [find?_markAll]
  cases hrow : s.registry.find? id with
  | none => simp
  | some row =>
    have hid : row.id = id := Table.key_of_find? hrow
    have hmem : id ∈ rows.map Row.id ↔ row ∈ rows := by
      rw [List.mem_map]
      constructor
      · rintro ⟨row', hrow', hid'⟩
        -- the table has one row for the id
        have hfind := Table.mem_rows.mp (hsub row' hrow')
        rw [hid', hrow, Option.some.injEq] at hfind
        rwa [hfind]
      · exact fun h => ⟨row, h, hid⟩
    simp only [hmem, Option.map_some]
    split
    · rfl
    · rfl

theorem Store.Readable.of_marks {rows : List Row} (hread : s.Readable) (h : Marks rows now s s') : s'.Readable := by
  intro id row hrow
  rw [Option.mem_def, h.1 id, Option.map_eq_some_iff] at hrow
  obtain ⟨old, hold, rfl⟩ := hrow
  obtain ⟨n, hdec⟩ := hread id old hold
  split
  · exact ⟨_, hdec.withStatus .offline now⟩
  · exact ⟨n, hdec⟩

/-- Once the due rows are marked, none is due. -/
theorem dueRows_of_marks {policy : HealthPolicy} (h : Marks (dueRows policy now s) now s s') :
    dueRows policy now s' = [] := by
  rw [dueRows, List.filter_eq_nil_iff]
  intro row hrow
  have hfind := Table.mem_rows.mp hrow
  rw [h.1, Option.map_eq_some_iff] at hfind
  obtain ⟨old, hold, rfl⟩ := hfind
  rw [decide_eq_true_iff]
  intro hdue
  split at hdue
  · exact absurd hdue.1 Bool.false_ne_true
  · next hnot => exact hnot ((mem_dueRows hold).mpr hdue)

end Marks

/-! ## Failing statements -/

/-- A sweep whose statement with number `n` fails where `fails n` holds; the listing has number 0. -/
def failingSweep (svc : ControlPlaneService) (now : DateTime) (fails : Nat → Bool) (s : Store) :
    Except Error Nat × Store :=
  let r := (svc.markStaleOffline now).run (Prog.failing (Op.exec now) Op.fault fails) (s, 0)
  (r.1, r.2.1)

section Failing

variable {svc : ControlPlaneService} {now : DateTime} {fails : Nat → Bool}

/-- If the statement with number `k` is the first to fail, the loop ends with an error and has marked the first `k`
nodes. -/
theorem run_markLoop_fault (ids : List String) (marked i k : Nat) (s : Store) (hk : k < ids.length)
    (hok : ∀ j < k, fails (i + j) = false) (hfail : fails (i + k) = true) :
    (markLoop ids marked).run (Prog.failing (Op.exec now) Op.fault fails) (s, i) =
      (.error .database, markAll now (ids.take k) s, i + k + 1) := by
  induction ids generalizing marked i k s with
  | nil => cases hk
  | cons id ids ih =>
    cases k with
    | zero =>
      rw [markLoop, Prog.run_op, Prog.failing_fault (a := .error .database) (by simpa using hfail) rfl]
      rfl
    | succ k =>
      have hfirst : fails i = false := hok 0 (by simp)
      have hrest : ∀ j < k, fails (i + 1 + j) = false := by
        intro j hj
        rw [Nat.add_assoc, Nat.add_comm 1 j]
        exact hok (j + 1) (by omega)
      have hlast : fails (i + 1 + k) = true := by rwa [Nat.add_assoc, Nat.add_comm 1 k]
      have hcount : i + 1 + k + 1 = i + (k + 1) + 1 := by omega
      have hnext := ih (marked + 1) (i + 1) k ((Op.markOffline id).exec now s).2 (by simpa using hk) hrest hlast
      rw [markLoop, Prog.run_op, Prog.failing_ok hfirst, ← hcount]
      exact hnext

theorem failingSweep_eq {s : Store} {ns : List Node} (hlist : Registry.list s.registry = .ok ns)
    (hok : fails 0 = false) : failingSweep svc now fails s =
      (((markLoop (dueIds svc now ns) 0).run (Prog.failing (Op.exec now) Op.fault fails) (s, 1)).1,
        ((markLoop (dueIds svc now ns) 0).run (Prog.failing (Op.exec now) Op.fault fails) (s, 1)).2.1) := by
  have hrun : (svc.markStaleOffline now).run (Prog.failing (Op.exec now) Op.fault fails) (s, 0) =
      (markLoop (dueIds svc now ns) 0).run (Prog.failing (Op.exec now) Op.fault fails) (s, 1) := by
    rw [ControlPlaneService.markStaleOffline, Repo.list, Prog.bind_eq, Prog.op_bind, Prog.run_op, Prog.failing_ok hok,
      ← sweepLoop_eq]
    change ((Prog.ofExcept (Registry.list s.registry)).bind _).run _ _ = _
    rw [hlist]
    rfl
  rw [failingSweep, hrun]

end Failing

/-! ## The sweep -/

/-- What the sweep is for. -/
structure SweepsDue (svc : ControlPlaneService) (now : DateTime) (s : Store) : Prop where
  /-- It marks the due rows and returns their number. -/
  marks : ∃ s', Call.run svc now .markStaleOffline s = (.ok (.marked (dueRows svc.policy now s).length), s') ∧
    Marks (dueRows svc.policy now s) now s s' ∧
    -- a second sweep at the same time finds none
    Call.run svc now .markStaleOffline s' = (.ok (.marked 0), s')
  /-- If it lists the nodes and the statement that marks the due row with number `k` is the first to fail, then the `k`
  rows before it are marked. -/
  fault : ∀ (fails : Nat → Bool) (k : Nat), fails 0 = false → k < (dueRows svc.policy now s).length →
    (∀ j < k, fails (1 + j) = false) → fails (1 + k) = true →
      ∃ s', failingSweep svc now fails s = (.error .database, s') ∧ Marks ((dueRows svc.policy now s).take k) now s s'

section Sweep

variable {svc : ControlPlaneService} {now : DateTime} {s : Store}

theorem dueIds_of_list {ns : List Node} (hlist : Registry.list s.registry = .ok ns) :
    dueIds svc now ns = (dueRows svc.policy now s).map Row.id :=
  dueIds_eq svc now (Registry.forall₂_of_mapM hlist)

/-- The sweep of a table that can be read. -/
theorem run_of_readable (hread : s.Readable) : Call.run svc now .markStaleOffline s =
    (.ok (.marked (dueRows svc.policy now s).length), markAll now ((dueRows svc.policy now s).map Row.id) s) := by
  obtain ⟨ns, hlist⟩ := hread.list
  rw [run_markStaleOffline, hlist]
  dsimp only
  rw [dueIds_of_list hlist, List.length_map]

/-- What a failing statement leaves of the sweep of a table that can be read. -/
theorem failingSweep_of_readable (hread : s.Readable) {fails : Nat → Bool} {k : Nat} (hlisted : fails 0 = false)
    (hk : k < (dueRows svc.policy now s).length) (hok : ∀ j < k, fails (1 + j) = false) (hfail : fails (1 + k) = true) :
    failingSweep svc now fails s =
      (.error .database, markAll now (((dueRows svc.policy now s).take k).map Row.id) s) := by
  obtain ⟨ns, hlist⟩ := hread.list
  rw [failingSweep_eq hlist hlisted, dueIds_of_list hlist,
    run_markLoop_fault _ 0 1 k s (by rwa [List.length_map]) hok hfail, List.map_take]

/-- **The sweep.** At every clock value it marks exactly the due rows, returns their number, leaves nothing for a second
sweep, and marks a prefix of them if a statement fails, if and only if every row of the table can be decoded. -/
theorem sweeps_due_iff (svc : ControlPlaneService) (now : DateTime) (s : Store) :
    SweepsDue svc now s ↔ s.Readable := by
  constructor
  · rintro ⟨⟨s', hrun, -, -⟩, -⟩
    rw [readable_iff_list]
    rw [run_markStaleOffline] at hrun
    cases hlist : Registry.list s.registry with
    | ok ns => exact ⟨ns, rfl⟩
    | error e =>
      rw [hlist] at hrun
      cases hrun
  · intro hread
    have hmarks : Marks (dueRows svc.policy now s) now s (markAll now ((dueRows svc.policy now s).map Row.id) s) :=
      marks_markAll fun row hrow => List.mem_of_mem_filter hrow
    refine ⟨⟨_, run_of_readable hread, hmarks, ?_⟩, fun fails k hlisted hk hok hfail => ?_⟩
    · rw [run_of_readable (hread.of_marks hmarks), dueRows_of_marks hmarks]
      rfl
    · exact ⟨_, failingSweep_of_readable hread hlisted hk hok hfail,
        marks_markAll fun row hrow => List.mem_of_mem_filter (List.mem_of_mem_take hrow)⟩

end Sweep

/-- Node `a` was heard from at time zero; the counter of node `b` has been taken out of the integers. -/
def overflownBeside : Store :=
  let start := DateTime.ofSecond 0
  let svc := ControlPlaneService.new .default
  let calls : List Call :=
    [.register ⟨"a", "10.0.0.1:1080", 10, 1000⟩, .heartbeat ⟨"a", 0, 0, 0, 0, 1000⟩,
      .register ⟨"b", "10.0.0.2:1080", 10, 1000⟩, .adjustActive "b" 9223372036854775807, .adjustActive "b" 1]
  calls.foldl (fun s c => (c.run svc start s).2) .empty

/-- After 40 seconds of silence `a` is due, but the sweep fails at the row of `b` and marks nobody. -/
theorem sweep_fails_beside_overflow :
    (dueRows .default (.ofSecond 40) overflownBeside).map Row.id = ["a"] ∧
      (Call.run (.new .default) (.ofSecond 40) .markStaleOffline overflownBeside).1 =
        .error (.columnDecode "active_connections") ∧
      (Call.run (.new .default) (.ofSecond 40) .markStaleOffline overflownBeside).2.statusOf "a" = some .healthy := by
  refine ⟨by decide +kernel, by decide +kernel, by decide +kernel⟩

end RustProxy.ControlPlane
