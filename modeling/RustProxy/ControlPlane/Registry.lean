import Mathlib.Data.String.Basic
import RustProxy.Lib.Table
import RustProxy.ControlPlane.Model

/-!
# The node registry

The `nodes` table and the statements of `SqliteNodeRepository` (`registry.rs`, `0001_init.sql`), one function per
statement. Each write takes the clock value it reads with `now_epoch`.

Numeric columns hold signed 64-bit integers (`Cell.integer`); an integer addition that overflows leaves a REAL, which
can no longer be decoded. A read decodes every column of the rows it returns (`rowIntoNode`), so one undecodable row
makes `list` fail.
-/

namespace RustProxy.ControlPlane

open Lib

/-- A heartbeat reported by a node agent. -/
structure Heartbeat where
  nodeId : String
  activeConnections : UInt32
  bytesUp : UInt64
  bytesDown : UInt64
  latencyMs : UInt32
  availableBandwidth : UInt64
  deriving DecidableEq

structure RegisterRequest where
  nodeId : String
  address : String
  maxConnections : UInt32
  bandwidthLimit : UInt64
  deriving DecidableEq

/-- What a repository or service call can fail with. -/
inductive Error
  /-- The statement itself failed. -/
  | database
  /-- A column could not be decoded as an integer. -/
  | columnDecode (column : String)
  | invalidEpoch (unix : Int)
  | nodeDisappeared
  deriving DecidableEq

/-! ## Columns -/

/-- A numeric column value. -/
inductive Cell
  | integer (v : Int64)
  | real
  deriving DecidableEq

namespace Cell

/-- `u32 as i64`. -/
def ofU32 (n : UInt32) : Cell := .integer n.toUInt64.toInt64

/-- `u64 as i64`. -/
def ofU64 (n : UInt64) : Cell := .integer n.toInt64

/-- `try_get::<i64, _>`. -/
def tryGet (column : String) : Cell → Except Error Int64
  | .integer v => .ok v
  | .real => .error (.columnDecode column)

/-- `column + ?`: a REAL when the exact sum needs more than 64 bits. A REAL stays one here, where the column would store
a later sum that is whole and in range as an INTEGER again. -/
def add : Cell → Int64 → Cell
  | .integer v, d =>
    if -9223372036854775808 ≤ v.toInt + d.toInt ∧ v.toInt + d.toInt < 9223372036854775808 then .integer (v + d)
    else .real
  | .real, _ => .real

/-- `MAX(0, column)`. -/
def max0 : Cell → Cell
  | .integer v => .integer (if 0 ≤ v then v else 0)
  | .real => .real

end Cell

/-- A row of the `nodes` table; times are whole seconds since the epoch. -/
structure Row where
  id : String
  address : String
  status : NodeState
  lastHeartbeat : Option Int
  maxConnections : Cell
  activeConnections : Cell
  bandwidthLimit : Cell
  bytesUp : Cell
  bytesDown : Cell
  latencyMs : Cell
  createdAt : Int
  updatedAt : Int
  deriving DecidableEq

/-- The `nodes` table; `id` is its primary key and `ORDER BY id` its listing. -/
abbrev Registry := Table Row.id

def epoch (unix : Int) : Except Error DateTime :=
  match DateTime.fromTimestamp unix with
  | some t => .ok t
  | none => .error (.invalidEpoch unix)

def optEpoch (unix : Option Int) : Option DateTime := unix.bind DateTime.fromTimestamp

/-- Decode a row. -/
def rowIntoNode (row : Row) : Except Error Node := do
  let maxConnections ← row.maxConnections.tryGet "max_connections"
  let activeConnections ← row.activeConnections.tryGet "active_connections"
  let bandwidthLimit ← row.bandwidthLimit.tryGet "bandwidth_limit"
  let bytesUp ← row.bytesUp.tryGet "bytes_up"
  let bytesDown ← row.bytesDown.tryGet "bytes_down"
  let latencyMs ← row.latencyMs.tryGet "latency_ms"
  let createdAt ← epoch row.createdAt
  let updatedAt ← epoch row.updatedAt
  .ok
    { id := row.id
      address := row.address
      state := row.status
      lastHeartbeat := optEpoch row.lastHeartbeat
      maxConnections := maxConnections.toUInt64.toUInt32
      activeConnections := activeConnections.toUInt64.toUInt32
      bandwidthLimit := bandwidthLimit.toUInt64
      bytesUp := bytesUp.toUInt64
      bytesDown := bytesDown.toUInt64
      latencyMs := latencyMs.toUInt64.toUInt32
      createdAt := createdAt
      updatedAt := updatedAt }

/-! ## Statements -/

namespace Registry

/-- The row of a new registration. -/
def freshRow (req : RegisterRequest) (now : DateTime) : Row where
  id := req.nodeId
  address := req.address
  status := .starting
  lastHeartbeat := none
  maxConnections := .ofU32 req.maxConnections
  activeConnections := .integer 0
  bandwidthLimit := .ofU64 req.bandwidthLimit
  bytesUp := .integer 0
  bytesDown := .integer 0
  latencyMs := .integer 0
  createdAt := now.timestamp
  updatedAt := now.timestamp

/-- The `ON CONFLICT(id) DO UPDATE` of a registration. -/
def conflictRow (req : RegisterRequest) (now : DateTime) (old : Row) : Row :=
  { old with
    address := req.address
    maxConnections := .ofU32 req.maxConnections
    bandwidthLimit := .ofU64 req.bandwidthLimit
    status := if old.status = .offline ∨ old.status = .starting then .starting else old.status
    updatedAt := now.timestamp }

/-- The row an upsert leaves, by the row it finds. -/
def upsertRow (req : RegisterRequest) (now : DateTime) : Option Row → Row
  | none => freshRow req now
  | some old => conflictRow req now old

def register (req : RegisterRequest) (now : DateTime) (t : Registry) : Registry :=
  t.put (upsertRow req now (t.find? req.nodeId))

def get (id : String) (t : Registry) : Except Error (Option Node) :=
  match t.find? id with
  | none => .ok none
  | some row => (rowIntoNode row).map some

def list (t : Registry) : Except Error (List Node) := t.rows.mapM rowIntoNode

def heartbeatRow (hb : Heartbeat) (now : DateTime) (row : Row) : Row :=
  { row with
    lastHeartbeat := some now.timestamp
    activeConnections := .ofU32 hb.activeConnections
    bytesUp := .ofU64 hb.bytesUp
    bytesDown := .ofU64 hb.bytesDown
    latencyMs := .ofU32 hb.latencyMs
    updatedAt := now.timestamp }

def applyHeartbeat (hb : Heartbeat) (now : DateTime) (t : Registry) : Registry :=
  t.modify hb.nodeId (heartbeatRow hb now)

/-- `UPDATE nodes SET status = ?, updated_at = ? WHERE id = ?`, the statement of the three state writes. -/
def writeStatus (status : NodeState) (id : String) (now : DateTime) (t : Registry) : Registry :=
  t.modify id fun row => { row with status := status, updatedAt := now.timestamp }

def setDraining (id : String) (now : DateTime) (t : Registry) : Registry := writeStatus .draining id now t

def markOffline (id : String) (now : DateTime) (t : Registry) : Registry := writeStatus .offline id now t

def setState (id : String) (state : NodeState) (now : DateTime) (t : Registry) : Registry :=
  writeStatus state id now t

def adjustActive (id : String) (delta : Int64) (now : DateTime) (t : Registry) : Registry :=
  t.modify id fun row =>
    { row with activeConnections := (row.activeConnections.add delta).max0, updatedAt := now.timestamp }

def accumulateBytes (id : String) (up down : UInt64) (now : DateTime) (t : Registry) : Registry :=
  t.modify id fun row =>
    { row with
      bytesUp := row.bytesUp.add up.toInt64
      bytesDown := row.bytesDown.add down.toInt64
      updatedAt := now.timestamp }

end Registry

/-! ## Reading back -/

@[simp] theorem toInt64_toUInt64 (n : UInt64) : n.toInt64.toUInt64 = n := by simp

@[simp] theorem toUInt32_ofU32 (n : UInt32) : n.toUInt64.toInt64.toUInt64.toUInt32 = n := by simp

theorem tryGet_ok {column : String} {c : Cell} {v : Int64} (h : c.tryGet column = .ok v) : c = .integer v := by
  cases c with
  | integer w => cases h; rfl
  | real => cases h

/-- `n` is the node that `row` decodes to. -/
structure Decodes (row : Row) (n : Node) : Prop where
  id : n.id = row.id
  address : n.address = row.address
  state : n.state = row.status
  lastHeartbeat : n.lastHeartbeat = optEpoch row.lastHeartbeat
  maxConnections : ∃ v, row.maxConnections = .integer v ∧ v.toUInt64.toUInt32 = n.maxConnections
  activeConnections : ∃ v, row.activeConnections = .integer v ∧ v.toUInt64.toUInt32 = n.activeConnections
  bandwidthLimit : ∃ v, row.bandwidthLimit = .integer v ∧ v.toUInt64 = n.bandwidthLimit
  bytesUp : ∃ v, row.bytesUp = .integer v ∧ v.toUInt64 = n.bytesUp
  bytesDown : ∃ v, row.bytesDown = .integer v ∧ v.toUInt64 = n.bytesDown
  latencyMs : ∃ v, row.latencyMs = .integer v ∧ v.toUInt64.toUInt32 = n.latencyMs
  createdAt : epoch row.createdAt = .ok n.createdAt
  updatedAt : epoch row.updatedAt = .ok n.updatedAt

theorem rowIntoNode_ok_iff {row : Row} {n : Node} : rowIntoNode row = .ok n ↔ Decodes row n := by
  constructor
  · intro h
    simp only [rowIntoNode, bind, Except.bind] at h
    repeat' split at h
    all_goals try cases h
    exact ⟨rfl, rfl, rfl, rfl, ⟨_, tryGet_ok ‹_›, rfl⟩, ⟨_, tryGet_ok ‹_›, rfl⟩, ⟨_, tryGet_ok ‹_›, rfl⟩,
      ⟨_, tryGet_ok ‹_›, rfl⟩, ⟨_, tryGet_ok ‹_›, rfl⟩, ⟨_, tryGet_ok ‹_›, rfl⟩, ‹_›, ‹_›⟩
  · rintro ⟨hid, haddr, hstate, hlast, ⟨m, hm, hm'⟩, ⟨a, ha, ha'⟩, ⟨b, hb, hb'⟩, ⟨u, hu, hu'⟩, ⟨d, hd, hd'⟩,
      ⟨l, hl, hl'⟩, hc, hup⟩
    obtain ⟨⟩ := n
    simp only at *
    subst hid haddr hstate hlast hm' ha' hb' hu' hd' hl'
    simp only [rowIntoNode, hm, ha, hb, hu, hd, hl, hc, hup, Cell.tryGet, bind, Except.bind]

alias ⟨Decodes.of_ok, Decodes.ok⟩ := rowIntoNode_ok_iff

/-- A clock value that was stored is read back. -/
@[simp] theorem epoch_timestamp (t : DateTime) : epoch t.timestamp = .ok t.trunc := by
  rw [epoch, DateTime.fromTimestamp_timestamp]

/-- The node of a new registration. -/
def Registry.freshNode (req : RegisterRequest) (now : DateTime) : Node where
  id := req.nodeId
  address := req.address
  state := .starting
  lastHeartbeat := none
  maxConnections := req.maxConnections
  activeConnections := 0
  bandwidthLimit := req.bandwidthLimit
  bytesUp := 0
  bytesDown := 0
  latencyMs := 0
  createdAt := now.trunc
  updatedAt := now.trunc

/-- A new registration is read back with its values. -/
theorem decodes_freshRow (req : RegisterRequest) (now : DateTime) :
    Decodes (Registry.freshRow req now) (Registry.freshNode req now) :=
  ⟨rfl, rfl, rfl, rfl, ⟨_, rfl, toUInt32_ofU32 _⟩, ⟨_, rfl, rfl⟩, ⟨_, rfl, toInt64_toUInt64 _⟩, ⟨_, rfl, rfl⟩,
    ⟨_, rfl, rfl⟩, ⟨_, rfl, rfl⟩, epoch_timestamp now, epoch_timestamp now⟩

/-- A registration that finds a row is read back with its values over those of the row. -/
theorem Decodes.conflictRow {row : Row} {n : Node} (h : Decodes row n) (req : RegisterRequest) (now : DateTime) :
    Decodes (Registry.conflictRow req now row)
      { n with
        address := req.address, maxConnections := req.maxConnections, bandwidthLimit := req.bandwidthLimit
        state := if row.status = .offline ∨ row.status = .starting then .starting else row.status
        updatedAt := now.trunc } :=
  { h with
    address := rfl
    maxConnections := ⟨_, rfl, toUInt32_ofU32 _⟩
    bandwidthLimit := ⟨_, rfl, toInt64_toUInt64 _⟩
    state := rfl
    updatedAt := epoch_timestamp now }

/-- A heartbeat is read back with the values it reported. -/
theorem Decodes.heartbeatRow {row : Row} {n : Node} (h : Decodes row n) (hb : Heartbeat) (now : DateTime) :
    Decodes (Registry.heartbeatRow hb now row)
      { n with
        lastHeartbeat := some now.trunc, activeConnections := hb.activeConnections, bytesUp := hb.bytesUp
        bytesDown := hb.bytesDown, latencyMs := hb.latencyMs, updatedAt := now.trunc } :=
  ⟨h.id, h.address, h.state, (DateTime.fromTimestamp_timestamp now).symm, h.maxConnections,
    ⟨_, rfl, toUInt32_ofU32 _⟩, h.bandwidthLimit, ⟨_, rfl, toInt64_toUInt64 _⟩, ⟨_, rfl, toInt64_toUInt64 _⟩,
    ⟨_, rfl, toUInt32_ofU32 _⟩, h.createdAt, epoch_timestamp now⟩

/-- A status write is read back. -/
theorem Decodes.withStatus {row : Row} {n : Node} (h : Decodes row n) (state : NodeState) (now : DateTime) :
    Decodes { row with status := state, updatedAt := now.timestamp }
      { n with state := state, updatedAt := now.trunc } :=
  { h with state := rfl, updatedAt := epoch_timestamp now }

namespace Registry

theorem get_some {t : Registry} {id : String} {n : Node} (h : get id t = .ok (some n)) :
    ∃ row, t.find? id = some row ∧ rowIntoNode row = .ok n := by
  unfold get at h
  cases hf : t.find? id with
  | none => rw [hf] at h; cases h
  | some row =>
    rw [hf] at h
    dsimp only at h
    refine ⟨row, rfl, ?_⟩
    cases hr : rowIntoNode row with
    | error e => rw [hr] at h; cases h
    | ok m => rw [hr] at h; cases h; rfl

theorem get_none {t : Registry} {id : String} (h : get id t = .ok none) : t.find? id = none := by
  unfold get at h
  cases hf : t.find? id with
  | none => rfl
  | some row =>
    rw [hf] at h
    dsimp only at h
    cases hr : rowIntoNode row with
    | error e => rw [hr] at h; cases h
    | ok m => rw [hr] at h; cases h

theorem get_of_decodes {t : Registry} {id : String} {row : Row} {n : Node} (hrow : t.find? id = some row)
    (hdec : Decodes row n) : get id t = .ok (some n) := by
  rw [get, hrow]
  exact congrArg (Except.map some) hdec.ok

/-- A decoded listing, row by row. -/
theorem forall₂_of_mapM : ∀ {rows : List Row} {ns : List Node}, rows.mapM rowIntoNode = .ok ns →
    List.Forall₂ (fun row n => rowIntoNode row = .ok n) rows ns
  | [], ns, h => by cases h; exact .nil
  | row :: rows, ns, h => by
    rw [List.mapM_cons] at h
    cases hr : rowIntoNode row with
    | error e => rw [hr] at h; cases h
    | ok n =>
      cases hrs : rows.mapM rowIntoNode with
      | error e => rw [hr, hrs] at h; cases h
      | ok ns' =>
        rw [hr, hrs] at h
        cases h
        exact .cons hr (forall₂_of_mapM hrs)

theorem exists_row {rows : List Row} {ns : List Node} {n : Node}
    (hall : List.Forall₂ (fun row n => rowIntoNode row = .ok n) rows ns) (hn : n ∈ ns) :
    ∃ row ∈ rows, rowIntoNode row = .ok n := by
  induction hall with
  | nil => cases hn
  | @cons row m rows ms hm _ ih =>
    rcases List.mem_cons.mp hn with rfl | hn
    · exact ⟨row, List.mem_cons_self, hm⟩
    · obtain ⟨row', hr, hd⟩ := ih hn
      exact ⟨row', List.mem_cons_of_mem _ hr, hd⟩

theorem exists_node {rows : List Row} {ns : List Node} {row : Row}
    (hall : List.Forall₂ (fun row n => rowIntoNode row = .ok n) rows ns) (hrow : row ∈ rows) :
    ∃ n ∈ ns, rowIntoNode row = .ok n := by
  induction hall with
  | nil => cases hrow
  | @cons row' n rows ns hn _ ih =>
    rcases List.mem_cons.mp hrow with rfl | hrow
    · exact ⟨n, List.mem_cons_self, hn⟩
    · obtain ⟨m, hm, hd⟩ := ih hrow
      exact ⟨m, List.mem_cons_of_mem _ hm, hd⟩

theorem nodes_ordered {rows : List Row} {ns : List Node}
    (hall : List.Forall₂ (fun row n => rowIntoNode row = .ok n) rows ns)
    (hord : rows.Pairwise fun a b => a.id < b.id) : ns.Pairwise fun a b => a.id < b.id := by
  induction hall with
  | nil => exact .nil
  | @cons row n rows ns hn hrest ih =>
    obtain ⟨hrow, hrows⟩ := List.pairwise_cons.mp hord
    refine List.pairwise_cons.mpr ⟨fun m hm => ?_, ih hrows⟩
    obtain ⟨row', hr', hd'⟩ := exists_row hrest hm
    rw [(Decodes.of_ok hn).id, (Decodes.of_ok hd').id]
    exact hrow row' hr'

/-- Every listed node is the decoded row of its id. -/
theorem list_mem {t : Registry} {ns : List Node} (h : list t = .ok ns) {n : Node} (hn : n ∈ ns) :
    ∃ row, t.find? n.id = some row ∧ rowIntoNode row = .ok n := by
  obtain ⟨row, hrow, hdec⟩ := exists_row (forall₂_of_mapM h) hn
  refine ⟨row, ?_, hdec⟩
  rw [(Decodes.of_ok hdec).id]
  exact Table.mem_rows.mp hrow

/-- Every row is listed. -/
theorem exists_mem_list {t : Registry} {ns : List Node} (h : list t = .ok ns) {id : String} {row : Row}
    (hrow : t.find? id = some row) : ∃ n ∈ ns, rowIntoNode row = .ok n := by
  have hid : row.id = id := Table.key_of_find? hrow
  have hmem : row ∈ t.rows := Table.mem_rows.mpr (hid ▸ hrow)
  exact exists_node (forall₂_of_mapM h) hmem

/-- The listing of a table with one row. -/
theorem list_singleton {t : Registry} {row : Row} {n : Node} (hrows : t.rows = [row]) (hdec : Decodes row n) :
    list t = .ok [n] := by
  rw [list, hrows, List.mapM_cons, hdec.ok]
  rfl

/-- A listing is in increasing id order, so no id is listed twice. -/
theorem list_ordered {t : Registry} {ns : List Node} (h : list t = .ok ns) :
    ns.Pairwise fun a b => a.id < b.id := nodes_ordered (forall₂_of_mapM h) t.ordered

end Registry

end RustProxy.ControlPlane
