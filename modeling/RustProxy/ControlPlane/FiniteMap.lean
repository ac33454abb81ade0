import RustProxy.ControlPlane.Service

/-!
# The registry as a finite map

What the `nodes` table is for: a map from ids to rows, of which `get` decodes one and `list` all. The table refines it
step by step (`find?_runOps`), whatever operations are run, so frame conditions and registrations are read off the map.

Reading back is another matter. Every row that a run leaves can be decoded as long as no addition of `adjust_active` or
`accumulate_bytes` overflows (`Fitting`, `readable_runOps`); then the listing is the map in increasing id order
(`registry_refines_finite_map`). An addition that overflows leaves a row that no read gets past
(`list_fails_after_overflow`).
-/

namespace RustProxy.ControlPlane

open Lib

/-! ## The map -/

/-- A repository call and the clock value it reads. -/
abbrev TimedOp := DateTime × Op

abbrev RowMap := String → Option Row

/-- An operation on the map changes it at its own id. -/
def Op.onMap (now : DateTime) (o : Op) (m : RowMap) : RowMap :=
  fun id => if o.writes = some id then o.rowAfter now (m id) else m id

def runMap : List TimedOp → RowMap → RowMap
  | [], m => m
  | (now, o) :: ops, m => runMap ops (o.onMap now m)

def runOps : List TimedOp → Store → Store
  | [], s => s
  | (now, o) :: ops, s => runOps ops (o.exec now s).2

/-- **Refinement.** The table does what the map does. -/
theorem find?_runOps (ops : List TimedOp) (s : Store) :
    (runOps ops s).registry.find? = runMap ops s.registry.find? := by
  induction ops generalizing s with
  | nil => rfl
  | cons op ops ih =>
    obtain ⟨now, o⟩ := op
    have hstep : (o.exec now s).2.registry.find? = o.onMap now s.registry.find? :=
      funext fun id => o.find?_exec now s id
    rw [runOps, runMap, ih, hstep]

theorem runOps_append (ops ops' : List TimedOp) (s : Store) :
    runOps (ops ++ ops') s = runOps ops' (runOps ops s) := by
  induction ops generalizing s with
  | nil => rfl
  | cons op ops ih => exact ih _

/-- The sequence registers `id`. -/
def Registers (ops : List TimedOp) (id : String) : Prop := ∃ now req, (now, Op.register req) ∈ ops ∧ req.nodeId = id

theorem isSome_onMap (now : DateTime) (o : Op) (m : RowMap) (id : String) :
    (o.onMap now m id).isSome ↔ (m id).isSome ∨ ∃ req, o = .register req ∧ req.nodeId = id := by
  unfold Op.onMap
  split
  · next hw =>
    cases o with
    | register req => simpa [Op.rowAfter] using Or.inr (Option.some.inj hw)
    | _ => simp [Op.rowAfter]
  · next hw =>
    constructor
    · intro h
      exact .inl h
    · rintro (h | ⟨req, rfl, hid⟩)
      · exact h
      · exact absurd (congrArg some hid) hw

/-- The ids of the map are those registered so far. -/
theorem isSome_runMap (ops : List TimedOp) (m : RowMap) (id : String) :
    (runMap ops m id).isSome ↔ (m id).isSome ∨ Registers ops id := by
  induction ops generalizing m with
  | nil => simp [runMap, Registers]
  | cons op ops ih =>
    obtain ⟨now, o⟩ := op
    rw [runMap, ih, isSome_onMap, or_assoc]
    apply or_congr_right
    constructor
    · rintro (⟨req, rfl, hid⟩ | ⟨now', req, hmem, hid⟩)
      · exact ⟨now, req, List.mem_cons_self, hid⟩
      · exact ⟨now', req, List.mem_cons_of_mem _ hmem, hid⟩
    · rintro ⟨now', req, hmem, hid⟩
      rcases List.mem_cons.mp hmem with h | h
      · cases h
        exact .inl ⟨req, rfl, hid⟩
      · exact .inr ⟨now', req, h, hid⟩

/-! ## What can be read back -/

/-- Adding `d` stays within 64 bits. -/
def Cell.Adds (d : Int64) : Cell → Prop
  | .integer v => -9223372036854775808 ≤ v.toInt + d.toInt ∧ v.toInt + d.toInt < 9223372036854775808
  | .real => True

instance (d : Int64) : DecidablePred (Cell.Adds d)
  | .integer _ => inferInstanceAs (Decidable (_ ∧ _))
  | .real => inferInstanceAs (Decidable True)

/-- No addition of the operation overflows. -/
def Op.Fits (s : Store) : Op → Prop
  | .adjustActive id delta => ∀ row ∈ s.registry.find? id, row.activeConnections.Adds delta
  | .accumulateBytes id up down =>
    ∀ row ∈ s.registry.find? id, row.bytesUp.Adds up.toInt64 ∧ row.bytesDown.Adds down.toInt64
  | _ => True

instance (s : Store) : DecidablePred (Op.Fits s)
  | .adjustActive .. => inferInstanceAs (Decidable (∀ row ∈ (_ : Option Row), _))
  | .accumulateBytes .. => inferInstanceAs (Decidable (∀ row ∈ (_ : Option Row), _))
  | .register _ | .get _ | .list | .applyHeartbeat _ | .setDraining _ | .markOffline _ | .setState .. | .reserve .. =>
    inferInstanceAs (Decidable True)

/-- No addition of the run overflows. -/
def Fitting : List TimedOp → Store → Prop
  | [], _ => True
  | (now, o) :: ops, s => o.Fits s ∧ Fitting ops (o.exec now s).2

instance decidableFitting : ∀ (ops : List TimedOp) (s : Store), Decidable (Fitting ops s)
  | [], _ => inferInstanceAs (Decidable True)
  | (now, o) :: ops, s =>
    have := decidableFitting ops (o.exec now s).2
    inferInstanceAs (Decidable (_ ∧ _))

/-- The row can be decoded. -/
def Row.Readable (row : Row) : Prop := ∃ n, Decodes row n

/-- Every row can be decoded. -/
def Store.Readable (s : Store) : Prop := ∀ id, ∀ row ∈ s.registry.find? id, row.Readable

theorem Cell.add_of_adds {v d : Int64} (h : (Cell.integer v).Adds d) : (Cell.integer v).add d = .integer (v + d) :=
  if_pos h

theorem readable_upsertRow {found : Option Row} (h : ∀ row ∈ found, row.Readable) (req : RegisterRequest)
    (now : DateTime) : (Registry.upsertRow req now found).Readable := by
  cases found with
  | none => exact ⟨_, decodes_freshRow req now⟩
  | some old =>
    obtain ⟨n, hn⟩ := h old rfl
    exact ⟨{ n with
      address := req.address
      maxConnections := req.maxConnections
      bandwidthLimit := req.bandwidthLimit
      state := if old.status = .offline ∨ old.status = .starting then .starting else old.status
      updatedAt := now.trunc },
      { hn with
        address := rfl
        maxConnections := ⟨_, rfl, toUInt32_ofU32 _⟩
        bandwidthLimit := ⟨_, rfl, toInt64_toUInt64 _⟩
        state := rfl
        updatedAt := epoch_timestamp now }⟩

theorem readable_adjustActive {row : Row} (h : row.Readable) {delta : Int64} (hfit : row.activeConnections.Adds delta)
    (now : DateTime) :
    { row with
      activeConnections := (row.activeConnections.add delta).max0, updatedAt := now.timestamp : Row }.Readable := by
  obtain ⟨n, hn⟩ := h
  obtain ⟨v, hv, -⟩ := hn.activeConnections
  rw [hv] at hfit ⊢
  rw [Cell.add_of_adds hfit]
  exact ⟨{ n with
    activeConnections := (if 0 ≤ v + delta then v + delta else 0).toUInt64.toUInt32
    updatedAt := now.trunc },
    { hn with activeConnections := ⟨_, rfl, rfl⟩, updatedAt := epoch_timestamp now }⟩

theorem readable_accumulateBytes {row : Row} (h : row.Readable) {up down : Int64} (hup : row.bytesUp.Adds up)
    (hdown : row.bytesDown.Adds down) (now : DateTime) :
    { row with
      bytesUp := row.bytesUp.add up, bytesDown := row.bytesDown.add down
      updatedAt := now.timestamp : Row }.Readable := by
  obtain ⟨n, hn⟩ := h
  obtain ⟨u, hu, -⟩ := hn.bytesUp
  obtain ⟨d, hd, -⟩ := hn.bytesDown
  rw [hu] at hup ⊢
  rw [hd] at hdown ⊢
  rw [Cell.add_of_adds hup, Cell.add_of_adds hdown]
  exact ⟨{ n with bytesUp := (u + up).toUInt64, bytesDown := (d + down).toUInt64, updatedAt := now.trunc },
    { hn with bytesUp := ⟨_, rfl, rfl⟩, bytesDown := ⟨_, rfl, rfl⟩, updatedAt := epoch_timestamp now }⟩

/-- An operation that overflows nothing leaves a row that can be decoded. -/
theorem readable_rowAfter {o : Op} {s : Store} {id : String} (hw : o.writes = some id) (hfit : o.Fits s)
    (h : ∀ row ∈ s.registry.find? id, row.Readable) (now : DateTime) :
    ∀ row ∈ o.rowAfter now (s.registry.find? id), row.Readable := by
  intro row' hrow'
  cases o with
  | get id' => cases hw
  | list => cases hw
  | reserve nodeId limit rate => cases hw
  | register req =>
    cases hrow'
    exact readable_upsertRow h req now
  | applyHeartbeat hb =>
    obtain ⟨row, hrow, rfl⟩ := Option.map_eq_some_iff.mp hrow'
    obtain ⟨n, hn⟩ := h row hrow
    exact ⟨_, hn.heartbeatRow hb now⟩
  | setDraining id' =>
    obtain ⟨row, hrow, rfl⟩ := Option.map_eq_some_iff.mp hrow'
    obtain ⟨n, hn⟩ := h row hrow
    exact ⟨_, hn.withStatus .draining now⟩
  | markOffline id' =>
    obtain ⟨row, hrow, rfl⟩ := Option.map_eq_some_iff.mp hrow'
    obtain ⟨n, hn⟩ := h row hrow
    exact ⟨_, hn.withStatus .offline now⟩
  | setState id' state =>
    obtain ⟨row, hrow, rfl⟩ := Option.map_eq_some_iff.mp hrow'
    obtain ⟨n, hn⟩ := h row hrow
    exact ⟨_, hn.withStatus state now⟩
  | adjustActive id' delta =>
    obtain ⟨row, hrow, rfl⟩ := Option.map_eq_some_iff.mp hrow'
    cases hw
    exact readable_adjustActive (h row hrow) (hfit row hrow) now
  | accumulateBytes id' up down =>
    obtain ⟨row, hrow, rfl⟩ := Option.map_eq_some_iff.mp hrow'
    cases hw
    obtain ⟨hup, hdown⟩ := hfit row hrow
    exact readable_accumulateBytes (h row hrow) hup hdown now

theorem readable_exec {o : Op} {s : Store} (hfit : o.Fits s) (h : s.Readable) (now : DateTime) :
    (o.exec now s).2.Readable := by
  intro id row hrow
  rw [Op.find?_exec] at hrow
  split at hrow
  · next hw => exact readable_rowAfter hw hfit (h id) now row hrow
  · exact h id row hrow

/-- A run that overflows nothing leaves a table that can be read. -/
theorem readable_runOps {ops : List TimedOp} {s : Store} (hfit : Fitting ops s) (h : s.Readable) :
    (runOps ops s).Readable := by
  induction ops generalizing s with
  | nil => exact h
  | cons op ops ih => exact ih hfit.2 (readable_exec hfit.1 h op.1)

theorem readable_empty : Store.empty.Readable := by
  intro id row hrow
  cases hrow

/-! ## The listing -/

theorem exists_mapM {rows : List Row} (h : ∀ row ∈ rows, row.Readable) : ∃ ns, rows.mapM rowIntoNode = .ok ns := by
  induction rows with
  | nil => exact ⟨[], rfl⟩
  | cons row rows ih =>
    obtain ⟨n, hn⟩ := h row List.mem_cons_self
    obtain ⟨ns, hns⟩ := ih fun row' hrow' => h row' (List.mem_cons_of_mem _ hrow')
    exact ⟨n :: ns, by rw [List.mapM_cons, hn.ok, hns]; rfl⟩

/-- A table that can be read is listed. -/
theorem Store.Readable.list {s : Store} (h : s.Readable) : ∃ ns, Registry.list s.registry = .ok ns :=
  exists_mapM fun row hrow => h row.id row (Table.mem_rows.mp hrow)

theorem readable_iff_list {s : Store} : s.Readable ↔ ∃ ns, Registry.list s.registry = .ok ns := by
  constructor
  · exact Store.Readable.list
  · rintro ⟨ns, hns⟩ id row hrow
    obtain ⟨n, -, hdec⟩ := Registry.exists_mem_list hns hrow
    exact ⟨n, .of_ok hdec⟩

/-- A listing holds a node of exactly the ids that have a row. -/
theorem mem_list_iff {t : Registry} {ns : List Node} (h : Registry.list t = .ok ns) (id : String) :
    (∃ n ∈ ns, n.id = id) ↔ (t.find? id).isSome := by
  constructor
  · rintro ⟨n, hn, rfl⟩
    obtain ⟨row, hrow, -⟩ := Registry.list_mem h hn
    rw [hrow]
    rfl
  · intro hsome
    obtain ⟨row, hrow⟩ := Option.isSome_iff_exists.mp hsome
    obtain ⟨n, hn, hdec⟩ := Registry.exists_mem_list h hrow
    have hid : row.id = id := Table.key_of_find? hrow
    exact ⟨n, hn, (Decodes.of_ok hdec).id.trans hid⟩

/-- A listing agrees with `get`. -/
theorem get_eq_find?_list {t : Registry} {ns : List Node} (h : Registry.list t = .ok ns) (id : String) :
    Registry.get id t = .ok (ns.find? fun n => n.id = id) := by
  cases hf : ns.find? fun n => n.id = id with
  | none =>
    have hnone : t.find? id = none := by
      rw [← Option.not_isSome_iff_eq_none, ← mem_list_iff h]
      rintro ⟨n, hn, hid⟩
      simpa [hid] using List.find?_eq_none.mp hf n hn
    rw [Registry.get, hnone]
  | some n =>
    have hid : n.id = id := by simpa using List.find?_some hf
    obtain ⟨row, hrow, hdec⟩ := Registry.list_mem h (List.mem_of_find?_eq_some hf)
    rw [hid] at hrow
    exact Registry.get_of_decodes hrow (Decodes.of_ok hdec)

/-! ## Frames and registrations -/

/-- On an id without a row, only a registration changes the table. -/
theorem exec_of_unregistered {o : Op} {s : Store} (hreg : ∀ req, o ≠ .register req)
    (hnone : ∀ id, o.writes = some id → s.registry.find? id = none) (now : DateTime) :
    (o.exec now s).2.registry = s.registry := by
  have hmod : ∀ {id : String} {f : Row → Row}, o.writes = some id → s.registry.modify id f = s.registry := by
    intro id f hw
    rw [Table.modify, hnone id hw]
  cases o with
  | register req => exact absurd rfl (hreg req)
  | get id => rfl
  | list => rfl
  | reserve nodeId limit rate =>
    simp only [Op.exec]
    cases (s.allocator nodeId limit).tryReserve rate <;> rfl
  | applyHeartbeat hb => exact hmod rfl
  | setDraining id => exact hmod rfl
  | markOffline id => exact hmod rfl
  | setState id state => exact hmod rfl
  | adjustActive id delta => exact hmod rfl
  | accumulateBytes id up down => exact hmod rfl

/-- Registering twice only moves `updated_at`. -/
theorem upsertRow_upsertRow (req : RegisterRequest) (now now' : DateTime) (found : Option Row) :
    Registry.upsertRow req now' (some (Registry.upsertRow req now found)) =
      { Registry.upsertRow req now found with updatedAt := now'.timestamp } := by
  cases found with
  | none => rfl
  | some old =>
    simp only [Registry.upsertRow, Registry.conflictRow, Row.mk.injEq, true_and, and_true]
    split_ifs with h₁ h₂
    · rfl
    · exact absurd (.inr rfl) h₂
    · rfl

/-- What makes the registry a finite map `m` whose ids are those registered. -/
structure RefinesMap (m : RowMap) (registered : String → Prop) (s : Store) : Prop where
  rows : s.registry.find? = m
  /-- One node per registered id, in increasing id order, as `get` returns them. -/
  listing : ∃ ns, Registry.list s.registry = .ok ns ∧ (ns.Pairwise fun a b => a.id < b.id) ∧
    (∀ id, (∃ n ∈ ns, n.id = id) ↔ registered id) ∧
    ∀ id, Registry.get id s.registry = .ok (ns.find? fun n => n.id = id)
  frame : ∀ (o : Op) (now : DateTime) (id : String), o.writes ≠ some id →
    (o.exec now s).2.registry.find? id = s.registry.find? id
  unregistered : ∀ (o : Op) (now : DateTime), (∀ req, o ≠ .register req) →
    (∀ id, o.writes = some id → ¬ registered id) → (o.exec now s).2.registry = s.registry
  registerKeeps : ∀ (req : RegisterRequest) (now : DateTime), ∀ row ∈ s.registry.find? req.nodeId,
    ∃ row' ∈ (Registry.register req now s.registry).find? req.nodeId,
      row'.createdAt = row.createdAt ∧ row'.lastHeartbeat = row.lastHeartbeat ∧
        row'.activeConnections = row.activeConnections ∧ row'.bytesUp = row.bytesUp ∧ row'.bytesDown = row.bytesDown ∧
        row'.latencyMs = row.latencyMs
  registerTwice : ∀ (req : RegisterRequest) (now now' : DateTime),
    (Registry.register req now' (Registry.register req now s.registry)).find? req.nodeId =
      ((Registry.register req now s.registry).find? req.nodeId).map
        fun row => { row with updatedAt := now'.timestamp }

/-- **The registry refines a finite map**, in every state of a run in which no addition overflows. -/
theorem registry_refines_finite_map (ops : List TimedOp) (hfit : Fitting ops .empty) :
    RefinesMap (runMap ops fun _ => none) (Registers ops) (runOps ops .empty) := by
  have hrows : (runOps ops .empty).registry.find? = runMap ops fun _ => none := find?_runOps ops .empty
  have hids : ∀ id, ((runOps ops .empty).registry.find? id).isSome ↔ Registers ops id := by
    intro id
    rw [hrows, isSome_runMap]
    simp
  obtain ⟨ns, hns⟩ := (readable_runOps hfit readable_empty).list
  refine ⟨hrows, ⟨ns, hns, Registry.list_ordered hns, ?_, get_eq_find?_list hns⟩, ?_, ?_, ?_, ?_⟩
  · intro id
    rw [mem_list_iff hns, hids]
  · intro o now id hw
    exact Op.find?_exec_of_ne hw now _
  · intro o now hreg hnone
    apply exec_of_unregistered hreg
    intro id hw
    rw [← Option.not_isSome_iff_eq_none, hids]
    exact hnone id hw
  · intro req now row hrow
    refine ⟨Registry.conflictRow req now row, ?_, rfl, rfl, rfl, rfl, rfl, rfl⟩
    rw [Option.mem_def, find?_register, if_pos rfl, hrow]
    rfl
  · intro req now now'
    simp only [find?_register, if_pos, Option.map_some]
    exact congrArg some (upsertRow_upsertRow req now now' _)

/-- A node is registered, reports its load, and one connection more is counted. -/
def countedOps : List TimedOp :=
  [(.ofSecond 0, .register ⟨"a", "10.0.0.1:1080", 10, 1000⟩), (.ofSecond 1, .applyHeartbeat ⟨"a", 3, 10, 20, 5, 100⟩),
    (.ofSecond 2, .adjustActive "a" 1), (.ofSecond 3, .accumulateBytes "a" 7 8), (.ofSecond 4, .setDraining "b")]

theorem countedOps_refines : RefinesMap (runMap countedOps fun _ => none) (Registers countedOps)
    (runOps countedOps .empty) := registry_refines_finite_map countedOps (by decide +kernel)

/-- The counts of a node are adjusted past the largest 64-bit integer. -/
def overflowOps : List TimedOp :=
  [(.ofSecond 0, .register ⟨"a", "10.0.0.1:1080", 10, 1000⟩), (.ofSecond 1, .adjustActive "a" 9223372036854775807),
    (.ofSecond 2, .adjustActive "a" 1)]

/-- One connection too many, and the table can no longer be listed. -/
theorem list_fails_after_overflow : ¬ RefinesMap (runMap overflowOps fun _ => none) (Registers overflowOps)
    (runOps overflowOps .empty) := by
  intro h
  obtain ⟨ns, hns, -⟩ := h.listing
  have herr : Registry.list (runOps overflowOps .empty).registry = .error (.columnDecode "active_connections") := by
    decide +kernel
  rw [herr] at hns
  cases hns

end RustProxy.ControlPlane
