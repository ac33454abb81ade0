import RustProxy.ControlPlane.FiniteMap

/-!
# The exact values of the counters

Byte counts are `u64` and pass through signed 64-bit columns: `as i64` on the way in, SQL addition there, `as u64` on
the way out. The casts are inverse to each other and the wrapping sum of the casts is the cast of the sum, so the values
read back are exact wherever the addition stays an integer.

It does not where a count below `2 ^ 63` is increased, by less than `2 ^ 63`, to `2 ^ 63` or more (`adds_iff`), although
the sum fits `u64`. `counters_exact_iff` says that this is all that goes wrong, for every mix of operations.
-/

namespace RustProxy.ControlPlane

open Lib

/-! ## Exact values -/

/-- The exact values of a node's counters. -/
structure Account where
  up : Nat
  down : Nat
  active : Nat
  deriving DecidableEq

/-- What an operation makes of the exact values at its id. -/
def Op.account : Op → Option Account → Option Account
  | .register _, a => some (a.getD ⟨0, 0, 0⟩)
  | .applyHeartbeat hb, a => a.map fun _ => ⟨hb.bytesUp.toNat, hb.bytesDown.toNat, hb.activeConnections.toNat⟩
  -- clamped at zero
  | .adjustActive _ delta, a => a.map fun a => { a with active := (a.active + delta.toInt).toNat }
  | .accumulateBytes _ up down, a => a.map fun a => { a with up := a.up + up.toNat, down := a.down + down.toNat }
  | _, a => a

abbrev Ledger := String → Option Account

def Op.onLedger (o : Op) (m : Ledger) : Ledger := fun id => if o.writes = some id then o.account (m id) else m id

/-- The exact values after a run from the empty registry. -/
def ledger (ops : List TimedOp) : Ledger := ops.foldl (fun m op => op.2.onLedger m) fun _ => none

theorem ledger_snoc (ops : List TimedOp) (op : TimedOp) : ledger (ops ++ [op]) = op.2.onLedger (ledger ops) := by
  simp [ledger]

/-- The values fit the fields of `Node`. -/
def Account.Within (a : Account) : Prop := a.up < 2 ^ 64 ∧ a.down < 2 ^ 64 ∧ a.active < 2 ^ 32

def Ledger.Within (m : Ledger) : Prop := ∀ id, ∀ a ∈ m id, a.Within

/-- `n` shows the exact values. -/
def Node.Shows (n : Node) (a : Account) : Prop :=
  n.bytesUp.toNat = a.up ∧ n.bytesDown.toNat = a.down ∧ n.activeConnections.toNat = a.active

/-- Every `get` and the listing succeed and return the exact values. -/
structure ReadsBack (m : Ledger) (s : Store) : Prop where
  get : ∀ id, ∃ found, Registry.get id s.registry = .ok found ∧ Option.Rel Node.Shows found (m id)
  list : ∃ ns, Registry.list s.registry = .ok ns ∧ (∀ n ∈ ns, ∃ a ∈ m n.id, n.Shows a) ∧
    ∀ id, (m id).isSome → ∃ n ∈ ns, n.id = id

/-! ## Counts as columns -/

/-- A count goes from below the sign bit to it or past it, by an increase below it. -/
def Crosses (count increase : Nat) : Prop := count < 2 ^ 63 ∧ increase < 2 ^ 63 ∧ 2 ^ 63 ≤ count + increase

instance (count increase : Nat) : Decidable (Crosses count increase) := inferInstanceAs (Decidable (_ ∧ _))

theorem toInt_toInt64 (u : UInt64) :
    (u.toNat < 2 ^ 63 ∧ u.toInt64.toInt = u.toNat) ∨ (2 ^ 63 ≤ u.toNat ∧ u.toInt64.toInt = u.toNat - 2 ^ 64) := by
  have hbits : u.toInt64.toInt = u.toBitVec.toInt := rfl
  have hnat : u.toBitVec.toNat = u.toNat := rfl
  rw [hbits, BitVec.toInt_eq_toNat_cond, hnat]
  split
  · left
    omega
  · right
    omega

/-- **When an increase of a count overflows.** -/
theorem adds_iff {u inc : UInt64} (hsum : u.toNat + inc.toNat < 2 ^ 64) :
    (Cell.ofU64 u).Adds inc.toInt64 ↔ ¬ Crosses u.toNat inc.toNat := by
  have hu := toInt_toInt64 u
  have hinc := toInt_toInt64 inc
  simp only [Cell.ofU64, Cell.Adds, Crosses]
  omega

theorem ofU64_add {u inc : UInt64} (h : (Cell.ofU64 u).Adds inc.toInt64) :
    (Cell.ofU64 u).add inc.toInt64 = .ofU64 (u + inc) := by
  rw [Cell.ofU64, Cell.add_of_adds h, Cell.ofU64, UInt64.toInt64_add]

theorem ofU64_add_real {u inc : UInt64} (h : ¬ (Cell.ofU64 u).Adds inc.toInt64) :
    (Cell.ofU64 u).add inc.toInt64 = .real := if_neg h

theorem toInt_ofU32 {a : Nat} (ha : a < 2 ^ 32) : (UInt32.ofNat a).toUInt64.toInt64.toInt = a := by
  have hnat : (UInt32.ofNat a).toUInt64.toNat = a := by
    rw [UInt32.toNat_toUInt64, UInt32.toNat_ofNat_of_lt' ha]
  have h := toInt_toInt64 (UInt32.ofNat a).toUInt64
  rw [hnat] at h
  omega

theorem toInt_add_of_adds {v d : Int64} (h : (Cell.integer v).Adds d) : (v + d).toInt = v.toInt + d.toInt := by
  obtain ⟨hlo, hhi⟩ := h
  rw [Int64.toInt_add]
  exact Int.bmod_eq_of_le (by omega) (by omega)

/-- An adjusted count is exact as long as it fits `u32`; then nothing overflows. -/
theorem adds_active {a : Nat} {delta : Int64} (ha : a < 2 ^ 32) (hsum : (a + delta.toInt).toNat < 2 ^ 32) :
    (Cell.ofU32 (.ofNat a)).Adds delta := by
  have hv := toInt_ofU32 ha
  have hlo := delta.le_toInt
  simp only [Cell.ofU32, Cell.Adds]
  omega

theorem max0_add_active {a : Nat} {delta : Int64} (ha : a < 2 ^ 32) (hsum : (a + delta.toInt).toNat < 2 ^ 32) :
    ((Cell.ofU32 (.ofNat a)).add delta).max0 = .ofU32 (.ofNat (a + delta.toInt).toNat) := by
  have hadds := adds_active ha hsum
  have hsumInt := toInt_add_of_adds hadds
  rw [toInt_ofU32 ha] at hsumInt
  rw [Cell.ofU32, Cell.add_of_adds hadds, Cell.max0, Cell.ofU32]
  congr 1
  rw [← Int64.toInt_inj, toInt_ofU32 hsum]
  split
  · next hpos =>
    rw [Int64.le_iff_toInt_le, hsumInt] at hpos
    have hzero : (0 : Int64).toInt = 0 := rfl
    omega
  · next hneg =>
    rw [Int64.le_iff_toInt_le, hsumInt] at hneg
    have hzero : (0 : Int64).toInt = 0 := rfl
    omega

/-! ## The columns track the exact values -/

/-- The columns are the casts of the exact values. -/
structure Row.Holds (row : Row) (a : Account) : Prop where
  up : row.bytesUp = .ofU64 (.ofNat a.up)
  down : row.bytesDown = .ofU64 (.ofNat a.down)
  active : row.activeConnections = .ofU32 (.ofNat a.active)

def Tracks (m : Ledger) (s : Store) : Prop := ∀ id, Option.Rel Row.Holds (s.registry.find? id) (m id)

/-- The operation takes a byte count across the sign bit. -/
def Op.Crosses (m : Ledger) : Op → Prop
  | .accumulateBytes id up down =>
    ∃ a ∈ m id, ControlPlane.Crosses a.up up.toNat ∨ ControlPlane.Crosses a.down down.toNat
  | _ => False

/-- What is tracked at one id: a row and its exact values, or neither. -/
theorem Tracks.found {m : Ledger} {s : Store} (h : Tracks m s) {id : String} {row : Row}
    (hrow : s.registry.find? id = some row) : ∃ a, m id = some a ∧ row.Holds a := by
  have hrel := h id
  rw [hrow] at hrel
  cases hm : m id with
  | none => rw [hm] at hrel; cases hrel
  | some a =>
    rw [hm] at hrel
    cases hrel with
    | some hholds => exact ⟨a, rfl, hholds⟩

theorem Op.onLedger_self {o : Op} {id : String} (hw : o.writes = some id) (m : Ledger) :
    o.onLedger m id = o.account (m id) := if_pos hw

theorem adds_count_iff {count : Nat} {inc : UInt64} (hsum : count + inc.toNat < 2 ^ 64) :
    (Cell.ofU64 (.ofNat count)).Adds inc.toInt64 ↔ ¬ Crosses count inc.toNat := by
  have hcount : (UInt64.ofNat count).toNat = count := UInt64.toNat_ofNat_of_lt' (by change count < 2 ^ 64; omega)
  rw [adds_iff (by rw [hcount]; exact hsum), hcount]

section Step

variable {o : Op} {m : Ledger} {s : Store}

/-- Within the field types, only a crossing overflows. -/
theorem fits_of_not_crosses (ht : Tracks m s) (hin : m.Within) (hout : (o.onLedger m).Within)
    (hc : ¬ o.Crosses m) : o.Fits s := by
  cases o with
  | adjustActive id delta =>
    intro row hrow
    obtain ⟨a, ha, hholds⟩ := ht.found hrow
    have hafter := hout id { a with active := (a.active + delta.toInt).toNat }
      (by rw [Op.onLedger_self rfl, ha]; rfl)
    rw [hholds.active]
    exact adds_active (hin id a ha).2.2 hafter.2.2
  | accumulateBytes id up down =>
    intro row hrow
    obtain ⟨a, ha, hholds⟩ := ht.found hrow
    have hafter := hout id { a with up := a.up + up.toNat, down := a.down + down.toNat }
      (by rw [Op.onLedger_self rfl, ha]; rfl)
    rw [hholds.up, hholds.down]
    constructor
    · exact (adds_count_iff hafter.1).mpr fun h => hc ⟨a, ha, .inl h⟩
    · exact (adds_count_iff hafter.2.1).mpr fun h => hc ⟨a, ha, .inr h⟩
  | _ => trivial

theorem add_count {c : Cell} {count : Nat} {inc : UInt64} (hcell : c = .ofU64 (.ofNat count))
    (hadds : c.Adds inc.toInt64) : c.add inc.toInt64 = .ofU64 (.ofNat (count + inc.toNat)) := by
  subst hcell
  rw [ofU64_add hadds, UInt64.ofNat_add, UInt64.ofNat_toNat]

/-- The row an operation leaves holds the exact values it leaves. -/
theorem holds_rowAfter {id : String} (hw : o.writes = some id) (hfit : o.Fits s) (hin : m.Within)
    (hout : (o.onLedger m).Within) (ht : Tracks m s) (now : DateTime) :
    Option.Rel Row.Holds (o.rowAfter now (s.registry.find? id)) (o.account (m id)) := by
  have hrel := ht id
  have hafter := hout id
  rw [Op.onLedger_self hw] at hafter
  cases hrow : s.registry.find? id with
  | none =>
    rw [hrow] at hrel
    cases hm : m id with
    | some a => rw [hm] at hrel; cases hrel
    | none =>
      cases o with
      | register req => exact .some ⟨rfl, rfl, rfl⟩
      | _ => exact .none
  | some row =>
    obtain ⟨a, ha, hholds⟩ := ht.found hrow
    rw [ha] at hafter ⊢
    cases o with
    | get id' => cases hw
    | list => cases hw
    | reserve nodeId limit rate => cases hw
    | register req => exact .some ⟨hholds.up, hholds.down, hholds.active⟩
    | applyHeartbeat hb =>
      refine .some ⟨?_, ?_, ?_⟩
      · exact congrArg Cell.ofU64 UInt64.ofNat_toNat.symm
      · exact congrArg Cell.ofU64 UInt64.ofNat_toNat.symm
      · exact congrArg Cell.ofU32 UInt32.ofNat_toNat.symm
    | setDraining id' => exact .some ⟨hholds.up, hholds.down, hholds.active⟩
    | markOffline id' => exact .some ⟨hholds.up, hholds.down, hholds.active⟩
    | setState id' state => exact .some ⟨hholds.up, hholds.down, hholds.active⟩
    | adjustActive id' delta =>
      refine .some ⟨hholds.up, hholds.down, ?_⟩
      change (row.activeConnections.add delta).max0 = _
      rw [hholds.active]
      exact max0_add_active (hin id a ha).2.2 (hafter _ rfl).2.2
    | accumulateBytes id' up down =>
      cases hw
      obtain ⟨hup, hdown⟩ := hfit row hrow
      exact .some ⟨add_count hholds.up hup, add_count hholds.down hdown, hholds.active⟩

/-- **Step.** An operation that crosses nothing keeps the columns exact. -/
theorem tracks_exec (ht : Tracks m s) (hin : m.Within) (hout : (o.onLedger m).Within) (hc : ¬ o.Crosses m)
    (now : DateTime) : Tracks (o.onLedger m) (o.exec now s).2 := by
  intro id
  rw [Op.find?_exec, Op.onLedger]
  split
  · next hw => exact holds_rowAfter hw (fits_of_not_crosses ht hin hout hc) hin hout ht now
  · exact ht id

end Step

/-- Every prefix of the run leaves exact values that fit the fields of `Node`. -/
def StaysWithin (ops : List TimedOp) : Prop := ∀ pre post, ops = pre ++ post → (ledger pre).Within

/-- No step of the run takes a byte count across the sign bit. -/
def NeverCrosses (ops : List TimedOp) : Prop :=
  ∀ pre now o post, ops = pre ++ (now, o) :: post → ¬ o.Crosses (ledger pre)

/-- **Run.** The columns stay exact, and readable, as long as nothing crosses. -/
theorem tracks_runOps {ops : List TimedOp} (hin : StaysWithin ops) (hc : NeverCrosses ops) :
    Tracks (ledger ops) (runOps ops .empty) ∧ (runOps ops .empty).Readable := by
  induction ops using List.reverseRec with
  | nil => exact ⟨fun _ => .none, readable_empty⟩
  | append_singleton ops op ih =>
    obtain ⟨now, o⟩ := op
    have hin' : StaysWithin ops := by
      intro pre post hops
      exact hin pre (post ++ [(now, o)]) (by rw [hops, List.append_assoc])
    have hc' : NeverCrosses ops := by
      intro pre now' o' post hops
      exact hc pre now' o' (post ++ [(now, o)]) (by rw [hops, List.append_assoc, List.cons_append])
    obtain ⟨ht, hread⟩ := ih hin' hc'
    have hbefore := hin ops [(now, o)] rfl
    have hafter := hin (ops ++ [(now, o)]) [] (List.append_nil _).symm
    have hstep := hc ops now o [] rfl
    rw [ledger_snoc] at hafter ⊢
    rw [runOps_append]
    exact ⟨tracks_exec ht hbefore hafter hstep now,
      readable_exec (fits_of_not_crosses ht hbefore hafter hstep) hread now⟩

/-! ## Reading the values -/

theorem toUInt64_of_ofU64 {v : Int64} {count : Nat} (h : Cell.integer v = .ofU64 (.ofNat count))
    (hcount : count < 2 ^ 64) : v.toUInt64.toNat = count := by
  cases h
  rw [toInt64_toUInt64]
  exact UInt64.toNat_ofNat_of_lt' hcount

theorem shows_of_holds {row : Row} {n : Node} {a : Account} (hdec : Decodes row n) (hholds : row.Holds a)
    (hin : a.Within) : n.Shows a := by
  obtain ⟨u, hu, hu'⟩ := hdec.bytesUp
  obtain ⟨d, hd, hd'⟩ := hdec.bytesDown
  obtain ⟨v, hv, hv'⟩ := hdec.activeConnections
  refine ⟨?_, ?_, ?_⟩
  · rw [← hu']
    exact toUInt64_of_ofU64 (hu.symm.trans hholds.up) hin.1
  · rw [← hd']
    exact toUInt64_of_ofU64 (hd.symm.trans hholds.down) hin.2.1
  · have hactive := hv.symm.trans hholds.active
    cases hactive
    rw [← hv', toUInt32_ofU32]
    exact UInt32.toNat_ofNat_of_lt' hin.2.2

/-- Exact columns that can be read are read back exactly. -/
theorem readsBack_of_tracks {m : Ledger} {s : Store} (ht : Tracks m s) (hread : s.Readable) (hin : m.Within) :
    ReadsBack m s := by
  have hshows : ∀ {id : String} {row : Row} {n : Node}, s.registry.find? id = some row → Decodes row n →
      ∃ a ∈ m id, n.Shows a := by
    intro id row n hrow hdec
    obtain ⟨a, ha, hholds⟩ := ht.found hrow
    exact ⟨a, ha, shows_of_holds hdec hholds (hin id a ha)⟩
  obtain ⟨ns, hns⟩ := hread.list
  refine ⟨fun id => ?_, ns, hns, fun n hn => ?_, fun id hid => ?_⟩
  · have hrel := ht id
    cases hrow : s.registry.find? id with
    | none =>
      rw [hrow] at hrel
      refine ⟨none, by rw [Registry.get, hrow], ?_⟩
      cases hm : m id with
      | none => exact .none
      | some a => rw [hm] at hrel; cases hrel
    | some row =>
      obtain ⟨n, hn⟩ := hread id row hrow
      obtain ⟨a, ha, hna⟩ := hshows hrow hn
      refine ⟨some n, Registry.get_of_decodes hrow hn, ?_⟩
      rw [Option.mem_def.mp ha]
      exact .some hna
  · obtain ⟨row, hrow, hdec⟩ := Registry.list_mem hns hn
    exact hshows hrow (Decodes.of_ok hdec)
  · rw [mem_list_iff hns]
    have hrel := ht id
    cases hrow : s.registry.find? id with
    | none =>
      rw [hrow] at hrel
      cases hm : m id with
      | none => rw [hm] at hid; cases hid
      | some a => rw [hm] at hrel; cases hrel
    | some row => rfl

/-- What is read back is what the columns hold. -/
theorem ReadsBack.found {m : Ledger} {s : Store} (h : ReadsBack m s) {id : String} {a : Account} (ha : m id = some a) :
    ∃ row, s.registry.find? id = some row ∧ row.Readable ∧ row.bytesUp = .ofU64 (.ofNat a.up) ∧
      row.bytesDown = .ofU64 (.ofNat a.down) := by
  obtain ⟨found, hget, hrel⟩ := h.get id
  rw [ha] at hrel
  cases hrel with
  | @some n _ hshows =>
    obtain ⟨row, hrow, hdec⟩ := Registry.get_some hget
    have hdec := Decodes.of_ok hdec
    obtain ⟨u, hu, hu'⟩ := hdec.bytesUp
    obtain ⟨d, hd, hd'⟩ := hdec.bytesDown
    refine ⟨row, hrow, ⟨n, hdec⟩, ?_, ?_⟩
    · rw [hu, ← hshows.1, ← hu', UInt64.ofNat_toNat, Cell.ofU64, Int64.toInt64_toUInt64]
    · rw [hd, ← hshows.2.1, ← hd', UInt64.ofNat_toNat, Cell.ofU64, Int64.toInt64_toUInt64]

theorem add_crossing {count : Nat} {inc : UInt64} (hsum : count + inc.toNat < 2 ^ 64)
    (h : Crosses count inc.toNat) : (Cell.ofU64 (.ofNat count)).add inc.toInt64 = .real :=
  ofU64_add_real fun hadds => (adds_count_iff hsum).mp hadds h

/-- After a crossing, the row can no longer be read. -/
theorem not_readsBack_of_crosses {o : Op} {m : Ledger} {s : Store} (h : ReadsBack m s)
    (hout : (o.onLedger m).Within) (hc : o.Crosses m) (now : DateTime) :
    ¬ ReadsBack (o.onLedger m) (o.exec now s).2 := by
  intro hafter
  cases o with
  | accumulateBytes id up down =>
    obtain ⟨a, ha, hcross⟩ := hc
    have hm' : (Op.accumulateBytes id up down).onLedger m id =
        some { a with up := a.up + up.toNat, down := a.down + down.toNat } := by
      rw [Op.onLedger_self rfl, Option.mem_def.mp ha]
      rfl
    have hin' := hout id _ hm'
    obtain ⟨row, hrow, -, hup, hdown⟩ := h.found ha
    obtain ⟨row', hrow', ⟨n, hn⟩, -, -⟩ := hafter.found hm'
    rw [Op.find?_exec_self rfl, hrow] at hrow'
    cases hrow'
    rcases hcross with hcross | hcross
    · obtain ⟨u, hu, -⟩ := hn.bytesUp
      have hreal := add_crossing hin'.1 hcross
      rw [← hup] at hreal
      cases hreal.symm.trans hu
    · obtain ⟨d, hd, -⟩ := hn.bytesDown
      have hreal := add_crossing hin'.2.1 hcross
      rw [← hdown] at hreal
      cases hreal.symm.trans hd
  | _ => exact hc

/-- **Exact counters.** Among the runs whose exact values fit the fields of `Node`, every read after every step is exact
in exactly those that never take a byte count across the sign bit by an increase below it. -/
theorem counters_exact_iff (ops : List TimedOp) (hin : StaysWithin ops) :
    (∀ pre post, ops = pre ++ post → ReadsBack (ledger pre) (runOps pre .empty)) ↔ NeverCrosses ops := by
  constructor
  · intro hreads pre now o post hops hc
    have hbefore := hreads pre ((now, o) :: post) hops
    have hops' : ops = (pre ++ [(now, o)]) ++ post := by rw [hops, List.append_assoc]; rfl
    have hafter := hreads _ post hops'
    have hout := hin _ post hops'
    rw [ledger_snoc] at hafter hout
    rw [runOps_append] at hafter
    exact not_readsBack_of_crosses hbefore hout hc now hafter
  · intro hc pre post hops
    have hin' : StaysWithin pre := by
      intro pre' post' hpre
      exact hin pre' (post' ++ post) (by rw [hops, hpre, List.append_assoc])
    have hc' : NeverCrosses pre := by
      intro pre' now o post' hpre
      exact hc pre' now o (post' ++ post) (by rw [hops, hpre, List.append_assoc, List.cons_append])
    obtain ⟨ht, hread⟩ := tracks_runOps hin' hc'
    exact readsBack_of_tracks ht hread (hin pre post hops)

/-! ## Runs on one node -/

instance : DecidablePred Account.Within := fun _ => inferInstanceAs (Decidable (_ ∧ _))

instance (m : Ledger) : DecidablePred (Op.Crosses m)
  | .accumulateBytes .. => inferInstanceAs (Decidable (∃ a ∈ (_ : Option Account), _))
  | .register _ | .get _ | .list | .applyHeartbeat _ | .setDraining _ | .markOffline _ | .setState .. | .adjustActive ..
  | .reserve .. => inferInstanceAs (Decidable False)

theorem ledger_of_ne {ops : List TimedOp} {id id' : String} (h : ∀ op ∈ ops, op.2.writes = some id) (hne : id ≠ id') :
    ledger ops id' = none := by
  induction ops using List.reverseRec with
  | nil => rfl
  | append_singleton ops op ih =>
    rw [ledger_snoc, Op.onLedger, h op (by simp), if_neg (by simpa using hne)]
    exact ih fun op' hop' => h op' (List.mem_append_left _ hop')

/-- A run on one node is checked prefix by prefix. -/
theorem staysWithin_of_take {ops : List TimedOp} (id : String) (hid : ∀ op ∈ ops, op.2.writes = some id)
    (h : ∀ k ≤ ops.length, ∀ a ∈ ledger (ops.take k) id, a.Within) : StaysWithin ops := by
  intro pre post hops id' a ha
  by_cases hne : id = id'
  · subst hne
    have htake : ops.take pre.length = pre := by rw [hops, List.take_left]
    exact h pre.length (by simp [hops]) a (by rw [htake]; exact ha)
  · have hnone := ledger_of_ne (fun op hop => hid op (hops ▸ List.mem_append_left _ hop)) hne
    rw [hnone] at ha
    cases ha

theorem neverCrosses_of_take {ops : List TimedOp}
    (h : ∀ k < ops.length, ∀ op ∈ ops[k]?, ¬ op.2.Crosses (ledger (ops.take k))) : NeverCrosses ops := by
  intro pre now o post hops
  have htake : ops.take pre.length = pre := by rw [hops, List.take_left]
  have hc := h pre.length (by simp [hops]) (now, o) (by simp [hops])
  rwa [htake] at hc

/-- Counts past the sign bit, reached by an increase past it, and connections clamped at zero. -/
def exactOps : List TimedOp :=
  [(.ofSecond 0, .register ⟨"a", "10.0.0.1:1080", 10, 1000⟩), (.ofSecond 1, .applyHeartbeat ⟨"a", 3, 5, 20, 5, 100⟩),
    (.ofSecond 2, .accumulateBytes "a" 9223372036854775808 0), (.ofSecond 3, .adjustActive "a" (-100)),
    (.ofSecond 4, .accumulateBytes "a" 7 8)]

theorem exactOps_readsBack : ReadsBack (ledger exactOps) (runOps exactOps .empty) :=
  (counters_exact_iff exactOps (staysWithin_of_take "a" (by decide) (by decide +kernel))).mpr
    (neverCrosses_of_take (by decide +kernel)) exactOps [] (List.append_nil _).symm

/-- Nearly `2 ^ 63` bytes, and then one more. -/
def crossingOps : List TimedOp :=
  [(.ofSecond 0, .register ⟨"a", "10.0.0.1:1080", 10, 1000⟩), (.ofSecond 1, .accumulateBytes "a" 9223372036854775807 0),
    (.ofSecond 2, .accumulateBytes "a" 1 0)]

/-- The exact count is `2 ^ 63`, which fits `u64`, and neither read succeeds. -/
theorem crossing_count_unreadable : StaysWithin crossingOps ∧ ledger crossingOps "a" = some ⟨2 ^ 63, 0, 0⟩ ∧
    Registry.get "a" (runOps crossingOps .empty).registry = .error (.columnDecode "bytes_up") ∧
    Registry.list (runOps crossingOps .empty).registry = .error (.columnDecode "bytes_up") :=
  ⟨staysWithin_of_take "a" (by decide) (by decide +kernel), by decide +kernel, by decide +kernel, by decide +kernel⟩

end RustProxy.ControlPlane
