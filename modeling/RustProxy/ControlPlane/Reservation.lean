import RustProxy.ControlPlane.Admission
import RustProxy.ControlPlane.Selection
import RustProxy.ControlPlane.Sweep

/-!
# Selection with bandwidth

One call of `select_with_bandwidth` on any table and any allocators.

The loop grants the first candidate that has room (`run_reserveLoop`): the nodes it passes over keep their counters, and
since no id is listed twice they do not take room from the ones behind them. In the stable sort by score that candidate
is the first best of the selectable nodes with room. As with the sweep, only a row that cannot be decoded keeps the call
from finding it (`reserves_best_iff`).
-/

namespace RustProxy.ControlPlane

open Lib

/-! ## Room -/

/-- The allocator of a node, cached or new, has room for the node's share. -/
def Store.hasRoom (s : Store) (n : Node) : Bool :=
  (s.allocator n.id n.bandwidthLimit).reserved.toNat + (ControlPlaneService.share n).toNat ≤
    (s.allocator n.id n.bandwidthLimit).limit.toNat

/-- What a selection of `n` returns. -/
def grantFor (n : Node) : SelectedNode := ⟨n, n.id, ControlPlaneService.share n⟩

/-- `n` has been granted its share: its counter has grown by it, the others are as they were, and so are all of them
once the guard is dropped. -/
structure Granted (n : Node) (s s' : Store) : Prop where
  counted : ∀ id, s'.reservedFor id = s.reservedFor id + if id = n.id then (ControlPlaneService.share n).toNat else 0
  restored : ∀ id, (s'.release (grantFor n).guard).reservedFor id = s.reservedFor id

section Room

variable {s : Store} {n m : Node}

/-- A new allocator counts from where an absent one is taken to stand. -/
theorem Store.reserved_allocator (s : Store) (id : String) (limit : UInt64) :
    (s.allocator id limit).reserved.toNat = s.reservedFor id := by
  rw [Store.allocator, Store.reservedFor]
  cases s.allocators id <;> rfl

theorem reserveFor_room (now : DateTime) (h : s.hasRoom n = true) :
    ∃ s', (reserveFor n).exec now s = (some (grantFor n).guard, s') ∧ Granted n s s' := by
  have hroom := of_decide_eq_true h
  have hout := reserveFor_outcome now n s
  generalize (reserveFor n).exec now s = r at hout
  cases hout with
  | refused hfull => exact absurd hroom (Nat.not_le.mpr hfull)
  | @granted a _ hcount _ =>
    rw [s.reserved_allocator] at hcount
    refine ⟨_, rfl, fun id => ?_, fun id => ?_⟩
    · rw [Store.reservedFor_setAllocator]
      split
      · next hid => rw [hid, hcount]
      · rfl
    · have halloc : (s.setAllocator n.id a).allocators n.id = some a := Function.update_self ..
      have hle : ControlPlaneService.share n ≤ a.reserved := by
        rw [UInt64.le_iff_toNat_le]
        omega
      rw [grantFor, Store.release, halloc, Store.reservedFor_setAllocator, Store.reservedFor_setAllocator]
      split
      · next hid =>
        rw [hid, BandwidthAllocator.release, UInt64.toNat_sub_of_le _ _ hle, hcount, Nat.add_sub_cancel]
      · rfl

/-- A refusal changes no counter, and no other node's room. -/
theorem reserveFor_full (now : DateTime) (h : s.hasRoom m = false) :
    ∃ s', (reserveFor m).exec now s = (none, s') ∧ (∀ id, s'.reservedFor id = s.reservedFor id) ∧
      ∀ n, n.id ≠ m.id → s'.hasRoom n = s.hasRoom n := by
  have hfull := of_decide_eq_false h
  have hout := reserveFor_outcome now m s
  generalize (reserveFor m).exec now s = r at hout
  cases hout with
  | granted hlimit hcount hle =>
    rw [UInt64.le_iff_toNat_le, hlimit, hcount] at hle
    exact absurd hle hfull
  | refused _ =>
    refine ⟨_, rfl, fun id => ?_, fun n hne => ?_⟩
    · rw [Store.reservedFor_setAllocator]
      split
      · next hid => rw [hid, s.reserved_allocator]
      · rfl
    · have halloc : (s.setAllocator m.id (s.allocator m.id m.bandwidthLimit)).allocators n.id = s.allocators n.id :=
        Function.update_of_ne hne ..
      rw [Store.hasRoom, Store.allocator, halloc]
      rfl

end Room

/-! ## The loop -/

/-- **The loop** grants the first node with room its share, and else leaves every counter as it was. -/
theorem run_reserveLoop (now : DateTime) {nodes : List Node} (hids : (nodes.map Node.id).Nodup) (s : Store) :
    ∃ s', (ControlPlaneService.reserveLoop nodes).run (Op.exec now) s =
        (.ok ((nodes.find? s.hasRoom).map grantFor), s') ∧
      match nodes.find? s.hasRoom with
      | some n => Granted n s s'
      | none => ∀ id, s'.reservedFor id = s.reservedFor id := by
  induction nodes generalizing s with
  | nil => exact ⟨s, rfl, fun _ => rfl⟩
  | cons m nodes ih =>
    obtain ⟨hm, hids⟩ := List.nodup_cons.mp hids
    rw [run_reserveLoop_cons]
    cases hroom : s.hasRoom m with
    | true =>
      obtain ⟨s', hexec, hgranted⟩ := reserveFor_room now hroom
      rw [hexec, List.find?_cons_of_pos hroom]
      exact ⟨s', rfl, hgranted⟩
    | false =>
      obtain ⟨s₁, hexec, hcount, hother⟩ := reserveFor_full now hroom
      -- the nodes behind have other ids, so the same ones have room
      have hfind : nodes.find? s₁.hasRoom = nodes.find? s.hasRoom :=
        List.find?_congr fun n hn => hother n fun hid => hm (hid ▸ List.mem_map_of_mem hn)
      obtain ⟨s', hrun, hspec⟩ := ih hids s₁
      rw [hexec, List.find?_cons_of_neg (by simp [hroom])]
      rw [hfind] at hrun hspec
      refine ⟨s', hrun, ?_⟩
      cases hres : nodes.find? s.hasRoom with
      | none =>
        rw [hres] at hspec
        exact fun id => (hspec id).trans (hcount id)
      | some n =>
        rw [hres] at hspec
        refine ⟨fun id => ?_, fun id => ?_⟩
        · rw [hspec.counted, hcount]
        · rw [hspec.restored, hcount]

/-! ## The call -/

/-- The nodes of the table, without the rows that cannot be decoded. -/
def Store.nodes (s : Store) : List Node := s.registry.rows.filterMap fun row => (rowIntoNode row).toOption

/-- The selectable nodes with room, in list order. -/
def Store.candidates (s : Store) : List Node := (eligible s.nodes).filter s.hasRoom

theorem nodes_of_list {s : Store} {ns : List Node} (h : Registry.list s.registry = .ok ns) : s.nodes = ns := by
  unfold Store.nodes
  have hall := Registry.forall₂_of_mapM h
  clear h
  generalize s.registry.rows = rows at hall
  induction hall with
  | nil => rfl
  | cons hn _ ih => rw [List.filterMap_cons, hn, ih]; rfl

section Call

variable {s : Store}

/-- The candidates of the loop have different ids. -/
theorem nodup_ids_sortByScore {ns : List Node} (h : Registry.list s.registry = .ok ns) (w : ScoreWeights) :
    ((sortByScore w (eligible ns)).map Node.id).Nodup := by
  have hperm : (sortByScore w (eligible ns)).Perm (eligible ns) := List.perm_insertionSort _ _
  rw [(hperm.map Node.id).nodup_iff]
  have hordered := (Registry.list_ordered h).filter Node.isSelectable
  rw [List.Nodup, List.pairwise_map]
  exact hordered.imp fun hlt => hlt.ne

/-- The first node with room, by decreasing score and list order. -/
theorem find?_sortByScore (s : Store) (w : ScoreWeights) (ns : List Node) :
    ((sortByScore w (eligible ns)).find? s.hasRoom).elim ((eligible ns).filter s.hasRoom = [])
      (FirstBest (score · w) ((eligible ns).filter s.hasRoom)) :=
  find?_insertionSort (score · w) s.hasRoom (eligible ns)

/-- What the call does on a table that can be read. -/
theorem select_of_readable (svc : ControlPlaneService) (now : DateTime) (hread : s.Readable) :
    ∃ o s', Call.run svc now .selectWithBandwidth s = (.ok (.selected (o.map grantFor)), s') ∧
      match o with
      | some n => FirstBest (score · svc.weights) s.candidates n ∧ Granted n s s'
      | none => s.candidates = [] ∧ ∀ id, s'.reservedFor id = s.reservedFor id := by
  obtain ⟨ns, hlist⟩ := hread.list
  have hbest := find?_sortByScore s svc.weights ns
  obtain ⟨s', hrun, hspec⟩ := run_reserveLoop now (nodup_ids_sortByScore hlist svc.weights) s
  refine ⟨(sortByScore svc.weights (eligible ns)).find? s.hasRoom, s', ?_, ?_⟩
  · rw [eligible] at hrun
    rw [run_selectWithBandwidth, hlist]
    dsimp only
    rw [hrun]
    rfl
  · rw [Store.candidates, nodes_of_list hlist]
    cases hfind : (sortByScore svc.weights (eligible ns)).find? s.hasRoom with
    | none =>
      rw [hfind] at hbest hspec
      exact ⟨hbest, hspec⟩
    | some n =>
      rw [hfind] at hbest hspec
      exact ⟨hbest, hspec⟩

/-- What the call is for. -/
structure ReservesBest (svc : ControlPlaneService) (now : DateTime) (s : Store) : Prop where
  /-- It returns a node exactly if some selectable node has room. -/
  found : (∃ sel, (Call.run svc now .selectWithBandwidth s).1 = .ok (.selected (some sel))) ↔
    ∃ n ∈ s.nodes, n.isSelectable = true ∧ s.hasRoom n = true
  /-- That node is the first best of those, and is granted its share. -/
  granted : ∀ sel, (Call.run svc now .selectWithBandwidth s).1 = .ok (.selected (some sel)) →
    FirstBest (score · svc.weights) s.candidates sel.node ∧ sel = grantFor sel.node ∧
      Granted sel.node s (Call.run svc now .selectWithBandwidth s).2
  /-- Otherwise no counter changes. -/
  refused : (Call.run svc now .selectWithBandwidth s).1 = .ok (.selected none) →
    ∀ id, (Call.run svc now .selectWithBandwidth s).2.reservedFor id = s.reservedFor id

theorem candidates_eq_nil_iff : s.candidates = [] ↔ ¬ ∃ n ∈ s.nodes, n.isSelectable = true ∧ s.hasRoom n = true := by
  rw [Store.candidates, List.filter_eq_nil_iff]
  constructor
  · rintro h ⟨n, hn, hsel, hroom⟩
    exact h n (mem_eligible.mpr ⟨hn, hsel⟩) hroom
  · intro h n hn hroom
    obtain ⟨hn, hsel⟩ := mem_eligible.mp hn
    exact h ⟨n, hn, hsel, hroom⟩

/-- **Selection with bandwidth.** The call returns the first best of the selectable nodes with room, if there is one,
grants exactly its share and changes no other counter, if and only if every row of the table can be decoded or there is
no such node. -/
theorem reserves_best_iff (svc : ControlPlaneService) (now : DateTime) (s : Store) :
    ReservesBest svc now s ↔ s.Readable ∨ ¬ ∃ n ∈ s.nodes, n.isSelectable = true ∧ s.hasRoom n = true := by
  by_cases hread : s.Readable
  · refine iff_of_true ?_ (.inl hread)
    obtain ⟨o, s', hrun, hspec⟩ := select_of_readable svc now hread
    refine ⟨?_, ?_, ?_⟩
    all_goals rw [hrun]
    · cases o with
      | none => exact iff_of_false (by rintro ⟨sel, ⟨⟩⟩) (candidates_eq_nil_iff.mp hspec.1)
      | some n =>
        refine iff_of_true ⟨grantFor n, rfl⟩ ?_
        obtain ⟨hn, hroom⟩ := List.mem_filter.mp hspec.1.mem
        obtain ⟨hn, hsel⟩ := mem_eligible.mp hn
        exact ⟨n, hn, hsel, hroom⟩
    · rintro sel hsel
      cases o with
      | none => cases hsel
      | some n =>
        cases hsel
        exact ⟨hspec.1, rfl, hspec.2⟩
    · intro hnone
      cases o with
      | none => exact hspec.2
      | some n => cases hnone
  · have hrun : ∃ e, Call.run svc now .selectWithBandwidth s = (.error e, s) := by
      rw [run_selectWithBandwidth]
      cases hlist : Registry.list s.registry with
      | ok ns => exact absurd (readable_iff_list.mpr ⟨ns, hlist⟩) hread
      | error e => exact ⟨e, rfl⟩
    obtain ⟨e, hrun⟩ := hrun
    constructor
    · rintro ⟨hfound, -, -⟩
      rw [hrun] at hfound
      exact .inr fun h => by cases (hfound.mpr h).choose_spec
    · rintro (h | h)
      · exact absurd h hread
      · refine ⟨?_, ?_, ?_⟩
        all_goals rw [hrun]
        · exact iff_of_false (by rintro ⟨sel, ⟨⟩⟩) h
        · rintro sel ⟨⟩
        · rintro ⟨⟩

end Call

/-- Node `a` is selectable and has room, but the call fails at the row of `b`. -/
theorem selection_fails_beside_overflow :
    (∃ n ∈ overflownBeside.nodes, n.id = "a" ∧ n.isSelectable = true ∧ overflownBeside.hasRoom n = true) ∧
      (Call.run (.new .default) (.ofSecond 0) .selectWithBandwidth overflownBeside).1 =
        .error (.columnDecode "active_connections") := by
  refine ⟨by decide +kernel, by decide +kernel⟩

end RustProxy.ControlPlane
