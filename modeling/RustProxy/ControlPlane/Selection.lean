import RustProxy.Lib.Best
import RustProxy.ControlPlane.Routing

/-!
# Which node is selected

`HealthAwareSelector::select` filters the selectable nodes and takes the last of those with the greatest score
(`select_eq_some_iff`), whatever the module's documentation says about ties (`select_first_iff`).

The score is a product of factors that depend on the state, the latency and, twice, the share of the slots in use
(`score_eq`). It grows strictly as any of them gets better, so a node is never selected if another one dominates it
(`dominated_not_selected`). But the factors are bounded and can make up for each other: a node without a free slot is
selected as soon as the others are slow or degraded enough (`full_not_selected_iff`).
-/

namespace RustProxy.ControlPlane

open Lib

/-! ## The last of the best -/

theorem maxBy_eq_some_iff {α : Type} {key : α → ℚ} {xs : List α} {a : α} :
    maxBy key xs = some a ↔ LastBest key xs a := by
  cases xs with
  | nil =>
    refine iff_of_false (by simp [maxBy]) fun h => ?_
    cases h.mem
  | cons x xs =>
    have hbest := lastBest_foldl key x xs
    constructor
    · intro h
      cases h
      exact hbest
    · intro h
      exact congrArg some (hbest.unique h)

/-- The nodes that accept new work, in list order. -/
def eligible (nodes : List Node) : List Node := nodes.filter Node.isSelectable

theorem mem_eligible {nodes : List Node} {n : Node} : n ∈ eligible nodes ↔ n ∈ nodes ∧ n.isSelectable = true :=
  List.mem_filter

section Select

variable {w : ScoreWeights} {nodes : List Node} {a b : Node}

theorem select_eq_some_iff : HealthAwareSelector.select w nodes = some a ↔ LastBest (score · w) (eligible nodes) a :=
  maxBy_eq_some_iff

theorem select_eq_none_iff : HealthAwareSelector.select w nodes = none ↔ ∀ n ∈ nodes, n.isSelectable = false := by
  have hnil : HealthAwareSelector.select w nodes = none ↔ eligible nodes = [] := by
    unfold HealthAwareSelector.select eligible
    cases nodes.filter Node.isSelectable with
    | nil => simp [maxBy]
    | cons x xs => simp [maxBy]
  rw [hnil, eligible, List.filter_eq_nil_iff]
  simp

theorem exists_select (ha : a ∈ nodes) (hsel : a.isSelectable = true) :
    ∃ b, HealthAwareSelector.select w nodes = some b := by
  rw [← Option.isSome_iff_exists, Option.isSome_iff_ne_none]
  intro hnone
  rw [select_eq_none_iff.mp hnone a ha] at hsel
  cases hsel

/-- The first and the last of the best nodes are the same, as they are where only one node has the greatest score. -/
def Unopposed (w : ScoreWeights) (nodes : List Node) : Prop :=
  ∀ a b, FirstBest (score · w) (eligible nodes) a → LastBest (score · w) (eligible nodes) b → a = b

/-- **Ties.** No node is selected exactly if none is selectable; and the selected node is the first of those with the
greatest score, as documented, if and only if the first and the last of them are the same. -/
theorem select_first_iff (w : ScoreWeights) (nodes : List Node) :
    (HealthAwareSelector.select w nodes = none ↔ ∀ n ∈ nodes, n.isSelectable = false) ∧
      ((∀ a, HealthAwareSelector.select w nodes = some a → FirstBest (score · w) (eligible nodes) a) ↔
        Unopposed w nodes) := by
  refine ⟨select_eq_none_iff, ?_, ?_⟩
  · intro hfirst a b ha hb
    exact ha.unique (hfirst b (select_eq_some_iff.mpr hb))
  · intro hsame b hb
    have hlast := select_eq_some_iff.mp hb
    obtain ⟨a, ha⟩ := exists_firstBest (score · w) (List.ne_nil_of_mem hlast.mem)
    rwa [← hsame a b ha hlast]

end Select

/-- A node with no traffic and no heartbeat, for concrete lists. -/
def quietNode (id : String) (state : NodeState) (maxConnections activeConnections latencyMs : UInt32) : Node where
  id := id
  address := "127.0.0.1:1080"
  state := state
  lastHeartbeat := none
  maxConnections := maxConnections
  activeConnections := activeConnections
  bandwidthLimit := 1000
  bytesUp := 0
  bytesDown := 0
  latencyMs := latencyMs
  createdAt := DateTime.ofSecond 0
  updatedAt := DateTime.ofSecond 0

/-- Of two idle nodes that differ in nothing but their names, the second is selected. -/
theorem select_second_of_twins :
    HealthAwareSelector.select .default [quietNode "n1" .healthy 10 0 0, quietNode "n2" .healthy 10 0 0] =
        some (quietNode "n2" .healthy 10 0 0) ∧
      FirstBest (score · .default) (eligible [quietNode "n1" .healthy 10 0 0, quietNode "n2" .healthy 10 0 0])
        (quietNode "n1" .healthy 10 0 0) := by
  refine ⟨by decide +kernel, [], [quietNode "n2" .healthy 10 0 0], rfl, by simp, ?_⟩
  rw [List.forall_mem_singleton]
  decide +kernel

/-! ## What the score depends on -/

/-- How healthy a state is. -/
def NodeState.rank : NodeState → Nat
  | .healthy => 2
  | .degraded => 1
  | _ => 0

theorem healthFactor_eq (state : NodeState) : healthFactor state = (state.rank : ℚ) / 2 := by
  cases state <;> norm_num [healthFactor, NodeState.rank]

theorem healthFactor_le_iff {s t : NodeState} : healthFactor s ≤ healthFactor t ↔ s.rank ≤ t.rank := by
  rw [healthFactor_eq, healthFactor_eq, div_le_div_iff_of_pos_right two_pos, Nat.cast_le]

theorem healthFactor_lt_iff {s t : NodeState} : healthFactor s < healthFactor t ↔ s.rank < t.rank := by
  rw [← not_le, healthFactor_le_iff, not_le]

theorem healthFactor_pos {s : NodeState} (h : s.selectable = true) : 0 < healthFactor s := by
  cases s with
  | healthy | degraded => norm_num [healthFactor]
  | starting | draining | offline => cases h

theorem latencyFactor_pos (latency : UInt32) : 0 < latencyFactor latency := by
  unfold latencyFactor
  positivity

theorem latencyFactor_le_iff {l m : UInt32} : latencyFactor l ≤ latencyFactor m ↔ m ≤ l := by
  unfold latencyFactor
  rw [one_div_le_one_div (by positivity) (by positivity), UInt32.le_iff_toNat_le]
  simp

theorem latencyFactor_lt_iff {l m : UInt32} : latencyFactor l < latencyFactor m ↔ m < l := by
  rw [← not_le, latencyFactor_le_iff, UInt32.not_le]

/-- The free share of the slots is what the load leaves. -/
theorem capacityFactor_eq (n : Node) : capacityFactor n = 1 - n.bandwidthUtilization := by
  unfold capacityFactor Node.bandwidthUtilization
  split
  · norm_num
  · next hmax =>
    have hpos : (0 : ℚ) < n.maxConnections.toNat := by
      rw [Nat.cast_pos, Nat.pos_iff_ne_zero]
      exact fun h => hmax (UInt32.toNat_inj.mp h)
    unfold Node.availableCapacity
    split
    · next hle =>
      have hle' := UInt32.le_iff_toNat_le.mp hle
      have hratio : (n.activeConnections.toNat : ℚ) / n.maxConnections.toNat ≤ 1 := by
        rw [div_le_one hpos]
        exact_mod_cast hle'
      rw [min_eq_right hratio, max_eq_right (by positivity), UInt32.toNat_sub_of_le _ _ hle, Nat.cast_sub hle', sub_div,
        div_self hpos.ne']
    · next hgt =>
      have hratio : 1 ≤ (n.activeConnections.toNat : ℚ) / n.maxConnections.toNat := by
        rw [one_le_div hpos]
        exact_mod_cast (UInt32.lt_iff_toNat_lt.mp (UInt32.not_le.mp hgt)).le
      rw [min_eq_left hratio]
      norm_num

theorem bandwidthUtilization_le_one (n : Node) : n.bandwidthUtilization ≤ 1 := by
  unfold Node.bandwidthUtilization
  split
  · exact le_rfl
  · exact max_le zero_le_one (min_le_left _ _)

/-- The score as a function of the health factor, the load and the latency factor. -/
def composite (w : ScoreWeights) (health load latency : ℚ) : ℚ :=
  w.health * health * (1 + w.capacity * (1 - load)) * (1 + w.latency * latency) * (1 + w.bandwidth * (1 - load))

theorem score_eq {n : Node} (h : n.isSelectable = true) (w : ScoreWeights) :
    score n w = composite w (healthFactor n.state) n.bandwidthUtilization (latencyFactor n.latencyMs) := by
  rw [score, if_pos h, capacityFactor_eq, bandwidthFactor, composite]

structure ScoreWeights.Positive (w : ScoreWeights) : Prop where
  health : 0 < w.health
  capacity : 0 < w.capacity
  latency : 0 < w.latency
  bandwidth : 0 < w.bandwidth

/-- With positive weights the score grows with each of the three, strictly if one of them gets strictly better. -/
theorem composite_lt {w : ScoreWeights} (hw : w.Positive) {h h' u u' l l' : ℚ} (hh : 0 < h) (hu : u ≤ 1) (hl : 0 < l)
    (hle : h ≤ h') (hule : u' ≤ u) (hlle : l ≤ l') (hlt : h < h' ∨ u' < u ∨ l < l') :
    composite w h u l < composite w h' u' l' := by
  obtain ⟨hw₁, hw₂, hw₃, hw₄⟩ := hw
  have hfree : 0 ≤ 1 - u := sub_nonneg.mpr hu
  have hfree' : 0 ≤ 1 - u' := sub_nonneg.mpr (hule.trans hu)
  have hh' := hh.trans_le hle
  have hl' := hl.trans_le hlle
  unfold composite
  -- the strictly better factor first, then the others
  rcases hlt with hlt | hlt | hlt
  · calc w.health * h * (1 + w.capacity * (1 - u)) * (1 + w.latency * l) * (1 + w.bandwidth * (1 - u))
      _ < w.health * h' * (1 + w.capacity * (1 - u)) * (1 + w.latency * l) * (1 + w.bandwidth * (1 - u)) := by gcongr
      _ ≤ _ := by gcongr
  · calc w.health * h * (1 + w.capacity * (1 - u)) * (1 + w.latency * l) * (1 + w.bandwidth * (1 - u))
      _ < w.health * h * (1 + w.capacity * (1 - u')) * (1 + w.latency * l) * (1 + w.bandwidth * (1 - u)) := by gcongr
      _ ≤ _ := by gcongr
  · calc w.health * h * (1 + w.capacity * (1 - u)) * (1 + w.latency * l) * (1 + w.bandwidth * (1 - u))
      _ < w.health * h * (1 + w.capacity * (1 - u)) * (1 + w.latency * l') * (1 + w.bandwidth * (1 - u)) := by gcongr
      _ ≤ _ := by gcongr

/-! ## Dominated nodes -/

/-- In no respect worse. -/
structure NoWorse (b a : Node) : Prop where
  state : a.state.rank ≤ b.state.rank
  load : b.bandwidthUtilization ≤ a.bandwidthUtilization
  latency : b.latencyMs ≤ a.latencyMs

/-- In no respect worse and in one better. -/
def Dominates (b a : Node) : Prop :=
  NoWorse b a ∧
    (a.state.rank < b.state.rank ∨ b.bandwidthUtilization < a.bandwidthUtilization ∨ b.latencyMs < a.latencyMs)

theorem score_lt_of_dominates {w : ScoreWeights} {a b : Node} (hw : w.Positive) (ha : a.isSelectable = true)
    (hb : b.isSelectable = true) (h : Dominates b a) : score a w < score b w := by
  obtain ⟨⟨hstate, hload, hlatency⟩, hbetter⟩ := h
  rw [score_eq ha, score_eq hb]
  refine composite_lt hw (healthFactor_pos ha) (bandwidthUtilization_le_one a) (latencyFactor_pos _)
    (healthFactor_le_iff.mpr hstate) hload (latencyFactor_le_iff.mpr hlatency) ?_
  rwa [healthFactor_lt_iff, latencyFactor_lt_iff]

/-- **Dominated nodes.** With positive weights, a node is never selected from a list with a selectable node that is in
no respect worse and in one better. -/
theorem dominated_not_selected {w : ScoreWeights} (hw : w.Positive) {nodes : List Node} {a b : Node} (hb : b ∈ nodes)
    (hsel : b.isSelectable = true) (hdom : Dominates b a) : HealthAwareSelector.select w nodes ≠ some a := by
  intro hselected
  have hlast := select_eq_some_iff.mp hselected
  have ha := (mem_eligible.mp hlast.mem).2
  have hle := hlast.le (mem_eligible.mpr ⟨hb, hsel⟩)
  exact absurd (score_lt_of_dominates hw ha hsel hdom) hle.not_gt

/-- An idle node dominates a node with more connections than slots. -/
theorem overloaded_not_selected :
    Dominates (quietNode "n2" .healthy 10 0 5) (quietNode "n1" .healthy 10 12 5) ∧
      HealthAwareSelector.select .default [quietNode "n1" .healthy 10 12 5, quietNode "n2" .healthy 10 0 5] ≠
        some (quietNode "n1" .healthy 10 12 5) := by
  have hdom : Dominates (quietNode "n2" .healthy 10 0 5) (quietNode "n1" .healthy 10 12 5) :=
    ⟨⟨by decide, by decide +kernel, by decide⟩, .inr (.inl (by decide +kernel))⟩
  refine ⟨hdom, dominated_not_selected ?_ (by simp) rfl hdom⟩
  constructor <;> norm_num [ScoreWeights.default]

/-! ## Full nodes -/

theorem availableCapacity_toNat (n : Node) :
    n.availableCapacity.toNat = n.maxConnections.toNat - n.activeConnections.toNat := by
  unfold Node.availableCapacity
  split
  · next hle => rw [UInt32.toNat_sub_of_le _ _ hle]
  · next hgt =>
    have hlt := UInt32.lt_iff_toNat_lt.mp (UInt32.not_le.mp hgt)
    rw [Nat.sub_eq_zero_of_le hlt.le]
    rfl

/-- A node is full exactly if its load is 1, also with more connections than slots or without any slot. -/
theorem availableCapacity_eq_zero_iff {n : Node} : n.availableCapacity = 0 ↔ n.bandwidthUtilization = 1 := by
  have hcap := capacityFactor_eq n
  have hzero : n.availableCapacity = 0 ↔ capacityFactor n = 0 := by
    have hnat := availableCapacity_toNat n
    rw [← UInt32.toNat_inj, capacityFactor]
    split
    · next hmax => simp [hnat, hmax]
    · next hmax =>
      have hne : n.maxConnections.toNat ≠ 0 := fun h => hmax (UInt32.toNat_inj.mp h)
      simp [hne]
  rw [hzero, hcap, sub_eq_zero, eq_comm]

/-- A selectable node with a free slot. -/
def HasSlot (n : Node) : Prop := n.isSelectable = true ∧ n.availableCapacity ≠ 0

/-- What the default weights compare, up to a factor. -/
def merit (n : Node) : ℚ :=
  healthFactor n.state * (2 - n.bandwidthUtilization) ^ 2 * (1 + latencyFactor n.latencyMs)

/-- The load drops out of the merit of a full node. -/
theorem merit_of_full {n : Node} (h : n.availableCapacity = 0) :
    merit n = healthFactor n.state * (1 + latencyFactor n.latencyMs) := by
  rw [merit, availableCapacity_eq_zero_iff.mp h]
  norm_num

theorem score_default {n : Node} (h : n.isSelectable = true) : score n .default = 100 * merit n := by
  rw [score_eq h, composite, merit, ScoreWeights.default]
  ring

theorem score_default_le_iff {a b : Node} (ha : a.isSelectable = true) (hb : b.isSelectable = true) :
    score a .default ≤ score b .default ↔ merit a ≤ merit b := by
  rw [score_default ha, score_default hb, mul_le_mul_iff_right₀ (by norm_num)]

theorem score_default_lt_iff {a b : Node} (ha : a.isSelectable = true) (hb : b.isSelectable = true) :
    score a .default < score b .default ↔ merit a < merit b := by
  rw [← not_le, score_default_le_iff hb ha, not_le]

/-- Among the nodes before and after a full node there is one with a free slot that makes up for its state and latency.
A later node need not be better, since it wins the tie. -/
def Outvoted (pre : List Node) (a : Node) (post : List Node) : Prop :=
  (∃ b ∈ pre, HasSlot b ∧ healthFactor a.state * (1 + latencyFactor a.latencyMs) < merit b) ∨
    ∃ b ∈ post, HasSlot b ∧ healthFactor a.state * (1 + latencyFactor a.latencyMs) ≤ merit b

/-- **Full nodes.** With the default weights, a full node is never selected while a selectable one has a free slot, if
and only if every selectable full node is outvoted by a node with a free slot whenever there is one. -/
theorem full_not_selected_iff (nodes : List Node) :
    (∀ a, HealthAwareSelector.select .default nodes = some a → a.availableCapacity = 0 →
        ∀ b ∈ nodes, b.isSelectable = true → b.availableCapacity = 0) ↔
      ∀ pre a post, nodes = pre ++ a :: post → a.isSelectable = true → a.availableCapacity = 0 →
        (∃ b ∈ nodes, HasSlot b) → Outvoted pre a post := by
  constructor
  · rintro hnever pre a post hnodes hsel hfull ⟨b, hb, hslot⟩
    rw [Outvoted, ← merit_of_full hfull]
    obtain ⟨c, hselected⟩ := exists_select hb hslot.1
    have hfree : c.availableCapacity ≠ 0 := fun h => hslot.2 (hnever c hselected h b hb hslot.1)
    obtain ⟨pre', post', hnodes', hcsel, hpre, hpost⟩ := lastBest_filter.mp (select_eq_some_iff.mp hselected)
    -- the selected node stands before or after the full one, and is the node to name
    rcases List.append_eq_append_iff.mp (hnodes.symm.trans hnodes') with ⟨t, rfl, ht⟩ | ⟨t, rfl, ht⟩
    · cases t with
      | nil =>
        obtain ⟨rfl, -⟩ := List.cons.inj ht
        exact absurd hfull hfree
      | cons d t =>
        obtain ⟨rfl, rfl⟩ := List.cons.inj ht
        refine .inr ⟨c, by simp, ⟨hcsel, hfree⟩, ?_⟩
        exact (score_default_le_iff hsel hcsel).mp (hpre a (by simp) hsel)
    · cases t with
      | nil =>
        obtain ⟨rfl, -⟩ := List.cons.inj ht
        exact absurd hfull hfree
      | cons d t =>
        obtain ⟨rfl, rfl⟩ := List.cons.inj ht
        refine .inl ⟨c, by simp, ⟨hcsel, hfree⟩, ?_⟩
        exact (score_default_lt_iff hsel hcsel).mp (hpost a (by simp) hsel)
  · intro hout a hselected hfull b hb hbsel
    by_contra hfree
    obtain ⟨pre, post, hnodes, hsel, hpre, hpost⟩ := lastBest_filter.mp (select_eq_some_iff.mp hselected)
    rcases hout pre a post hnodes hsel hfull ⟨b, hb, hbsel, hfree⟩ with ⟨c, hc, hslot, hlt⟩ | ⟨c, hc, hslot, hle⟩
    · rw [← merit_of_full hfull, ← score_default_lt_iff hsel hslot.1] at hlt
      exact absurd (hpre c hc hslot.1) hlt.not_ge
    · rw [← merit_of_full hfull, ← score_default_le_iff hsel hslot.1] at hle
      exact absurd (hpost c hc hslot.1) hle.not_gt

/-- A full node that answers at once is selected before a slow one with a free slot. -/
theorem full_selected_for_latency :
    HealthAwareSelector.select .default [quietNode "n1" .degraded 10 10 0, quietNode "n2" .degraded 10 9 1000] =
        some (quietNode "n1" .degraded 10 10 0) ∧
      (quietNode "n1" .degraded 10 10 0).availableCapacity = 0 ∧ HasSlot (quietNode "n2" .degraded 10 9 1000) :=
  ⟨by decide +kernel, by decide, by decide, by decide⟩

end RustProxy.ControlPlane
