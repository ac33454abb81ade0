import RustProxy.ControlPlane.Model
import Mathlib.Data.List.Sort

/-!
# Health-aware routing

Scores and selection (`routing.rs`), with exact rational arithmetic for `f64`. `maxBy` is `Iterator::max_by`, which
keeps the later of two equal elements; `sortByScore` is the stable `sort_by` of `select_with_bandwidth`.
-/

namespace RustProxy.ControlPlane

structure ScoreWeights where
  health : ℚ
  capacity : ℚ
  latency : ℚ
  bandwidth : ℚ
  deriving DecidableEq

def ScoreWeights.default : ScoreWeights := ⟨100, 1, 1, 1⟩

def healthFactor : NodeState → ℚ
  | .healthy => 1
  | .degraded => 1 / 2
  | _ => 0

/-- The fraction of connection slots remaining. -/
def capacityFactor (node : Node) : ℚ :=
  if node.maxConnections = 0 then 0 else (node.availableCapacity.toNat : ℚ) / node.maxConnections.toNat

def latencyFactor (latencyMs : UInt32) : ℚ := 1 / (1 + latencyMs.toNat)

def bandwidthFactor (node : Node) : ℚ := 1 - node.bandwidthUtilization

/-- The weighted composite score; nodes that are not selectable score zero. -/
def score (node : Node) (weights : ScoreWeights) : ℚ :=
  if node.isSelectable then
    weights.health * healthFactor node.state * (1 + weights.capacity * capacityFactor node) *
      (1 + weights.latency * latencyFactor node.latencyMs) * (1 + weights.bandwidth * bandwidthFactor node)
  else 0

/-- `Iterator::max_by` for `partial_cmp` of a key: the last of the maximal elements. -/
def maxBy {α : Type} (key : α → ℚ) : List α → Option α
  | [] => none
  | x :: xs => some (xs.foldl (fun best y => if key y < key best then best else y) x)

/-- `HealthAwareSelector::select`. -/
def HealthAwareSelector.select (weights : ScoreWeights) (nodes : List Node) : Option Node :=
  maxBy (score · weights) (nodes.filter Node.isSelectable)

/-- The candidates by decreasing score, equal scores in list order. -/
def sortByScore (weights : ScoreWeights) (nodes : List Node) : List Node :=
  nodes.insertionSort fun a b => score b weights ≤ score a weights

theorem mem_sortByScore {weights : ScoreWeights} {nodes : List Node} {n : Node} :
    n ∈ sortByScore weights nodes ↔ n ∈ nodes := List.mem_insertionSort _

end RustProxy.ControlPlane
