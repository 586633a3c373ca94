import Mathlib.Algebra.BigOperators.Ring.List
import Mathlib.Algebra.Order.BigOperators.Group.List
import Mathlib.Algebra.Order.Field.Basic

/-! Weighted means of lists: how one grows by one item, and that it lies between bounds of its
values. -/
namespace ExploratoryOptimizer.Library.WeightedMean

section Mean

variable {ι K : Type} [Field K] (weight value : ι → K)

def total (items : List ι) : K := (items.map weight).sum

def weightedSum (items : List ι) : K := (items.map fun item => weight item * value item).sum

def mean (items : List ι) : K := weightedSum weight value items / total weight items

theorem total_concat (items : List ι) (item : ι) :
    total weight (items ++ [item]) = total weight items + weight item := by
  rw [total,List.map_append,List.sum_append,List.map_singleton,List.sum_singleton,total]

theorem weightedSum_concat (items : List ι) (item : ι) :
    weightedSum weight value (items ++ [item]) = weightedSum weight value items +
      weight item * value item :=
  total_concat (fun item => weight item * value item) items item

theorem weightedSum_const (items : List ι) (bound : K) :
    weightedSum weight (fun _ => bound) items = bound * total weight items := by
  rw [weightedSum,total,List.sum_map_mul_right,mul_comm]

/-- The mean of one more item, from the mean so far and its weight. -/
theorem mean_concat (items : List ι) (item : ι) (nonzero : total weight items ≠ 0) :
    mean weight value (items ++ [item]) =
      (total weight items * mean weight value items + weight item * value item) /
      (total weight items + weight item) := by
  rw [mean,weightedSum_concat,total_concat,mean,mul_div_cancel₀ _ nonzero]

end Mean

section Bounds

variable {ι K : Type} [Field K] [LinearOrder K] [IsStrictOrderedRing K] (weight value : ι → K)
  (items : List ι)

theorem weightedSum_le_weightedSum (other : ι → K) (weights : ∀ item ∈ items, 0 ≤ weight item)
    (below : ∀ item ∈ items, value item ≤ other item) :
    weightedSum weight value items ≤ weightedSum weight other items :=
  List.sum_le_sum fun item member => mul_le_mul_of_nonneg_left (below item member)
    (weights item member)

variable (some : 0 < total weight items) (weights : ∀ item ∈ items, 0 ≤ weight item) (bound : K)
include some weights

theorem le_mean (below : ∀ item ∈ items, bound ≤ value item) : bound ≤ mean weight value items := by
  rw [mean,le_div_iff₀ some,← weightedSum_const]
  exact weightedSum_le_weightedSum weight _ items value weights below

theorem mean_le (above : ∀ item ∈ items, value item ≤ bound) : mean weight value items ≤ bound := by
  rw [mean,div_le_iff₀ some,← weightedSum_const]
  exact weightedSum_le_weightedSum weight value items _ weights above

end Bounds

end ExploratoryOptimizer.Library.WeightedMean
