import ExploratoryOptimizer.Aqo.OkNNr
import ExploratoryOptimizer.Library.Selection
import ExploratoryOptimizer.Library.WeightedMean
import Mathlib.Algebra.Order.Group.MinMax
import Mathlib.Data.List.GetD
import Mathlib.Data.Rat.Sqrt

/-! Which rows `OkNNr_compute_weights` selects, and what `OkNNr_predict` and `OkNNr_predict2` make
of them. The distances that are compared are the ones `fs_distance` returns; the mean is compared
with the exact one at those distances. -/
namespace ExploratoryOptimizer.Aqo.Nearest
open OkNNr Library Library.Selection Library.WeightedMean

/-! The loops of `OkNNr_compute_weights`, on arrays of `k` cells. An index of `-1` is an empty
slot. -/

section Loops

variable (arith : Arithmetic) (distances : List ℚ)

/-- `for (; j < aqo_k; ++j)`: the cells from `j` on move back by one. -/
def shiftLoop : Nat → Nat → Int → List Int → List Int
  | 0,_,_,idx => idx
  | left + 1,j,toInsert,idx => shiftLoop left (j + 1) (idx.getD j 0) (idx.set j toInsert)

/-- `for (j = 0; j < aqo_k; ++j)`: the loop that moves the cells goes on with the same `j`, and then
this one ends. -/
def rowLoop (i : Nat) : Nat → Nat → List Int → List Int
  | 0,_,idx => idx
  | left + 1,j,idx =>
    if idx.getD j 0 = -1 ∨ distances.getD i 0 < distances.getD (idx.getD j 0).toNat 0 then shiftLoop
      (left + 1) j i idx
    else rowLoop i left (j + 1) idx

/-- `for (i = 0; i < aqo_k && idx[i] != -1; ++i)`. -/
def weightLoop (idx : List Int) : Nat → Nat → List ℚ → ℚ → List ℚ × ℚ
  | 0,_,w,wSum => (w,wSum)
  | left + 1,i,w,wSum =>
    if idx.getD i 0 = -1 then (w,wSum)
    else
      let weight := fsSimilarity arith (distances.getD (idx.getD i 0).toNat 0)
      weightLoop idx left (i + 1) (w.set i weight) (arith.add wSum weight)

structure WeightArrays where
  w : List ℚ
  wSum : ℚ
  idx : List Int
  deriving DecidableEq

def computeWeightsLoops (k : Nat) : WeightArrays :=
  let idx :=
    (List.range distances.length).foldl (fun idx i => rowLoop distances i k 0 idx)
      (List.replicate k (-1))
  let (w,wSum) := weightLoop arith distances idx k 0 (List.replicate k 0) 0
  ⟨w,wSum,idx⟩

/-! What they leave in the arrays. -/

def slotNumber (slot : Option Nat) : Int := slot.elim (-1) fun row => row

def rowWeight (row : Nat) : ℚ := fsSimilarity arith (distances.getD row 0)

def slotWeight (slot : Option Nat) : ℚ := slot.elim 0 (rowWeight arith distances)

theorem getD_middle {α : Type} (before rest : List α) (item otherwise : α) :
    (before ++ item :: rest).getD before.length otherwise = item := by
  rw [List.getD_append_right _ _ _ _ le_rfl,Nat.sub_self,List.getD_cons_zero]

theorem set_middle {α : Type} (before rest : List α) (old new : α) :
    (before ++ old :: rest).set before.length new = before ++ new :: rest := by
  rw [List.set_append_right _ _ le_rfl,Nat.sub_self,List.set_cons_zero]

theorem shiftLoop_eq (before rest : List Int) (toInsert : Int) :
    shiftLoop rest.length before.length toInsert (before ++ rest) =
      before ++ (toInsert :: rest).dropLast := by
  induction rest generalizing before toInsert with
  | nil => rfl
  | cons cell rest ih =>
    have next := ih (before ++ [toInsert]) cell
    rw [List.length_append,List.length_singleton,List.append_assoc,List.append_assoc] at next
    rw [List.length_cons,shiftLoop,getD_middle,set_middle,
      List.dropLast_cons_of_ne_nil (List.cons_ne_nil _ _)]
    exact next

theorem shiftLoop_slots (i : Nat) (before : List Int) (slot : Option Nat)
    (rest : List (Option Nat)) :
    shiftLoop (rest.length + 1) before.length i (before ++ slotNumber slot :: rest.map slotNumber) =
      before ++ ((some i :: slot :: rest).dropLast).map slotNumber := by
  have loop := shiftLoop_eq before (slotNumber slot :: rest.map slotNumber) i
  rw [List.length_cons,List.length_map] at loop
  rw [loop,List.map_dropLast]
  rfl

theorem slotNumber_row (row : Nat) : slotNumber (some row) ≠ -1 := by
  change (row : Int) ≠ -1
  omega

theorem rowLoop_eq (i : Nat) (before : List Int) (idx : List (Option Nat)) :
    rowLoop distances i idx.length before.length (before ++ idx.map slotNumber) =
      before ++ (insertIndex distances i idx).map slotNumber := by
  induction idx generalizing before with
  | nil => rfl
  | cons slot rest ih =>
    rw [List.map_cons,List.length_cons,rowLoop,getD_middle]
    cases slot with
    | none =>
      rw [if_pos (.inl rfl)]
      exact shiftLoop_slots i before none rest
    | some other =>
      have number : (slotNumber (some other)).toNat = other := rfl
      rw [insertIndex,number]
      by_cases closer : distances.getD i 0 < distances.getD other 0
      · rw [if_pos (.inr closer),if_pos closer]
        exact shiftLoop_slots i before (some other) rest
      · have next := ih (before ++ [slotNumber (some other)])
        rw [List.length_append,List.length_singleton,List.append_assoc,List.append_assoc] at next
        rw [if_neg (not_or.mpr ⟨slotNumber_row other,closer⟩),if_neg closer]
        exact next

/-- The empty slots are the last ones, so the loop that stops at the first of them sees all rows. -/
theorem weightLoop_eq (rows : List Nat) (left : Nat) (before : List Int) (w : List ℚ)
    (each : w.length = before.length) (wSum : ℚ) :
    weightLoop arith distances (before ++ (slots left rows).map slotNumber) left before.length
        (w ++ List.replicate left 0) wSum =
      (w ++ (slots left rows).map (slotWeight arith distances),
        ((rows.take left).map (rowWeight arith distances)).foldl arith.add wSum) := by
  induction left generalizing rows before w wSum with
  | zero =>
    rw [slots_zero,weightLoop,List.map_nil,List.take_zero]
    rfl
  | succ left ih =>
    cases rows with
    | nil =>
      have zero : (List.replicate (left + 1) none).map (slotWeight arith distances) =
          List.replicate (left + 1) 0 := List.map_replicate
      have empty : slotNumber none = -1 := rfl
      rw [slots_nil,zero,List.replicate_succ,List.map_cons,weightLoop,getD_middle,if_pos empty]
      rfl
    | cons row rows =>
      have written : (w ++ List.replicate (left + 1) 0).set before.length
          (rowWeight arith distances row) =
          w ++ rowWeight arith distances row :: List.replicate left 0 := by
        rw [← each,List.replicate_succ,set_middle]
      have next :=
        ih rows (before ++ [slotNumber (some row)]) (w ++ [rowWeight arith distances row])
          (by rw [List.length_append,List.length_append,each]; rfl)
        (arith.add wSum (rowWeight arith distances row))
      rw [List.length_append,List.length_singleton,List.append_assoc,List.append_assoc,
        List.append_assoc] at next
      rw [slots_succ,List.map_cons,List.map_cons,weightLoop,getD_middle,
        if_neg (slotNumber_row row)]
      change weightLoop arith distances _ left _ ((w ++ List.replicate (left + 1) 0).set
        before.length (rowWeight arith distances row))
        (arith.add wSum (rowWeight arith distances row)) = _
      rw [written]
      exact next

end Loops

/-! The stable order of the rows. -/

section Order

variable (distances : List ℚ)

/-- The row is nearer, or as near and above in the matrix. -/
def Before (a b : Nat) : Prop :=
  distances.getD a 0 < distances.getD b 0 ∨ (distances.getD a 0 = distances.getD b 0 ∧ a < b)

instance : IsTrans Nat (Before distances) where
  trans a b c first second := by
    rcases first with nearer | ⟨same,above⟩
    · rcases second with next | ⟨next,_⟩
      · exact .inl (nearer.trans next)
      · exact .inl (next ▸ nearer)
    · rcases second with next | ⟨next,further⟩
      · exact .inl (same ▸ next)
      · exact .inr ⟨same.trans next,above.trans further⟩

theorem Before.asymm {a b : Nat} (first : Before distances a b)
    (second : Before distances b a) : False := by
  rcases first with nearer | ⟨same,above⟩
  · rcases second with next | ⟨next,_⟩
    · exact lt_asymm nearer next
    · exact nearer.ne next.symm
  · rcases second with next | ⟨_,further⟩
    · exact next.ne same.symm
    · exact Nat.lt_asymm above further

/-- All rows by their distances, those of the same distance as they come in the matrix. -/
structure StableOrder (order : List Nat) : Prop where
  perm : order.Perm (List.range distances.length)
  sorted : order.Pairwise (Before distances)

variable {distances} in
theorem StableOrder.unique {first second : List Nat} (one : StableOrder distances first)
    (two : StableOrder distances second) : second = first :=
  List.Perm.eq_of_pairwise (fun _ _ _ _ before after => (Before.asymm distances before after).elim)
    two.sorted one.sorted (two.perm.trans one.perm.symm)

theorem insertIndex_eq (row : Nat) (idx : List (Option Nat)) :
    insertIndex distances row idx = insertSlot
      (fun a b => distances.getD a 0 < distances.getD b 0) row idx := by
  induction idx with
  | nil => rfl
  | cons slot rest ih =>
    cases slot with
    | none => rfl
    | some other => rw [insertIndex,insertSlot,ih]

theorem nearestIndexes_slots (k : Nat) :
    ∃ order, StableOrder distances order ∧ nearestIndexes distances k = slots k order := by
  have decided : (List.range distances.length).Pairwise
      (Decided (fun a b => distances.getD a 0 < distances.getD b 0) (Before distances)) := by
    refine List.pairwise_lt_range.imp fun {a b} above => ⟨.inl,fun far => ?_⟩
    rcases (not_lt.mp far).lt_or_eq with nearer | same
    · exact .inl nearer
    · exact .inr ⟨same,above⟩
  obtain ⟨order,perm,sorted,selected⟩ :=
    select_slots _ (Before distances) k (List.range distances.length) decided
  refine ⟨order,⟨perm,sorted⟩,?_⟩
  rw [nearestIndexes,← selected]
  exact List.foldl_ext _ _ _ fun idx row _ => insertIndex_eq distances row idx

theorem foldl_rowLoop (k : Nat) (rows start : List Nat) :
    rows.foldl (fun idx i => rowLoop distances i k 0 idx) ((slots k start).map slotNumber) =
      (rows.foldl (fun idx row => insertIndex distances row idx) (slots k start)).map
      slotNumber := by
  induction rows generalizing start with
  | nil => rfl
  | cons row rows ih =>
    have step := rowLoop_eq distances row [] (slots k start)
    rw [length_slots,insertIndex_eq,insertSlot_slots] at step
    rw [List.foldl_cons,List.foldl_cons,insertIndex_eq,insertSlot_slots,← ih]
    exact congrArg (rows.foldl _) step

/-- The loops leave in their arrays what `computeWeights` says. -/
theorem computeWeightsLoops_eq (arith : Arithmetic) (k : Nat) :
    computeWeightsLoops arith distances k =
      ⟨(computeWeights arith distances k).w,(computeWeights arith distances k).wSum,
        (computeWeights arith distances k).idx.map slotNumber⟩ := by
  obtain ⟨order,_,selected⟩ := nearestIndexes_slots distances k
  have idx := foldl_rowLoop distances k (List.range distances.length) []
  rw [slots_nil,List.map_replicate] at idx
  change (List.range distances.length).foldl (fun idx i => rowLoop distances i k 0 idx)
    (List.replicate k (-1)) = (nearestIndexes distances k).map slotNumber at idx
  have weights := weightLoop_eq arith distances order k [] [] rfl 0
  have filled := filterMap_slots id k order
  rw [Option.map_id,List.map_id] at filled
  rw [← filled,← selected,List.nil_append,List.nil_append,List.nil_append,
    List.length_nil] at weights
  rw [computeWeightsLoops,idx,weights]
  rfl

example : (computeWeightsLoops (.exact Rat.sqrt) [3,1,2,1] 3).idx = [1,3,2] ∧
    (computeWeightsLoops (.exact Rat.sqrt) [3,1] 3).idx = [1,0,-1] := by
  decide +kernel

end Order

/-! The mean over the slots is the one over the rows in them. -/

section Mean

variable (arith : Arithmetic) {distances : List ℚ} {k : Nat} {order : List Nat}
  (selected : nearestIndexes distances k = slots k order)
include selected

theorem computeWeights_wSum :
    (computeWeights arith distances k).wSum =
      arith.sum ((order.take k).map (rowWeight arith distances)) := by
  have filled := filterMap_slots id k order
  rw [Option.map_id,List.map_id,← selected] at filled
  rw [← filled]
  rfl

theorem computeWeights_shares (targets : List ℚ) :
    shares arith (computeWeights arith distances k) targets =
      (order.take k).map fun row => arith.div
        (arith.mul (targets.getD row 0) (rowWeight arith distances row))
        (arith.sum ((order.take k).map (rowWeight arith distances))) := by
  rw [← computeWeights_wSum arith selected,← filterMap_slots,← selected,shares]
  change ((nearestIndexes distances k).zip
    ((nearestIndexes distances k).map (slotWeight arith distances))).filterMap _ = _
  rw [← List.map_prod_left_eq_zip,List.filterMap_map]
  refine List.filterMap_congr fun slot _ => ?_
  cases slot with
  | none => rfl
  | some row => rfl

theorem computeWeights_first (positive : 0 < k) (rows : order ≠ []) :
    ¬((computeWeights arith distances k).idx.head? = some none ∨
      (computeWeights arith distances k).idx = []) := by
  change ¬((nearestIndexes distances k).head? = some none ∨ nearestIndexes distances k = [])
  obtain ⟨left,rfl⟩ := Nat.exists_eq_succ_of_ne_zero positive.ne'
  obtain ⟨row,rest,rfl⟩ := List.exists_cons_of_ne_nil rows
  rw [selected,slots_succ,List.head?_cons]
  rintro (empty | nothing)
  · exact Option.some_ne_none row (Option.some.inj empty)
  · exact List.cons_ne_nil _ _ nothing

theorem weightedMean_rows (targets : List ℚ) (positive : 0 < k) (rows : order ≠ []) :
    weightedMean arith (computeWeights arith distances k) targets =
      max (arith.sum ((order.take k).map fun row => arith.div
        (arith.mul (targets.getD row 0) (rowWeight arith distances row))
        (arith.sum ((order.take k).map (rowWeight arith distances))))) 0 := by
  rw [weightedMean,if_neg (computeWeights_first arith selected positive rows),
    computeWeights_shares arith selected]

end Mean

/-! How far the computed mean is from the exact one. -/

section Accuracy

variable (arith : Arithmetic)

/-- The weight of a row in exact arithmetic. -/
def exactWeight (distances : List ℚ) (row : Nat) : ℚ := 1 / (1/1000 + distances.getD row 0)

variable (distances : List ℚ) (far : ∀ row, 0 ≤ distances.getD row 0)
include far

theorem exactWeight_pos (row : Nat) : 0 < exactWeight distances row :=
  one_div_pos.mpr (add_pos_of_pos_of_nonneg (by norm_num) (far row))

theorem rowWeight_close (row : Nat) :
    0 ≤ rowWeight arith distances row ∧
      arith.Close 3 (rowWeight arith distances row) (exactWeight distances row) := by
  have constant : 0 < arith.round (1/1000) := arith.round_pos _ (by norm_num)
  have inner : 0 < arith.round (1/1000) + distances.getD row 0 :=
    add_pos_of_pos_of_nonneg constant (far row)
  have sum : arith.Close 1 (arith.round (1/1000) + distances.getD row 0)
      (1/1000 + distances.getD row 0) :=
    ((arith.close_refl (1/1000)).round (by norm_num)).add
      ((arith.close_refl _).mono zero_le_one (far row) (far row))
  have rounded := arith.round_pos _ inner
  have quotient := (sum.round inner.le).one_div rounded
    (add_pos_of_pos_of_nonneg (by norm_num) (far row))
  exact ⟨arith.round_nonneg _ (one_div_pos.mpr rounded).le,
    quotient.round (one_div_pos.mpr rounded).le⟩

variable (nearest : List Nat) (nonempty : nearest ≠ [])
include nonempty

theorem total_exactWeight_pos : 0 < total (exactWeight distances) nearest := by
  refine List.sum_pos _ (fun weight member => ?_) (List.map_eq_nil_iff.not.mpr nonempty)
  obtain ⟨row,_,rfl⟩ := List.mem_map.mp member
  exact exactWeight_pos distances far row

/-- Seven roundings for each share, and one for each weight and each share that is added. -/
theorem sum_shares_off (targets : List ℚ) :
    arith.Off (2 * nearest.length + 8)
      (arith.sum (nearest.map fun row => arith.div
        (arith.mul (targets.getD row 0) (rowWeight arith distances row))
        (arith.sum (nearest.map (rowWeight arith distances)))))
      (mean (exactWeight distances) (fun row => targets.getD row 0) nearest)
      (mean (exactWeight distances) (fun row => |targets.getD row 0|) nearest) := by
  have positive := total_exactWeight_pos distances far nearest nonempty
  have weights : arith.Close (3 + nearest.length)
      (arith.sum (nearest.map (rowWeight arith distances)))
      (total (exactWeight distances) nearest) :=
    (Rounding.Close.sum nearest (rowWeight arith distances) (exactWeight distances)
      fun row _ => rowWeight_close arith distances far row).2
  have inverse :=
    (weights.one_div (weights.pos positive) positive).off (one_div_pos.mpr positive).le
  have share (row : Nat) : arith.Off (8 + nearest.length)
      (arith.div (arith.mul (targets.getD row 0) (rowWeight arith distances row))
        (arith.sum (nearest.map (rowWeight arith distances))))
      (targets.getD row 0 * exactWeight distances row *
        (1 / total (exactWeight distances) nearest))
      (|targets.getD row 0| * exactWeight distances row *
        (1 / total (exactWeight distances) nearest)) := by
    have weight :=
      (rowWeight_close arith distances far row).2.off (exactWeight_pos distances far row).le
    have product := ((Rounding.off_refl (targets.getD row 0)).mul weight).round
    have quotient := (product.mul inverse).round
    rw [mul_one_div] at quotient
    have count : 0 + 3 + 1 + (3 + nearest.length) + 1 = 8 + nearest.length := by omega
    rw [count] at quotient
    exact quotient
  have added := Rounding.Off.sum nearest _ _ _ fun row _ => share row
  have count : 8 + nearest.length + nearest.length = 2 * nearest.length + 8 := by omega
  rw [count,List.sum_map_mul_right,List.sum_map_mul_right,mul_one_div,mul_one_div] at added
  simp only [mul_comm _ (exactWeight distances _)] at added
  exact added

end Accuracy

section Predict

theorem minDistance_le (distances : List ℚ) (bound : ℚ) (small : bound < 9999) :
    minDistance distances ≤ bound ↔ ∃ dist ∈ distances, dist ≤ bound := by
  have loop (start : ℚ) :
      distances.foldl (fun least dist => if dist < least then dist else least) start ≤ bound ↔
        start ≤ bound ∨ ∃ dist ∈ distances, dist ≤ bound := by
    induction distances generalizing start with
    | nil =>
      rw [List.foldl_nil]
      exact ⟨.inl,fun either => either.resolve_right fun found => by
        obtain ⟨_,member,_⟩ := found
        cases member⟩
    | cons dist rest ih =>
      rw [List.foldl_cons,ih,List.exists_mem_cons_iff,← or_assoc]
      refine or_congr_left ?_
      split_ifs with less
      · exact ⟨.inr,fun either => either.elim less.le.trans id⟩
      · exact ⟨.inl,fun either => either.elim id (not_lt.mp less).trans⟩
  rw [minDistance,loop]
  exact or_iff_right (not_le.mpr small)

variable (arith : Arithmetic) (matrixCols : Nat) (matrix : List (List ℚ)) (features : List ℚ)

theorem predict2_eq (targets : List ℚ) (k : Nat) (rows : matrix ≠ []) :
    predict2 arith matrixCols matrix targets features k =
      if ∃ row ∈ matrix, fsDistance arith row features matrixCols ≤ arith.round (1/10) then
        predict arith matrixCols matrix targets features k
      else 0 := by
  have small : arith.round (1/10) < 9999 := by
    have upper := arith.round_upper (1/10) (by norm_num)
    have unit := arith.unit_lt_one
    linarith
  have near : minDistance (distances arith matrixCols matrix features) ≤ arith.round (1/10) ↔
      ∃ row ∈ matrix, fsDistance arith row features matrixCols ≤ arith.round (1/10) := by
    rw [minDistance_le _ _ small,distances]
    simp only [List.mem_map,exists_exists_and_eq_and]
  rw [predict2,if_neg rows]
  by_cases some : ∃ row ∈ matrix, fsDistance arith row features matrixCols ≤ arith.round (1/10)
  · rw [if_pos some,if_neg (not_lt.mpr (near.mpr some))]
  · rw [if_neg some,if_pos (not_le.mp fun close => some (near.mp close))]

variable (root : ∀ x, 0 ≤ x → 0 ≤ arith.sqrt x)
include root

theorem fsDistance_nonneg (a b : List ℚ) (len : Nat) : 0 ≤ fsDistance arith a b len := by
  have squares : 0 ≤ arith.sum (List.zipWith
      (fun x y => arith.mul (arith.sub x y) (arith.sub x y)) (a.take len) (b.take len)) := by
    refine arith.sum_nonneg _ fun square member => ?_
    obtain ⟨i,within,rfl⟩ := List.mem_iff_getElem.mp member
    rw [List.getElem_zipWith]
    exact arith.round_nonneg _ (mul_self_nonneg _)
  simp only [fsDistance]
  split_ifs
  · exact root _ (arith.round_nonneg _ (div_nonneg squares (Nat.cast_nonneg len)))
  · exact squares

theorem distances_nonneg (row : Nat) :
    0 ≤ (distances arith matrixCols matrix features).getD row 0 := by
  rcases Nat.lt_or_ge row (distances arith matrixCols matrix features).length with within | beyond
  · rw [List.getD_eq_getElem _ _ within]
    obtain ⟨other,_,same⟩ := List.mem_map.mp (List.getElem_mem within)
    rw [← same]
    exact fsDistance_nonneg arith root other features matrixCols
  · rw [List.getD_eq_default _ _ beyond]

omit root in
/-- A value near the mean of the nearest rows lies between bounds of their targets, up to its
relative error. -/
theorem mean_bounds (distances : List ℚ) (far : ∀ row, 0 ≤ distances.getD row 0) (targets : List ℚ)
    (nearest : List Nat) (nonempty : nearest ≠ []) (prediction ε : ℚ) (predicted : 0 ≤ prediction)
    (error : 0 ≤ ε)
    (close : |prediction - max
      (mean (exactWeight distances) (fun row => targets.getD row 0) nearest) 0| ≤ ε * mean
      (exactWeight distances) (fun row => |targets.getD row 0|) nearest)
    (least most : ℚ) (nonneg : 0 ≤ least)
    (bounds : ∀ row ∈ nearest, least ≤ targets.getD row 0 ∧ targets.getD row 0 ≤ most) :
    (1 - ε) * least ≤ prediction ∧ prediction ≤ (1 + ε) * most := by
  have weights (row : Nat) (_ : row ∈ nearest) := (exactWeight_pos distances far row).le
  have some := total_exactWeight_pos distances far nearest nonempty
  have same : mean (exactWeight distances) (fun row => |targets.getD row 0|) nearest =
      mean (exactWeight distances) (fun row => targets.getD row 0) nearest := by
    rw [mean,mean,weightedSum,weightedSum]
    congr 2
    refine List.map_congr_left fun row member => ?_
    rw [abs_of_nonneg (nonneg.trans (bounds row member).1)]
  have below := le_mean _ _ nearest some weights least fun row member => (bounds row member).1
  have above := mean_le _ _ nearest some weights most fun row member => (bounds row member).2
  rw [same,max_eq_left (nonneg.trans below)] at close
  obtain ⟨low,high⟩ := abs_le.mp close
  constructor
  · rcases le_total ε 1 with small | large
    · have scaled := mul_le_mul_of_nonneg_left below (sub_nonneg.mpr small)
      linarith
    · exact (mul_nonpos_of_nonpos_of_nonneg (sub_nonpos.mpr large) nonneg).trans predicted
  · have scaled := mul_le_mul_of_nonneg_left above (add_nonneg zero_le_one error)
    linarith

/-- The rows that are selected, the weighted mean of their targets up to rounding, and when it is
given. -/
theorem nearest_prediction (rows : matrix ≠ []) (targets : List ℚ) (k : Nat) (positive : 0 < k) :
    ∃ order : List Nat, StableOrder (distances arith matrixCols matrix features) order ∧
      (∀ other, StableOrder (distances arith matrixCols matrix features) other → other = order) ∧
      let dists := distances arith matrixCols matrix features
      let nearest := order.take k
      let prediction := predict arith matrixCols matrix targets features k
      let weight := fun row => 1 / (1/1000 + dists.getD row 0)
      let ε := arith.error (2 * nearest.length + 8)
      (computeWeightsLoops arith dists k).idx =
          nearest.map Int.ofNat ++ List.replicate (k - matrix.length) (-1) ∧
        nearest.length = min k matrix.length ∧
        |prediction - max (mean weight (fun row => targets.getD row 0) nearest) 0| ≤
          ε * mean weight (fun row => |targets.getD row 0|) nearest ∧
        (∀ least most : ℚ, 0 ≤ least →
          (∀ row ∈ nearest, least ≤ targets.getD row 0 ∧ targets.getD row 0 ≤ most) →
            (1 - ε) * least ≤ prediction ∧ prediction ≤ (1 + ε) * most) ∧
        predict2 arith matrixCols matrix targets features k =
          (if ∃ row ∈ matrix, fsDistance arith row features matrixCols ≤ arith.round (1/10) then
            prediction else 0) ∧
        0 ≤ predict2 arith matrixCols matrix targets features k := by
  obtain ⟨order,stable,selected⟩ :=
    nearestIndexes_slots (distances arith matrixCols matrix features) k
  have far := distances_nonneg arith matrixCols matrix features root
  have length : order.length = matrix.length :=
    stable.perm.length_eq.trans (List.length_range.trans (List.length_map _))
  have nonempty : order ≠ [] :=
    List.ne_nil_of_length_pos (length.symm ▸ List.length_pos_of_ne_nil rows)
  have taken : order.take k ≠ [] := fun empty =>
    (List.take_eq_nil_iff.mp empty).elim positive.ne' nonempty
  have value := weightedMean_rows arith selected targets positive nonempty
  have predicted : 0 ≤ predict arith matrixCols matrix targets features k :=
    (le_max_right _ _).trans_eq value.symm
  have close : |predict arith matrixCols matrix targets features k - max (mean
      (exactWeight (distances arith matrixCols matrix features)) (fun row => targets.getD row 0)
      (order.take k)) 0| ≤ arith.error (2 * (order.take k).length + 8) *
        mean (exactWeight (distances arith matrixCols matrix features))
          (fun row => |targets.getD row 0|) (order.take k) := by
    rw [predict,value]
    exact (abs_max_sub_max_le_abs _ _ _).trans (sum_shares_off arith _ far _ taken targets).error
  have shortened := predict2_eq arith matrixCols matrix features targets k rows
  refine ⟨order,stable,fun other also => stable.unique also,?_,?_,close,?_,shortened,?_⟩
  · rw [computeWeightsLoops_eq]
    change (nearestIndexes (distances arith matrixCols matrix features) k).map slotNumber = _
    rw [selected,slots,List.map_append,List.map_map,List.map_replicate,length]
    rfl
  · rw [List.length_take,length]
  · exact mean_bounds _ far targets _ taken _ _ predicted (arith.error_nonneg _) close
  · rw [shortened]
    split_ifs
    · exact predicted
    · exact le_rfl

end Predict

/-- Two neighbours, of which the nearer one counts most. -/
theorem nearest_prediction_two :
    (1 - (Arithmetic.double Rat.sqrt).error 12) * 2 ≤
        predict (.double Rat.sqrt) 1 [[0],[1]] [2,4] [1/20] 2 ∧
      predict (.double Rat.sqrt) 1 [[0],[1]] [2,4] [1/20] 2 ≤
        (1 + (Arithmetic.double Rat.sqrt).error 12) * 4 := by
  obtain ⟨order,_,unique,_,_,_,bounds,_⟩ := nearest_prediction (.double Rat.sqrt) 1 [[0],[1]]
    [1/20] (fun x _ => Rat.sqrt_nonneg x) (List.cons_ne_nil _ _) [2,4] 2 Nat.two_pos
  have rows : StableOrder (distances (.double Rat.sqrt) 1 [[0],[1]] [1/20]) [0,1] :=
    ⟨.refl _,List.pairwise_pair.mpr (.inl (by decide +kernel))⟩
  rw [← unique _ rows] at bounds
  exact bounds 2 4 (by decide) (by decide +kernel)

/-- In doubles the mean of 18, 18 and 18 is less than 18. -/
theorem equal_targets_below :
    predict (.double Rat.sqrt) 1 [[2],[2],[2]] [18,18,18] [0] 3 = 18 - 1 / 2 ^ 48 ∧
      predict (.double Rat.sqrt) 1 [[2],[2],[2]] [18,18,18] [0] 3 < 18 := by
  decide +kernel

end ExploratoryOptimizer.Aqo.Nearest
