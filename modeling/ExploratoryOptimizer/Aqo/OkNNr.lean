import ExploratoryOptimizer.Library.Binary
import Mathlib.Tactic.NormNum

/-! Nearest-neighbour regression of contrib/aqo/machine_learning.c. The numbers of the source are
doubles: every operation, and every constant, is rounded. The rounding and the square root of the C
library are a parameter; nothing overflows or underflows. A neighbour slot that is still empty,
written as a negative index in the source, is `none`. -/
namespace ExploratoryOptimizer.Aqo.OkNNr
open Library

structure Arithmetic extends Rounding ℚ where
  one : toRounding.Representable 1
  sqrt : ℚ → ℚ

namespace Arithmetic

def exact (sqrt : ℚ → ℚ) : Arithmetic := {Rounding.exact with one := rfl, sqrt := sqrt}

theorem double_one : Binary.double.Representable 1 := by
  unfold Rounding.Representable
  decide +kernel

def double (sqrt : ℚ → ℚ) : Arithmetic := {Binary.double with one := double_one, sqrt := sqrt}

end Arithmetic

section Distances

variable (arith : Arithmetic)

def fsDistance (a b : List ℚ) (len : Nat) : ℚ :=
  let squares := arith.sum (List.zipWith (fun x y => arith.mul (arith.sub x y) (arith.sub x y))
    (a.take len) (b.take len))
  if len ≠ 0 then arith.sqrt (arith.div squares len) else squares

def distances (matrixCols : Nat) (matrix : List (List ℚ)) (features : List ℚ) : List ℚ :=
  matrix.map fun row => fsDistance arith row features matrixCols

def fsSimilarity (dist : ℚ) : ℚ := arith.div 1 (arith.add (arith.round (1/1000)) dist)

end Distances

/-- The row takes the first empty slot or the first one whose row is farther; the slots behind it
move back and the last one falls out. -/
def insertIndex (distances : List ℚ) (row : Nat) : List (Option Nat) → List (Option Nat)
  | [] => []
  | none :: rest => (some row :: none :: rest).dropLast
  | some other :: rest =>
    if distances.getD row 0 < distances.getD other 0 then (some row :: some other :: rest).dropLast
    else some other :: insertIndex distances row rest

def nearestIndexes (distances : List ℚ) (k : Nat) : List (Option Nat) :=
  (List.range distances.length).foldl (fun idx row => insertIndex distances row idx)
    (List.replicate k none)

structure Weights where
  w : List ℚ
  wSum : ℚ
  idx : List (Option Nat)
  deriving DecidableEq

section Predict

variable (arith : Arithmetic)

def computeWeights (distances : List ℚ) (k : Nat) : Weights :=
  let idx := nearestIndexes distances k
  let weight := fun row => fsSimilarity arith (distances.getD row 0)
  ⟨idx.map fun slot => slot.elim 0 weight,arith.sum ((idx.filterMap id).map weight),idx⟩

/-- What the rows in the slots add to the result, in the order of the slots. -/
def shares (weights : Weights) (targets : List ℚ) : List ℚ :=
  (weights.idx.zip weights.w).filterMap fun slot => slot.1.map fun row =>
    arith.div (arith.mul (targets.getD row 0) slot.2) weights.wSum

def weightedMean (weights : Weights) (targets : List ℚ) : ℚ :=
  if weights.idx.head? = some none ∨ weights.idx = [] then -1
  else max (arith.sum (shares arith weights targets)) 0

def predict (matrixCols : Nat) (matrix : List (List ℚ)) (targets features : List ℚ) (k : Nat) : ℚ :=
  weightedMean arith (computeWeights arith (distances arith matrixCols matrix features) k) targets

def minDistance (distances : List ℚ) : ℚ :=
  distances.foldl (fun least dist => if dist < least then dist else least) 9999

def predict2 (matrixCols : Nat) (matrix : List (List ℚ)) (targets features : List ℚ) (k : Nat) :
    ℚ :=
  -- No prediction, written as zero, from an empty matrix or when every row is far away.
  if matrix = [] then 0
  else if minDistance (distances arith matrixCols matrix features) > arith.round (1/10) then 0
  else predict arith matrixCols matrix targets features k

end Predict

structure CostRecord where
  matrix : List (List ℚ)
  bestEstCosts : List ℚ
  bestTrueCosts : List ℚ
  deriving DecidableEq

def minDistanceId (distances : List ℚ) : Nat :=
  (List.range distances.length).foldl
    (fun least row => if distances.getD row 0 < distances.getD least 0 then row else least) 0

def moveTowards (arith : Arithmetic) (rate : ℚ) (old new : List ℚ) : List ℚ :=
  List.zipWith (fun x y => arith.add x (arith.mul rate (arith.sub y x))) old new

namespace CostRecord

variable (arith : Arithmetic) (record : CostRecord) (row matrixCols : Nat) (features : List ℚ)
  (estCost trueCost : ℚ)

def learnFeatures : CostRecord :=
  {record with
    matrix := record.matrix.set row (moveTowards arith (arith.round (1/10))
      (record.matrix.getD row []) (features.take matrixCols))}

def learnEstCost : CostRecord :=
  let old := record.bestEstCosts.getD row 0
  {record with
    bestEstCosts := record.bestEstCosts.set row
      (arith.add old (arith.mul 1 (arith.sub estCost old)))}

def learnTrueCost : CostRecord :=
  let old := record.bestTrueCosts.getD row 0
  {record with
    bestTrueCosts := record.bestTrueCosts.set row
      (arith.add old (arith.mul 1 (arith.sub trueCost old)))}

/-- `1 + compare_rate`. -/
def compareFactor : ℚ := arith.add 1 (arith.round (1/100))

def learnRow : CostRecord :=
  let histCost := record.bestTrueCosts.getD row 0
  if trueCost = histCost ∨
      (trueCost > histCost ∧ trueCost < arith.mul histCost (compareFactor arith)) ∨
      (trueCost < histCost ∧ arith.mul trueCost (compareFactor arith) > histCost) then
    (record.learnFeatures arith row matrixCols features).learnEstCost arith row estCost
  else if arith.mul trueCost (compareFactor arith) < histCost then
    ((record.learnFeatures arith row matrixCols features).learnEstCost arith row
      estCost).learnTrueCost arith row trueCost
  else if arith.mul histCost (compareFactor arith) < trueCost ∧
      estCost < record.bestEstCosts.getD row 0 then
    (record.learnFeatures arith row matrixCols features).learnEstCost arith row estCost
  else record

def appendRow : CostRecord where
  matrix := record.matrix ++ [features.take matrixCols]
  bestEstCosts := record.bestEstCosts ++ [estCost]
  bestTrueCosts := record.bestTrueCosts ++ [trueCost]

end CostRecord

def learn2 (arith : Arithmetic) (matrixCols : Nat) (record : CostRecord) (features : List ℚ)
    (estCost trueCost : ℚ) (k : Nat) : CostRecord :=
  -- A full record always learns into the nearest row, however far it is.
  let dists := distances arith matrixCols record.matrix features
  let nearest := minDistanceId dists
  if record.matrix.length < k then
    if record.matrix ≠ [] ∧ dists.getD nearest 0 < arith.round (1/10) then
      record.learnRow arith nearest matrixCols features estCost trueCost
    else record.appendRow matrixCols features estCost trueCost
  else record.learnRow arith nearest matrixCols features estCost trueCost

/-- The rows of a feature subspace and their targets. -/
structure Samples where
  matrix : List (List ℚ)
  targets : List ℚ
  deriving DecidableEq

namespace Samples

variable (arith : Arithmetic) (samples : Samples) (row matrixCols : Nat) (features : List ℚ)
  (target : ℚ)

def learnRow : Samples :=
  let old := samples.targets.getD row 0
  let rate := arith.round (1/10)
  ⟨samples.matrix.set row (moveTowards arith rate (samples.matrix.getD row [])
      (features.take matrixCols)),
    samples.targets.set row (arith.add old (arith.mul rate (arith.sub target old)))⟩

def appendRow : Samples :=
  ⟨samples.matrix ++ [features.take matrixCols],samples.targets ++ [target]⟩

/-- One neighbour's step of the gradient descent in a full matrix. -/
def descend (root dist result coef1 w wSum : ℚ) : Samples :=
  let old := samples.targets.getD row 0
  let coef2 := arith.div (arith.div
    (arith.mul (arith.mul (arith.mul coef1 (arith.sub old result)) w) w) root) wSum
  ⟨samples.matrix.set row (List.zipWith
      (fun x y => arith.sub x (arith.div (arith.mul coef2 (arith.sub y x)) dist))
      (samples.matrix.getD row []) (features.take matrixCols)),
    samples.targets.set row (arith.sub old (arith.div (arith.mul coef1 w) wSum))⟩

end Samples

def learn (arith : Arithmetic) (matrixCols : Nat) (samples : Samples) (features : List ℚ)
    (target : ℚ) (k : Nat) : Samples :=
  let dists := distances arith matrixCols samples.matrix features
  let nearest := minDistanceId dists
  if samples.matrix.length < k then
    if samples.matrix ≠ [] ∧ dists.getD nearest 0 < arith.round (1/10) then
      samples.learnRow arith nearest matrixCols features target
    else samples.appendRow matrixCols features target
  else
    let weights := computeWeights arith dists k
    let result := arith.sum (shares arith weights samples.targets)
    let coef1 := arith.mul (arith.round (1/10)) (arith.sub result target)
    (List.zip weights.idx weights.w).foldl (fun learned (slot,w) => slot.elim learned fun row =>
      learned.descend arith row matrixCols features (arith.sqrt matrixCols) (dists.getD row 0)
        result coef1 w weights.wSum) samples

end ExploratoryOptimizer.Aqo.OkNNr
