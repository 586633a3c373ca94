import ExploratoryOptimizer.Aqo.Session
import Mathlib.Data.List.GetD
import Mathlib.Tactic.Linarith

/-! `update_two_best_costs_record` of contrib/aqo/plan_generation.c over whole runs: what the best
costs stored for a template say about the executions they were learned from. -/
namespace ExploratoryOptimizer.Aqo.BestCosts
open OkNNr Session Library

/-- An execution as it is recorded. -/
structure Execution where
  template : Nat
  nfeatures : Nat
  features : List ℚ
  estCost : ℚ
  trueCost : ℚ
  deriving DecidableEq

/-! The nearest row. -/

section Nearest

variable (distances : List ℚ)

/-- The search over the first rows. -/
def nearestBelow (rows : Nat) : Nat :=
  (List.range rows).foldl (fun least row => if distances.getD row 0 < distances.getD least 0 then
      row else least) 0

theorem nearestBelow_least (rows : Nat) :
    (0 < rows → nearestBelow distances rows < rows) ∧
      ∀ row < rows, distances.getD (nearestBelow distances rows) 0 ≤ distances.getD row 0 := by
  induction rows with
  | zero =>
    exact ⟨fun none => absurd none (lt_irrefl 0),fun row none => absurd none (Nat.not_lt_zero row)⟩
  | succ rows ih =>
    have next : nearestBelow distances (rows + 1) =
        if distances.getD rows 0 < distances.getD (nearestBelow distances rows) 0 then rows
        else nearestBelow distances rows := by
      rw [nearestBelow,List.range_succ,List.foldl_append]
      rfl
    rw [next]
    split_ifs with nearer
    · refine ⟨fun _ => Nat.lt_succ_self rows,fun row within => ?_⟩
      rcases Nat.lt_succ_iff_lt_or_eq.mp within with before | rfl
      · exact nearer.le.trans (ih.2 row before)
      · exact le_rfl
    · refine ⟨fun _ => ?_,fun row within => ?_⟩
      · rcases Nat.eq_zero_or_pos rows with rfl | some
        · exact Nat.one_pos
        · exact (ih.1 some).trans (Nat.lt_succ_self rows)
      · rcases Nat.lt_succ_iff_lt_or_eq.mp within with before | rfl
        · exact ih.2 row before
        · exact not_lt.mp nearer

theorem minDistanceId_least :
    (distances ≠ [] → minDistanceId distances < distances.length) ∧
      ∀ row < distances.length, distances.getD (minDistanceId distances) 0 ≤ distances.getD row 0 :=
  ⟨fun some => (nearestBelow_least distances _).1 (List.length_pos_of_ne_nil some),
    (nearestBelow_least distances distances.length).2⟩

end Nearest

section Learn

variable (arith : Arithmetic)

/-- The row that an execution is learned into: the nearest one, or a new one behind the others. -/
def targetRow (matrixCols : Nat) (record : CostRecord) (features : List ℚ) (k : Nat) : Nat :=
  let dists := distances arith matrixCols record.matrix features
  let nearest := minDistanceId dists
  if record.matrix.length < k then
    if record.matrix ≠ [] ∧ dists.getD nearest 0 < arith.round (1/10) then nearest
    else record.matrix.length
  else nearest

/-- A stored cost against the true costs that were assigned to its row: it is one of them up to the
rounding of a higher one, and at most one percent above each of them up to rounding. -/
structure RowHonest (stored : ℚ) (costs : List ℚ) : Prop where
  own : ∃ cost ∈ costs, ∃ peak ∈ costs, |stored - cost| ≤ arith.error 1 * peak
  bound : ∀ cost ∈ costs, ∃ peak ∈ costs, stored ≤ (1 + 1/100) * (cost + arith.error 3 * peak)
  reached : ∃ cost ∈ costs, stored ≤ cost
  known : arith.Representable stored

structure Honest (record : CostRecord) (assigned : Nat → List ℚ) : Prop where
  size : record.matrix.length ≤ numTwoCostsSave
  costs : record.bestTrueCosts.length = record.matrix.length
  rows : ∀ row < record.matrix.length,
    RowHonest arith (record.bestTrueCosts.getD row 0) (assigned row)
  unused : ∀ row, record.matrix.length ≤ row → assigned row = []

theorem Honest.start : Honest arith ⟨[],[],[]⟩ fun _ => [] where
  size := Nat.zero_le _
  costs := rfl
  rows := fun row none => absurd none (Nat.not_lt_zero row)
  unused := fun _ _ => rfl

/-! One true cost against the stored one. -/

/-- The stored cost after a true cost was learned: one that is lower by more than the rate replaces
it. -/
def nextCost (stored trueCost : ℚ) : ℚ :=
  if arith.mul trueCost (CostRecord.compareFactor arith) < stored then
    arith.add stored (arith.sub trueCost stored)
  else stored

theorem one_le_compareFactor : 1 ≤ CostRecord.compareFactor arith := by
  have rate : 0 ≤ arith.round (1/100) := arith.round_nonneg _ (by norm_num)
  exact arith.le_round _ _ (le_add_of_nonneg_right rate) arith.one

theorem compareFactor_le : CostRecord.compareFactor arith ≤ arith.growth ^ 2 * (1 + 1/100) := by
  have one : arith.Close 1 1 1 := (arith.close_refl 1).mono zero_le_one zero_le_one zero_le_one
  have rate := (arith.close_refl (1/100)).round (by norm_num)
  have nonneg : 0 ≤ 1 + arith.round (1/100) :=
    add_nonneg zero_le_one (arith.round_nonneg _ (by norm_num))
  exact ((one.add rate).round nonneg).1

section Cost

variable {arith} (trueCost : ℚ) (positive : 0 < trueCost) (known : arith.Representable trueCost)
include positive

theorem mul_compareFactor_le :
    arith.mul trueCost (CostRecord.compareFactor arith) ≤
      (1 + 1/100) * (trueCost + arith.error 3 * trueCost) := by
  have factor := one_le_compareFactor arith
  have nonneg := mul_nonneg positive.le (zero_le_one.trans factor)
  calc arith.mul trueCost (CostRecord.compareFactor arith)
      ≤ arith.growth ^ 1 * (trueCost * CostRecord.compareFactor arith) :=
        ((arith.close_refl _).round nonneg).1
    _ ≤ arith.growth ^ 1 * (trueCost * (arith.growth ^ 2 * (1 + 1/100))) :=
        mul_le_mul_of_nonneg_left (mul_le_mul_of_nonneg_left (compareFactor_le arith) positive.le)
          (pow_nonneg arith.growth_pos.le 1)
    _ = (1 + 1/100) * (trueCost + arith.error 3 * trueCost) := by
        unfold Rounding.error
        ring

include known

theorem le_mul_compareFactor :
    trueCost ≤ arith.mul trueCost (CostRecord.compareFactor arith) :=
  arith.le_round _ _ (le_mul_of_one_le_right positive.le (one_le_compareFactor arith)) known

theorem nextCost_le (stored : ℚ) (also : arith.Representable stored) :
    nextCost arith stored trueCost ≤ stored := by
  unfold nextCost
  split_ifs with lower
  · have below := (le_mul_compareFactor trueCost positive known).trans lower.le
    exact arith.lowered_le stored trueCost below also
  · exact le_rfl

theorem RowHonest.first : RowHonest arith trueCost [trueCost] := by
  have error := mul_nonneg (arith.error_nonneg 3) positive.le
  refine ⟨⟨trueCost,List.mem_singleton_self _,trueCost,List.mem_singleton_self _,?_⟩,?_,
    ⟨trueCost,List.mem_singleton_self _,le_rfl⟩,known⟩
  · rw [sub_self,abs_zero]
    exact mul_nonneg (arith.error_nonneg 1) positive.le
  · intro cost member
    refine ⟨trueCost,List.mem_singleton_self _,?_⟩
    rw [List.mem_singleton.mp member]
    linarith

theorem RowHonest.next {stored : ℚ} {costs : List ℚ} (honest : RowHonest arith stored costs) :
    RowHonest arith (nextCost arith stored trueCost) (costs ++ [trueCost]) := by
  have least := nextCost_le trueCost positive known stored honest.known
  obtain ⟨peak,reached,high⟩ := honest.reached
  have old (cost : ℚ) (member : cost ∈ costs) : ∃ peak ∈ costs ++ [trueCost],
      nextCost arith stored trueCost ≤ (1 + 1/100) * (cost + arith.error 3 * peak) := by
    obtain ⟨other,there,bound⟩ := honest.bound cost member
    exact ⟨other,List.mem_append_left _ there,least.trans bound⟩
  have above : ∃ cost ∈ costs ++ [trueCost], nextCost arith stored trueCost ≤ cost :=
    ⟨peak,List.mem_append_left _ reached,least.trans high⟩
  by_cases lower : arith.mul trueCost (CostRecord.compareFactor arith) < stored
  · have value : nextCost arith stored trueCost = arith.add stored (arith.sub trueCost stored) :=
      if_pos lower
    have below := (le_mul_compareFactor trueCost positive known).trans lower.le
    have near : |nextCost arith stored trueCost - trueCost| ≤ arith.error 1 * peak := by
      rw [value]
      exact (arith.lowered_near stored trueCost positive.le below).trans
        (mul_le_mul_of_nonneg_left high (arith.error_nonneg 1))
    refine ⟨⟨trueCost,List.mem_concat_self,peak,List.mem_append_left _ reached,near⟩,?_,above,?_⟩
    · intro cost member
      rcases List.mem_append.mp member with before | new
      · exact old cost before
      · refine ⟨peak,List.mem_append_left _ reached,?_⟩
        have fewer := mul_le_mul_of_nonneg_right (arith.error_mono 1 3 (by decide))
          (positive.le.trans (below.trans high))
        have share := mul_nonneg (arith.error_nonneg 3) (positive.le.trans (below.trans high))
        rw [List.mem_singleton.mp new]
        linarith [(abs_le.mp near).2]
    · rw [value]
      exact arith.representable_round _
  · have value : nextCost arith stored trueCost = stored := if_neg lower
    obtain ⟨cost,assigned,other,there,near⟩ := honest.own
    refine ⟨⟨cost,List.mem_append_left _ assigned,other,List.mem_append_left _ there,?_⟩,?_,above,
      ?_⟩
    · rw [value]
      exact near
    · intro cost member
      rcases List.mem_append.mp member with before | new
      · exact old cost before
      · refine ⟨trueCost,List.mem_concat_self,?_⟩
        rw [List.mem_singleton.mp new,value]
        exact (not_lt.mp lower).trans (mul_compareFactor_le trueCost positive)
    · rw [value]
      exact honest.known

end Cost

theorem learnRow_length (record : CostRecord) (row matrixCols : Nat) (features : List ℚ)
    (estCost trueCost : ℚ) :
    (record.learnRow arith row matrixCols features estCost trueCost).matrix.length =
      record.matrix.length := by
  simp only [CostRecord.learnRow]
  split_ifs
  · exact List.length_set
  · exact List.length_set
  · exact List.length_set
  · rfl

/-- None of the other cases writes the true cost. -/
theorem learnRow_trueCosts (record : CostRecord) (row matrixCols : Nat) (features : List ℚ)
    (estCost trueCost : ℚ) (positive : 0 < trueCost) (known : arith.Representable trueCost) :
    (record.learnRow arith row matrixCols features estCost trueCost).bestTrueCosts =
      record.bestTrueCosts.set row (nextCost arith (record.bestTrueCosts.getD row 0) trueCost) := by
  simp only [CostRecord.learnRow,nextCost]
  by_cases less : arith.mul trueCost (CostRecord.compareFactor arith) <
      record.bestTrueCosts.getD row 0
  · have below := (le_mul_compareFactor trueCost positive known).trans_lt less
    have differs : ¬(trueCost = record.bestTrueCosts.getD row 0 ∨
        (trueCost > record.bestTrueCosts.getD row 0 ∧
          trueCost < arith.mul (record.bestTrueCosts.getD row 0) (CostRecord.compareFactor arith)) ∨
        (trueCost < record.bestTrueCosts.getD row 0 ∧
          arith.mul trueCost (CostRecord.compareFactor arith) >
          record.bestTrueCosts.getD row 0)) := by
      rintro (same | ⟨above,_⟩ | ⟨_,near⟩)
      · exact below.ne same
      · exact lt_asymm below above
      · exact lt_asymm less near
    -- a learning rate of one
    have moved (old : ℚ) : arith.add old (arith.mul 1 (arith.sub trueCost old)) =
        arith.add old (arith.sub trueCost old) := by
      rw [Rounding.mul,one_mul,Rounding.sub,arith.idem]
    rw [if_neg differs,if_pos less,if_pos less]
    exact congrArg (record.bestTrueCosts.set row ·) (moved _)
  · have unchanged : record.bestTrueCosts.set row (record.bestTrueCosts.getD row 0) =
        record.bestTrueCosts := by
      rcases Nat.lt_or_ge row record.bestTrueCosts.length with within | beyond
      · rw [List.getD_eq_getElem _ _ within,List.set_getElem_self]
      · exact List.set_eq_of_length_le beyond
    rw [if_neg less,if_neg less,unchanged]
    split_ifs
    · rfl
    · rfl
    · rfl

theorem learnRow_getD (record : CostRecord) (target matrixCols : Nat) (features : List ℚ)
    (estCost trueCost : ℚ) (positive : 0 < trueCost) (known : arith.Representable trueCost)
    (within : target < record.bestTrueCosts.length) (row : Nat) :
    (record.learnRow arith target matrixCols features estCost trueCost).bestTrueCosts.getD row 0 =
      if row = target then nextCost arith (record.bestTrueCosts.getD target 0) trueCost
      else record.bestTrueCosts.getD row 0 := by
  rw [learnRow_trueCosts arith record target matrixCols features estCost trueCost positive known]
  split_ifs with here
  · rw [here,List.getD_eq_getElem?_getD,List.getElem?_set_self within,Option.getD_some]
  · rw [List.getD_eq_getElem?_getD,List.getElem?_set_ne (Ne.symm here),← List.getD_eq_getElem?_getD]

theorem length_distances (matrixCols : Nat) (matrix : List (List ℚ)) (features : List ℚ) :
    (distances arith matrixCols matrix features).length = matrix.length := List.length_map _

theorem getD_distances (matrixCols : Nat) (matrix : List (List ℚ)) (features : List ℚ) (row : Nat)
    (within : row < matrix.length) :
    (distances arith matrixCols matrix features).getD row 0 = fsDistance arith
      (matrix.getD row []) features matrixCols := by
  rw [List.getD_eq_getElem _ _ (by rwa [length_distances]),List.getD_eq_getElem _ _ within]
  exact List.getElem_map _

theorem nearest_row (matrixCols : Nat) (matrix : List (List ℚ)) (features : List ℚ)
    (some : matrix ≠ []) :
    let nearest := minDistanceId (distances arith matrixCols matrix features)
    nearest < matrix.length ∧ ∀ row < matrix.length,
      fsDistance arith (matrix.getD nearest []) features matrixCols ≤ fsDistance arith
      (matrix.getD row []) features matrixCols := by
  intro nearest
  obtain ⟨bound,least⟩ := minDistanceId_least (distances arith matrixCols matrix features)
  rw [length_distances] at bound least
  have within := bound fun none => some (List.map_eq_nil_iff.mp none)
  refine ⟨within,fun row here => ?_⟩
  rw [← getD_distances arith matrixCols matrix features _ within,
    ← getD_distances arith matrixCols matrix features row here]
  exact least row here

/-- An execution is assigned to a new row, or to the row whose features are nearest. -/
theorem targetRow_nearest (matrixCols : Nat) (record : CostRecord) (features : List ℚ) (k : Nat)
    (room : 0 < k) :
    let target := targetRow arith matrixCols record features k
    (target = record.matrix.length ∧ record.matrix.length < k) ∨
      (target < record.matrix.length ∧ ∀ row < record.matrix.length,
        fsDistance arith (record.matrix.getD target []) features matrixCols ≤
          fsDistance arith (record.matrix.getD row []) features matrixCols) := by
  intro target
  unfold target
  simp only [targetRow]
  split_ifs with notFull near
  · exact .inr (nearest_row arith matrixCols record.matrix features near.1)
  · exact .inl ⟨rfl,notFull⟩
  · refine .inr (nearest_row arith matrixCols record.matrix features fun none => notFull ?_)
    rw [none]
    exact room

/-- An execution is learned into a row that is there, or appended. -/
theorem learn2_cases (matrixCols : Nat) (record : CostRecord) (features : List ℚ)
    (estCost trueCost : ℚ) (k : Nat) (room : 0 < k) :
    let target := targetRow arith matrixCols record features k
    let learned := learn2 arith matrixCols record features estCost trueCost k
    (target < record.matrix.length ∧ learned = record.learnRow arith target matrixCols features
        estCost trueCost) ∨
      (target = record.matrix.length ∧ record.matrix.length < k ∧
        learned = record.appendRow matrixCols features estCost trueCost) := by
  intro target learned
  unfold target learned
  simp only [targetRow,learn2]
  split_ifs with notFull near
  · exact .inl ⟨(nearest_row arith matrixCols record.matrix features near.1).1,rfl⟩
  · exact .inr ⟨rfl,notFull,rfl⟩
  · refine .inl ⟨(nearest_row arith matrixCols record.matrix features fun none => notFull ?_).1,rfl⟩
    rw [none]
    exact room

section Step

variable {record : CostRecord} {assigned : Nat → List ℚ} (honest : Honest arith record assigned)
  (matrixCols : Nat) (features : List ℚ) (estCost trueCost : ℚ) (positive : 0 < trueCost)
  (known : arith.Representable trueCost)
include honest positive known

theorem Honest.learnRow (target : Nat) (within : target < record.matrix.length) :
    Honest arith (record.learnRow arith target matrixCols features estCost trueCost)
      (Function.update assigned target (assigned target ++ [trueCost])) := by
  have length := learnRow_length arith record target matrixCols features estCost trueCost
  have value :=
    learnRow_getD arith record target matrixCols features estCost trueCost positive known
      (honest.costs ▸ within)
  refine ⟨length.trans_le honest.size,?_,fun row here => ?_,fun row beyond => ?_⟩
  · rw [length,learnRow_trueCosts arith record target matrixCols features estCost trueCost positive
      known,List.length_set]
    exact honest.costs
  · rw [length] at here
    rw [value row]
    split_ifs with same
    · rw [same,Function.update_self]
      exact (honest.rows target within).next trueCost positive known
    · rw [Function.update_of_ne same]
      exact honest.rows row here
  · rw [length] at beyond
    rw [Function.update_of_ne (by omega)]
    exact honest.unused row beyond

theorem Honest.appendRow (notFull : record.matrix.length < numTwoCostsSave) :
    Honest arith (record.appendRow matrixCols features estCost trueCost)
      (Function.update assigned record.matrix.length
        (assigned record.matrix.length ++ [trueCost])) := by
  have length : (record.appendRow matrixCols features estCost trueCost).matrix.length =
      record.matrix.length + 1 := List.length_append
  have fresh : assigned record.matrix.length = [] := honest.unused _ le_rfl
  refine ⟨length.trans_le notFull,?_,fun row here => ?_,fun row beyond => ?_⟩
  · rw [length]
    exact List.length_append.trans (congrArg (· + 1) honest.costs)
  · rw [length] at here
    rcases Nat.lt_succ_iff_lt_or_eq.mp here with before | rfl
    · have kept : (record.appendRow matrixCols features estCost trueCost).bestTrueCosts.getD row 0 =
          record.bestTrueCosts.getD row 0 := List.getD_append _ _ _ _ (honest.costs ▸ before)
      rw [kept,Function.update_of_ne before.ne]
      exact honest.rows row before
    · have last := List.getD_append_right record.bestTrueCosts [trueCost] 0 record.matrix.length
        honest.costs.le
      rw [honest.costs,Nat.sub_self] at last
      rw [Function.update_self,fresh,List.nil_append]
      exact last ▸ RowHonest.first trueCost positive known
  · rw [length] at beyond
    rw [Function.update_of_ne (by omega)]
    exact honest.unused row (by omega)

theorem Honest.learn2 :
    Honest arith (learn2 arith matrixCols record features estCost trueCost numTwoCostsSave)
      (let target := targetRow arith matrixCols record features numTwoCostsSave
       Function.update assigned target (assigned target ++ [trueCost])) := by
  rcases learn2_cases arith matrixCols record features estCost trueCost numTwoCostsSave
    (Nat.zero_lt_succ 65) with ⟨within,learned⟩ | ⟨new,notFull,learned⟩
  · rw [learned]
    exact honest.learnRow arith matrixCols features estCost trueCost positive known _ within
  · rw [learned]
    dsimp only
    rw [new]
    exact honest.appendRow arith matrixCols features estCost trueCost positive known notFull

/-- A stored cost never goes up, and no row goes away. -/
theorem Honest.learn2_le :
    let learned := OkNNr.learn2 arith matrixCols record features estCost trueCost numTwoCostsSave
    record.matrix.length ≤ learned.matrix.length ∧
      ∀ row < record.matrix.length,
        learned.bestTrueCosts.getD row 0 ≤ record.bestTrueCosts.getD row 0 := by
  intro learned
  rcases learn2_cases arith matrixCols record features estCost trueCost numTwoCostsSave
    (Nat.zero_lt_succ 65) with ⟨within,into⟩ | ⟨_,_,appended⟩
  · have into : learned = _ := into
    rw [into]
    refine ⟨(learnRow_length arith record _ matrixCols features estCost trueCost).ge,
      fun row _ => ?_⟩
    rw [learnRow_getD arith record _ matrixCols features estCost trueCost positive known
      (honest.costs ▸ within)]
    split_ifs with same
    · rw [same]
      exact nextCost_le trueCost positive known _ (honest.rows _ within).known
    · exact le_rfl
  · have appended : learned = _ := appended
    rw [appended]
    refine ⟨List.length_append.ge.trans' (Nat.le_succ _),fun row here => ?_⟩
    exact (List.getD_append _ _ _ _ (honest.costs ▸ here)).le

end Step

end Learn

/-! Runs through the stored table. -/

section Runs

variable (arith : Arithmetic)

def execute (tables : Tables) (execution : Execution) : Tables :=
  updateTwoBestCostsRecord arith tables execution.template execution.nfeatures execution.features
    execution.estCost execution.trueCost

def storedRecord (tables : Tables) (template nfeatures : Nat) : CostRecord :=
  (loadBestTwoCosts tables template nfeatures).getD ⟨[],[],[]⟩

/-- What is written for an execution. -/
def learnedRecord (tables : Tables) (execution : Execution) : CostRecord :=
  learn2 arith execution.nfeatures (storedRecord tables execution.template execution.nfeatures)
    execution.features execution.estCost execution.trueCost numTwoCostsSave

theorem execute_row (tables : Tables) (execution : Execution) :
    (execute arith tables execution).bestTwoCosts execution.template =
      some ⟨(tables.bestTwoCosts execution.template).elim execution.nfeatures (·.nfeatures),
        learnedRecord arith tables execution⟩ := by
  refine (Function.update_self _ _ _).trans ?_
  cases tables.bestTwoCosts execution.template with
  | none => rfl
  | some costs => rfl

theorem execute_other (tables : Tables) (execution : Execution) (template : Nat)
    (other : execution.template ≠ template) :
    (execute arith tables execution).bestTwoCosts template = tables.bestTwoCosts template :=
  Function.update_of_ne other.symm _ _

theorem storedRecord_congr (tables tables' : Tables) (template nfeatures : Nat)
    (same : tables.bestTwoCosts template = tables'.bestTwoCosts template) :
    storedRecord tables template nfeatures = storedRecord tables' template nfeatures := by
  rw [storedRecord,loadBestTwoCosts,same,storedRecord,loadBestTwoCosts]

/-- The row of the template has been written with this number of features, if it is there. -/
def Fits (tables : Tables) (template nfeatures : Nat) : Prop :=
  ∀ costs, tables.bestTwoCosts template = some costs → costs.nfeatures = nfeatures

theorem execute_fits (tables : Tables) (execution : Execution)
    (fits : Fits tables execution.template execution.nfeatures) :
    Fits (execute arith tables execution) execution.template execution.nfeatures ∧
      storedRecord (execute arith tables execution) execution.template execution.nfeatures =
        learnedRecord arith tables execution := by
  have width : (tables.bestTwoCosts execution.template).elim execution.nfeatures (·.nfeatures) =
    execution.nfeatures := by
    cases row : tables.bestTwoCosts execution.template with
    | none => rfl
    | some costs => exact fits costs row
  have row := execute_row arith tables execution
  rw [width] at row
  refine ⟨fun costs found => ?_,?_⟩
  · rw [row] at found
    rw [← Option.some.inj found]
  · rw [storedRecord,loadBestTwoCosts,row]
    simp

/-- The tables of a run, and the true costs of a template's executions by the row they were assigned
to. -/
structure Ledger where
  tables : Tables
  assigned : Nat → List ℚ

def assign (template : Nat) (ledger : Ledger) (execution : Execution) : Ledger where
  tables := execute arith ledger.tables execution
  assigned :=
    if execution.template = template then
      let record := storedRecord ledger.tables template execution.nfeatures
      let target := targetRow arith execution.nfeatures record execution.features numTwoCostsSave
      Function.update ledger.assigned target (ledger.assigned target ++ [execution.trueCost])
    else ledger.assigned

def recorded (template : Nat) (tables : Tables) (executions : List Execution) : Ledger :=
  executions.foldl (assign arith template) ⟨tables,fun _ => []⟩

structure Kept (template nfeatures : Nat) (ledger : Ledger) : Prop where
  fits : Fits ledger.tables template nfeatures
  honest : Honest arith (storedRecord ledger.tables template nfeatures) ledger.assigned

/-- The executions of the template have this number of features and a positive double as true
cost. -/
def Valid (template nfeatures : Nat) (execution : Execution) : Prop :=
  execution.template = template →
    execution.nfeatures = nfeatures ∧ 0 < execution.trueCost ∧
    arith.Representable execution.trueCost

variable {arith} in
theorem Kept.assign {template nfeatures : Nat} {ledger : Ledger}
    (kept : Kept arith template nfeatures ledger) (execution : Execution)
    (valid : Valid arith template nfeatures execution) :
    Kept arith template nfeatures (assign arith template ledger execution) := by
  by_cases mine : execution.template = template
  · obtain ⟨rfl,positive,known⟩ := valid mine
    subst mine
    obtain ⟨fits,stored⟩ := execute_fits arith ledger.tables execution kept.fits
    refine ⟨fits,?_⟩
    have learned := kept.honest.learn2 arith execution.nfeatures execution.features
      execution.estCost execution.trueCost positive known
    change Honest arith (storedRecord (execute arith ledger.tables execution) _ _)
      (if _ then _ else _)
    rw [stored,if_pos rfl]
    exact learned
  · have same := execute_other arith ledger.tables execution template mine
    refine ⟨fun costs found => kept.fits costs (same.symm.trans found),?_⟩
    change Honest arith (storedRecord (execute arith ledger.tables execution) _ _)
      (if _ then _ else _)
    rw [storedRecord_congr _ _ template nfeatures same,if_neg mine]
    exact kept.honest

variable {arith} in
theorem Kept.run {template nfeatures : Nat} {ledger : Ledger}
    (kept : Kept arith template nfeatures ledger) (executions : List Execution)
    (valid : ∀ execution ∈ executions, Valid arith template nfeatures execution) :
    Kept arith template nfeatures (executions.foldl (BestCosts.assign arith template) ledger) := by
  induction executions generalizing ledger with
  | nil => exact kept
  | cons execution executions ih =>
    obtain ⟨first,rest⟩ := List.forall_mem_cons.mp valid
    exact ih (kept.assign execution first) rest

theorem recorded_kept (template nfeatures : Nat) (tables : Tables)
    (fresh : tables.bestTwoCosts template = none) (executions : List Execution)
    (valid : ∀ execution ∈ executions, Valid arith template nfeatures execution) :
    Kept arith template nfeatures (recorded arith template tables executions) := by
  have start : Kept arith template nfeatures ⟨tables,fun _ => []⟩ := by
    refine ⟨fun costs found => absurd (fresh.symm.trans found) (Option.some_ne_none costs).symm,?_⟩
    rw [storedRecord,loadBestTwoCosts,fresh]
    exact .start arith
  exact start.run executions valid

/-- The best costs of a template are, up to rounding, those of executions that were assigned to
their rows, and at most one percent above the true cost of any of them. -/
theorem best_costs_honest (template nfeatures : Nat) (tables : Tables)
    (fresh : tables.bestTwoCosts template = none) (executions : List Execution)
    (valid : ∀ execution ∈ executions, Valid arith template nfeatures execution) :
    let ledger := recorded arith template tables executions
    let record := storedRecord ledger.tables template nfeatures
    (record.matrix.length ≤ numTwoCostsSave ∧ record.bestTrueCosts.length = record.matrix.length) ∧
      (∀ row < record.matrix.length,
        (∃ cost ∈ ledger.assigned row, ∃ peak ∈ ledger.assigned row,
          |record.bestTrueCosts.getD row 0 - cost| ≤ arith.error 1 * peak) ∧
        ∀ cost ∈ ledger.assigned row, ∃ peak ∈ ledger.assigned row,
          record.bestTrueCosts.getD row 0 ≤ (1 + 1/100) * (cost + arith.error 3 * peak)) ∧
      (∀ features : List ℚ,
        let target := targetRow arith nfeatures record features numTwoCostsSave
        (target = record.matrix.length ∧ record.matrix.length < numTwoCostsSave) ∨
          (target < record.matrix.length ∧ ∀ row < record.matrix.length,
            fsDistance arith (record.matrix.getD target []) features nfeatures ≤
              fsDistance arith (record.matrix.getD row []) features nfeatures)) ∧
      ∀ next : Execution, Valid arith template nfeatures next →
        let later := storedRecord (execute arith ledger.tables next) template nfeatures
        record.matrix.length ≤ later.matrix.length ∧
          ∀ row < record.matrix.length,
            later.bestTrueCosts.getD row 0 ≤ record.bestTrueCosts.getD row 0 := by
  intro ledger record
  have kept : Kept arith template nfeatures ledger :=
    recorded_kept arith template nfeatures tables fresh executions valid
  have honest : Honest arith record ledger.assigned := kept.honest
  refine ⟨⟨honest.size,honest.costs⟩,
    fun row within => ⟨(honest.rows row within).own,(honest.rows row within).bound⟩,
    fun features =>
      targetRow_nearest arith nfeatures record features numTwoCostsSave (Nat.zero_lt_succ 65),?_⟩
  intro next legal later
  by_cases mine : next.template = template
  · obtain ⟨rfl,positive,known⟩ := legal mine
    subst mine
    have stored : later = learnedRecord arith ledger.tables next :=
      (execute_fits arith ledger.tables next kept.fits).2
    rw [stored]
    exact honest.learn2_le arith next.nfeatures next.features next.estCost
      next.trueCost positive known
  · have same : later = record := storedRecord_congr _ _ template nfeatures
      (execute_other arith ledger.tables next template mine)
    rw [same]
    exact ⟨le_rfl,fun _ _ => le_rfl⟩

end Runs

def emptyTables : Tables := ⟨fun _ => none,fun _ => none,fun _ => none⟩

/-- Two executions of one template with the same features and true costs 1.1 and 0.3, the second one
faster. -/
def sameFeatures : List Execution :=
  [⟨1,2,[0,0],5,Binary.double.round (11/10)⟩,⟨1,2,[0,0],4,Binary.double.round (3/10)⟩]

theorem best_costs_honest_faster :
    ∃ cost ∈ (recorded (.double Rat.sqrt) 1 emptyTables sameFeatures).assigned 0,
      ∃ peak ∈ (recorded (.double Rat.sqrt) 1 emptyTables sameFeatures).assigned 0,
        |(storedRecord (recorded (.double Rat.sqrt) 1 emptyTables sameFeatures).tables 1
          2).bestTrueCosts.getD 0 0 - cost| ≤ (Arithmetic.double Rat.sqrt).error 1 * peak := by
  have valid : ∀ execution ∈ sameFeatures, Valid (.double Rat.sqrt) 1 2 execution := by
    intro execution member
    simp only [sameFeatures,List.mem_cons,List.not_mem_nil,or_false] at member
    rcases member with rfl | rfl
    · exact fun _ => ⟨rfl,by decide +kernel,Rounding.representable_round _ _⟩
    · exact fun _ => ⟨rfl,by decide +kernel,Rounding.representable_round _ _⟩
  have honest := best_costs_honest (.double Rat.sqrt) 1 2 emptyTables rfl sameFeatures valid
  exact (honest.2.1 0 (by decide +kernel)).1

/-- What is stored is 0.30000000000000004, which no execution took. -/
theorem stored_cost_rounded :
    (storedRecord (recorded (.double Rat.sqrt) 1 emptyTables sameFeatures).tables 1
        2).bestTrueCosts = [5404319552844596 / 2 ^ 54] ∧
      (recorded (.double Rat.sqrt) 1 emptyTables sameFeatures).assigned 0 =
        [4953959590107546 / 2 ^ 52,5404319552844595 / 2 ^ 54] ∧
      ∀ cost ∈ (recorded (.double Rat.sqrt) 1 emptyTables sameFeatures).assigned 0,
        cost ≠ 5404319552844596 / 2 ^ 54 := by
  decide +kernel

/-! The number of features that is stored, against the rows that are. -/

section Width

variable (arith : Arithmetic)

/-- Every row of the stored matrix has as many columns as the row of the table says, so that a
caller who is given the matrix has room for it. -/
structure SelfConsistent (tables : Tables) (template : Nat) : Prop where
  columns : ∀ costs, tables.bestTwoCosts template = some costs → ∀ row ∈ costs.record.matrix,
    row.length = costs.nfeatures
  loads : ∀ nfeatures record, loadBestTwoCosts tables template nfeatures = some record →
    ∀ row ∈ record.matrix, row.length ≤ nfeatures

theorem SelfConsistent.of_columns {tables : Tables} {template : Nat}
    (columns : ∀ costs, tables.bestTwoCosts template = some costs → ∀ row ∈ costs.record.matrix,
      row.length = costs.nfeatures) : SelfConsistent tables template := by
  refine ⟨columns,fun nfeatures record loaded row member => ?_⟩
  obtain ⟨costs,found,here⟩ := Option.bind_eq_some_iff.mp loaded
  split_ifs at here with same
  rw [← Option.some.inj here] at member
  rw [← same]
  exact (columns costs found row member).le

theorem learnRow_columns (record : CostRecord) (target matrixCols : Nat) (features : List ℚ)
    (estCost trueCost : ℚ) (within : target < record.matrix.length)
    (length : features.length = matrixCols)
    (columns : ∀ row ∈ record.matrix, row.length = matrixCols) :
    ∀ row ∈ (record.learnRow arith target matrixCols features estCost trueCost).matrix,
      row.length = matrixCols := by
  have moved :
    ∀ row ∈ record.matrix.set target (moveTowards arith (arith.round (1/10))
        (record.matrix.getD target [])
      (features.take matrixCols)), row.length = matrixCols := by
    intro row member
    rcases List.mem_or_eq_of_mem_set member with old | rfl
    · exact columns row old
    · have before := columns _ (List.getElem_mem within)
      rw [moveTowards,List.length_zipWith,List.length_take,
        List.getD_eq_getElem _ _ within,before,length]
      omega
  simp only [CostRecord.learnRow]
  split_ifs
  · exact moved
  · exact moved
  · exact moved
  · exact columns

theorem appendRow_columns (record : CostRecord) (matrixCols : Nat) (features : List ℚ)
    (estCost trueCost : ℚ) (length : features.length = matrixCols)
    (columns : ∀ row ∈ record.matrix, row.length = matrixCols) :
    ∀ row ∈ (record.appendRow matrixCols features estCost trueCost).matrix,
      row.length = matrixCols := by
  intro row member
  rcases List.mem_append.mp member with old | new
  · exact columns row old
  · rw [List.mem_singleton.mp new,List.length_take,length,Nat.min_self]

theorem learn2_columns (record : CostRecord) (matrixCols : Nat) (features : List ℚ)
    (estCost trueCost : ℚ) (length : features.length = matrixCols)
    (columns : ∀ row ∈ record.matrix, row.length = matrixCols) :
    ∀ row ∈ (learn2 arith matrixCols record features estCost trueCost numTwoCostsSave).matrix,
      row.length = matrixCols := by
  rcases learn2_cases arith matrixCols record features estCost trueCost numTwoCostsSave
    (Nat.zero_lt_succ 65) with
    ⟨within,learned⟩ | ⟨_,_,learned⟩
  · rw [learned]
    exact learnRow_columns arith record _ matrixCols features estCost trueCost within length columns
  · rw [learned]
    exact appendRow_columns record matrixCols features estCost trueCost length columns

/-- What is written has the columns of the execution, whatever was loaded before it. -/
theorem learnedRecord_columns (tables : Tables) (execution : Execution)
    (consistent : SelfConsistent tables execution.template)
    (length : execution.features.length = execution.nfeatures) :
    ∀ row ∈ (learnedRecord arith tables execution).matrix, row.length = execution.nfeatures := by
  refine learn2_columns arith _ execution.nfeatures execution.features execution.estCost
    execution.trueCost length ?_
  intro row member
  unfold storedRecord loadBestTwoCosts at member
  cases found : tables.bestTwoCosts execution.template with
  | none =>
    rw [found] at member
    cases member
  | some costs =>
    rw [found,Option.bind_some] at member
    split_ifs at member with same
    · exact (consistent.columns costs found row member).trans same
    · cases member

theorem learnedRecord_some (tables : Tables) (execution : Execution) :
    (learnedRecord arith tables execution).matrix ≠ [] := by
  unfold learnedRecord
  rcases learn2_cases arith execution.nfeatures
    (storedRecord tables execution.template execution.nfeatures) execution.features
    execution.estCost execution.trueCost numTwoCostsSave (Nat.zero_lt_succ 65) with
    ⟨within,learned⟩ | ⟨_,_,learned⟩
  · rw [learned]
    refine List.ne_nil_of_length_pos ?_
    rw [learnRow_length]
    exact Nat.zero_lt_of_lt within
  · rw [learned]
    exact List.concat_ne_nil _ _

/-- An execution with another number of features than the stored one leaves an inconsistent row. -/
theorem execute_consistent_iff (tables : Tables) (execution : Execution)
    (consistent : SelfConsistent tables execution.template)
    (length : execution.features.length = execution.nfeatures) :
    SelfConsistent (execute arith tables execution) execution.template ↔
      Fits tables execution.template execution.nfeatures := by
  have row := execute_row arith tables execution
  have written := learnedRecord_columns arith tables execution consistent length
  constructor
  · intro after costs found
    obtain ⟨first,member⟩ := List.exists_mem_of_ne_nil _ (learnedRecord_some arith tables execution)
    have stored := after.columns _ row first member
    rw [written first member,found] at stored
    exact stored.symm
  · intro fits
    refine .of_columns fun costs found other member => ?_
    rw [row] at found
    have same := (Option.some.inj found).symm
    subst same
    rw [written other member]
    cases before : tables.bestTwoCosts execution.template with
    | none => rfl
    | some costs => exact (fits costs before).symm

theorem SelfConsistent.congr {tables tables' : Tables} {template : Nat}
    (consistent : SelfConsistent tables template)
    (same : tables'.bestTwoCosts template = tables.bestTwoCosts template) :
    SelfConsistent tables' template :=
  .of_columns fun costs found => consistent.columns costs (same.symm.trans found)

theorem exists_fits (tables : Tables) (template : Nat) : ∃ width, Fits tables template width := by
  cases row : tables.bestTwoCosts template with
  | none =>
    exact ⟨0,fun costs found => absurd (row.symm.trans found) (Option.some_ne_none costs).symm⟩
  | some costs =>
    exact ⟨costs.nfeatures,fun other found => by rw [Option.some.inj (found.symm.trans row)]⟩

/-- After an execution the table says how many features it had, if it was the first or had as many
as it said before. -/
theorem execute_fits_iff (tables : Tables) (execution : Execution)
    (fits : Fits tables execution.template execution.nfeatures) (width : Nat) :
    Fits (execute arith tables execution) execution.template width ↔
      execution.nfeatures = width := by
  have row := execute_row arith tables execution
  have after := (execute_fits arith tables execution fits).1 _ row
  exact ⟨fun other => after.symm.trans (other _ row),fun same =>
    same ▸ (execute_fits arith tables execution fits).1⟩

/-- The row of a template is consistent after every execution exactly when all its executions have
the number of features that it was first stored with: the column is not replaced when the matrix
is. -/
theorem self_consistent_iff (template : Nat) (tables : Tables)
    (start : SelfConsistent tables template) (executions : List Execution)
    (lengths : ∀ execution ∈ executions, execution.features.length = execution.nfeatures) :
    (∀ calls, SelfConsistent ((executions.take calls).foldl (execute arith) tables) template) ↔
      ∃ width, Fits tables template width ∧
        ∀ execution ∈ executions, execution.template = template → execution.nfeatures = width := by
  induction executions generalizing tables with
  | nil =>
    obtain ⟨width,fits⟩ := exists_fits tables template
    refine ⟨fun _ => ⟨width,fits,List.forall_mem_nil _⟩,fun _ calls => ?_⟩
    rw [List.take_nil]
    exact start
  | cons execution executions ih =>
    obtain ⟨first,rest⟩ := List.forall_mem_cons.mp lengths
    have split :
      (∀ calls, SelfConsistent (((execution :: executions).take calls).foldl (execute arith) tables)
          template) ↔
        ∀ calls, SelfConsistent ((executions.take calls).foldl (execute arith)
            (execute arith tables execution)) template := by
      refine ⟨fun all calls => all (calls + 1),fun later calls => ?_⟩
      cases calls with
      | zero => exact start
      | succ calls => exact later calls
    rw [split]
    by_cases mine : execution.template = template
    · subst mine
      by_cases fits : Fits tables execution.template execution.nfeatures
      · have next := (execute_consistent_iff arith tables execution start first).mpr fits
        rw [ih _ next rest]
        refine exists_congr fun width => ?_
        rw [execute_fits_iff arith tables execution fits width,List.forall_mem_cons]
        refine ⟨fun ⟨same,others⟩ => ⟨same ▸ fits,fun _ => same,others⟩,fun ⟨_,same,others⟩ =>
          ⟨same rfl,others⟩⟩
      · -- The execution itself breaks the row.
        refine ⟨fun all => ?_,fun ⟨width,before,all⟩ => ?_⟩
        · exact absurd ((execute_consistent_iff arith tables execution start first).mp (all 0)) fits
        · have same := (List.forall_mem_cons.mp all).1 rfl
          exact absurd (same ▸ before) fits
    · have same := execute_other arith tables execution template mine
      have kept (width : Nat) : Fits (execute arith tables execution) template width ↔
        Fits tables template width := by
        rw [Fits,same,Fits]
      rw [ih _ (start.congr same) rest]
      refine exists_congr fun width => ?_
      rw [kept width,List.forall_mem_cons]
      exact and_congr_right fun _ => ⟨fun others => ⟨fun here => absurd here mine,others⟩,And.right⟩

end Width

theorem emptyTables_consistent : SelfConsistent emptyTables 1 :=
  .of_columns fun costs found => absurd found (Option.some_ne_none costs).symm

theorem self_consistent_iff_same :
    SelfConsistent (sameFeatures.foldl (execute (.double Rat.sqrt)) emptyTables) 1 :=
  (self_consistent_iff (.double Rat.sqrt) 1 emptyTables emptyTables_consistent sameFeatures
    (by decide +kernel)).mpr
    ⟨2,fun costs found => absurd found (Option.some_ne_none costs).symm,by decide +kernel⟩ 2

/-- Two executions of one template, with one and then with two features. -/
def wider : List Execution := [⟨1,1,[0],5,100⟩,⟨1,2,[0,0],5,100⟩]

/-- A caller with one feature is given rows of two. -/
theorem self_consistent_fails :
    (wider.foldl (execute (.double Rat.sqrt)) emptyTables).bestTwoCosts 1 =
        some ⟨1,⟨[[0,0]],[5],[100]⟩⟩ ∧
      loadBestTwoCosts (wider.foldl (execute (.double Rat.sqrt)) emptyTables) 1 1 =
        some ⟨[[0,0]],[5],[100]⟩ ∧
      ¬SelfConsistent (wider.foldl (execute (.double Rat.sqrt)) emptyTables) 1 := by
  have row : (wider.foldl (execute (.double Rat.sqrt)) emptyTables).bestTwoCosts 1 =
      some ⟨1,⟨[[0,0]],[5],[100]⟩⟩ := by
    decide +kernel
  refine ⟨row,by decide +kernel,fun consistent => ?_⟩
  exact absurd (consistent.columns _ row [0,0] (List.mem_singleton_self _)) (by decide)

end ExploratoryOptimizer.Aqo.BestCosts
