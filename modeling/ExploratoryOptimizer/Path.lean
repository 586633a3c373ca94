import Mathlib.Algebra.Order.Ring.Rat
import Mathlib.Data.Finset.Basic
import Mathlib.Data.Prod.Lex
import Mathlib.Tactic.Linarith

/-! Planner data and path comparisons of nodes/relation.h and util/pathnode.c.
Costs, row counts and explore values are exact rationals. A pointer that the planner only
compares for identity (a path, a path key, a restriction clause) is a number; a path carries
its own address, so equal records are the same object. -/
namespace ExploratoryOptimizer

abbrev Relids := Finset Nat

abbrev PathKey := Nat

abbrev ClauseRef := Nat

inductive PathTag where
  | path
  | indexPath
  | bitmapHeapPath
  | bitmapAndPath
  | bitmapOrPath
  | tidPath
  | subqueryScanPath
  | foreignPath
  | nestPath
  | mergePath
  | hashPath
  | appendPath
  | mergeAppendPath
  | resultPath
  | materialPath
  | uniquePath
  | gatherPath
  | gatherMergePath
  | projectionPath
  | projectSetPath
  | sortPath
  | groupPath
  | upperUniquePath
  | aggPath
  | groupingSetsPath
  | minMaxAggPath
  | windowAggPath
  | setOpPath
  | recursiveUnionPath
  | lockRowsPath
  | modifyTablePath
  | limitPath
  deriving DecidableEq

structure ParamPathInfo where
  reqOuter : Relids
  rows : ℚ
  clauses : List ClauseRef
  exploreValue : ℚ
  deriving DecidableEq

/-- The part of a RelOptInfo that its paths read through `parent`. -/
structure RelCore where
  relid : Nat
  relids : Relids
  lateralRelids : Relids
  rows : ℚ
  exploreValue : ℚ
  considerStartup : Bool
  considerParamStartup : Bool
  considerParallel : Bool
  baserestrictinfo : List ClauseRef
  deriving DecidableEq

structure Path where
  address : Nat
  type : PathTag
  parent : RelCore
  paramInfo : Option ParamPathInfo
  parallelSafe : Bool
  parallelWorkers : Nat
  rows : ℚ
  startupCost : ℚ
  totalCost : ℚ
  exploreValue : ℚ
  pathkeys : List PathKey
  deriving DecidableEq

inductive UniqueMethod where
  | noop
  | hash
  | sort
  deriving DecidableEq

structure UniquePath where
  path : Path
  subpath : Path
  umethod : UniqueMethod
  deriving DecidableEq

structure RelOptInfo extends RelCore where
  pathlist : List Path
  partialPathlist : List Path
  cheapestCostExplorePathlist : List Path
  cheapestStartupPath : Option Path
  cheapestTotalPath : Option Path
  cheapestUniquePath : Option UniquePath
  cheapestParameterizedPaths : List Path
  bestCost : ℚ
  deriving DecidableEq

def ownExploreValue (parent : RelCore) (paramInfo : Option ParamPathInfo) : ℚ :=
  match paramInfo with
  | some info => info.exploreValue
  | none => parent.exploreValue

namespace Path

def reqOuter (path : Path) : Relids :=
  match path.paramInfo with
  | none => ∅
  | some info => info.reqOuter

def paramByRel (path : Path) (rel : RelCore) : Bool :=
  path.paramInfo.isSome && !decide (Disjoint path.reqOuter rel.relids)

def considerStartupCost (path : Path) : Bool :=
  if path.paramInfo.isNone then path.parent.considerStartup else path.parent.considerParamStartup

def usefulPathkeys (path : Path) : List PathKey :=
  if path.paramInfo.isSome then [] else path.pathkeys

def fractionalCost (path : Path) (fraction : ℚ) : ℚ :=
  path.startupCost + fraction * (path.totalCost - path.startupCost)

end Path

inductive CostSelector where
  | startupCost
  | totalCost
  deriving DecidableEq

inductive PathCostComparison where
  | costsEqual
  | costsBetter1
  | costsBetter2
  | costsDifferent
  deriving DecidableEq

inductive PathKeysComparison where
  | pathkeysEqual
  | pathkeysBetter1
  | pathkeysBetter2
  | pathkeysDifferent
  deriving DecidableEq

inductive BMSComparison where
  | bmsEqual
  | bmsSubset1
  | bmsSubset2
  | bmsDifferent
  deriving DecidableEq

def bmsSubsetCompare (a b : Relids) : BMSComparison :=
  if a = b then .bmsEqual
  else if a ⊆ b then .bmsSubset1
  else if b ⊆ a then .bmsSubset2
  else .bmsDifferent

def comparePathkeys : List PathKey → List PathKey → PathKeysComparison
  | [],[] => .pathkeysEqual
  | _ :: _,[] => .pathkeysBetter1
  | [],_ :: _ => .pathkeysBetter2
  | key1 :: keys1,key2 :: keys2 =>
    if key1 ≠ key2 then .pathkeysDifferent else comparePathkeys keys1 keys2

def pathkeysContainedIn (keys1 keys2 : List PathKey) : Bool :=
  match comparePathkeys keys1 keys2 with
  | .pathkeysEqual => true
  | .pathkeysBetter2 => true
  | _ => false

def comparePathCosts (path1 path2 : Path) (criterion : CostSelector) : Ordering :=
  -- The C result -1, 0, +1 is `lt`, `eq`, `gt`.
  match criterion with
  | .startupCost =>
    if path1.startupCost < path2.startupCost then .lt
    else if path1.startupCost > path2.startupCost then .gt
    else if path1.totalCost < path2.totalCost then .lt
    else if path1.totalCost > path2.totalCost then .gt
    else .eq
  | .totalCost =>
    if path1.totalCost < path2.totalCost then .lt
    else if path1.totalCost > path2.totalCost then .gt
    else if path1.startupCost < path2.startupCost then .lt
    else if path1.startupCost > path2.startupCost then .gt
    else .eq

def compareFractionalPathCosts (path1 path2 : Path) (fraction : ℚ) : Ordering :=
  if fraction ≤ 0 ∨ fraction ≥ 1 then comparePathCosts path1 path2 .totalCost
  else
    let cost1 := path1.fractionalCost fraction
    let cost2 := path2.fractionalCost fraction
    if cost1 < cost2 then .lt
    else if cost1 > cost2 then .gt
    else .eq

def comparePathCostsFuzzily (path1 path2 : Path) (fuzzFactor : ℚ) : PathCostComparison :=
  if path1.totalCost > path2.totalCost * fuzzFactor then
    if path1.considerStartupCost && path2.startupCost > path1.startupCost *
      fuzzFactor then .costsDifferent
    else .costsBetter2
  else if path2.totalCost > path1.totalCost * fuzzFactor then
    if path2.considerStartupCost && path1.startupCost > path2.startupCost *
      fuzzFactor then .costsDifferent
    else .costsBetter1
  else if path1.startupCost > path2.startupCost * fuzzFactor then .costsBetter2
  else if path2.startupCost > path1.startupCost * fuzzFactor then .costsBetter1
  else .costsEqual

def comparePathExploreValueFuzzily (path1 path2 : Path) (fuzzFactor : ℚ) : Ordering :=
  -- The C result +1, -1, 0 is `gt`, `lt`, `eq`.
  if path1.exploreValue > path2.exploreValue * fuzzFactor then .gt
  else if path2.exploreValue > path1.exploreValue * fuzzFactor then .lt
  else .eq

def Path.totalKey (path : Path) : ℚ ×ₗ ℚ := toLex (path.totalCost,path.startupCost)

private theorem lexCompare (a b c d : ℚ) :
    (if a < b then Ordering.lt else if a > b then .gt else if c < d then .lt
        else if c > d then .gt else .eq) =
      cmp (toLex (a,c)) (toLex (b,d)) := by
  unfold cmp cmpUsing
  simp only [Prod.Lex.toLex_lt_toLex,gt_iff_lt]
  rcases lt_trichotomy a b with less | equal | more
  · simp [less]
  · subst equal
    simp
  · simp [more,more.ne',not_lt.mpr more.le]

theorem comparePathCosts_total (path1 path2 : Path) :
    comparePathCosts path1 path2 .totalCost = cmp path1.totalKey path2.totalKey :=
  lexCompare _ _ _ _

theorem comparePathCosts_total_gt (path1 path2 : Path) :
    comparePathCosts path1 path2 .totalCost = .gt ↔ path2.totalKey < path1.totalKey := by
  rw [comparePathCosts_total]
  exact cmp_eq_gt_iff _ _

theorem comparePathCosts_total_eq (path1 path2 : Path) :
    comparePathCosts path1 path2 .totalCost = .eq ↔ path1.totalKey = path2.totalKey := by
  rw [comparePathCosts_total]
  exact cmp_eq_eq_iff _ _

theorem Path.totalKey_lt (path1 path2 : Path) :
    path1.totalKey < path2.totalKey ↔ path1.totalCost < path2.totalCost ∨
      path1.totalCost = path2.totalCost ∧ path1.startupCost < path2.startupCost := by
  simp [totalKey,Prod.Lex.toLex_lt_toLex]

theorem Path.totalCost_le_of_totalKey_le (path1 path2 : Path)
    (below : path1.totalKey ≤ path2.totalKey) :
    path1.totalCost ≤ path2.totalCost := by
  rcases Prod.Lex.toLex_le_toLex.mp below with less | ⟨equal,_⟩
  · exact less.le
  · exact equal.le

theorem compareFractionalPathCosts_eq_gt (path1 path2 : Path) (fraction : ℚ)
    (positive : 0 < fraction) (proper : fraction < 1) :
    compareFractionalPathCosts path1 path2 fraction = .gt ↔
      path2.fractionalCost fraction < path1.fractionalCost fraction := by
  have inside : ¬(fraction ≤ 0 ∨ fraction ≥ 1) := by
    rintro (low | high)
    · exact absurd positive (not_lt.mpr low)
    · exact absurd proper (not_lt.mpr high)
  simp only [compareFractionalPathCosts,if_neg inside]
  split_ifs with less more
  · simp [less.le]
  · simpa using more
  · simpa using not_lt.mp more

theorem comparePathExploreValueFuzzily_same (path1 path2 : Path) (fuzzFactor : ℚ)
    (equal : path1.exploreValue = path2.exploreValue) (nonneg : 0 ≤ path2.exploreValue)
    (widening : 1 ≤ fuzzFactor) : comparePathExploreValueFuzzily path1 path2 fuzzFactor = .eq := by
  have fuzzy : path2.exploreValue ≤ path2.exploreValue * fuzzFactor := by nlinarith
  simp [comparePathExploreValueFuzzily,equal,not_lt.mpr fuzzy]

/-! Every comparison is antisymmetric on paths with non-negative figures. -/

def PathCostComparison.swap : PathCostComparison → PathCostComparison
  | .costsEqual => .costsEqual
  | .costsBetter1 => .costsBetter2
  | .costsBetter2 => .costsBetter1
  | .costsDifferent => .costsDifferent

def PathKeysComparison.swap : PathKeysComparison → PathKeysComparison
  | .pathkeysEqual => .pathkeysEqual
  | .pathkeysBetter1 => .pathkeysBetter2
  | .pathkeysBetter2 => .pathkeysBetter1
  | .pathkeysDifferent => .pathkeysDifferent

def BMSComparison.swap : BMSComparison → BMSComparison
  | .bmsEqual => .bmsEqual
  | .bmsSubset1 => .bmsSubset2
  | .bmsSubset2 => .bmsSubset1
  | .bmsDifferent => .bmsDifferent

structure Path.Nonneg (path : Path) : Prop where
  startupCost : 0 ≤ path.startupCost
  totalCost : 0 ≤ path.totalCost
  exploreValue : 0 ≤ path.exploreValue

theorem bmsSubsetCompare_equal_iff (a b : Relids) : bmsSubsetCompare a b = .bmsEqual ↔ a = b := by
  unfold bmsSubsetCompare
  split_ifs with equal
  all_goals simp [equal]

theorem bmsSubsetCompare_subset1_iff (a b : Relids) :
    bmsSubsetCompare a b = .bmsSubset1 ↔ a ⊂ b := by
  unfold bmsSubsetCompare
  split_ifs with equal subset
  · simp [equal]
  · simp [subset.ssubset_of_ne equal]
  · exact iff_of_false nofun fun strict => subset strict.subset
  · exact iff_of_false nofun fun strict => subset strict.subset

theorem bmsSubsetCompare_swap (a b : Relids) :
    bmsSubsetCompare b a = (bmsSubsetCompare a b).swap := by
  unfold bmsSubsetCompare
  by_cases equal : a = b
  · simp [equal,BMSComparison.swap]
  · by_cases below : a ⊆ b
    · have notAbove : ¬b ⊆ a := fun above => equal (below.antisymm above)
      simp [equal,Ne.symm equal,below,notAbove,BMSComparison.swap]
    · by_cases above : b ⊆ a
      · simp [equal,Ne.symm equal,below,above,BMSComparison.swap]
      · simp [equal,Ne.symm equal,below,above,BMSComparison.swap]

theorem comparePathkeys_swap (keys1 keys2 : List PathKey) :
    comparePathkeys keys2 keys1 = (comparePathkeys keys1 keys2).swap := by
  fun_induction comparePathkeys keys1 keys2 with
  | case1 => rfl
  | case2 => rfl
  | case3 => rfl
  | case4 key1 keys1 key2 keys2 different =>
    simp [comparePathkeys,Ne.symm different,PathKeysComparison.swap]
  | case5 key1 keys1 key2 keys2 same ih =>
    rw [not_not] at same
    simp [comparePathkeys,same,ih]

theorem exceeds_asymm (a b fuzzFactor : ℚ) (nonneg : 0 ≤ a) (widening : 1 ≤ fuzzFactor)
    (more : a * fuzzFactor < b) :
    ¬b * fuzzFactor < a := by
  intro less
  have : a ≤ a * fuzzFactor := le_mul_of_one_le_right nonneg widening
  have : b ≤ b * fuzzFactor := le_mul_of_one_le_right (nonneg.trans (this.trans more.le)) widening
  linarith

theorem comparePathCostsFuzzily_swap (path1 path2 : Path) (fuzzFactor : ℚ) (nonneg2 : path2.Nonneg)
    (widening : 1 ≤ fuzzFactor) :
    comparePathCostsFuzzily path2 path1 fuzzFactor =
      (comparePathCostsFuzzily path1 path2 fuzzFactor).swap := by
  unfold comparePathCostsFuzzily
  simp only [gt_iff_lt]
  by_cases more : path2.totalCost * fuzzFactor < path1.totalCost
  · have less := exceeds_asymm _ _ _ nonneg2.totalCost widening more
    simp only [more,less,if_true,if_false]
    split_ifs
    · rfl
    · rfl
  by_cases less : path1.totalCost * fuzzFactor < path2.totalCost
  · simp only [more,less,if_true,if_false]
    split_ifs
    · rfl
    · rfl
  simp only [more,less,if_false]
  by_cases later : path2.startupCost * fuzzFactor < path1.startupCost
  · have sooner := exceeds_asymm _ _ _ nonneg2.startupCost widening later
    simp [later,sooner,PathCostComparison.swap]
  · by_cases sooner : path1.startupCost * fuzzFactor < path2.startupCost
    · simp [later,sooner,PathCostComparison.swap]
    · simp [later,sooner,PathCostComparison.swap]

theorem comparePathExploreValueFuzzily_swap (path1 path2 : Path) (fuzzFactor : ℚ)
    (nonneg2 : path2.Nonneg) (widening : 1 ≤ fuzzFactor) :
    comparePathExploreValueFuzzily path2 path1 fuzzFactor =
      (comparePathExploreValueFuzzily path1 path2 fuzzFactor).swap := by
  unfold comparePathExploreValueFuzzily
  simp only [gt_iff_lt]
  by_cases more : path2.exploreValue * fuzzFactor < path1.exploreValue
  · have less := exceeds_asymm _ _ _ nonneg2.exploreValue widening more
    simp [more,less]
  · by_cases less : path1.exploreValue * fuzzFactor < path2.exploreValue
    · simp [more,less]
    · simp [more,less]

/-! Concrete relations and paths for worked cases. -/

def baseRel (relid : Nat) (exploreValue : ℚ) : RelCore where
  relid := relid
  relids := {relid}
  lateralRelids := ∅
  rows := 1
  exploreValue := exploreValue
  considerStartup := false
  considerParamStartup := false
  considerParallel := false
  baserestrictinfo := []

def RelOptInfo.ofPaths (core : RelCore) (pathlist : List Path) : RelOptInfo where
  toRelCore := core
  pathlist := pathlist
  partialPathlist := []
  cheapestCostExplorePathlist := []
  cheapestStartupPath := none
  cheapestTotalPath := none
  cheapestUniquePath := none
  cheapestParameterizedPaths := []
  bestCost := 0

def seqScan (parent : RelCore) (address : Nat) (startupCost totalCost exploreValue : ℚ) : Path where
  address := address
  type := .path
  parent := parent
  paramInfo := none
  parallelSafe := false
  parallelWorkers := 0
  rows := 1
  startupCost := startupCost
  totalCost := totalCost
  exploreValue := exploreValue
  pathkeys := []

end ExploratoryOptimizer
