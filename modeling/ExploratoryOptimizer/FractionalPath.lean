import ExploratoryOptimizer.SetCheapest
import Mathlib.Tactic.Ring

/-! Final plan choice of plan/planner.c. The exploratory choice first finds the cheapest path
for the requested fraction of tuples, then scans the pathlist again for the largest explore
value within the cost budget, breaking ties by cost. -/
namespace ExploratoryOptimizer.FractionalPath
open Library.Scan SetCheapest OrderDual

def tupleFractionOf (bestPath : Path) (tupleFraction : ℚ) : ℚ :=
  if tupleFraction ≥ 1 ∧ bestPath.rows > 0 then tupleFraction / bestPath.rows else tupleFraction

def cheaperForFraction (cheapestTotalPath : Path) (fraction : ℚ) (path bestPath : Path) : Bool :=
  path ≠ cheapestTotalPath && compareFractionalPathCosts bestPath path fraction = .gt

def getCheapestFractionalPath (rel : RelOptInfo) (tupleFraction : ℚ) : Option Path := do
  let bestPath ← rel.cheapestTotalPath
  if tupleFraction ≤ 0 then return bestPath
  let fraction := tupleFractionOf bestPath tupleFraction
  return scan (cheaperForFraction bestPath fraction) bestPath rel.pathlist

def betterForTotal (rate : ℚ) (bestPath path current : Path) : Bool :=
  path.totalCost ≤ bestPath.totalCost * (1 + rate) &&
  path.exploreValue ≥ bestPath.exploreValue * (1 + 0) &&
  (path.exploreValue > current.exploreValue ||
    (path.exploreValue = current.exploreValue &&
      (path.totalCost < current.totalCost ||
        (path.totalCost = current.totalCost && path.startupCost < current.startupCost))))

def betterForFraction (rate fraction : ℚ) (bestPath path current : Path) : Bool :=
  path.fractionalCost fraction ≤ bestPath.fractionalCost fraction * (1 + rate) &&
  path.exploreValue ≥ bestPath.exploreValue * (1 + 0) &&
  (path.exploreValue > current.exploreValue ||
    (path.exploreValue = current.exploreValue &&
      (compareFractionalPathCosts path current fraction = .lt ||
        (compareFractionalPathCosts path current fraction = .eq &&
          (path.totalCost < current.totalCost ||
            (path.totalCost = current.totalCost && path.startupCost < current.startupCost))))))

def getCheapestExploreFractionalPath (rel : RelOptInfo) (tupleFraction rate : ℚ) : Option Path := do
  let cheapestTotalPath ← rel.cheapestTotalPath
  if tupleFraction ≤ 0 then
    return scan (betterForTotal rate cheapestTotalPath) cheapestTotalPath rel.pathlist
  let fraction := tupleFractionOf cheapestTotalPath tupleFraction
  let bestPath :=
    scan (cheaperForFraction cheapestTotalPath fraction) cheapestTotalPath rel.pathlist
  return scan (betterForFraction rate fraction bestPath) bestPath rel.pathlist

def planCost (tupleFraction : ℚ) (path : Path) : ℚ :=
  if tupleFraction ≤ 0 then path.totalCost else path.fractionalCost tupleFraction

def costKey (tupleFraction : ℚ) (path : Path) : ℚ ×ₗ ℚ ×ₗ ℚ :=
  toLex (planCost tupleFraction path,path.totalKey)

def choiceKey (tupleFraction : ℚ) (path : Path) : ℚᵒᵈ ×ₗ ℚ ×ₗ ℚ ×ₗ ℚ :=
  toLex (toDual path.exploreValue,costKey tupleFraction path)

def Affordable (tupleFraction rate : ℚ) (bestPath path : Path) : Prop :=
  planCost tupleFraction path ≤ planCost tupleFraction bestPath * (1 + rate) ∧
    bestPath.exploreValue ≤ path.exploreValue

theorem planCost_eq_fractionalCost (tupleFraction : ℚ) (path : Path)
    (positive : 0 < tupleFraction) :
    planCost tupleFraction path = path.fractionalCost tupleFraction := by
  simp [planCost,not_le.mpr positive]

theorem planCost_nonneg (tupleFraction : ℚ) (path : Path) (proper : tupleFraction < 1)
    (startup : 0 ≤ path.startupCost) (total : 0 ≤ path.totalCost) :
    0 ≤ planCost tupleFraction path := by
  unfold planCost
  split_ifs with all
  · exact total
  · have positive : 0 ≤ tupleFraction := (not_le.mp all).le
    have weighted : path.fractionalCost tupleFraction =
        (1 - tupleFraction) * path.startupCost + tupleFraction * path.totalCost := by
      unfold Path.fractionalCost
      ring
    rw [weighted]
    exact add_nonneg (mul_nonneg (by linarith) startup) (mul_nonneg positive total)

theorem costKey_lt (tupleFraction : ℚ) (path current : Path) :
    costKey tupleFraction path < costKey tupleFraction current ↔
      planCost tupleFraction path < planCost tupleFraction current ∨
        planCost tupleFraction path = planCost tupleFraction current ∧
        path.totalKey < current.totalKey := by
  simp [costKey,Prod.Lex.toLex_lt_toLex]

theorem choiceKey_lt (tupleFraction : ℚ) (path current : Path) :
    choiceKey tupleFraction path < choiceKey tupleFraction current ↔
      current.exploreValue < path.exploreValue ∨
        path.exploreValue = current.exploreValue ∧
          costKey tupleFraction path < costKey tupleFraction current := by
  simp [choiceKey,Prod.Lex.toLex_lt_toLex]

theorem choiceKey_le (tupleFraction : ℚ) (path current : Path)
    (below : choiceKey tupleFraction path ≤ choiceKey tupleFraction current) :
    current.exploreValue ≤ path.exploreValue ∧
      (current.exploreValue = path.exploreValue →
        costKey tupleFraction path ≤ costKey tupleFraction current) := by
  rcases Prod.Lex.toLex_le_toLex.mp below with larger | ⟨equal,cheaper⟩
  · have strict : current.exploreValue < path.exploreValue := larger
    exact ⟨strict.le,fun same => absurd same strict.ne⟩
  · have same : path.exploreValue = current.exploreValue := equal
    exact ⟨same.ge,fun _ => cheaper⟩

theorem betterForTotal_iff (tupleFraction rate : ℚ) (all : tupleFraction ≤ 0)
    (bestPath path current : Path) :
    betterForTotal rate bestPath path current ↔ Affordable tupleFraction rate bestPath path ∧
      choiceKey tupleFraction path < choiceKey tupleFraction current := by
  rw [choiceKey_lt,costKey_lt,Path.totalKey_lt]
  simp only [betterForTotal,Affordable,planCost,if_pos all,Bool.and_eq_true,Bool.or_eq_true,
    decide_eq_true_eq,add_zero,mul_one,ge_iff_le,gt_iff_lt]
  grind

theorem betterForFraction_iff (fraction rate : ℚ) (positive : 0 < fraction) (proper : fraction < 1)
    (bestPath path current : Path) :
    betterForFraction rate fraction bestPath path current ↔ Affordable fraction rate bestPath path ∧
      choiceKey fraction path < choiceKey fraction current := by
  have inside : ¬(fraction ≤ 0 ∨ fraction ≥ 1) := by
    rintro (low | high)
    · exact absurd positive (not_lt.mpr low)
    · exact absurd proper (not_lt.mpr high)
  rw [choiceKey_lt,costKey_lt,Path.totalKey_lt]
  simp only [betterForFraction,Affordable,planCost_eq_fractionalCost _ _ positive,
    compareFractionalPathCosts,if_neg inside,Bool.and_eq_true,Bool.or_eq_true,
    decide_eq_true_eq,add_zero,mul_one,ge_iff_le,gt_iff_lt]
  grind

theorem cheapestForFraction_least (cheapestTotalPath : Path) (pathlist : List Path) (fraction : ℚ)
    (positive : 0 < fraction) (proper : fraction < 1) :
    let bestPath := scan (cheaperForFraction cheapestTotalPath fraction) cheapestTotalPath pathlist
    planCost fraction bestPath ≤ planCost fraction cheapestTotalPath ∧
      ∀ path ∈ pathlist, planCost fraction bestPath ≤ planCost fraction path := by
  intro bestPath
  have taken : ∀ path current, cheaperForFraction cheapestTotalPath fraction path current ↔
      path ≠ cheapestTotalPath ∧ planCost fraction path < planCost fraction current := by
    intro path current
    simp only [cheaperForFraction,Bool.and_eq_true,decide_eq_true_eq,
      compareFractionalPathCosts_eq_gt current path fraction positive proper,
      planCost_eq_fractionalCost _ _ positive]
  have start : planCost fraction bestPath ≤ planCost fraction cheapestTotalPath := by
    apply scan_key_le_start (planCost fraction)
    exact fun path current accepted => ((taken path current).mp accepted).2.le
  refine ⟨start,?_⟩
  intro path member
  -- The pointer test skips the starting path only, and that one is already bounded.
  by_cases same : path = cheapestTotalPath
  · rw [same]
    exact start
  · apply scan_key_le (planCost fraction) (· ≠ cheapestTotalPath) _ _ _ _ path member same
    · exact fun path current accepted => ((taken path current).mp accepted).2.le
    · exact fun path current other less => (taken path current).mpr ⟨other,less⟩

/-- A scan whose test is affordability and a smaller choice key, started at the cheapest path,
finds the largest explore value within the budget and the smallest cost key for it. -/
theorem choice_optimal (tupleFraction rate : ℚ) (takes : Path → Path → Bool) (bestPath : Path)
    (pathlist : List Path) (member : bestPath ∈ pathlist)
    (least : ∀ path ∈ pathlist, planCost tupleFraction bestPath ≤ planCost tupleFraction path)
    (generous : 0 ≤ rate) (nonneg : 0 ≤ planCost tupleFraction bestPath)
    (takes_iff : ∀ path current, takes path current ↔ Affordable tupleFraction rate bestPath path ∧
      choiceKey tupleFraction path < choiceKey tupleFraction current) :
    let chosen := scan takes bestPath pathlist
    chosen ∈ pathlist ∧
      (∀ path ∈ pathlist, planCost tupleFraction chosen ≤
        (1 + rate) * planCost tupleFraction path) ∧
      ∀ path ∈ pathlist,
        (∀ other ∈ pathlist, planCost tupleFraction path ≤
          (1 + rate) * planCost tupleFraction other) → path.exploreValue ≤ chosen.exploreValue ∧
            (path.exploreValue = chosen.exploreValue →
              costKey tupleFraction chosen ≤ costKey tupleFraction path) := by
  intro chosen
  have sound : ∀ path current, takes path current →
      choiceKey tupleFraction path ≤ choiceKey tupleFraction current :=
    fun path current accepted => ((takes_iff path current).mp accepted).2.le
  have within : planCost tupleFraction chosen ≤ planCost tupleFraction bestPath * (1 + rate) := by
    apply scan_invariant takes
      (fun path => planCost tupleFraction path ≤ planCost tupleFraction bestPath * (1 + rate))
    · nlinarith
    · exact fun path _ current _ accepted => ((takes_iff path current).mp accepted).1.1
  have started : choiceKey tupleFraction chosen ≤ choiceKey tupleFraction bestPath :=
    scan_key_le_start (choiceKey tupleFraction) sound bestPath pathlist
  refine ⟨?_,?_,?_⟩
  · exact scan_mem_of_mem takes bestPath pathlist member
  · intro path inside
    calc planCost tupleFraction chosen ≤ planCost tupleFraction bestPath * (1 + rate) := within
      _ = (1 + rate) * planCost tupleFraction bestPath := mul_comm _ _
      _ ≤ (1 + rate) * planCost tupleFraction path :=
        mul_le_mul_of_nonneg_left (least path inside) (by linarith)
  · intro path inside budget
    by_cases poorer : path.exploreValue < bestPath.exploreValue
    · -- Below the cheapest path's explore value: refused by the scan, and the choice is no worse.
      have kept := (choiceKey_le tupleFraction chosen bestPath started).1
      exact ⟨(poorer.trans_le kept).le,fun same => absurd same (poorer.trans_le kept).ne⟩
    · have affordable : Affordable tupleFraction rate bestPath path :=
        ⟨mul_comm (1 + rate) _ ▸ budget bestPath member,not_lt.mp poorer⟩
      apply choiceKey_le
      exact scan_key_le (choiceKey tupleFraction) (Affordable tupleFraction rate bestPath) sound
        (fun x current ok less => (takes_iff x current).mpr ⟨ok,less⟩) bestPath pathlist path
        inside affordable

/-- After `set_cheapest_explore` on a relation of unparameterized paths, the chosen plan is a
member of the pathlist within the budget, has the largest explore value of all members within
the budget, and among those the smallest cost, then total cost, then startup cost. -/
theorem getCheapestExploreFractionalPath_optimal (parentRel rel : RelOptInfo)
    (tupleFraction rate : ℚ) (set : setCheapestExplore parentRel = .ok rel)
    (plain : ∀ path ∈ rel.pathlist, path.paramInfo = none)
    (nonneg : ∀ path ∈ rel.pathlist, 0 ≤ path.startupCost ∧ 0 ≤ path.totalCost)
    (generous : 0 ≤ rate) (proper : tupleFraction < 1) :
    ∃ chosen, getCheapestExploreFractionalPath rel tupleFraction rate = some chosen ∧
      chosen ∈ rel.pathlist ∧
      (∀ path ∈ rel.pathlist, planCost tupleFraction chosen ≤
        (1 + rate) * planCost tupleFraction path) ∧
      ∀ path ∈ rel.pathlist,
        (∀ other ∈ rel.pathlist, planCost tupleFraction path ≤
          (1 + rate) * planCost tupleFraction other) → path.exploreValue ≤ chosen.exploreValue ∧
            (path.exploreValue = chosen.exploreValue →
              costKey tupleFraction chosen ≤ costKey tupleFraction path) := by
  have kept := setCheapestExplore_pathlist parentRel rel set
  obtain ⟨total,found,member,least⟩ := setCheapestExplore_total parentRel rel set (kept ▸ plain)
  rw [← kept] at member least
  by_cases all : tupleFraction ≤ 0
  · refine ⟨scan (betterForTotal rate total) total rel.pathlist,?_,?_⟩
    · simp [getCheapestExploreFractionalPath,found,all]
    · apply choice_optimal tupleFraction rate _ total rel.pathlist member _ generous
        (planCost_nonneg _ _ proper (nonneg total member).1 (nonneg total member).2)
        (betterForTotal_iff tupleFraction rate all total)
      intro path inside
      simp only [planCost,if_pos all]
      exact Path.totalCost_le_of_totalKey_le total path (least path inside)
  · have positive := not_le.mp all
    have fraction : tupleFractionOf total tupleFraction = tupleFraction := by
      simp [tupleFractionOf,not_le.mpr proper]
    have cheapest := (cheapestForFraction_least total rel.pathlist tupleFraction positive proper).2
    have inside :=
      scan_mem_of_mem (cheaperForFraction total tupleFraction) total rel.pathlist member
    set bestPath :=
      scan (cheaperForFraction total tupleFraction) total rel.pathlist with bestPath_def
    refine ⟨scan (betterForFraction rate tupleFraction bestPath) bestPath rel.pathlist,?_,?_⟩
    · simp [getCheapestExploreFractionalPath,found,all,fraction,bestPath_def]
    · exact choice_optimal tupleFraction rate _ _ rel.pathlist inside cheapest generous
        (planCost_nonneg _ _ proper (nonneg _ inside).1 (nonneg _ inside).2)
        (betterForFraction_iff tupleFraction rate positive proper _)

def choiceRel : RelOptInfo :=
  .ofPaths (baseRel 1 0) [seqScan (baseRel 1 0) 1 0 100 0,seqScan (baseRel 1 0) 2 0 105 (1/2)]

def choiceRelSet : RelOptInfo :=
  {choiceRel with
    cheapestStartupPath := some (seqScan (baseRel 1 0) 1 0 100 0)
    cheapestTotalPath := some (seqScan (baseRel 1 0) 1 0 100 0)
    cheapestParameterizedPaths := [seqScan (baseRel 1 0) 1 0 100 0]
    cheapestCostExplorePathlist := choiceRel.pathlist}

theorem getCheapestExploreFractionalPath_optimal_pair :
    setCheapestExplore choiceRel = .ok choiceRelSet ∧
      ∃ chosen, getCheapestExploreFractionalPath choiceRelSet (1/2) (1/10) = some chosen ∧
        chosen ∈ choiceRelSet.pathlist ∧
        ∀ path ∈ choiceRelSet.pathlist, planCost (1/2) chosen ≤ (1 + 1/10) * planCost
        (1/2) path := by
  have set : setCheapestExplore choiceRel = .ok choiceRelSet := by decide +kernel
  obtain ⟨chosen,found,member,budget,_⟩ :=
    getCheapestExploreFractionalPath_optimal choiceRel choiceRelSet (1/2) (1/10) set (by decide)
      (by decide +kernel) (by decide +kernel) (by decide +kernel)
  exact ⟨set,chosen,found,member,budget⟩

end ExploratoryOptimizer.FractionalPath
