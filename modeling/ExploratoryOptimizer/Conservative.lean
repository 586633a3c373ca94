import ExploratoryOptimizer.FractionalPath

/-! Exploration with uniform explore values and no predicted cost is the original path
selection. The two tournaments are compared verdict by verdict, the two walks slot by slot,
and the two final choices by the cost they reach. -/
namespace ExploratoryOptimizer.Conservative
open AddPath SetCheapest FractionalPath Library.Scan Library.Tournament

def offerAll (rel : RelOptInfo) (offers : List Path) : RelOptInfo :=
  offers.foldl addPath rel

def offerAllExplore (rel : RelOptInfo) (offers : List Path)
    (bestPredCost pruneRate : ℚ) : RelOptInfo :=
  offers.foldl (fun current path => addPathExplore current path bestPredCost pruneRate) rel

def cheapestFields (rel : RelOptInfo) : Option Path × Option Path × List Path :=
  (rel.cheapestStartupPath,rel.cheapestTotalPath,rel.cheapestParameterizedPaths)

theorem addPathExploreVerdict_uniform (newPath oldPath : Path)
    (equal : newPath.exploreValue = oldPath.exploreValue) (nonneg : 0 ≤ oldPath.exploreValue) :
    addPathExploreVerdict newPath oldPath = addPathVerdict newPath oldPath := by
  have coarse : comparePathExploreValueFuzzily newPath oldPath evFuzzyR = .eq :=
    comparePathExploreValueFuzzily_same _ _ _ equal nonneg (by norm_num [evFuzzyR])
  have fine : comparePathExploreValueFuzzily newPath oldPath evFuzzyR2 = .eq :=
    comparePathExploreValueFuzzily_same _ _ _ equal nonneg (by norm_num [evFuzzyR2])
  have tie : tieVerdictExplore newPath oldPath = tieVerdict newPath oldPath := by
    unfold tieVerdictExplore tieVerdict
    simp [fine]
  unfold addPathExploreVerdict addPathVerdict
  simp only [coarse,tie]
  split
  · rfl
  · cases comparePathCostsFuzzily newPath oldPath stdFuzzFactor with
    | costsEqual => simp
    | costsBetter1 => simp
    | costsBetter2 => simp
    | costsDifferent => rfl

theorem exploreLoop_uniform (newPath : Path) (pathlist : List Path) (value : ℚ) (nonneg : 0 ≤ value)
    (fresh : newPath.exploreValue = value)
    (uniform : ∀ path ∈ pathlist, path.exploreValue = value) :
    exploreLoop newPath pathlist = offer (addPathVerdict newPath)
      (fun oldPath => newPath.totalCost ≥ oldPath.totalCost) newPath pathlist := by
  apply offer_congr
  intro oldPath member
  apply addPathExploreVerdict_uniform
  · rw [fresh,uniform oldPath member]
  · rw [uniform oldPath member]
    exact nonneg

theorem addPathExplore_unpredicted (rel : RelOptInfo) (newPath : Path) (pruneRate : ℚ) :
    (addPathExplore rel newPath 0 pruneRate).pathlist = exploreLoop newPath rel.pathlist := by
  simp [addPathExplore,needContinue,unbudgeted]

theorem addPathExplore_simulates (explore original : RelOptInfo) (newPath : Path)
    (pruneRate value : ℚ) (nonneg : 0 ≤ value) (fresh : newPath.exploreValue = value)
    (same : explore.pathlist = original.pathlist)
    (uniform : ∀ path ∈ original.pathlist, path.exploreValue = value) :
    (addPathExplore explore newPath 0 pruneRate).pathlist = (addPath original newPath).pathlist ∧
      ∀ path ∈ (addPath original newPath).pathlist, path.exploreValue = value := by
  constructor
  · rw [addPathExplore_unpredicted,same,
      exploreLoop_uniform newPath original.pathlist value nonneg fresh uniform]
    rfl
  · intro path member
    rcases mem_offer _ _ newPath original.pathlist path member with rfl | older
    · exact fresh
    · exact uniform path older

theorem offerAllExplore_simulates (offers : List Path) (explore original : RelOptInfo)
    (pruneRate value : ℚ) (nonneg : 0 ≤ value) (fresh : ∀ path ∈ offers, path.exploreValue = value)
    (same : explore.pathlist = original.pathlist)
    (uniform : ∀ path ∈ original.pathlist, path.exploreValue = value) :
    (offerAllExplore explore offers 0 pruneRate).pathlist = (offerAll original offers).pathlist ∧
      ∀ path ∈ (offerAll original offers).pathlist, path.exploreValue = value := by
  induction offers generalizing explore original with
  | nil => exact ⟨same,uniform⟩
  | cons newPath rest ih =>
    obtain ⟨same',uniform'⟩ :=
      addPathExplore_simulates explore original newPath pruneRate value nonneg
        (fresh newPath (by simp)) same uniform
    exact ih (addPathExplore explore newPath 0 pruneRate) (addPath original newPath)
      (fun path member => fresh path (by simp [member])) same' uniform'

theorem setCheapestExplore_simulates (explore original : RelOptInfo)
    (same : explore.pathlist = original.pathlist) :
    (setCheapestExplore explore).map cheapestFields =
      (setCheapest original).map cheapestFields := by
  unfold setCheapestExplore setCheapest
  rw [same]
  split
  · rfl
  · have walk := setCheapestExplore_walk original.pathlist ⟨⟨none,none,[]⟩,[]⟩
    simp only [Except.map,cheapestFields,walk]

theorem uniform_choice_cost (tupleFraction rate value : ℚ) (takes : Path → Path → Bool)
    (bestPath : Path) (pathlist : List Path)
    (uniform : ∀ path ∈ bestPath :: pathlist, path.exploreValue = value)
    (least : ∀ path ∈ pathlist, planCost tupleFraction bestPath ≤ planCost tupleFraction path)
    (takes_iff : ∀ path current, takes path current ↔ Affordable tupleFraction rate bestPath path ∧
      choiceKey tupleFraction path < choiceKey tupleFraction current) :
    planCost tupleFraction (scan takes bestPath pathlist) = planCost tupleFraction bestPath := by
  have kept : scan takes bestPath pathlist ∈ bestPath :: pathlist ∧
      planCost tupleFraction (scan takes bestPath pathlist) ≤ planCost tupleFraction bestPath := by
    apply scan_invariant takes (fun path => path ∈ bestPath :: pathlist ∧
      planCost tupleFraction path ≤ planCost tupleFraction bestPath)
    · exact ⟨by simp,le_rfl⟩
    · rintro path member current ⟨inside,below⟩ accepted
      have member' : path ∈ bestPath :: pathlist := List.mem_cons_of_mem _ member
      refine ⟨member',?_⟩
      rcases (choiceKey_lt tupleFraction path current).mp
        ((takes_iff path current).mp accepted).2 with
        larger | ⟨_,cheaper⟩
      · rw [uniform path member',uniform current inside] at larger
        exact absurd larger (lt_irrefl value)
      · rcases (costKey_lt tupleFraction path current).mp cheaper with less | ⟨equal,_⟩
        · exact less.le.trans below
        · exact equal.le.trans below
  rcases List.mem_cons.mp kept.1 with same | inside
  · rw [same]
  · exact le_antisymm kept.2 (least _ inside)

theorem explore_choice_cost (explore original : RelOptInfo) (total : Path)
    (tupleFraction rate value : ℚ) (same : explore.pathlist = original.pathlist)
    (found : explore.cheapestTotalPath = some total)
    (found' : original.cheapestTotalPath = some total)
    (uniform : ∀ path ∈ total :: original.pathlist, path.exploreValue = value)
    (proper : tupleFraction < 1)
    (least : tupleFraction ≤ 0 → ∀ path ∈ original.pathlist, total.totalCost ≤ path.totalCost) :
    ∃ chosen cheapest, getCheapestExploreFractionalPath explore tupleFraction rate = some chosen ∧
      getCheapestFractionalPath original tupleFraction = some cheapest ∧
      planCost tupleFraction chosen = planCost tupleFraction cheapest := by
  by_cases all : tupleFraction ≤ 0
  · refine ⟨scan (betterForTotal rate total) total original.pathlist,total,?_,?_,?_⟩
    · simp [getCheapestExploreFractionalPath,found,all,same]
    · simp [getCheapestFractionalPath,found',all]
    · apply uniform_choice_cost tupleFraction rate value _ total original.pathlist uniform _
        (betterForTotal_iff tupleFraction rate all total)
      intro path member
      simpa only [planCost,if_pos all] using least all path member
  · have positive := not_le.mp all
    have fraction : tupleFractionOf total tupleFraction = tupleFraction := by
      simp [tupleFractionOf,not_le.mpr proper]
    have inside := scan_mem (cheaperForFraction total tupleFraction) total original.pathlist
    have cheapest :=
      (cheapestForFraction_least total original.pathlist tupleFraction positive proper).2
    set bestPath :=
      scan (cheaperForFraction total tupleFraction) total original.pathlist with bestPath_def
    refine ⟨scan (betterForFraction rate tupleFraction bestPath) bestPath original.pathlist,
      bestPath,?_,?_,?_⟩
    · simp [getCheapestExploreFractionalPath,found,all,fraction,same,bestPath_def]
    · simp [getCheapestFractionalPath,found',all,fraction,bestPath_def]
    · apply uniform_choice_cost tupleFraction rate value _ bestPath original.pathlist _ cheapest
        (betterForFraction_iff tupleFraction rate positive proper bestPath)
      intro path member
      rcases List.mem_cons.mp member with rfl | later
      · exact uniform _ inside
      · exact uniform path (List.mem_cons_of_mem _ later)

/-- For paths of one explore value and no predicted cost, offering them to `add_path_explore`
gives the pathlist of `add_path`, the cheapest fields agree, and the final plans have equal
cost. With all tuples fetched the last part needs that no path of the list, parameterized ones
included, undercuts the cheapest total path. -/
theorem exploration_conservative (start : RelOptInfo) (offers : List Path) (pruneRate value : ℚ)
    (nonneg : 0 ≤ value) (uniform : ∀ path ∈ start.pathlist, path.exploreValue = value)
    (fresh : ∀ path ∈ offers, path.exploreValue = value) :
    (offerAllExplore start offers 0 pruneRate).pathlist = (offerAll start offers).pathlist ∧
    (setCheapestExplore (offerAllExplore start offers 0 pruneRate)).map cheapestFields =
      (setCheapest (offerAll start offers)).map cheapestFields ∧
    ∀ explore original, setCheapestExplore (offerAllExplore start offers 0 pruneRate) =
    .ok explore →
      setCheapest (offerAll start offers) = .ok original →
      ∀ rate tupleFraction : ℚ, 0 ≤ rate → tupleFraction < 1 →
        (tupleFraction ≤ 0 → ∀ total, original.cheapestTotalPath = some total →
          ∀ path ∈ original.pathlist, total.totalCost ≤ path.totalCost) →
        ∃ chosen cheapest, getCheapestExploreFractionalPath explore tupleFraction
        rate = some chosen ∧
          getCheapestFractionalPath original tupleFraction = some cheapest ∧
          planCost tupleFraction chosen = planCost tupleFraction cheapest := by
  obtain ⟨same,kept⟩ :=
    offerAllExplore_simulates offers start start pruneRate value nonneg fresh rfl uniform
  have fields := setCheapestExplore_simulates _ _ same
  refine ⟨same,fields,?_⟩
  intro explore original set set' rate tupleFraction _ proper least
  obtain ⟨total,found⟩ := setCheapest_total_isSome _ _ set'
  have agree : cheapestFields explore = cheapestFields original := by
    simpa [set,set',Except.map] using fields
  have found' : explore.cheapestTotalPath = some total := by
    rw [← found]
    exact congrArg (·.2.1) agree
  have lists : explore.pathlist = original.pathlist := by
    rw [setCheapestExplore_pathlist _ _ set,setCheapest_pathlist _ _ set',same]
  have member : total ∈ original.pathlist := by
    rw [setCheapest_pathlist _ _ set']
    exact setCheapest_total_mem _ _ set' total found
  apply explore_choice_cost explore original total tupleFraction rate value lists
    found' found _ proper
  · exact fun all => least all total found
  · intro path inside
    rcases List.mem_cons.mp inside with rfl | later
    · exact kept _ (setCheapest_pathlist _ _ set' ▸ member)
    · exact kept path (setCheapest_pathlist _ _ set' ▸ later)

def emptyRel : RelOptInfo := .ofPaths (baseRel 1 0) []

def plainOffer : Path := seqScan (baseRel 1 0) 1 0 100 0

def parameterizedOffer : Path :=
  {seqScan (baseRel 1 0) 2 0 50 0 with paramInfo := some ⟨{2},1,[],0⟩}

def offeredRel : RelOptInfo :=
  {emptyRel with
    pathlist := [parameterizedOffer,plainOffer]
    cheapestStartupPath := some plainOffer
    cheapestTotalPath := some plainOffer
    cheapestParameterizedPaths := [plainOffer,parameterizedOffer]}

def offeredRelExplore : RelOptInfo :=
  {offeredRel with
    cheapestCostExplorePathlist := [plainOffer]
    bestCost := 50}

/-- A parameterized path cheaper than every unparameterized one is not the cheapest total path,
but the exploratory choice takes it when all tuples are fetched. -/
theorem exploration_parameterized_choice :
    setCheapestExplore (offerAllExplore emptyRel [plainOffer,parameterizedOffer] 0 1) =
      .ok offeredRelExplore ∧
      setCheapest (offerAll emptyRel [plainOffer,parameterizedOffer]) = .ok offeredRel ∧
      getCheapestExploreFractionalPath offeredRelExplore 0 0 = some parameterizedOffer ∧
      getCheapestFractionalPath offeredRel 0 = some plainOffer ∧
      planCost 0 parameterizedOffer ≠ planCost 0 plainOffer := by
  decide +kernel

theorem exploration_conservative_offered :
    (offerAllExplore emptyRel [plainOffer,parameterizedOffer] 0 1).pathlist =
        (offerAll emptyRel [plainOffer,parameterizedOffer]).pathlist ∧
      ∃ chosen cheapest, getCheapestExploreFractionalPath offeredRelExplore (1/2) 0 = some chosen ∧
        getCheapestFractionalPath offeredRel (1/2) = some cheapest ∧
        planCost (1/2) chosen = planCost (1/2) cheapest := by
  obtain ⟨lists,_,choices⟩ := exploration_conservative emptyRel [plainOffer,parameterizedOffer] 1 0
    (by decide +kernel) (by decide) (by decide)
  refine ⟨lists,?_⟩
  apply choices offeredRelExplore offeredRel (by decide +kernel) (by decide +kernel) 0 (1/2)
    (by decide +kernel) (by decide +kernel)
  intro all
  exact absurd all (by decide +kernel)

end ExploratoryOptimizer.Conservative
