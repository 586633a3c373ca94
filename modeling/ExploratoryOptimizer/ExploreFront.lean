import ExploratoryOptimizer.Library.ParetoFront
import ExploratoryOptimizer.SetCheapest
import Mathlib.Data.Finset.Max

/-! The explore list of `set_cheapest_explore` is the Pareto front of the unparameterized paths
under total cost and explore value; without such paths it is the best parameterized path. -/
namespace ExploratoryOptimizer.ExploreFront
open SetCheapest Library Library.ParetoFront Library.Tournament

/-- Cheaper by total cost, ties by startup cost, and worth no less to explore; or equally cheap
and worth more. -/
def Dominates (path other : Path) : Prop :=
  path.totalKey < other.totalKey ∧ other.exploreValue ≤ path.exploreValue ∨
    path.totalKey = other.totalKey ∧ other.exploreValue < path.exploreValue

instance (path other : Path) : Decidable (Dominates path other) :=
  inferInstanceAs (Decidable (_ ∧ _ ∨ _ ∧ _))

abbrev dominates (path other : Path) : Bool := decide (Dominates path other)

theorem dominates_strict : Strict dominates where
  irrefl := by
    intro path
    simp [Dominates]
  trans := by
    intro first second third
    simp only [decide_eq_true_eq]
    rintro (⟨cheaper,worth⟩ | ⟨equal,worth⟩) (⟨cheaper',worth'⟩ | ⟨equal',worth'⟩)
    · exact .inl ⟨cheaper.trans cheaper',worth'.trans worth⟩
    · exact .inl ⟨equal' ▸ cheaper,worth'.le.trans worth⟩
    · exact .inl ⟨equal ▸ cheaper',worth'.trans worth.le⟩
    · exact .inr ⟨equal.trans equal',worth'.trans worth⟩

theorem frontVerdict_decides : Decides dominates frontVerdict where
  rejects := by
    intro path oldpath
    rw [decide_eq_true_eq,Dominates,frontVerdict,comparePathCosts_total]
    rcases lt_trichotomy path.totalKey oldpath.totalKey with cheaper | equal | dearer
    · rw [(cmp_eq_lt_iff _ _).mpr cheaper]
      dsimp only
      split_ifs
      · simp [cheaper.not_gt,cheaper.ne']
      · simp [cheaper.not_gt,cheaper.ne']
    · rw [(cmp_eq_eq_iff _ _).mpr equal]
      dsimp only
      split_ifs with less more
      · simp [equal,less]
      · simp [equal,less]
      · simp [equal,less]
    · rw [(cmp_eq_gt_iff _ _).mpr dearer]
      dsimp only
      split_ifs with worth
      · simp [dearer,worth]
      · simp [dearer.ne,worth]
  removes := by
    intro path oldpath
    rw [decide_eq_true_eq,Dominates,frontVerdict,comparePathCosts_total]
    rcases lt_trichotomy path.totalKey oldpath.totalKey with cheaper | equal | dearer
    · rw [(cmp_eq_lt_iff _ _).mpr cheaper]
      dsimp only
      split_ifs with worth
      · simpa [cheaper] using .inl worth
      · simpa [cheaper,cheaper.ne] using worth
    · rw [(cmp_eq_eq_iff _ _).mpr equal]
      dsimp only
      split_ifs with less more
      · simp [equal,less.le]
      · simpa [equal] using more
      · simpa [equal] using more
    · rw [(cmp_eq_gt_iff _ _).mpr dearer]
      dsimp only
      split_ifs
      · simp [dearer.not_gt,dearer.ne']
      · simp [dearer.not_gt,dearer.ne']

theorem addToFront_front (pool : List Path) (path : Path) :
    addToFront (front dominates pool) path = front dominates (pool ++ [path]) := by
  rw [← contest_front dominates_strict frontVerdict_decides]
  unfold addToFront
  split
  next empty => simp [empty,contest]
  next => rfl

structure FrontSoFar (walked : List Path) (state : CheapestExplore) : Prop where
  explored : state.costExplorePaths = front dominates (unparameterized walked)
  filled : state.startupAndTotal.isSome ↔ unparameterized walked ≠ []

theorem setCheapestExploreStep_frontSoFar (walked : List Path)
    (state : CheapestExplore) (path : Path) (soFar : FrontSoFar walked state) :
    FrontSoFar (walked ++ [path]) (setCheapestExploreStep state path) := by
  unfold setCheapestExploreStep
  cases parameters : path.paramInfo with
  | some info =>
    have same : unparameterized (walked ++ [path]) = unparameterized walked := by
      simp [unparameterized,parameters]
    exact ⟨same ▸ soFar.explored,same ▸ soFar.filled⟩
  | none =>
    have more : unparameterized (walked ++ [path]) = unparameterized walked ++ [path] := by
      simp [unparameterized,parameters]
    simp only [Option.isSome_none,Bool.false_eq_true,if_false]
    cases slots : state.startupAndTotal with
    | none =>
      have first : unparameterized walked = [] := by
        by_contra some_plain
        simpa [slots] using soFar.filled.mpr some_plain
      refine ⟨?_,by simp [more]⟩
      rw [more,soFar.explored,first]
      simp [front,undominated,Dominates]
    | some both =>
      refine ⟨?_,by simp [more]⟩
      rw [more,soFar.explored]
      exact addToFront_front _ path

theorem setCheapestExplore_walk_front (pathlist walked : List Path) (state : CheapestExplore)
    (soFar : FrontSoFar walked state) :
    FrontSoFar (walked ++ pathlist) (pathlist.foldl setCheapestExploreStep state) := by
  induction pathlist generalizing walked state with
  | nil => simpa using soFar
  | cons path rest ih =>
    rw [List.foldl_cons,List.append_cons]
    exact ih _ _ (setCheapestExploreStep_frontSoFar walked state path soFar)

/-! The best parameterized path, tracked as long as no unparameterized path was met. -/

/-- No path needs fewer outer relations, and none with the same ones is cheaper. -/
structure LeastParameterized (pathlist : List Path) (best : Path) : Prop where
  member : best ∈ pathlist
  minimal : ∀ path ∈ pathlist, ¬path.reqOuter ⊂ best.reqOuter
  cheapest : ∀ path ∈ pathlist, path.reqOuter = best.reqOuter → best.totalKey ≤ path.totalKey

theorem LeastParameterized.keep {walked : List Path} {best path : Path}
    (least : LeastParameterized walked best) (above : ¬path.reqOuter ⊂ best.reqOuter)
    (dearer : path.reqOuter = best.reqOuter → best.totalKey ≤ path.totalKey) :
    LeastParameterized (walked ++ [path]) best := by
  refine ⟨by simp [least.member],?_,?_⟩
  · intro other among
    rcases List.mem_append.mp among with earlier | last
    · exact least.minimal other earlier
    · exact List.mem_singleton.mp last ▸ above
  · intro other among same
    rcases List.mem_append.mp among with earlier | last
    · exact least.cheapest other earlier same
    · rw [List.mem_singleton.mp last] at same ⊢
      exact dearer same

theorem LeastParameterized.take {walked : List Path} {best path : Path}
    (least : LeastParameterized walked best) (below : path.reqOuter ⊆ best.reqOuter)
    (cheaper : path.reqOuter = best.reqOuter → path.totalKey ≤ best.totalKey) :
    LeastParameterized (walked ++ [path]) path := by
  refine ⟨by simp,?_,?_⟩
  · intro other among fewer
    rcases List.mem_append.mp among with earlier | last
    · exact least.minimal other earlier (fewer.trans_subset below)
    · exact (List.mem_singleton.mp last ▸ fewer).ne rfl
  · intro other among same
    rcases List.mem_append.mp among with earlier | last
    · by_cases equal : path.reqOuter = best.reqOuter
      · exact (cheaper equal).trans (least.cheapest other earlier (same.trans equal))
      · exact absurd (same ▸ below.ssubset_of_ne equal) (least.minimal other earlier)
    · rw [List.mem_singleton.mp last]

theorem trackBestParam_least (walked : List Path) (best path : Path)
    (least : LeastParameterized walked best) :
    ∃ best', trackBestParam (some best) path = some best' ∧
      LeastParameterized (walked ++ [path]) best' := by
  have same := bmsSubsetCompare_equal_iff path.reqOuter best.reqOuter
  have fewer := bmsSubsetCompare_subset1_iff path.reqOuter best.reqOuter
  unfold trackBestParam
  dsimp only
  cases outer : bmsSubsetCompare path.reqOuter best.reqOuter with
  | bmsEqual =>
    have equal := same.mp outer
    dsimp only
    split
    next cheaper =>
      rw [comparePathCosts_total,cmp_eq_lt_iff] at cheaper
      exact ⟨path,rfl,least.take equal.subset fun _ => cheaper.le⟩
    next dearer =>
      rw [comparePathCosts_total,cmp_eq_lt_iff,not_lt] at dearer
      exact ⟨best,rfl,least.keep (equal ▸ fun fewer => fewer.ne rfl) fun _ => dearer⟩
  | bmsSubset1 =>
    have strict := fewer.mp outer
    exact ⟨path,rfl,least.take strict.subset fun equal => absurd equal strict.ne⟩
  | bmsSubset2 =>
    rw [outer] at same fewer
    exact ⟨best,rfl,least.keep (fun strict => nomatch fewer.mpr strict) fun equal =>
      nomatch same.mpr equal⟩
  | bmsDifferent =>
    rw [outer] at same fewer
    exact ⟨best,rfl,least.keep (fun strict => nomatch fewer.mpr strict) fun equal =>
      nomatch same.mpr equal⟩

theorem setCheapest_walk_bestParam (pathlist walked : List Path) (state : Cheapest) (best : Path)
    (unfilled : state.startupAndTotal = none) (tracked : state.bestParamPath = some best)
    (least : LeastParameterized walked best)
    (parameterized : ∀ path ∈ pathlist, path.paramInfo.isSome) :
    ∃ best', (pathlist.foldl setCheapestStep state).bestParamPath = some best' ∧
      LeastParameterized (walked ++ pathlist) best' := by
  induction pathlist generalizing walked state best with
  | nil => exact ⟨best,tracked,by simpa using least⟩
  | cons path rest ih =>
    obtain ⟨best',tracked',least'⟩ := trackBestParam_least walked best path least
    rw [List.foldl_cons,List.append_cons]
    refine ih (walked ++ [path]) _ best' ?_ ?_ least' fun other later =>
      parameterized other (by simp [later])
    · simp [setCheapestStep,parameterized path (by simp),unfilled]
    · simp [setCheapestStep,parameterized path (by simp),unfilled,tracked,tracked']

theorem setCheapest_walk_parameterized (pathlist : List Path) (nonempty : pathlist ≠ [])
    (none_plain : unparameterized pathlist = []) :
    ∃ best, (pathlist.foldl setCheapestStep ⟨none,none,[]⟩).bestParamPath = some best ∧
      LeastParameterized pathlist best := by
  have parameterized : ∀ path ∈ pathlist, path.paramInfo.isSome := by
    intro path member
    by_contra plain
    have found : path ∈ unparameterized pathlist :=
      List.mem_filter.mpr ⟨member,by simpa using plain⟩
    simp [none_plain] at found
  obtain ⟨first,rest,rfl⟩ := List.exists_cons_of_ne_nil nonempty
  have alone : LeastParameterized [first] first := by
    refine ⟨by simp,?_,?_⟩
    · intro path member fewer
      exact (List.mem_singleton.mp member ▸ fewer).ne rfl
    · intro path member _
      rw [List.mem_singleton.mp member]
  rw [List.foldl_cons]
  refine setCheapest_walk_bestParam rest [first] _ first ?_ ?_ alone fun path later =>
    parameterized path (by simp [later])
  · simp [setCheapestStep,parameterized first (by simp)]
  · simp [setCheapestStep,parameterized first (by simp),trackBestParam]

theorem front_cheapest (pool : List Path) (nonempty : pool ≠ []) :
    ∃ path ∈ front dominates pool, ∀ other ∈ pool, path.totalCost ≤ other.totalCost := by
  obtain ⟨least,member,below⟩ :=
    Multiset.exists_min_image Path.totalCost (s := (pool : Multiset Path)) (by simpa using nonempty)
  obtain ⟨top,kept,reaches⟩ := front_covers dominates_strict pool least member
  refine ⟨top,kept,?_⟩
  intro other among
  refine le_trans ?_ (below other among)
  rcases reaches with rfl | above
  · exact le_rfl
  · rcases of_decide_eq_true above with ⟨cheaper,_⟩ | ⟨equal,_⟩
    · exact Path.totalCost_le_of_totalKey_le _ _ cheaper.le
    · exact Path.totalCost_le_of_totalKey_le _ _ equal.le

theorem front_mostExplored (pool : List Path) (nonempty : pool ≠ []) :
    ∃ path ∈ front dominates pool, ∀ other ∈ pool, other.exploreValue ≤ path.exploreValue := by
  obtain ⟨most,member,above⟩ :=
    Multiset.exists_max_image Path.exploreValue (s := (pool : Multiset Path))
      (by simpa using nonempty)
  obtain ⟨top,kept,reaches⟩ := front_covers dominates_strict pool most member
  refine ⟨top,kept,?_⟩
  intro other among
  refine (above other among).trans ?_
  rcases reaches with rfl | better
  · exact le_rfl
  · rcases of_decide_eq_true better with ⟨_,worth⟩ | ⟨_,worth⟩
    · exact worth
    · exact worth.le

/-! The lists of a processed relation, with and without an unparameterized path. -/

theorem setCheapest_walk_parameterizedPaths (pathlist : List Path) (state : Cheapest) :
    (pathlist.foldl setCheapestStep state).parameterizedPaths =
      state.parameterizedPaths ++ pathlist.filter fun path => path.paramInfo.isSome := by
  induction pathlist generalizing state with
  | nil => simp
  | cons path rest ih =>
    rw [List.foldl_cons,ih]
    cases parameters : path.paramInfo with
    | some info => simp [setCheapestStep,parameters]
    | none =>
      cases slots : state.startupAndTotal with
      | none => simp [setCheapestStep,parameters,slots]
      | some both => simp [setCheapestStep,parameters,slots]

theorem setCheapest_walk_startup (pathlist : List Path) (startup total : Path)
    (filled : (pathlist.foldl setCheapestStep ⟨none,none,[]⟩).startupAndTotal =
      some (startup,total)) :
    startup ∈ unparameterized pathlist := by
  rw [setCheapest_walk_empty pathlist _ rfl] at filled
  cases candidates : unparameterized pathlist with
  | nil => simp [candidates] at filled
  | cons first rest =>
    simp only [candidates,Option.some.injEq,Prod.mk.injEq] at filled
    exact filled.1 ▸ Scan.scan_mem _ _ _

structure PlainLists (pathlist : List Path) (rel : RelOptInfo) (startup total : Path) : Prop where
  explore : rel.cheapestCostExplorePathlist = front dominates (unparameterized pathlist)
  startupPath : rel.cheapestStartupPath = some startup
  startup_mem : startup ∈ unparameterized pathlist
  totalPath : rel.cheapestTotalPath = some total
  total_mem : total ∈ unparameterized pathlist
  parameterized :
    rel.cheapestParameterizedPaths = total :: pathlist.filter fun path => path.paramInfo.isSome

structure ParameterizedLists (pathlist : List Path) (rel : RelOptInfo) (best : Path) : Prop where
  explore : rel.cheapestCostExplorePathlist = [best]
  startupPath : rel.cheapestStartupPath = none
  totalPath : rel.cheapestTotalPath = some best
  least : LeastParameterized pathlist best

theorem setCheapestExplore_plainLists (parentRel result : RelOptInfo)
    (set : setCheapestExplore parentRel = .ok result)
    (some_plain : unparameterized parentRel.pathlist ≠ []) :
    ∃ startup total, PlainLists parentRel.pathlist result startup total := by
  have nonempty := setCheapestExplore_nonempty parentRel result set
  have walked := setCheapestExplore_walk_front parentRel.pathlist [] ⟨⟨none,none,[]⟩,[]⟩
    ⟨rfl,by simp [unparameterized]⟩
  rw [List.nil_append] at walked
  obtain ⟨startup,total,filled⟩ := setCheapest_walk_filled parentRel.pathlist some_plain
  obtain ⟨_,kept,_⟩ := front_cheapest _ some_plain
  refine ⟨startup,total,?_⟩
  simp only [setCheapestExplore,nonempty,if_false,Except.ok.injEq] at set
  rw [← set]
  constructor
  · simp only [walked.explored,List.ne_nil_of_mem kept,if_false]
  · simp [setCheapestExplore_walk,filled]
  · exact setCheapest_walk_startup _ startup total filled
  · simp [setCheapestExplore_walk,filled]
  · exact (setCheapest_walk_total _ startup total filled).1
  · simp [setCheapestExplore_walk,filled,setCheapest_walk_parameterizedPaths]

theorem setCheapestExplore_parameterizedLists (parentRel result : RelOptInfo)
    (set : setCheapestExplore parentRel = .ok result)
    (none_plain : unparameterized parentRel.pathlist = []) :
    ∃ best, ParameterizedLists parentRel.pathlist result best := by
  have nonempty := setCheapestExplore_nonempty parentRel result set
  have walked := setCheapestExplore_walk_front parentRel.pathlist [] ⟨⟨none,none,[]⟩,[]⟩
    ⟨rfl,by simp [unparameterized]⟩
  rw [List.nil_append] at walked
  obtain ⟨best,tracked,least⟩ :=
    setCheapest_walk_parameterized parentRel.pathlist nonempty none_plain
  have unexplored :
    (parentRel.pathlist.foldl setCheapestExploreStep ⟨⟨none,none,[]⟩,[]⟩).costExplorePaths =
      [] := by
    rw [walked.explored,none_plain]
    rfl
  have unfilled :
    (parentRel.pathlist.foldl setCheapestStep ⟨none,none,[]⟩).startupAndTotal = none := by
    rw [setCheapest_walk_empty _ _ rfl,none_plain]
  refine ⟨best,?_⟩
  simp only [setCheapestExplore,nonempty,if_false,Except.ok.injEq] at set
  rw [← set]
  constructor
  · simp [unexplored,setCheapestExplore_walk,tracked]
  · simp [setCheapestExplore_walk,unfilled]
  · simp [setCheapestExplore_walk,tracked,unfilled]
  · exact least

theorem setCheapestExplore_front_exact (parentRel : RelOptInfo)
    (nonempty : parentRel.pathlist ≠ []) :
    ∃ result, setCheapestExplore parentRel = .ok result ∧
      (unparameterized parentRel.pathlist ≠ [] →
        result.cheapestCostExplorePathlist = (unparameterized parentRel.pathlist).filter
          (fun path => ∀ other ∈ unparameterized parentRel.pathlist, ¬Dominates other path) ∧
        (∃ path ∈ result.cheapestCostExplorePathlist,
          ∀ other ∈ unparameterized parentRel.pathlist, path.totalCost ≤ other.totalCost) ∧
        ∃ path ∈ result.cheapestCostExplorePathlist,
          ∀ other ∈ unparameterized parentRel.pathlist, other.exploreValue ≤ path.exploreValue) ∧
      (unparameterized parentRel.pathlist = [] →
        ∃ best, result.cheapestCostExplorePathlist = [best] ∧ result.cheapestTotalPath = some best ∧
          LeastParameterized parentRel.pathlist best) := by
  obtain ⟨result,set⟩ := setCheapestExplore_ok parentRel nonempty
  refine ⟨result,set,?_,?_⟩
  · intro some_plain
    obtain ⟨startup,total,lists⟩ := setCheapestExplore_plainLists parentRel result set some_plain
    refine ⟨?_,lists.explore ▸ front_cheapest _ some_plain,
      lists.explore ▸ front_mostExplored _ some_plain⟩
    rw [lists.explore]
    apply List.filter_congr
    intro path _
    rw [Bool.eq_iff_iff,undominated_iff,decide_eq_true_eq]
    simp only [decide_eq_true_eq]
  · intro none_plain
    obtain ⟨best,lists⟩ := setCheapestExplore_parameterizedLists parentRel result set none_plain
    exact ⟨best,lists.explore,lists.totalPath,lists.least⟩

theorem setCheapestExplore_front_exact_pair :
    (RelOptInfo.ofPaths (baseRel 1 0) [seqScan (baseRel 1 0) 1 0 100 0,
        seqScan (baseRel 1 0) 2 0 110 1]).pathlist ≠ [] ∧
      ∃ result, setCheapestExplore (RelOptInfo.ofPaths (baseRel 1 0)
          [seqScan (baseRel 1 0) 1 0 100 0,seqScan (baseRel 1 0) 2 0 110 1]) = .ok result ∧
        ∃ path ∈ result.cheapestCostExplorePathlist, ∀ other ∈ unparameterized
          [seqScan (baseRel 1 0) 1 0 100 0,seqScan (baseRel 1 0) 2 0 110 1], path.totalCost ≤
          other.totalCost := by
  refine ⟨by simp [RelOptInfo.ofPaths],?_⟩
  obtain ⟨result,set,front,_⟩ := setCheapestExplore_front_exact (RelOptInfo.ofPaths (baseRel 1 0)
    [seqScan (baseRel 1 0) 1 0 100 0,seqScan (baseRel 1 0) 2 0 110 1])
    (by simp [RelOptInfo.ofPaths])
  exact ⟨result,set,(front (by decide +kernel)).2.1⟩

end ExploratoryOptimizer.ExploreFront
