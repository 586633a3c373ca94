import ExploratoryOptimizer.ExploreFront
import ExploratoryOptimizer.HashJoinPath
import Mathlib.Data.List.ProdSigma

/-! The pairs that `hash_inner_and_outer` hands to `try_hashjoin_path` when both relations went
through `set_cheapest_explore`. -/
namespace ExploratoryOptimizer.HashPairing
open JoinPath HashJoinPath AddPath SetCheapest ExploreFront Library.ParetoFront

/-- A relation as `set_cheapest_explore` left it, but for the unique path cached since then. -/
structure Processed (parentRel rel : RelOptInfo) : Prop where
  set : setCheapestExplore parentRel = .ok {rel with cheapestUniquePath := none}
  cached : ∀ unique ∈ rel.cheapestUniquePath, unique.path.paramInfo = unique.subpath.paramInfo ∧
    (unique.subpath ∈ rel.cheapestCostExplorePathlist ∨ some unique.subpath = rel.cheapestTotalPath)

theorem Processed.plainLists {parentRel rel : RelOptInfo} (processed : Processed parentRel rel)
    (some_plain : unparameterized parentRel.pathlist ≠ []) :
    ∃ startup total, PlainLists parentRel.pathlist rel startup total := by
  obtain ⟨startup,total,lists⟩ := setCheapestExplore_plainLists parentRel _ processed.set some_plain
  exact ⟨startup,total,lists.explore,lists.startupPath,lists.startup_mem,lists.totalPath,
    lists.total_mem,lists.parameterized⟩

theorem Processed.parameterizedLists {parentRel rel : RelOptInfo}
    (processed : Processed parentRel rel) (none_plain : unparameterized parentRel.pathlist = []) :
    ∃ best, ParameterizedLists parentRel.pathlist rel best := by
  obtain ⟨best,lists⟩ := setCheapestExplore_parameterizedLists parentRel _ processed.set none_plain
  exact ⟨best,lists.explore,lists.startupPath,lists.totalPath,lists.least⟩

theorem mem_unparameterized (pathlist : List Path) (path : Path) :
    path ∈ unparameterized pathlist ↔ path ∈ pathlist ∧ path.paramInfo = none := by
  rw [unparameterized,List.mem_filter,Option.isNone_iff_eq_none]

theorem paramByRel_unparameterized (path : Path) (rel : RelCore) (plain : path.paramInfo = none) :
    path.paramByRel rel = false := by
  simp [Path.paramByRel,plain]

section Lists

variable {pathlist : List Path} {rel : RelOptInfo} {startup total : Path}

theorem explore_plain (lists : PlainLists pathlist rel startup total) (path : Path)
    (member : path ∈ rel.cheapestCostExplorePathlist) : path.paramInfo = none := by
  rw [lists.explore,mem_front] at member
  exact ((mem_unparameterized pathlist path).mp member.1).2

theorem explore_nodup (lists : PlainLists pathlist rel startup total) (distinct : pathlist.Nodup) :
    rel.cheapestCostExplorePathlist.Nodup := by
  rw [lists.explore]
  exact (distinct.filter _).filter _

theorem parameterized_nodup (lists : PlainLists pathlist rel startup total)
    (distinct : pathlist.Nodup) :
    rel.cheapestParameterizedPaths.Nodup := by
  rw [lists.parameterized,List.nodup_cons]
  refine ⟨?_,distinct.filter _⟩
  intro member
  have plain := ((mem_unparameterized pathlist total).mp lists.total_mem).2
  simp [plain] at member

end Lists

theorem Processed.same_pathlist {parentRel rel : RelOptInfo} (processed : Processed parentRel rel) :
    rel.pathlist = parentRel.pathlist := by
  have set := processed.set
  unfold setCheapestExplore at set
  split at set
  · cases set
  · exact (congrArg RelOptInfo.pathlist (Except.ok.inj set)).symm

theorem Processed.total_set {parentRel rel : RelOptInfo} (processed : Processed parentRel rel) :
    ∃ total, rel.cheapestTotalPath = some total := by
  by_cases some_plain : unparameterized parentRel.pathlist = []
  · obtain ⟨best,lists⟩ := processed.parameterizedLists some_plain
    exact ⟨best,lists.totalPath⟩
  · obtain ⟨_,total,lists⟩ := processed.plainLists some_plain
    exact ⟨total,lists.totalPath⟩

/-- What is explored besides the cheapest total path is an unparameterized path of the relation. -/
theorem Processed.explored {parentRel rel : RelOptInfo}
    (processed : Processed parentRel rel) (path : Path)
    (member : path ∈ rel.cheapestCostExplorePathlist) :
    some path = rel.cheapestTotalPath ∨ path ∈ rel.pathlist ∧ path.paramInfo = none := by
  by_cases some_plain : unparameterized parentRel.pathlist = []
  · obtain ⟨best,lists⟩ := processed.parameterizedLists some_plain
    rw [lists.explore,List.mem_singleton] at member
    exact .inl (member ▸ lists.totalPath.symm)
  · obtain ⟨_,total,lists⟩ := processed.plainLists some_plain
    rw [lists.explore,mem_front] at member
    rw [processed.same_pathlist]
    exact .inr ((mem_unparameterized _ path).mp member.1)

theorem Processed.cached_total {parentRel rel : RelOptInfo} (processed : Processed parentRel rel)
    (only : ∀ path ∈ rel.cheapestCostExplorePathlist, some path = rel.cheapestTotalPath) :
    ∀ unique ∈ rel.cheapestUniquePath, some unique.subpath = rel.cheapestTotalPath := by
  intro unique held
  exact (processed.cached unique held).2.elim (only unique.subpath) id

/-- Arguments of the calls of `try_hashjoin_path`, without those of `try_partial_hashjoin_path`. -/
def hashjoinPairs (tries : List JoinTry) : List (Path × Path) :=
  (tries.filter fun pair => !pair.isPartial).map fun pair => (pair.outer,pair.inner)

theorem hashjoinPairs_append (tries tries' : List JoinTry) :
    hashjoinPairs (tries ++ tries') = hashjoinPairs tries ++ hashjoinPairs tries' := by
  rw [hashjoinPairs,List.filter_append,List.map_append]
  rfl

theorem hashjoinPairs_map {α : Type} (sources : List α) (toTry : α → JoinTry)
    (full : ∀ source, (toTry source).isPartial = false) :
    hashjoinPairs (sources.map toTry) = sources.map fun source =>
      ((toTry source).outer,(toTry source).inner) := by
  rw [hashjoinPairs,List.filter_eq_self.mpr,List.map_map]
  · rfl
  · intro pair member
    obtain ⟨source,_,rfl⟩ := List.mem_map.mp member
    rw [full source]
    rfl

def explorePairs (outerrel innerrel : RelOptInfo) : List (Path × Path) :=
  outerrel.cheapestCostExplorePathlist.filter (usableOuter innerrel.toRelCore) ×ˢ
    innerrel.cheapestCostExplorePathlist.filter (usableInner outerrel.toRelCore)

def startupPairs (outerrel innerrel : RelOptInfo) : List (Path × Path) :=
  if StartupCovered outerrel then []
  else outerrel.cheapestStartupPath.toList ×ˢ innerrel.cheapestCostExplorePathlist

theorem leftoverPairs_eq (outerrel innerrel : RelOptInfo) :
    leftoverPairs outerrel innerrel =
      (outerrel.cheapestParameterizedPaths.filter (usableOuter innerrel.toRelCore) ×ˢ
        innerrel.cheapestParameterizedPaths.filter (usableInner outerrel.toRelCore)).filter
          fun pair => !alreadyTried outerrel innerrel pair.1 pair.2 := by
  unfold leftoverPairs
  generalize outerrel.cheapestParameterizedPaths.filter (usableOuter innerrel.toRelCore) = outers
  generalize innerrel.cheapestParameterizedPaths.filter (usableInner outerrel.toRelCore) = inners
  induction outers with
  | nil => rfl
  | cons outer outers ih =>
    rw [List.flatMap_cons,ih,List.product_cons,List.filter_append,List.filter_map]
    rfl

theorem alreadyTried_iff (outerrel innerrel : RelOptInfo) (outer inner : Path) :
    alreadyTried outerrel innerrel outer inner ↔ inner ∈ innerrel.cheapestCostExplorePathlist ∧
      (outer ∈ outerrel.cheapestCostExplorePathlist ∨
        some outer = outerrel.cheapestStartupPath) := by
  simp only [alreadyTried,isIncludeInPathlist,Bool.or_eq_true,Bool.and_eq_true,List.any_eq_true,
    decide_eq_true_eq,exists_eq_right']
  tauto

theorem hashPartial_pairs (joinrel : RelCore) (saveJointype : JoinType) (state : JoinState) :
    hashjoinPairs (hashPartial joinrel saveJointype state).tries = hashjoinPairs state.tries := by
  have idle (outer inner : Path) : hashjoinPairs (state.tryPartial [] outer inner).tries =
    hashjoinPairs state.tries := by
    rw [JoinState.tryPartial,hashjoinPairs_append]
    simp [hashjoinPairs]
  unfold hashPartial
  repeat' split
  · exact idle _ _
  · exact idle _ _
  all_goals rfl

section Plain

variable (joinrel : RelCore) (estimates : Path → UniqueEstimates) (outerrel innerrel : RelOptInfo)

theorem plainTries_pairs (outerkeys : List PathKey) (jointype : JoinType) :
    hashjoinPairs (plainTries outerrel.toRelCore innerrel.toRelCore outerkeys jointype
      outerrel.cheapestCostExplorePathlist innerrel.cheapestCostExplorePathlist) =
      explorePairs outerrel innerrel := by
  unfold plainTries explorePairs
  generalize outerrel.cheapestCostExplorePathlist.filter (usableOuter innerrel.toRelCore) = outers
  generalize innerrel.cheapestCostExplorePathlist.filter (usableInner outerrel.toRelCore) = inners
  induction outers with
  | nil => rfl
  | cons outer outers ih =>
    rw [List.flatMap_cons,hashjoinPairs_append,ih,List.product_cons,
      hashjoinPairs_map _ _ fun _ => rfl]

theorem hashStartup_pairs (state : JoinState)
    (plain : state.jointype ≠ .uniqueOuter ∧ state.jointype ≠ .uniqueInner) :
    ∃ after innerPath tries, hashStartup estimates state = some after ∧
      Advances state after state.jointype innerPath tries ∧
      hashjoinPairs tries = startupPairs state.outerrel state.innerrel := by
  by_cases covered : StartupCovered state.outerrel
  · refine ⟨state,_,_,hashStartup_covered estimates state covered,Advances.refl state,?_⟩
    simp [startupPairs,covered,hashjoinPairs]
  · obtain ⟨startup,found,untried⟩ := uncovered_startup state.outerrel covered
    obtain ⟨after,ran,advances⟩ := hashStartup_plain estimates state startup plain found untried
    refine ⟨after,_,_,ran,advances,?_⟩
    rw [startupPairs,if_neg covered,found,hashjoinPairs_map _ _ fun _ => rfl]
    simp

/-- For a join type that makes nothing unique: the explore lists, the startup path, the
leftovers. -/
theorem hashInnerAndOuter_pairs (restrictlist : List JoinClause) (sjinfo : SpecialJoinInfo)
    (jointype : JoinType) (plain : jointype ≠ .uniqueOuter ∧ jointype ≠ .uniqueInner)
    (some_clause : hashClauses jointype restrictlist outerrel.toRelCore innerrel.toRelCore ≠ []) :
    ∃ final, hashInnerAndOuter joinrel estimates restrictlist outerrel innerrel sjinfo
      jointype = some final ∧ hashjoinPairs final.tries =
        explorePairs outerrel innerrel ++ startupPairs outerrel innerrel ++
        leftoverPairs outerrel innerrel := by
  obtain ⟨explored,ran,advances⟩ :=
    exploreOuter_plain estimates [] outerrel.cheapestCostExplorePathlist
      innerrel.cheapestCostExplorePathlist ⟨outerrel,innerrel,sjinfo,jointype,none,[],[]⟩ plain
  have kind : explored.jointype = jointype := advances.jointype
  have same : explored.outerrel = outerrel := advances.outerrel
  have same' : explored.innerrel = innerrel := advances.innerrel
  obtain ⟨started,_,tries,ran',advances',pairs⟩ :=
    hashStartup_pairs estimates explored (kind.symm ▸ plain)
  have parameterized :=
    hashParameterized_plain started (by rw [advances'.jointype,kind]; exact plain)
  refine ⟨hashPartial joinrel jointype (hashParameterized started),?_,?_⟩
  · simp only [hashInnerAndOuter,some_clause,if_false,ran,Option.bind_some,hashRest,ran',
      Option.map_some]
  · rw [hashPartial_pairs,parameterized.tries,advances'.tries,advances.tries,hashjoinPairs_append,
      hashjoinPairs_append,hashjoinPairs_append,plainTries_pairs,pairs,
      hashjoinPairs_map _ _ fun _ => rfl,advances'.outerrel,advances'.innerrel,same,same']
    simp [hashjoinPairs]

end Plain

theorem startupPairs_mem (outerrel innerrel : RelOptInfo) (outer inner : Path) :
    (outer,inner) ∈ startupPairs outerrel innerrel ↔ outer ∉ outerrel.cheapestCostExplorePathlist ∧
      outerrel.cheapestStartupPath = some outer ∧ inner ∈ innerrel.cheapestCostExplorePathlist := by
  unfold startupPairs
  split
  next covered =>
    constructor
    · intro member
      simp at member
    · rintro ⟨absent,found,_⟩
      exact absurd (covered outer found) absent
  next uncovered =>
    obtain ⟨startup,found,untried⟩ := uncovered_startup outerrel uncovered
    have absent : startup ∉ outerrel.cheapestCostExplorePathlist := by
      rw [← startupTried_iff outerrel startup found,untried]
      exact Bool.false_ne_true
    rw [List.mem_product,found,Option.mem_toList,Option.some.injEq]
    constructor
    · rintro ⟨rfl,member⟩
      exact ⟨absent,rfl,member⟩
    · rintro ⟨_,same,member⟩
      exact ⟨same,member⟩

theorem explorePairs_plain (outerrel innerrel : RelOptInfo)
    (plain : ∀ path ∈ outerrel.cheapestCostExplorePathlist, path.paramInfo = none)
    (plain' : ∀ path ∈ innerrel.cheapestCostExplorePathlist, path.paramInfo = none) :
    explorePairs outerrel innerrel = outerrel.cheapestCostExplorePathlist ×ˢ
      innerrel.cheapestCostExplorePathlist := by
  rw [explorePairs,List.filter_eq_self.mpr,List.filter_eq_self.mpr]
  · intro path member
    simp [usableInner,paramByRel_unparameterized path _ (plain' path member)]
  · intro path member
    simp [usableOuter,paramByRel_unparameterized path _ (plain path member)]

theorem leftoverPairs_mem_iff (outerrel innerrel : RelOptInfo) (outer inner : Path) :
    (outer,inner) ∈ leftoverPairs outerrel innerrel ↔
      (outer ∈ outerrel.cheapestParameterizedPaths ∧ inner ∈ innerrel.cheapestParameterizedPaths ∧
        ¬outer.paramByRel innerrel.toRelCore ∧ ¬inner.paramByRel outerrel.toRelCore) ∧
      ¬(inner ∈ innerrel.cheapestCostExplorePathlist ∧
        (outer ∈ outerrel.cheapestCostExplorePathlist ∨ outerrel.cheapestStartupPath =
          some outer)) := by
  rw [leftoverPairs_eq,List.mem_filter,List.mem_product,List.mem_filter,List.mem_filter,
    Bool.not_eq_true',← Bool.not_eq_true,alreadyTried_iff,eq_comm (a := some outer)]
  simp only [usableOuter,usableInner,Bool.not_eq_true',Bool.not_eq_true]
  tauto

/-- The three loops meet no pair twice: the second runs when the startup path was not met, the third
skips what the first two tried. -/
theorem pairs_nodup (outerrel innerrel : RelOptInfo)
    (outerExplore : outerrel.cheapestCostExplorePathlist.Nodup)
    (innerExplore : innerrel.cheapestCostExplorePathlist.Nodup)
    (outerOthers : outerrel.cheapestParameterizedPaths.Nodup)
    (innerOthers : innerrel.cheapestParameterizedPaths.Nodup) :
    (explorePairs outerrel innerrel ++ startupPairs outerrel innerrel ++ leftoverPairs outerrel
        innerrel).Nodup := by
  have tried (pair : Path × Path) (member : pair ∈ explorePairs outerrel innerrel) :
      pair.1 ∈ outerrel.cheapestCostExplorePathlist ∧
        pair.2 ∈ innerrel.cheapestCostExplorePathlist := by
    obtain ⟨outer,inner⟩ := List.mem_product.mp member
    exact ⟨(List.mem_filter.mp outer).1,(List.mem_filter.mp inner).1⟩
  rw [List.nodup_append',List.nodup_append']
  refine ⟨⟨(outerExplore.filter _).product (innerExplore.filter _),?_,?_⟩,?_,?_⟩
  · unfold startupPairs
    split
    · exact List.nodup_nil
    · exact (Option.toList_nodup _).product innerExplore
  · intro pair first second
    exact ((startupPairs_mem outerrel innerrel pair.1 pair.2).mp second).1 (tried pair first).1
  · rw [leftoverPairs_eq]
    exact ((outerOthers.filter _).product (innerOthers.filter _)).filter _
  · intro pair earlier leftover
    have untried := ((leftoverPairs_mem_iff outerrel innerrel pair.1 pair.2).mp leftover).2
    rcases List.mem_append.mp earlier with first | second
    · exact untried ⟨(tried pair first).2,.inl (tried pair first).1⟩
    · obtain ⟨_,found,inner⟩ := (startupPairs_mem outerrel innerrel pair.1 pair.2).mp second
      exact untried ⟨inner,.inr found⟩

theorem hashInnerAndOuter_pairs_exact (joinrel : RelCore) (estimates : Path → UniqueEstimates)
    (restrictlist : List JoinClause) (outerParent outerrel innerParent innerrel : RelOptInfo)
    (sjinfo : SpecialJoinInfo) (jointype : JoinType) (processed : Processed outerParent outerrel)
    (processed' : Processed innerParent innerrel)
    (some_plain : unparameterized outerParent.pathlist ≠ [])
    (some_plain' : unparameterized innerParent.pathlist ≠ [])
    (distinct : outerParent.pathlist.Nodup) (distinct' : innerParent.pathlist.Nodup)
    (plain : jointype ≠ .uniqueOuter ∧ jointype ≠ .uniqueInner)
    (some_clause : hashClauses jointype restrictlist outerrel.toRelCore innerrel.toRelCore ≠ []) :
    ∃ final, hashInnerAndOuter joinrel estimates restrictlist outerrel innerrel sjinfo
      jointype = some final ∧
      (hashjoinPairs final.tries).Nodup ∧ ∀ outer inner, (outer,inner) ∈ hashjoinPairs final.tries ↔
        outer ∈ outerrel.cheapestCostExplorePathlist ∧
        inner ∈ innerrel.cheapestCostExplorePathlist ∨
        outerrel.cheapestStartupPath = some outer ∧ inner ∈ innerrel.cheapestCostExplorePathlist ∨
        outer ∈ outerrel.cheapestParameterizedPaths ∧ inner ∈ innerrel.cheapestParameterizedPaths ∧
          ¬outer.paramByRel innerrel.toRelCore ∧ ¬inner.paramByRel outerrel.toRelCore := by
  obtain ⟨final,ran,pairs⟩ :=
    hashInnerAndOuter_pairs joinrel estimates outerrel innerrel restrictlist sjinfo jointype
      plain some_clause
  obtain ⟨startup,total,lists⟩ := processed.plainLists some_plain
  obtain ⟨startup',total',lists'⟩ := processed'.plainLists some_plain'
  refine ⟨final,ran,?_,?_⟩
  · rw [pairs]
    exact pairs_nodup outerrel innerrel (explore_nodup lists distinct)
      (explore_nodup lists' distinct') (parameterized_nodup lists distinct)
      (parameterized_nodup lists' distinct')
  · intro outer inner
    rw [pairs,List.mem_append,List.mem_append,startupPairs_mem,leftoverPairs_mem_iff,
      explorePairs_plain outerrel innerrel (explore_plain lists) (explore_plain lists'),
      List.mem_product]
    constructor
    · rintro ((first | ⟨_,second⟩) | ⟨others,_⟩)
      · exact .inl first
      · exact .inr (.inl second)
      · exact .inr (.inr others)
    · -- A pair the third loop skips was met by the first, or by the second as the startup path.
      have met (inside : inner ∈ innerrel.cheapestCostExplorePathlist)
          (either : outer ∈ outerrel.cheapestCostExplorePathlist ∨
            outerrel.cheapestStartupPath = some outer) :
          (outer ∈ outerrel.cheapestCostExplorePathlist ∧
              inner ∈ innerrel.cheapestCostExplorePathlist) ∨
            outer ∉ outerrel.cheapestCostExplorePathlist ∧
              outerrel.cheapestStartupPath = some outer ∧
              inner ∈ innerrel.cheapestCostExplorePathlist := by
        by_cases explored : outer ∈ outerrel.cheapestCostExplorePathlist
        · exact .inl ⟨explored,inside⟩
        · exact .inr ⟨explored,either.resolve_left explored,inside⟩
      rintro (first | ⟨startup,inside⟩ | others)
      · exact .inl (.inl first)
      · exact .inl (met inside (.inr startup))
      · by_cases tried : inner ∈ innerrel.cheapestCostExplorePathlist ∧
            (outer ∈ outerrel.cheapestCostExplorePathlist ∨
              outerrel.cheapestStartupPath = some outer)
        · exact .inl (met tried.1 tried.2)
        · exact .inr ⟨others,tried⟩

/-! An outer relation whose quickest start is neither its cheapest path nor worth exploring. -/

def startedCore : RelCore := {baseRel 1 0 with considerStartup := true}

def exploredScan : Path := seqScan startedCore 1 10 100 1

def promptScan : Path := seqScan startedCore 2 0 110 (1/2)

def startedParent : RelOptInfo := RelOptInfo.ofPaths startedCore [exploredScan,promptScan]

def startedRel : RelOptInfo :=
  {startedParent with
    cheapestCostExplorePathlist := [exploredScan]
    cheapestStartupPath := some promptScan
    cheapestTotalPath := some exploredScan
    cheapestParameterizedPaths := [exploredScan]}

theorem startedRel_processed : Processed startedParent startedRel := by
  constructor
  · decide +kernel
  · intro unique cached
    cases cached

theorem leftRel_processed : Processed (RelOptInfo.ofPaths (baseRel 2 0) [leftPath]) leftRel := by
  constructor
  · decide +kernel
  · intro unique cached
    cases cached

theorem hashInnerAndOuter_pairs_exact_started :
    ∃ final, hashInnerAndOuter joinedCore noEstimates [equalityClause] startedRel leftRel
      ⟨true,true⟩ .left =
        some final ∧ (hashjoinPairs final.tries).Nodup ∧
        (promptScan,leftPath) ∈ hashjoinPairs final.tries := by
  obtain ⟨final,ran,once,pairs⟩ :=
    hashInnerAndOuter_pairs_exact joinedCore noEstimates [equalityClause] startedParent startedRel
      (RelOptInfo.ofPaths (baseRel 2 0) [leftPath]) leftRel ⟨true,true⟩ .left startedRel_processed
    leftRel_processed (by decide +kernel) (by decide +kernel) (by decide +kernel)
      (by decide +kernel) (by decide)
    (by decide +kernel)
  exact ⟨final,ran,once,(pairs promptScan leftPath).mpr (.inr (.inl ⟨rfl,by simp [leftRel]⟩))⟩

end ExploratoryOptimizer.HashPairing
