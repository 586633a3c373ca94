import ExploratoryOptimizer.JoinLoops

/-! `sort_inner_and_outer` of path/joinpath.c: one round of explore-list pairs for each merge
ordering. A unique inner join type is already turned into a plain one before the first round, for
the path of the partial join alone. -/
namespace ExploratoryOptimizer.SortMergePath
open JoinPath

def mergeOrderings : List PathKey → List (List PathKey)
  | [] => []
  | first :: rest => (first :: rest) :: rest.map fun front => front :: (first :: rest).erase front

def partialPair (joinrel : RelCore) (outerrel innerrel : RelOptInfo) (saveJointype : JoinType)
    (innerPathParallel : Path) : Option (Path × Path) :=
  if partialAllowed joinrel outerrel saveJointype then do
    let cheapestPartialOuter ← outerrel.partialPathlist.head?
    let cheapestSafeInner ←
      if innerPathParallel.parallelSafe then some innerPathParallel
      else if saveJointype ≠ .uniqueInner then getCheapestParallelSafeTotalInner innerrel.pathlist
      else none
    return (cheapestPartialOuter,cheapestSafeInner)
  else none

def mergeRound (estimates : Path → UniqueEstimates) (outers inners : List Path)
    (parallel : Option (Path × Path)) (state : JoinState) (outerkeys : List PathKey) :
    Option JoinState :=
  (exploreOuter estimates outerkeys outers inners state).map fun explored =>
    match parallel with
    | some (outer,inner) => explored.tryPartial outerkeys outer inner
    | none => explored

def sortInnerAndOuter (joinrel : RelCore) (estimates : Path → UniqueEstimates)
    (allPathkeys : List PathKey) (outerrel innerrel : RelOptInfo) (sjinfo : SpecialJoinInfo)
    (jointype : JoinType) : Option JoinState := do
  let start : JoinState := ⟨outerrel,innerrel,sjinfo,jointype,none,[],[]⟩
  let cheapestTotalPath ← innerrel.cheapestTotalPath
  let (innerPathParallel,state) ←
    if jointype = .uniqueInner then
      (start.uniqueInner estimates cheapestTotalPath).map fun (unique,next) =>
        (unique,{next with jointype := .inner})
    else some (cheapestTotalPath,start)
  (mergeOrderings allPathkeys).foldlM (mergeRound estimates outerrel.cheapestCostExplorePathlist
    innerrel.cheapestCostExplorePathlist
    (partialPair joinrel outerrel innerrel jointype innerPathParallel)) state

def fullTries (tries : List JoinTry) : List JoinTry := tries.filter fun pair => !pair.isPartial

theorem fullTries_append (tries tries' : List JoinTry) :
    fullTries (tries ++ tries') = fullTries tries ++ fullTries tries' := List.filter_append ..

theorem fullTries_plainTries (outerrel innerrel : RelCore) (outerkeys : List PathKey)
    (jointype : JoinType) (outers inners : List Path) :
    fullTries (plainTries outerrel innerrel outerkeys jointype outers inners) =
      plainTries outerrel innerrel outerkeys jointype outers inners := by
  apply List.filter_eq_self.mpr
  intro pair member
  obtain ⟨_,_,source⟩ := List.mem_flatMap.mp member
  obtain ⟨_,_,rfl⟩ := List.mem_map.mp source
  rfl

section Rounds

variable (estimates : Path → UniqueEstimates) (outers inners : List Path)
  (parallel : Option (Path × Path))

theorem mergeRound_of_explored (state explored : JoinState) (outerkeys : List PathKey)
    (jointype : JoinType) (innerPath : Option Path) (tries : List JoinTry)
    (ran : exploreOuter estimates outerkeys outers inners state = some explored)
    (advances : Advances state explored jointype innerPath tries) :
    ∃ after tries', mergeRound estimates outers inners parallel state outerkeys = some after ∧
      Advances state after jointype innerPath tries' ∧ fullTries tries' = fullTries tries := by
  unfold mergeRound
  rw [ran]
  cases parallel with
  | none => exact ⟨explored,tries,rfl,advances,rfl⟩
  | some pair =>
    have last :
      Advances explored (explored.tryPartial outerkeys pair.1 pair.2) explored.jointype
        explored.innerPath [⟨true,pair.1,pair.2,outerkeys,explored.jointype⟩] :=
          ⟨rfl,rfl,rfl,rfl,rfl⟩
    rw [advances.jointype,advances.innerPath] at last
    refine ⟨explored.tryPartial outerkeys pair.1 pair.2,_,rfl,advances.trans last,?_⟩
    rw [fullTries_append]
    simp [fullTries]

/-- Rounds that each offer what their ordering determines and leave the relations and the jointype
alone. -/
theorem mergeRounds_of_rounds (offered : List PathKey → List JoinTry)
    (orderings : List (List PathKey)) (state : JoinState)
    (round : ∀ before : JoinState, before.outerrel = state.outerrel →
      before.innerrel = state.innerrel →
      before.jointype = state.jointype → ∀ outerkeys, ∃ explored innerPath tries,
        exploreOuter estimates outerkeys outers inners before = some explored ∧
        Advances before explored before.jointype innerPath tries ∧
        fullTries tries = offered outerkeys) :
    ∃ after innerPath tries,
      orderings.foldlM (mergeRound estimates outers inners parallel) state = some after ∧
      Advances state after state.jointype innerPath tries ∧
      fullTries tries = orderings.flatMap offered := by
  induction orderings generalizing state with
  | nil => exact ⟨state,_,_,rfl,Advances.refl state,rfl⟩
  | cons outerkeys orderings ih =>
    obtain ⟨explored,_,_,ran,advances,offers⟩ := round state rfl rfl rfl outerkeys
    obtain ⟨middle,tries,stepped,first,full⟩ :=
      mergeRound_of_explored estimates outers inners parallel state explored outerkeys _
        _ _ ran advances
    obtain ⟨after,innerPath,tries',rounds,rest,full'⟩ :=
      ih middle fun before outerrel innerrel jointype =>
      round before (outerrel.trans first.outerrel) (innerrel.trans first.innerrel)
        (jointype.trans first.jointype)
    rw [first.jointype] at rest
    refine ⟨after,innerPath,tries ++ tries',by simp [List.foldlM_cons,stepped,rounds],
      first.trans rest,?_⟩
    rw [fullTries_append,full,full',offers,List.flatMap_cons]

theorem mergeRounds_plain (orderings : List (List PathKey)) (state : JoinState)
    (plain : state.jointype ≠ .uniqueOuter ∧ state.jointype ≠ .uniqueInner) :
    ∃ after innerPath tries,
      orderings.foldlM (mergeRound estimates outers inners parallel) state = some after ∧
      Advances state after state.jointype innerPath tries ∧
      fullTries tries = orderings.flatMap fun outerkeys =>
        plainTries state.outerrel.toRelCore state.innerrel.toRelCore outerkeys state.jointype
          outers inners := by
  apply mergeRounds_of_rounds
  intro before outerrel innerrel jointype outerkeys
  obtain ⟨explored,ran,advances⟩ :=
    exploreOuter_plain estimates outerkeys outers inners before (jointype ▸ plain)
  refine ⟨explored,_,_,ran,advances,?_⟩
  rw [fullTries_plainTries,outerrel,innerrel,jointype]

theorem mergeRounds_unusable (orderings : List (List PathKey)) (state : JoinState)
    (unusable : outers.filter (usableOuter state.innerrel.toRelCore) = [] ∨
      inners.filter (usableInner state.outerrel.toRelCore) = []) :
    ∃ after innerPath tries,
      orderings.foldlM (mergeRound estimates outers inners parallel) state = some after ∧
      Advances state after state.jointype innerPath tries ∧ fullTries tries = [] := by
  have nothing :=
    mergeRounds_of_rounds estimates outers inners parallel (fun _ => []) orderings state
      fun before outerrel innerrel _ outerkeys => by
      obtain ⟨explored,ran,advances⟩ :=
        exploreOuter_unusable estimates outerkeys outers inners before
          (by rw [outerrel,innerrel]; exact unusable)
      exact ⟨explored,_,_,ran,advances,rfl⟩
  rwa [List.flatMap_eq_nil_iff.mpr fun _ _ => rfl] at nothing

end Rounds

section Semijoin

variable (joinrel : RelCore) (estimates : Path → UniqueEstimates) (allPathkeys : List PathKey)
  (outerrel innerrel : RelOptInfo) (sjinfo : SpecialJoinInfo)

def nothingUsable : Prop :=
  outerrel.cheapestCostExplorePathlist.filter (usableOuter innerrel.toRelCore) = [] ∨
    innerrel.cheapestCostExplorePathlist.filter (usableInner outerrel.toRelCore) = []

instance : Decidable (nothingUsable outerrel innerrel) := inferInstanceAs (Decidable (_ ∨ _))

def singleOuterRound : Prop :=
  allPathkeys.length = 1 ∧
    (outerrel.cheapestCostExplorePathlist.filter (usableOuter innerrel.toRelCore)).length = 1

instance : Decidable (singleOuterRound allPathkeys outerrel innerrel) :=
  inferInstanceAs (Decidable (_ ∧ _))

theorem partialPair_uniqueOuter (innerPathParallel : Path) :
    partialPair joinrel outerrel innerrel .uniqueOuter innerPathParallel = none := by
  simp [partialPair,partialAllowed]

theorem mergeOrderings_eq_nil : mergeOrderings allPathkeys = [] ↔ allPathkeys = [] := by
  cases allPathkeys with
  | nil => simp [mergeOrderings]
  | cons first rest => simp [mergeOrderings]

theorem fullTries_rounds_eq_nil (orderings : List (List PathKey)) (jointype : JoinType)
    (outers inners : List Path) :
    (orderings.flatMap fun outerkeys =>
        plainTries outerrel.toRelCore innerrel.toRelCore outerkeys jointype
      outers inners) = [] ↔ orderings = [] ∨ outers.filter (usableOuter innerrel.toRelCore) = [] ∨
        inners.filter (usableInner outerrel.toRelCore) = [] := by
  simp only [List.flatMap_eq_nil_iff,plainTries_eq_nil]
  cases orderings with
  | nil => simp
  | cons outerkeys orderings =>
    exact ⟨fun all => .inr (all outerkeys (by simp)),fun either _ _ =>
      either.resolve_left (by simp)⟩

theorem rounds_ordinary (orderings : List (List PathKey)) (jointype : JoinType)
    (ordinary : Ordinary outerrel) (ordinary' : Ordinary innerrel) (outers : List Path)
    (among : ∀ path ∈ outers, path ∈ outerrel.cheapestCostExplorePathlist) (side : JoinType) :
    ∀ pair ∈ orderings.flatMap fun outerkeys =>
      plainTries outerrel.toRelCore innerrel.toRelCore outerkeys jointype
      outers innerrel.cheapestCostExplorePathlist, ¬isUniquePath (uniqueSide side pair) := by
  intro pair member
  obtain ⟨_,_,tried⟩ := List.mem_flatMap.mp member
  obtain ⟨outer,inner⟩ := plainTries_mem _ _ _ _ _ _ pair tried
  cases side with
  | uniqueOuter => exact ordinary.explore _ (among _ outer)
  | _ => exact ordinary'.explore _ inner

theorem sort_uniqueInner (unique : UniquePath) (cached : innerrel.cheapestUniquePath = some unique)
    (total : Path) (cheapest : innerrel.cheapestTotalPath = some total)
    (ordinary : Ordinary outerrel) (ordinary' : Ordinary innerrel) :
    ∃ final, sortInnerAndOuter joinrel estimates allPathkeys outerrel innerrel sjinfo .uniqueInner =
      some final ∧ (StaysSemijoin .uniqueInner (fullTries final.tries) ↔
        allPathkeys = [] ∨ nothingUsable outerrel innerrel) := by
  -- Unique-ified once, for the partial join, the inner side is never unique in a full try.
  obtain ⟨final,innerPath,tries,ran,advances,full⟩ := mergeRounds_plain estimates
    outerrel.cheapestCostExplorePathlist innerrel.cheapestCostExplorePathlist
    (partialPair joinrel outerrel innerrel .uniqueInner unique.path) (mergeOrderings allPathkeys)
    ⟨outerrel,innerrel,sjinfo,.inner,none,[],[⟨total,unique⟩]⟩ ⟨by simp,by simp⟩
  refine ⟨final,?_,?_⟩
  · rw [← ran]
    simp [sortInnerAndOuter,cheapest,JoinState.uniqueInner,
      createUniquePath_cached innerrel total sjinfo (estimates total) unique cached]
  · rw [advances.tries,List.nil_append,full,staysSemijoin_ordinary,← mergeOrderings_eq_nil]
    · exact fullTries_rounds_eq_nil outerrel innerrel _ _ _ _
    · exact rounds_ordinary outerrel innerrel _ _ ordinary ordinary' _ (fun _ member => member) _

theorem sort_uniqueOuter (unique : UniquePath) (made : isUniquePath unique.path)
    (cached : outerrel.cheapestUniquePath = some unique) (total : Path)
    (cheapest : innerrel.cheapestTotalPath = some total) (ordinary : Ordinary outerrel)
    (ordinary' : Ordinary innerrel) :
    ∃ final, sortInnerAndOuter joinrel estimates allPathkeys outerrel innerrel sjinfo .uniqueOuter =
      some final ∧ (StaysSemijoin .uniqueOuter (fullTries final.tries) ↔
        allPathkeys = [] ∨ nothingUsable outerrel innerrel ∨
        singleOuterRound allPathkeys outerrel innerrel) := by
  have start :
    sortInnerAndOuter joinrel estimates allPathkeys outerrel innerrel sjinfo .uniqueOuter =
      (mergeOrderings allPathkeys).foldlM (mergeRound estimates outerrel.cheapestCostExplorePathlist
        innerrel.cheapestCostExplorePathlist none) ⟨outerrel,innerrel,sjinfo,.uniqueOuter,
        none,[],[]⟩ := by
    simp [sortInnerAndOuter,cheapest,partialPair_uniqueOuter]
  rw [start]
  by_cases unusable : nothingUsable outerrel innerrel
  · obtain ⟨final,innerPath,tries,ran,advances,full⟩ := mergeRounds_unusable estimates
      outerrel.cheapestCostExplorePathlist innerrel.cheapestCostExplorePathlist none
      (mergeOrderings allPathkeys) ⟨outerrel,innerrel,sjinfo,.uniqueOuter,none,[],[]⟩ unusable
    refine ⟨final,ran,?_⟩
    rw [advances.tries,List.nil_append,full]
    simp [unusable,StaysSemijoin]
  cases allPathkeys with
  | nil => exact ⟨_,rfl,by simp [StaysSemijoin,fullTries]⟩
  | cons first rest =>
    obtain ⟨some_outer,some_inner⟩ := not_or.mp unusable
    obtain ⟨chosen,others,shape⟩ := List.exists_cons_of_ne_nil some_outer
    obtain ⟨explored,innerPath,tries,ran,advances,unique_first⟩ :=
      exploreOuter_uniqueOuter estimates (first :: rest) outerrel.cheapestCostExplorePathlist
        innerrel.cheapestCostExplorePathlist
      ⟨outerrel,innerrel,sjinfo,.uniqueOuter,none,[],[]⟩ chosen others shape some_inner
        rfl unique cached
    have stepped :
      mergeRound estimates outerrel.cheapestCostExplorePathlist
        innerrel.cheapestCostExplorePathlist none ⟨outerrel,innerrel,sjinfo,.uniqueOuter,none,[],[]⟩
        (first :: rest) = some explored := by
      simp [mergeRound,ran]
    obtain ⟨final,innerPath',tries',rounds,later,full⟩ := mergeRounds_plain estimates
      outerrel.cheapestCostExplorePathlist innerrel.cheapestCostExplorePathlist none
      (rest.map fun front => front :: (first :: rest).erase front) explored
      ⟨by simp [advances.jointype],by simp [advances.jointype]⟩
    rw [advances.jointype,advances.outerrel,advances.innerrel] at full
    refine ⟨final,by simp [mergeOrderings,List.foldlM_cons,stepped,rounds],?_⟩
    have head : StaysSemijoin .uniqueOuter (fullTries tries) := by
      rw [staysSemijoin_iff]
      intro pair member
      change isUniquePath pair.outer
      rw [unique_first pair (List.mem_filter.mp member).1]
      exact made
    have second :
      StaysSemijoin .uniqueOuter
        (plainTries outerrel.toRelCore innerrel.toRelCore (first :: rest) .inner others
          innerrel.cheapestCostExplorePathlist) ↔ others = [] :=
      laterTries_stay .uniqueOuter outerrel innerrel (first :: rest) _ _ chosen others
        shape some_inner fun pair outer _ => ordinary.explore pair.outer outer
    rw [later.tries,advances.tries,List.nil_append,fullTries_append,fullTries_append,
      fullTries_plainTries,full,staysSemijoin_append,staysSemijoin_append,second,
      staysSemijoin_ordinary _ _
        (rounds_ordinary outerrel innerrel _ _ ordinary ordinary' _ (fun _ member => member) _),
      fullTries_rounds_eq_nil]
    simp only [head,true_and,unusable,singleOuterRound,shape,some_inner,List.map_eq_nil_iff,
      List.length_cons,Nat.add_eq_right,List.length_eq_zero_iff,reduceCtorEq,false_or,
      or_false,and_comm]

end Semijoin

/-- A unique-ified join type keeps its meaning through `sort_inner_and_outer` exactly when
nothing is tried or, on the outer side, a single ordering meets a single usable outer path. -/
theorem sortInnerAndOuter_semijoin_iff (joinrel : RelCore) (estimates : Path → UniqueEstimates)
    (allPathkeys : List PathKey) (outerrel innerrel : RelOptInfo) (sjinfo : SpecialJoinInfo)
    (jointype : JoinType) (unique : UniquePath) (made : isUniquePath unique.path)
    (kind : jointype = .uniqueOuter ∧ outerrel.cheapestUniquePath = some unique ∨
      jointype = .uniqueInner ∧ innerrel.cheapestUniquePath = some unique)
    (total : Path) (cheapest : innerrel.cheapestTotalPath = some total)
    (ordinary : Ordinary outerrel) (ordinary' : Ordinary innerrel) :
    ∃ final, sortInnerAndOuter joinrel estimates allPathkeys outerrel innerrel sjinfo
      jointype = some final ∧ (StaysSemijoin jointype (fullTries final.tries) ↔
        allPathkeys = [] ∨ nothingUsable outerrel innerrel ∨
          jointype = .uniqueOuter ∧ singleOuterRound allPathkeys outerrel innerrel) := by
  rcases kind with ⟨rfl,cached⟩ | ⟨rfl,cached⟩
  · obtain ⟨final,ran,stays⟩ :=
      sort_uniqueOuter joinrel estimates allPathkeys outerrel innerrel sjinfo unique made cached
        total cheapest ordinary ordinary'
    exact ⟨final,ran,by simpa using stays⟩
  · obtain ⟨final,ran,stays⟩ :=
      sort_uniqueInner joinrel estimates allPathkeys outerrel innerrel sjinfo unique cached total
        cheapest ordinary ordinary'
    exact ⟨final,ran,by simpa using stays⟩

theorem sortInnerAndOuter_semijoin_iff_single :
    ∃ final, sortInnerAndOuter joinedCore noEstimates [7] (rightRel [rightPath]) leftRel ⟨true,true⟩
        .uniqueOuter = some final ∧ StaysSemijoin .uniqueOuter (fullTries final.tries) := by
  obtain ⟨final,ran,stays⟩ :=
    sortInnerAndOuter_semijoin_iff joinedCore noEstimates [7] (rightRel [rightPath]) leftRel
      ⟨true,true⟩ .uniqueOuter cachedUnique rfl (.inl ⟨rfl,rfl⟩) leftPath rfl
    (rightRel_ordinary _ (by simp)) leftRel_ordinary
  exact ⟨final,ran,stays.mpr (.inr (.inr ⟨rfl,by decide⟩))⟩

/-- A unique inner join type is gone before the first round, so the plain right-hand path is
joined and the left row is repeated. -/
theorem sortInnerAndOuter_repeats_rows :
    ∃ final, sortInnerAndOuter joinedCore noEstimates [7] leftRel (rightRel [rightPath]) ⟨true,true⟩
        .uniqueInner = some final ∧
      ∃ pair ∈ fullTries final.tries, ¬isUniquePath (uniqueSide .uniqueInner pair) ∧
        duplicateRows.joined .uniqueInner pair ≠ duplicateRows.expected := by
  have tries :
    (sortInnerAndOuter joinedCore noEstimates [7] leftRel (rightRel [rightPath]) ⟨true,true⟩
      .uniqueInner).map (fun final => fullTries final.tries) =
      some [⟨false,leftPath,rightPath,[7],.inner⟩] := by
    decide +kernel
  obtain ⟨final,ran,shape⟩ := Option.map_eq_some_iff.mp tries
  refine ⟨final,ran,⟨false,leftPath,rightPath,[7],.inner⟩,?_,?_,?_⟩
  · rw [shape]
    simp
  · decide
  · decide +kernel

end ExploratoryOptimizer.SortMergePath
