import ExploratoryOptimizer.JoinLoops
import ExploratoryOptimizer.Library.Machine

/-! One iteration of the loops over the two explore lists, whether or not the unique path is cached
yet, and what the whole loops keep. -/
namespace ExploratoryOptimizer.JoinPath
open Library.Machine

/-- What `create_unique_path` may return: the cached path, or a new one over the subpath. -/
def Supplied (rel : RelOptInfo) (subpath : Path) (unique : UniquePath) : Prop :=
  rel.cheapestUniquePath = some unique ∨
    rel.cheapestUniquePath = none ∧ unique.subpath = subpath ∧ unique.path.paramInfo =
    subpath.paramInfo

theorem createUniquePath_supplied (rel rel' : RelOptInfo) (subpath : Path)
    (sjinfo sjinfo' : SpecialJoinInfo) (figures : UniqueEstimates) (unique : UniquePath)
    (made : createUniquePath rel subpath sjinfo figures = (some unique,rel',sjinfo')) :
    rel' = {rel with cheapestUniquePath := some unique} ∧ Supplied rel subpath unique := by
  unfold createUniquePath at made
  cases held : rel.cheapestUniquePath with
  | some cached =>
    simp only [held,Prod.mk.injEq,Option.some.injEq] at made
    obtain ⟨rfl,rfl,_⟩ := made
    refine ⟨?_,.inl held⟩
    rw [← held]
  | none =>
    simp only [held] at made
    split_ifs at made with impossible distinct
    · simp at made
    · simp only [Prod.mk.injEq,Option.some.injEq] at made
      obtain ⟨rfl,rfl,_⟩ := made
      exact ⟨rfl,.inr ⟨held,rfl,rfl⟩⟩
    · split at made
      · simp at made
      · simp only [Prod.mk.injEq,Option.some.injEq] at made
        obtain ⟨rfl,rfl,_⟩ := made
        refine ⟨rfl,.inr ⟨held,?_⟩⟩
        split
        · exact ⟨rfl,rfl⟩
        · exact ⟨rfl,rfl⟩

theorem uniqueOuter_supplied (estimates : Path → UniqueEstimates) (state next : JoinState)
    (subpath path : Path) (made : state.uniqueOuter estimates subpath = some (path,next)) :
    ∃ unique sjinfo, Supplied state.outerrel subpath unique ∧ path = unique.path ∧
      next = {state with
        outerrel := {state.outerrel with cheapestUniquePath := some unique}
        sjinfo
        uniqueCalls := state.uniqueCalls ++ [⟨subpath,unique⟩]} := by
  unfold JoinState.uniqueOuter at made
  split at made
  · cases made
  next unique outerrel sjinfo created =>
    obtain ⟨rfl,supplied⟩ := createUniquePath_supplied _ _ _ _ _ _ _ created
    cases made
    exact ⟨unique,sjinfo,supplied,rfl,rfl⟩

theorem uniqueInner_supplied (estimates : Path → UniqueEstimates) (state next : JoinState)
    (subpath path : Path) (made : state.uniqueInner estimates subpath = some (path,next)) :
    ∃ unique sjinfo, Supplied state.innerrel subpath unique ∧ path = unique.path ∧
      next = {state with
        innerrel := {state.innerrel with cheapestUniquePath := some unique}
        sjinfo
        uniqueCalls := state.uniqueCalls ++ [⟨subpath,unique⟩]} := by
  unfold JoinState.uniqueInner at made
  split at made
  · cases made
  next unique innerrel sjinfo created =>
    obtain ⟨rfl,supplied⟩ := createUniquePath_supplied _ _ _ _ _ _ _ created
    cases made
    exact ⟨unique,sjinfo,supplied,rfl,rfl⟩

inductive PairStep (outerkeys : List PathKey) (state : JoinState) (outerPath innerPath : Path) :
    JoinState × Path → Prop where
  | skip :
    PairStep outerkeys state outerPath innerPath
      ({state with innerPath := some innerPath},outerPath)
  | uniqueOuter (unique : UniquePath) (sjinfo : SpecialJoinInfo)
      (usable : usableOuter state.innerrel.toRelCore outerPath)
      (usable' : usableInner state.outerrel.toRelCore innerPath)
      (kind : state.jointype = .uniqueOuter) (supplied : Supplied state.outerrel outerPath unique) :
      PairStep outerkeys state outerPath innerPath
        (JoinState.tryPair
          {state with
            outerrel := {state.outerrel with cheapestUniquePath := some unique}
            sjinfo
            jointype := .inner
            innerPath := some innerPath
            uniqueCalls := state.uniqueCalls ++ [⟨outerPath,unique⟩]}
          outerkeys unique.path innerPath,unique.path)
  | uniqueInner (unique : UniquePath) (sjinfo : SpecialJoinInfo)
      (usable : usableOuter state.innerrel.toRelCore outerPath)
      (usable' : usableInner state.outerrel.toRelCore innerPath)
      (kind : state.jointype = .uniqueInner) (supplied : Supplied state.innerrel innerPath unique) :
      PairStep outerkeys state outerPath innerPath
        (JoinState.tryPair
          {state with
            innerrel := {state.innerrel with cheapestUniquePath := some unique}
            sjinfo
            jointype := .inner
            innerPath := some unique.path
            uniqueCalls := state.uniqueCalls ++ [⟨innerPath,unique⟩]}
          outerkeys outerPath unique.path,outerPath)
  | plain (usable : usableOuter state.innerrel.toRelCore outerPath)
      (usable' : usableInner state.outerrel.toRelCore innerPath)
      (kind : state.jointype ≠ .uniqueOuter ∧ state.jointype ≠ .uniqueInner) :
      PairStep outerkeys state outerPath innerPath
        (JoinState.tryPair {state with innerPath := some innerPath} outerkeys outerPath innerPath,
          outerPath)

theorem explorePair_step (estimates : Path → UniqueEstimates) (outerkeys : List PathKey)
    (state : JoinState) (outerPath innerPath : Path) (after : JoinState × Path)
    (ran : explorePair estimates outerkeys (state,outerPath) innerPath = some after) :
    PairStep outerkeys state outerPath innerPath after := by
  unfold explorePair at ran
  dsimp only at ran
  split at ran
  · cases ran
    exact .skip
  next tested =>
    simp only [Bool.or_eq_true,not_or,Bool.not_eq_true] at tested
    have usable : usableOuter state.innerrel.toRelCore outerPath := by simp [usableOuter,tested.1]
    have usable' : usableInner state.outerrel.toRelCore innerPath := by simp [usableInner,tested.2]
    split at ran
    next kind =>
      obtain ⟨⟨path,next⟩,made,rest⟩ := Option.bind_eq_some_iff.mp ran
      obtain ⟨unique,sjinfo,supplied,rfl,rfl⟩ := uniqueOuter_supplied _ _ _ _ _ made
      cases rest
      exact .uniqueOuter unique sjinfo usable usable' kind supplied
    next kind =>
      obtain ⟨⟨path,next⟩,made,rest⟩ := Option.bind_eq_some_iff.mp ran
      obtain ⟨unique,sjinfo,supplied,rfl,rfl⟩ := uniqueInner_supplied _ _ _ _ _ made
      cases rest
      exact .uniqueInner unique sjinfo usable usable' kind supplied
    next first second =>
      cases ran
      exact .plain usable usable' ⟨first,second⟩

/-- An invariant of state and outer path variable that every pair keeps is kept by the two loops. -/
theorem exploreOuter_kept (estimates : Path → UniqueEstimates) (outerkeys : List PathKey)
    (outers inners : List Path) (Kept : JoinState → Prop) (Inside : JoinState × Path → Prop)
    (enter : ∀ state, ∀ outerPath ∈ outers, Kept state → Inside (state,outerPath))
    (pair : ∀ state outerPath, ∀ innerPath ∈ inners, ∀ after, Inside (state,outerPath) →
      PairStep outerkeys state outerPath innerPath after → Inside after)
    (leave : ∀ state outerPath, Inside (state,outerPath) → Kept state) (state final : JoinState)
    (holds : Kept state) (ran : exploreOuter estimates outerkeys outers inners state = some final) :
    Kept final := by
  refine foldlM_kept _ Kept outers ?_ state final holds ran
  intro state outerPath member next kept stepped
  obtain ⟨⟨last,path⟩,looped,rfl⟩ := Option.map_eq_some_iff.mp stepped
  apply leave last path
  refine foldlM_kept _ Inside inners ?_ (state,outerPath) (last,path)
    (enter state outerPath member kept) looped
  intro current innerPath among after inside moved
  exact pair current.1 current.2 innerPath among after inside (explorePair_step _ _ _ _ _ _ moved)

/-- The side that a join type makes unique has its unique path cached. -/
def UniqueReady (state : JoinState) : Prop :=
  (state.jointype = .uniqueOuter → ∃ unique, state.outerrel.cheapestUniquePath = some unique) ∧
    (state.jointype = .uniqueInner → ∃ unique, state.innerrel.cheapestUniquePath = some unique)

theorem explorePair_runs (estimates : Path → UniqueEstimates) (outerkeys : List PathKey)
    (current : JoinState × Path) (innerPath : Path) (ready : UniqueReady current.1) :
    ∃ after, explorePair estimates outerkeys current innerPath = some after ∧
      UniqueReady after.1 := by
  obtain ⟨state,outerPath⟩ := current
  have plain (after : JoinState) (typed : after.jointype = .inner) : UniqueReady after := by
    simp [UniqueReady,typed]
  unfold explorePair
  dsimp only
  split
  · exact ⟨_,rfl,ready⟩
  · split
    next kind =>
      obtain ⟨unique,cached⟩ := ready.1 kind
      simp only [JoinState.uniqueOuter,createUniquePath_cached state.outerrel outerPath state.sjinfo
        (estimates outerPath) unique cached]
      exact ⟨_,rfl,plain _ rfl⟩
    next kind =>
      obtain ⟨unique,cached⟩ := ready.2 kind
      simp only [JoinState.uniqueInner,createUniquePath_cached state.innerrel innerPath state.sjinfo
        (estimates innerPath) unique cached]
      exact ⟨_,rfl,plain _ rfl⟩
    · exact ⟨_,rfl,ready⟩

theorem exploreOuter_runs (estimates : Path → UniqueEstimates) (outerkeys : List PathKey)
    (outers inners : List Path) (state : JoinState) (ready : UniqueReady state) :
    ∃ final, exploreOuter estimates outerkeys outers inners state = some final ∧
      UniqueReady final := by
  refine foldlM_runs _ UniqueReady ?_ outers state ready
  intro state outerPath ready
  obtain ⟨last,looped,ready'⟩ :=
    foldlM_runs (explorePair estimates outerkeys) (fun current => UniqueReady current.1)
      (explorePair_runs estimates outerkeys) inners (state,outerPath) ready
  exact ⟨last.1,by rw [exploreInner,looped]; rfl,ready'⟩

/-- Relations that differ in the cached unique path at most. -/
structure SameButUnique (rel rel' : RelOptInfo) : Prop where
  core : rel.toRelCore = rel'.toRelCore
  pathlist : rel.pathlist = rel'.pathlist
  partialPathlist : rel.partialPathlist = rel'.partialPathlist
  explore : rel.cheapestCostExplorePathlist = rel'.cheapestCostExplorePathlist
  startup : rel.cheapestStartupPath = rel'.cheapestStartupPath
  total : rel.cheapestTotalPath = rel'.cheapestTotalPath
  parameterized : rel.cheapestParameterizedPaths = rel'.cheapestParameterizedPaths

theorem SameButUnique.refl (rel : RelOptInfo) :
    SameButUnique rel rel := ⟨rfl,rfl,rfl,rfl,rfl,rfl,rfl⟩

theorem SameButUnique.unique {rel rel' : RelOptInfo} (same : SameButUnique rel rel')
    (cached : Option UniquePath) :
    SameButUnique {rel with cheapestUniquePath := cached} rel' :=
  ⟨same.core,same.pathlist,same.partialPathlist,same.explore,same.startup,same.total,
    same.parameterized⟩

end ExploratoryOptimizer.JoinPath
