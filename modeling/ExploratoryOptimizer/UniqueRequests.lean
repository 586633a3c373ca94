import ExploratoryOptimizer.UniqueRequests.Asked

/-! The calls of `create_unique_path` while `add_paths_to_joinrel` plans one join with the
exploratory functions. -/
namespace ExploratoryOptimizer.UniqueRequests
open JoinPath HashJoinPath HashPairing SortMergePath UnsortedOuter Pathkeys Library.Fallible

/-! Every path of the explore list that can be used at all is asked about. -/

section Requests

variable (root : PlannerInfo) (joinrel : JoinRel) (outerrel innerrel : RelOptInfo)
  (mergeclauseList : List RestrictInfo) (unique : UniquePath) (path : Path)

def Requested (path : Path) (run : JoinRun) : Prop := ∃ call ∈ run.uniqueCalls, call.subpath = path

def OuterCached (unique : UniquePath) (run : JoinRun) : Prop :=
  run.outerrel.cheapestUniquePath = some unique

def InnerCached (unique : UniquePath) (run : JoinRun) : Prop :=
  run.innerrel.cheapestUniquePath = some unique

theorem createUniqueOuter_stays (other : Path) :
    Keeps (Requested path) (createUniqueOuter root other) := by
  refine keeps_createUniqueOuter root other fun run unique sjinfo requested _ => ?_
  obtain ⟨call,member,same⟩ := requested
  exact ⟨call,List.mem_append_left _ member,same⟩

theorem createUniqueInner_stays (other : Path) :
    Keeps (Requested path) (createUniqueInner root other) := by
  refine keeps_createUniqueInner root other fun run unique sjinfo requested _ => ?_
  obtain ⟨call,member,same⟩ := requested
  exact ⟨call,List.mem_append_left _ member,same⟩

theorem createUniqueOuter_cached :
    Ensures (OuterCached unique) (createUniqueOuter root path) (OuterCached unique) := by
  refine ⟨fun run cached => ⟨unique.path,?_⟩⟩
  rw [createUniqueOuter_run root path run unique cached]
  exact ⟨rfl,cached⟩

theorem createUniqueInner_cached :
    Ensures (InnerCached unique) (createUniqueInner root path) (InnerCached unique) := by
  refine ⟨fun run cached => ⟨unique.path,?_⟩⟩
  rw [createUniqueInner_run root path run unique cached]
  exact ⟨rfl,cached⟩

theorem createUniqueOuter_requested :
    Ensures (OuterCached unique) (createUniqueOuter root path) (Requested path) := by
  refine ⟨fun run cached => ⟨unique.path,?_⟩⟩
  rw [createUniqueOuter_run root path run unique cached]
  exact ⟨rfl,⟨path,unique⟩,by simp,rfl⟩

theorem createUniqueInner_requested :
    Ensures (InnerCached unique) (createUniqueInner root path) (Requested path) := by
  refine ⟨fun run cached => ⟨unique.path,?_⟩⟩
  rw [createUniqueInner_run root path run unique cached]
  exact ⟨rfl,⟨path,unique⟩,by simp,rfl⟩

/-- No merge join is tried over a unique outer path, so nothing can fail. -/
theorem ensures_joinUnsortedPath {P : JoinRun → Prop}
    (insensitive : ∀ run calls canonPathkeys, P run → P {run with calls, canonPathkeys})
    (choices : InnerChoices) (outerpath : Path) :
    Ensures P (joinUnsortedPath root joinrel innerrel .uniqueOuter mergeclauseList choices
        outerpath) P := by
  have nestloops (inners : List Path) (mergePathkeys : List PathKey)
    (jointype : JoinType) : Ensures P
      (inners.forM fun innerpath => issue (.nestloop outerpath innerpath mergePathkeys jointype))
      P :=
    Ensures.forM _ _ fun _ _ => Ensures.modify _ fun run holds =>
      insensitive run _ run.canonPathkeys holds
  refine Ensures.bind (Ensures.get.bind fun _ => Ensures.pure _) fun mergePathkeys => ?_
  refine (nestloops _ _ _).bind fun _ => ?_
  exact (nestloops _ _ _).bind fun _ => Ensures.pure ()

theorem matchUnsortedOuter_asksInner (member : path ∈ innerrel.cheapestCostExplorePathlist)
    (usable : path.paramByRel outerrel.toRelCore = false) (run : JoinRun)
    (cached : InnerCached unique run) :
    Requested path
      ((matchUnsortedOuter root joinrel outerrel innerrel .uniqueInner mergeclauseList).run.run
        run).2 := by
  unfold matchUnsortedOuter
  refine reaches_bind (Q := Requested path) _ _ run ?_ fun choices => ?_
  · refine foldlM_reaches (P := InnerCached unique) _ _ _ path member ?_ ?_ ?_ run cached
    · intro other _ choices
      unfold considerInner
      split
      · exact Ensures.pure _
      · exact (createUniqueInner_cached root unique other).bind fun _ => Ensures.pure _
    · intro choices
      rw [considerInner,usable]
      exact (createUniqueInner_requested root unique path).bind fun _ => Ensures.pure _
    · intro other _ choices
      exact keeps_considerInner _ _ _ _ _ _ fun _ => createUniqueInner_stays root path other
  · split
    · exact Keeps.pure ()
    · refine keeps_joinUnsorted (fun _ _ _ requested => requested) _ _ _ _ _ _ _
        (fun same => absurd same (by decide)) ?_
      exact fun _ other _ => createUniqueInner_stays root path other

theorem matchUnsortedOuter_asksOuter (member : path ∈ outerrel.cheapestCostExplorePathlist)
    (listed : path ∈ outerrel.pathlist) (usable : path.paramByRel innerrel.toRelCore = false)
    (run : JoinRun) (cached : OuterCached unique run) :
    Requested path
      ((matchUnsortedOuter root joinrel outerrel innerrel .uniqueOuter mergeclauseList).run.run
        run).2 := by
  have chosen : Ensures (OuterCached unique) (innerrel.cheapestCostExplorePathlist.foldlM
      (considerInner root outerrel innerrel .uniqueOuter) ⟨none,[],[],[]⟩)
      (OuterCached unique) := by
    refine Ensures.foldlM _ _ _ fun inner _ choices => ?_
    unfold considerInner
    split
    · exact Ensures.pure _
    · exact Ensures.pure _
  obtain ⟨choices,done,cached⟩ := chosen.done run cached
  unfold matchUnsortedOuter
  rw [run_bind_ok _ _ run choices done]
  refine reaches_bind (Q := Requested path) _ _ _ ?_ fun _ => ?_
  · refine forM_reaches (P := OuterCached unique) _ _ path listed ?_ ?_ ?_ _ cached
    · intro other _
      split
      · exact Ensures.pure ()
      rw [if_pos rfl]
      split
      · exact Ensures.pure ()
      · refine (createUniqueOuter_cached root unique other).bind fun _ => ?_
        exact ensures_joinUnsortedPath root joinrel innerrel mergeclauseList
          (fun _ _ _ cached => cached) choices _
    · have included :
        AddPath.isIncludeInPathlist path outerrel.cheapestCostExplorePathlist = true := by
        simpa [AddPath.isIncludeInPathlist] using member
      rw [usable,included]
      refine (createUniqueOuter_requested root unique path).bind fun _ => ?_
      exact ensures_joinUnsortedPath root joinrel innerrel mergeclauseList
        (fun _ _ _ requested => requested) choices _
    · intro other _
      split
      · exact Keeps.pure ()
      rw [if_pos rfl]
      split
      · exact Keeps.pure ()
      · refine (createUniqueOuter_stays root path other).bind fun _ => ?_
        exact keeps_joinUnsortedPath (fun _ _ _ requested => requested) root joinrel
          innerrel .uniqueOuter mergeclauseList choices _
  · exact keeps_considerPartialJoins (fun _ _ _ requested => requested) _ _ _ _ _ _ _ fun same =>
      absurd same (by decide)

end Requests

section Joinrel

variable (setting : JoinSetting) {outerrel innerrel : RelOptInfo} (jointype : JoinType)

theorem sortPhase_asked (only : OnlyTotal jointype outerrel innerrel) (sjinfo : SpecialJoinInfo)
    (sorted : JoinState) (asked : Asked jointype outerrel innerrel outerrel innerrel [])
    (ran : sortPhase setting outerrel innerrel sjinfo jointype = some sorted) :
    Asked jointype outerrel innerrel sorted.outerrel sorted.innerrel sorted.uniqueCalls := by
  unfold sortPhase at ran
  split at ran
  · exact sortInnerAndOuter_asked only _ _ _ _ sorted asked ran
  · cases ran
    exact asked

theorem matchPhase_asked (only : OnlyTotal jointype outerrel innerrel) (sorted : JoinState)
    (asked : Asked jointype outerrel innerrel sorted.outerrel sorted.innerrel sorted.uniqueCalls) :
    Asked jointype outerrel innerrel (matchPhase setting jointype sorted).2.outerrel
      (matchPhase setting jointype sorted).2.innerrel
      (matchPhase setting jointype sorted).2.uniqueCalls := by
  unfold matchPhase
  split
  · exact (matchUnsortedOuter_asked only setting.root setting.joinrel
        setting.mergeclauseList sorted.outerrel
      sorted.innerrel asked.sameOuter asked.sameInner).kept _ asked
  · exact asked

theorem hashPhase_asked (only : OnlyTotal jointype outerrel innerrel) (matched : JoinRun)
    (calls : List UniqueCall)
    (asked : Asked jointype outerrel innerrel matched.outerrel matched.innerrel matched.uniqueCalls)
    (ran : hashPhase setting jointype matched = some calls) :
    ∀ call ∈ calls, Faithful (uniqueTotal jointype outerrel innerrel) call := by
  unfold hashPhase at ran
  split at ran
  · obtain ⟨hashed,ranHash,rfl⟩ := Option.map_eq_some_iff.mp ran
    refine List.forall_mem_append.mpr ⟨asked.faithful,?_⟩
    refine hashInnerAndOuter_asked only _ _ _ matched.outerrel matched.innerrel _ hashed ?_ ranHash
    exact ⟨asked.sameOuter,asked.sameInner,asked.outerCached,asked.innerCached,by simp⟩
  · cases ran
    exact asked.faithful

theorem addPathsToJoinrel_asked (only : OnlyTotal jointype outerrel innerrel)
    (sjinfo : SpecialJoinInfo) (asked : Asked jointype outerrel innerrel outerrel innerrel [])
    (calls : List UniqueCall)
    (ran : addPathsToJoinrel setting outerrel innerrel sjinfo jointype = some calls) :
    ∀ call ∈ calls, Faithful (uniqueTotal jointype outerrel innerrel) call := by
  obtain ⟨sorted,ranSort,ran⟩ := Option.bind_eq_some_iff.mp ran
  have afterSort := sortPhase_asked setting jointype only sjinfo sorted asked ranSort
  have afterMatch := matchPhase_asked setting jointype only sorted afterSort
  split at ran
  next matched outcome =>
    cases ran
    rw [outcome] at afterMatch
    exact afterMatch.faithful
  next matched outcome =>
    rw [outcome] at afterMatch
    exact hashPhase_asked setting jointype only matched calls afterMatch ran

section Calls

variable {sjinfo : SpecialJoinInfo}
  (ready : UniqueReady ⟨outerrel,innerrel,sjinfo,jointype,none,[],[]⟩)
include ready

/-- The planning goes through, and what it has asked for in the end it had asked for by the end of
`match_unsorted_outer`, or asks for in `hash_inner_and_outer`. -/
theorem addPathsToJoinrel_runs (total : Path) (cheapest : innerrel.cheapestTotalPath = some total) :
    ∃ sorted calls, Settled jointype outerrel innerrel sorted ∧
      addPathsToJoinrel setting outerrel innerrel sjinfo jointype = some calls ∧
        ∀ call ∈ (matchPhase setting jointype sorted).2.uniqueCalls, call ∈ calls := by
  obtain ⟨sorted,ranSort,settled⟩ :
    ∃ sorted, sortPhase setting outerrel innerrel sjinfo jointype = some sorted ∧
      Settled jointype outerrel innerrel sorted := by
    unfold sortPhase
    split
    · exact sortInnerAndOuter_settled ready _ _ _ total cheapest
    · exact ⟨_,rfl,rfl,rfl,.inl rfl⟩
  have kept : (matchPhase setting jointype sorted).2.outerrel = outerrel ∧
      (matchPhase setting jointype sorted).2.innerrel = innerrel := by
    unfold matchPhase
    split
    · rw [settled.outer,settled.inner]
      exact (matchUnsortedOuter_settled ready setting.root setting.joinrel
          setting.mergeclauseList).kept _ ⟨rfl,rfl⟩
    · exact ⟨settled.outer,settled.inner⟩
  refine ⟨sorted,?_⟩
  unfold addPathsToJoinrel
  rw [ranSort,Option.bind_some]
  revert kept
  rcases matchPhase setting jointype sorted with ⟨outcome | outcome,matched⟩
  · exact fun _ => ⟨_,settled,rfl,fun _ among => among⟩
  · rintro ⟨sameOuter,sameInner⟩
    dsimp only at sameOuter sameInner ⊢
    unfold hashPhase
    split
    · rw [sameOuter,sameInner]
      obtain ⟨hashed,ran⟩ :=
        hashInnerAndOuter_runs setting.joinrel.toRelCore setting.root.uniqueEstimates outerrel
          innerrel setting.restrictlist matched.sjinfo jointype ready
      exact ⟨_,settled,by rw [ran]; rfl,fun _ among => List.mem_append_left _ among⟩
    · exact ⟨_,settled,rfl,fun _ among => among⟩

/-- Of the side that is made unique, `match_unsorted_outer` asks about every explored path that can
be used. -/
theorem matchPhase_requested (sorted : JoinState)
    (settled : Settled jointype outerrel innerrel sorted) (path : Path)
    (plain : path.paramInfo = none)
    (source : jointype = .uniqueOuter ∧ path ∈ outerrel.cheapestCostExplorePathlist ∧
      path ∈ outerrel.pathlist ∨
      jointype = .uniqueInner ∧ path ∈ innerrel.cheapestCostExplorePathlist) :
    Requested path (matchPhase setting jointype sorted).2 := by
  have allowed : mergejoinAllowed setting jointype = true := by
    rcases source with ⟨rfl,_⟩ | ⟨rfl,_⟩
    · simp [mergejoinAllowed]
    · simp [mergejoinAllowed]
  simp only [matchPhase,allowed,if_true,settled.outer,settled.inner]
  rcases source with ⟨rfl,member,listed⟩ | ⟨rfl,member⟩
  · obtain ⟨unique,cached⟩ := ready.1 rfl
    exact matchUnsortedOuter_asksOuter _ _ _ _ _ unique path member listed
      (paramByRel_unparameterized path _ plain) _ cached
  · obtain ⟨unique,cached⟩ := ready.2 rfl
    exact matchUnsortedOuter_asksInner _ _ _ _ _ unique path member
      (paramByRel_unparameterized path _ plain) _ cached

end Calls

theorem addPathsToJoinrel_faithful_iff (outerParent innerParent : RelOptInfo)
    (outerProcessed : Processed outerParent outerrel)
    (innerProcessed : Processed innerParent innerrel) (sjinfo : SpecialJoinInfo) :
    (OnlyTotal jointype outerrel innerrel →
      ∀ calls, addPathsToJoinrel setting outerrel innerrel sjinfo jointype = some calls →
        ∀ call ∈ calls, Faithful (uniqueTotal jointype outerrel innerrel) call) ∧
    (UniqueReady ⟨outerrel,innerrel,sjinfo,jointype,none,[],[]⟩ →
      ∃ calls, addPathsToJoinrel setting outerrel innerrel sjinfo jointype = some calls ∧
        ((∀ call ∈ calls, Faithful (uniqueTotal jointype outerrel innerrel) call) ↔
          OnlyTotal jointype outerrel innerrel)) := by
  have enough (only : OnlyTotal jointype outerrel innerrel) (calls : List UniqueCall)
      (ran : addPathsToJoinrel setting outerrel innerrel sjinfo jointype = some calls) :
      ∀ call ∈ calls, Faithful (uniqueTotal jointype outerrel innerrel) call := by
    refine addPathsToJoinrel_asked setting jointype only sjinfo ?_ calls ran
    exact ⟨.refl _,.refl _,fun kind => outerProcessed.cached_total (only.1 kind),
      fun kind => innerProcessed.cached_total (only.2 kind),by simp⟩
  refine ⟨enough,fun ready => ?_⟩
  obtain ⟨total,cheapest⟩ := innerProcessed.total_set
  obtain ⟨sorted,calls,settled,ran,all⟩ :=
    addPathsToJoinrel_runs setting jointype ready total cheapest
  refine ⟨calls,ran,fun faithful => ⟨?_,?_⟩,fun only => enough only calls ran⟩
  · intro kind path member
    rcases outerProcessed.explored path member with cheapest | ⟨listed,plain⟩
    · exact cheapest
    obtain ⟨call,among,rfl⟩ := matchPhase_requested setting jointype ready sorted settled path plain
      (.inl ⟨kind,member,listed⟩)
    have asked := (faithful call (all call among)).1
    rwa [kind] at asked
  · intro kind path member
    rcases innerProcessed.explored path member with cheapest | ⟨_,plain⟩
    · exact cheapest
    obtain ⟨call,among,rfl⟩ := matchPhase_requested setting jointype ready sorted settled path plain
      (.inr ⟨kind,member⟩)
    have asked := (faithful call (all call among)).1
    rwa [kind] at asked

end Joinrel

/-! The right-hand relation of a semijoin, made unique on the outer side, with one path or with
two. -/

def semijoinSetting : JoinSetting where
  root := plainPlanner
  joinrel := mergeableJoin
  allPathkeys := []
  canonPathkeys := []
  mergeclauseList := []
  restrictlist := [equalityClause]
  enableMergejoin := true
  enableHashjoin := true
  haveNonmergeableJoinclause := false

def singleRel : RelOptInfo := {rightRel [rightPath] with pathlist := [rightPath]}

theorem singleRel_processed :
    Processed (RelOptInfo.ofPaths (baseRel 1 0) [rightPath]) singleRel := by
  constructor
  · decide +kernel
  · intro unique cached
    cases cached
    exact ⟨rfl,.inr rfl⟩

theorem rightRel_processed :
    Processed (RelOptInfo.ofPaths (baseRel 1 0) [rightPath,explorablePath])
      (rightRel [rightPath,explorablePath]) := by
  constructor
  · decide +kernel
  · intro unique cached
    cases cached
    exact ⟨rfl,.inr rfl⟩

theorem addPathsToJoinrel_faithful_iff_single :
    ∃ calls, addPathsToJoinrel semijoinSetting singleRel leftRel
      ⟨true,true⟩ .uniqueOuter = some calls ∧
      ∀ call ∈ calls, call.subpath = rightPath ∧ call.result.subpath = rightPath := by
  obtain ⟨calls,ran,exactly⟩ :=
    (addPathsToJoinrel_faithful_iff semijoinSetting .uniqueOuter _ _ singleRel_processed
        leftRel_processed ⟨true,true⟩).2 ⟨fun _ => ⟨cachedUnique,rfl⟩,nofun⟩
  have faithful :=
    exactly.mpr ⟨fun _ path member => by rw [List.mem_singleton.mp member]; rfl,nofun⟩
  refine ⟨calls,ran,fun call among => ?_⟩
  obtain ⟨asked,made⟩ := faithful call among
  exact ⟨Option.some.inj asked,made.trans (Option.some.inj asked)⟩

/-- The dearer path is passed, and the unique path over the cheapest one comes back. -/
theorem addPathsToJoinrel_passes_explored :
    Processed (RelOptInfo.ofPaths (baseRel 1 0) [rightPath,explorablePath])
      (rightRel [rightPath,explorablePath]) ∧
      ∃ calls, addPathsToJoinrel semijoinSetting (rightRel [rightPath,explorablePath])
        leftRel ⟨true,true⟩
          .uniqueOuter = some calls ∧
        ⟨explorablePath,cachedUnique⟩ ∈ calls ∧ ¬Faithful (some rightPath)
        ⟨explorablePath,cachedUnique⟩ ∧
          cachedUnique.subpath ≠ explorablePath := by
  have made : addPathsToJoinrel semijoinSetting (rightRel [rightPath,explorablePath]) leftRel
    ⟨true,true⟩ .uniqueOuter =
      some [⟨rightPath,cachedUnique⟩,⟨explorablePath,cachedUnique⟩,⟨rightPath,cachedUnique⟩] := by
    decide +kernel
  exact ⟨rightRel_processed,_,made,by simp,by decide +kernel,by decide +kernel⟩

end ExploratoryOptimizer.UniqueRequests
