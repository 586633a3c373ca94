import ExploratoryOptimizer.UniqueRequests.Joinrel

/-! What the calls of `create_unique_path` ask for, and what the cache of a relation answers. -/
namespace ExploratoryOptimizer.UniqueRequests
open JoinPath HashJoinPath HashPairing SortMergePath UnsortedOuter Pathkeys Library.Fallible

/-- The stated requirement of `create_unique_path`, and a result over the subpath that was
passed. -/
def Faithful (total : Option Path) (call : UniqueCall) : Prop :=
  some call.subpath = total ∧ call.result.subpath = call.subpath

instance (total : Option Path) (call : UniqueCall) : Decidable (Faithful total call) :=
  inferInstanceAs (Decidable (_ ∧ _))

/-- Cheapest total path of the side that the join type makes unique. -/
def uniqueTotal (jointype : JoinType) (outerrel innerrel : RelOptInfo) : Option Path :=
  match jointype with
  | .uniqueOuter => outerrel.cheapestTotalPath
  | _ => innerrel.cheapestTotalPath

/-- The side that the join type makes unique has nothing to explore but its cheapest total path. -/
def OnlyTotal (jointype : JoinType) (outerrel innerrel : RelOptInfo) : Prop :=
  (jointype = .uniqueOuter → ∀ path ∈ outerrel.cheapestCostExplorePathlist,
      some path = outerrel.cheapestTotalPath) ∧
    (jointype = .uniqueInner → ∀ path ∈ innerrel.cheapestCostExplorePathlist,
        some path = innerrel.cheapestTotalPath)

theorem hashPartial_uniqueCalls (joinrel : RelCore) (saveJointype : JoinType) (state : JoinState) :
    (hashPartial joinrel saveJointype state).uniqueCalls = state.uniqueCalls := by
  unfold hashPartial
  repeat' split
  all_goals rfl

theorem hashParameterized_uniqueCalls (state : JoinState) :
    (hashParameterized state).uniqueCalls = state.uniqueCalls := by
  have looped (pairs : List (Path × Path)) (state : JoinState) :
      (pairs.foldl (fun state pair => state.tryPair [] pair.1 pair.2) state).uniqueCalls =
        state.uniqueCalls := by
    induction pairs generalizing state with
    | nil => rfl
    | cons pair pairs ih => exact ih _
  unfold hashParameterized
  split
  · rfl
  · rfl
  · exact looped _ state

section Asked

variable (jointype : JoinType) (outerrel innerrel : RelOptInfo)

/-- Every call so far was faithful, and so will be the answer of the cache. -/
structure Asked (outer inner : RelOptInfo) (calls : List UniqueCall) : Prop where
  sameOuter : SameButUnique outer outerrel
  sameInner : SameButUnique inner innerrel
  outerCached : jointype = .uniqueOuter → ∀ unique ∈ outer.cheapestUniquePath,
    some unique.subpath = outerrel.cheapestTotalPath
  innerCached : jointype = .uniqueInner → ∀ unique ∈ inner.cheapestUniquePath,
    some unique.subpath = innerrel.cheapestTotalPath
  faithful : ∀ call ∈ calls, Faithful (uniqueTotal jointype outerrel innerrel) call

variable {jointype outerrel innerrel}

theorem supplied_over (rel : RelOptInfo) (total : Option Path) (subpath : Path)
    (unique : UniquePath) (cached : ∀ unique ∈ rel.cheapestUniquePath, some unique.subpath = total)
    (asked : some subpath = total) (supplied : Supplied rel subpath unique) :
    unique.subpath = subpath := by
  rcases supplied with held | ⟨_,made,_⟩
  · exact Option.some.inj ((cached unique held).trans asked.symm)
  · exact made

theorem Asked.faithful_append {outer inner : RelOptInfo} {calls : List UniqueCall}
    (asked : Asked jointype outerrel innerrel outer inner calls) (subpath : Path)
    (unique : UniquePath) (total : some subpath = uniqueTotal jointype outerrel innerrel)
    (made : unique.subpath = subpath) :
    ∀ call ∈ calls ++ [⟨subpath,unique⟩],
      Faithful (uniqueTotal jointype outerrel innerrel) call := by
  refine List.forall_mem_append.mpr ⟨asked.faithful,?_⟩
  intro call last
  rw [List.mem_singleton.mp last]
  exact ⟨total,made⟩

theorem Asked.askOuter {outer inner : RelOptInfo} {calls : List UniqueCall}
    (asked : Asked jointype outerrel innerrel outer inner calls) (kind : jointype = .uniqueOuter)
    (subpath : Path) (unique : UniquePath) (total : some subpath = outerrel.cheapestTotalPath)
    (supplied : Supplied outer subpath unique) :
    Asked jointype outerrel innerrel {outer with cheapestUniquePath := some unique} inner
      (calls ++ [⟨subpath,unique⟩]) := by
  have made := supplied_over outer _ subpath unique (asked.outerCached kind) total supplied
  refine ⟨asked.sameOuter.unique _,asked.sameInner,?_,asked.innerCached,?_⟩
  · intro _ unique' same
    rw [← Option.some.inj same,made]
    exact total
  · refine asked.faithful_append subpath unique ?_ made
    rw [kind]
    exact total

theorem Asked.askInner {outer inner : RelOptInfo} {calls : List UniqueCall}
    (asked : Asked jointype outerrel innerrel outer inner calls) (kind : jointype = .uniqueInner)
    (subpath : Path) (unique : UniquePath) (total : some subpath = innerrel.cheapestTotalPath)
    (supplied : Supplied inner subpath unique) :
    Asked jointype outerrel innerrel outer {inner with cheapestUniquePath := some unique}
      (calls ++ [⟨subpath,unique⟩]) := by
  have made := supplied_over inner _ subpath unique (asked.innerCached kind) total supplied
  refine ⟨asked.sameOuter,asked.sameInner.unique _,asked.outerCached,?_,?_⟩
  · intro _ unique' same
    rw [← Option.some.inj same,made]
    exact total
  · refine asked.faithful_append subpath unique ?_ made
    rw [kind]
    exact total

/-- The invariant of the phases that keep the join type in a variable. -/
structure Phase (jointype : JoinType) (outerrel innerrel : RelOptInfo)
    (state : JoinState) : Prop where
  asked : Asked jointype outerrel innerrel state.outerrel state.innerrel state.uniqueCalls
  retyped : state.jointype = jointype ∨ state.jointype = .inner

theorem Phase.kind {state : JoinState} (phase : Phase jointype outerrel innerrel state)
    (kind : JoinType) (typed : state.jointype = kind) (unique : kind ≠ .inner) :
    jointype = kind := by
  rcases phase.retyped with same | plain
  · exact same.symm.trans typed
  · exact absurd (typed.symm.trans plain) unique

variable (only : OnlyTotal jointype outerrel innerrel)
include only

theorem exploreOuter_phase (estimates : Path → UniqueEstimates) (outerkeys : List PathKey)
    (state explored : JoinState) (phase : Phase jointype outerrel innerrel state)
    (ran : exploreOuter estimates outerkeys outerrel.cheapestCostExplorePathlist
      innerrel.cheapestCostExplorePathlist state = some explored) :
        Phase jointype outerrel innerrel explored := by
  -- Once unique-ified, the outer path variable is not asked about again: the join type has changed.
  refine exploreOuter_kept estimates outerkeys _ _ (Phase jointype outerrel innerrel)
    (fun current => Phase jointype outerrel innerrel current.1 ∧
      (current.1.jointype = .uniqueOuter → current.2 ∈ outerrel.cheapestCostExplorePathlist))
    ?_ ?_ ?_ state explored phase ran
  · exact fun _ _ member kept => ⟨kept,fun _ => member⟩
  · intro state outerPath innerPath member after inside step
    obtain ⟨phase,explored⟩ := inside
    cases step with
    | skip => exact ⟨⟨phase.asked,phase.retyped⟩,explored⟩
    | uniqueOuter unique sjinfo _ _ typed supplied =>
      have kind := phase.kind .uniqueOuter typed (by decide)
      refine ⟨⟨?_,.inr rfl⟩,nofun⟩
      exact phase.asked.askOuter kind outerPath unique
        (only.1 kind outerPath (explored typed)) supplied
    | uniqueInner unique sjinfo _ _ typed supplied =>
      have kind := phase.kind .uniqueInner typed (by decide)
      refine ⟨⟨?_,.inr rfl⟩,nofun⟩
      exact phase.asked.askInner kind innerPath unique (only.2 kind innerPath member) supplied
    | plain => exact ⟨⟨phase.asked,phase.retyped⟩,explored⟩
  · exact fun _ _ inside => inside.1

theorem sortInnerAndOuter_asked (joinrel : RelCore) (estimates : Path → UniqueEstimates)
    (allPathkeys : List PathKey) (sjinfo : SpecialJoinInfo) (sorted : JoinState)
    (asked : Asked jointype outerrel innerrel outerrel innerrel [])
    (ran : sortInnerAndOuter joinrel estimates allPathkeys outerrel innerrel sjinfo
      jointype = some sorted) :
    Asked jointype outerrel innerrel sorted.outerrel sorted.innerrel sorted.uniqueCalls := by
  have rounds (parallel : Option (Path × Path)) (state : JoinState)
    (phase : Phase jointype outerrel innerrel state)
      (ran : (mergeOrderings allPathkeys).foldlM
        (mergeRound estimates outerrel.cheapestCostExplorePathlist
          innerrel.cheapestCostExplorePathlist parallel) state = some sorted) :
          Phase jointype outerrel innerrel sorted := by
    refine Library.Machine.foldlM_kept _ (Phase jointype outerrel innerrel) _ ?_ state
      sorted phase ran
    intro state outerkeys _ next kept stepped
    obtain ⟨explored,looped,rfl⟩ := Option.map_eq_some_iff.mp stepped
    have after := exploreOuter_phase only estimates outerkeys state explored kept looped
    split
    · exact ⟨after.asked,after.retyped⟩
    · exact after
  obtain ⟨total,cheapest,ran⟩ := Option.bind_eq_some_iff.mp ran
  dsimp only at ran
  split at ran
  next kind =>
    obtain ⟨_,first,ran⟩ := Option.bind_eq_some_iff.mp ran
    obtain ⟨⟨path,next⟩,made,rfl⟩ := Option.map_eq_some_iff.mp first
    obtain ⟨unique,sjinfo',supplied,rfl,rfl⟩ := uniqueInner_supplied _ _ _ _ _ made
    exact (rounds _ _ ⟨asked.askInner kind total unique cheapest.symm supplied,.inr rfl⟩ ran).asked
  next => exact (rounds _ _ ⟨asked,.inl rfl⟩ ran).asked

theorem matchUnsortedOuter_asked (root : PlannerInfo) (joinrel : JoinRel)
    (mergeclauseList : List RestrictInfo) (outer inner : RelOptInfo)
    (sameOuter : SameButUnique outer outerrel) (sameInner : SameButUnique inner innerrel) :
    Keeps (fun run => Asked jointype outerrel innerrel run.outerrel run.innerrel run.uniqueCalls)
      (matchUnsortedOuter root joinrel outer inner jointype mergeclauseList) := by
  refine keeps_matchUnsortedOuter (fun _ _ _ asked => asked) root joinrel outer inner jointype
    mergeclauseList ?_ ?_
  · intro kind path member
    rw [sameOuter.explore] at member
    refine keeps_createUniqueOuter root path fun run unique sjinfo asked supplied => ?_
    exact asked.askOuter kind path unique (only.1 kind path member) supplied
  · intro kind path source
    rw [sameInner.explore,sameInner.total] at source
    refine keeps_createUniqueInner root path fun run unique sjinfo asked supplied => ?_
    exact asked.askInner kind path unique (source.elim (only.2 kind path) id) supplied

theorem hashStartup_asked (estimates : Path → UniqueEstimates) (explored started : JoinState)
    (phase : Phase jointype outerrel innerrel explored)
    (ran : hashStartup estimates explored = some started) :
    Asked jointype outerrel innerrel started.outerrel started.innerrel started.uniqueCalls := by
  have plain (startup : Path) (inners : List Path) (state : JoinState) : ∀ after, inners.foldl
      (fun state innerPath => {state with innerPath := some innerPath}.tryPair [] startup innerPath)
      state = after →
        after.outerrel = state.outerrel ∧ after.innerrel = state.innerrel ∧
        after.uniqueCalls = state.uniqueCalls := by
    induction inners generalizing state with
    | nil => exact fun after same => same ▸ ⟨rfl,rfl,rfl⟩
    | cons innerPath inners ih => exact ih _
  unfold hashStartup at ran
  split at ran
  · cases ran
    exact phase.asked
  split at ran
  · cases ran
    exact phase.asked
  split at ran
  · cases ran
    exact phase.asked
  next startup _ _ typed =>
    -- Every inner path of the list is asked about here, usable or not.
    have kind := phase.kind .uniqueInner typed (by decide)
    refine Library.Machine.foldlM_kept _ (fun state =>
      Asked jointype outerrel innerrel state.outerrel state.innerrel state.uniqueCalls) _ ?_
        explored started
      phase.asked ran
    intro state innerPath member next asked stepped
    rw [phase.asked.sameInner.explore] at member
    obtain ⟨⟨path,after⟩,made,rest⟩ := Option.bind_eq_some_iff.mp stepped
    obtain ⟨unique,sjinfo,supplied,rfl,rfl⟩ := uniqueInner_supplied _ _ _ _ _ made
    cases rest
    exact asked.askInner kind innerPath unique (only.2 kind innerPath member) supplied
  next =>
    obtain ⟨outer,inner,calls⟩ := plain _ _ explored started (Option.some.inj ran)
    rw [outer,inner,calls]
    exact phase.asked

theorem hashInnerAndOuter_asked (joinrel : RelCore) (estimates : Path → UniqueEstimates)
    (restrictlist : List JoinClause) (outer inner : RelOptInfo) (sjinfo : SpecialJoinInfo)
    (hashed : JoinState) (asked : Asked jointype outerrel innerrel outer inner [])
    (ran : hashInnerAndOuter joinrel estimates restrictlist outer inner sjinfo
      jointype = some hashed) :
    ∀ call ∈ hashed.uniqueCalls, Faithful (uniqueTotal jointype outerrel innerrel) call := by
  unfold hashInnerAndOuter at ran
  dsimp only at ran
  split at ran
  · cases ran
    simp
  obtain ⟨explored,looped,rest⟩ := Option.bind_eq_some_iff.mp ran
  obtain ⟨started,ran',rfl⟩ := Option.map_eq_some_iff.mp rest
  rw [asked.sameOuter.explore,asked.sameInner.explore] at looped
  have phase := exploreOuter_phase only estimates [] _ explored ⟨asked,.inl rfl⟩ looped
  rw [hashPartial_uniqueCalls,hashParameterized_uniqueCalls]
  exact (hashStartup_asked only estimates explored started phase ran').faithful

end Asked

/-! With the unique path cached, as it is when a join type that makes a side unique is offered. -/

section Ready

variable {jointype : JoinType} {outerrel innerrel : RelOptInfo} {sjinfo : SpecialJoinInfo}

structure Settled (jointype : JoinType) (outerrel innerrel : RelOptInfo)
    (state : JoinState) : Prop where
  outer : state.outerrel = outerrel
  inner : state.innerrel = innerrel
  retyped : state.jointype = jointype ∨ state.jointype = .inner

theorem supplied_cached (rel : RelOptInfo) (cached unique : UniquePath) (subpath : Path)
    (held : rel.cheapestUniquePath = some cached) (supplied : Supplied rel subpath unique) :
    {rel with cheapestUniquePath := some unique} = rel := by
  rcases supplied with same | ⟨empty,_,_⟩
  · rw [← same]
  · cases held.symm.trans empty

variable (ready : UniqueReady ⟨outerrel,innerrel,sjinfo,jointype,none,[],[]⟩)
include ready

theorem settled_ready {state : JoinState} (settled : Settled jointype outerrel innerrel state) :
    UniqueReady state := by
  obtain ⟨outer,inner,same | plain⟩ := settled
  · rw [UniqueReady,outer,inner,same]
    exact ready
  · simp [UniqueReady,plain]

theorem exploreOuter_settled (estimates : Path → UniqueEstimates) (outerkeys : List PathKey)
    (state : JoinState) (settled : Settled jointype outerrel innerrel state) :
    ∃ explored, exploreOuter estimates outerkeys outerrel.cheapestCostExplorePathlist
      innerrel.cheapestCostExplorePathlist state = some explored ∧
      Settled jointype outerrel innerrel explored := by
  obtain ⟨explored,ran,_⟩ :=
    exploreOuter_runs estimates outerkeys outerrel.cheapestCostExplorePathlist
      innerrel.cheapestCostExplorePathlist state (settled_ready ready settled)
  refine ⟨explored,ran,?_⟩
  refine exploreOuter_kept estimates outerkeys _ _ (Settled jointype outerrel innerrel)
    (fun current => Settled jointype outerrel innerrel current.1) (fun _ _ _ kept => kept) ?_
    (fun _ _ inside => inside) state explored settled ran
  intro state outerPath innerPath _ after settled step
  cases step with
  | skip => exact ⟨settled.outer,settled.inner,settled.retyped⟩
  | uniqueOuter unique sjinfo _ _ typed supplied =>
    obtain ⟨cached,held⟩ := (settled_ready ready settled).1 typed
    exact ⟨(supplied_cached _ cached unique outerPath held supplied).trans settled.outer,
      settled.inner,.inr rfl⟩
  | uniqueInner unique sjinfo _ _ typed supplied =>
    obtain ⟨cached,held⟩ := (settled_ready ready settled).2 typed
    exact ⟨settled.outer,(supplied_cached _ cached unique innerPath held supplied).trans
      settled.inner,.inr rfl⟩
  | plain => exact ⟨settled.outer,settled.inner,settled.retyped⟩

theorem sortInnerAndOuter_settled (joinrel : RelCore) (estimates : Path → UniqueEstimates)
    (allPathkeys : List PathKey) (total : Path)
    (cheapest : innerrel.cheapestTotalPath = some total) :
    ∃ sorted, sortInnerAndOuter joinrel estimates allPathkeys outerrel innerrel sjinfo
      jointype = some sorted ∧ Settled jointype outerrel innerrel sorted := by
  have rounds (parallel : Option (Path × Path)) (state : JoinState)
    (settled : Settled jointype outerrel innerrel state) :
      ∃ sorted, (mergeOrderings allPathkeys).foldlM
        (mergeRound estimates outerrel.cheapestCostExplorePathlist
          innerrel.cheapestCostExplorePathlist parallel) state = some sorted ∧
          Settled jointype outerrel innerrel sorted := by
    refine Library.Machine.foldlM_runs _ (Settled jointype outerrel innerrel) ?_ _ state settled
    intro state outerkeys settled
    obtain ⟨explored,ran,after⟩ := exploreOuter_settled ready estimates outerkeys state settled
    cases parallel with
    | none => exact ⟨explored,by simp [mergeRound,ran],after⟩
    | some pair =>
      exact ⟨explored.tryPartial outerkeys pair.1 pair.2,by simp [mergeRound,ran],after.outer,
        after.inner,after.retyped⟩
  by_cases kind : jointype = .uniqueInner
  · obtain ⟨unique,cached⟩ := ready.2 kind
    obtain ⟨sorted,ran,settled⟩ :=
      rounds (partialPair joinrel outerrel innerrel jointype unique.path)
        ⟨outerrel,innerrel,sjinfo,.inner,none,[],[⟨total,unique⟩]⟩ ⟨rfl,rfl,.inr rfl⟩
    refine ⟨sorted,?_,settled⟩
    rw [← ran]
    simp [sortInnerAndOuter,cheapest,kind,JoinState.uniqueInner,
      createUniquePath_cached innerrel total sjinfo (estimates total) unique cached]
  · obtain ⟨sorted,ran,settled⟩ := rounds (partialPair joinrel outerrel innerrel jointype total)
      ⟨outerrel,innerrel,sjinfo,jointype,none,[],[]⟩ ⟨rfl,rfl,.inl rfl⟩
    refine ⟨sorted,?_,settled⟩
    rw [← ran]
    simp [sortInnerAndOuter,cheapest,kind]

theorem matchUnsortedOuter_settled (root : PlannerInfo) (joinrel : JoinRel)
    (mergeclauseList : List RestrictInfo) :
    Keeps (fun run => run.outerrel = outerrel ∧ run.innerrel = innerrel)
      (matchUnsortedOuter root joinrel outerrel innerrel jointype mergeclauseList) := by
  refine keeps_matchUnsortedOuter (fun _ _ _ settled => settled) root joinrel outerrel
    innerrel jointype mergeclauseList ?_ ?_
  · intro kind path _
    obtain ⟨cached,held⟩ := ready.1 kind
    refine keeps_createUniqueOuter root path fun run unique sjinfo settled supplied => ?_
    exact ⟨(supplied_cached _ cached unique path (settled.1 ▸ held) supplied).trans settled.1,
      settled.2⟩
  · intro kind path _
    obtain ⟨cached,held⟩ := ready.2 kind
    refine keeps_createUniqueInner root path fun run unique sjinfo settled supplied => ?_
    exact ⟨settled.1,(supplied_cached _ cached unique path (settled.2 ▸ held) supplied).trans
      settled.2⟩

end Ready

end ExploratoryOptimizer.UniqueRequests
