import ExploratoryOptimizer.HashPairing
import ExploratoryOptimizer.JoinSteps

/-! Parameterization across a hash join: whether `hash_inner_and_outer` joins a path with one that
takes its parameters from the other relation. -/
namespace ExploratoryOptimizer.HashPairing
open JoinPath HashJoinPath SetCheapest ExploreFront

def blockedBy (rel : RelOptInfo) (other : RelCore) : Bool :=
  rel.cheapestCostExplorePathlist.any fun path => path.paramByRel other

theorem paramByRel_congr (path path' : Path) (other : RelCore)
    (same : path.paramInfo = path'.paramInfo) :
    path.paramByRel other = path'.paramByRel other := by
  have outer : path.reqOuter = path'.reqOuter := by simp only [Path.reqOuter,same]
  simp only [Path.paramByRel,outer,same]

/-- The paths that a hash join takes from a relation are all parameterized by the other relation
or none of them is. -/
structure Uniform (rel : RelOptInfo) (other : RelCore) : Prop where
  explore : ∀ path ∈ rel.cheapestCostExplorePathlist, path.paramByRel other = blockedBy rel other
  unique : ∀ unique ∈ rel.cheapestUniquePath, unique.path.paramByRel other = blockedBy rel other
  startup : ∀ path ∈ rel.cheapestStartupPath, path.paramByRel other = false

theorem Processed.uniform {parentRel rel : RelOptInfo} (processed : Processed parentRel rel)
    (other : RelCore) :
    Uniform rel other := by
  by_cases some_plain : unparameterized parentRel.pathlist = []
  · obtain ⟨best,lists⟩ := processed.parameterizedLists some_plain
    have blocked : blockedBy rel other = best.paramByRel other := by simp [blockedBy,lists.explore]
    refine ⟨?_,?_,?_⟩
    · intro path member
      rw [lists.explore,List.mem_singleton] at member
      rw [member,blocked]
    · intro unique member
      obtain ⟨same,source⟩ := processed.cached unique member
      have fromBest : unique.subpath = best := by
        rcases source with explored | total
        · rwa [lists.explore,List.mem_singleton] at explored
        · exact Option.some.inj (total.trans lists.totalPath)
      rw [paramByRel_congr _ _ other same,fromBest,blocked]
    · intro path member
      rw [lists.startupPath] at member
      cases member
  · obtain ⟨startup,total,lists⟩ := processed.plainLists some_plain
    have free : blockedBy rel other = false := by
      rw [blockedBy,List.any_eq_false]
      intro path member
      rw [paramByRel_unparameterized path other (explore_plain lists path member)]
      exact Bool.false_ne_true
    refine ⟨?_,?_,?_⟩
    · intro path member
      rw [free,paramByRel_unparameterized path other (explore_plain lists path member)]
    · intro unique member
      obtain ⟨same,source⟩ := processed.cached unique member
      have plain : unique.subpath.paramInfo = none := by
        rcases source with explored | cheapest
        · exact explore_plain lists _ explored
        · rw [Option.some.inj (cheapest.trans lists.totalPath)]
          exact ((mem_unparameterized _ _).mp lists.total_mem).2
      rw [free,paramByRel_unparameterized _ other (same.trans plain)]
    · intro path member
      rw [← Option.some.inj (lists.startupPath.symm.trans member)]
      exact paramByRel_unparameterized _ other ((mem_unparameterized _ _).mp lists.startup_mem).2

theorem Uniform.supplied {rel : RelOptInfo} {other : RelCore} (uniform : Uniform rel other)
    (subpath : Path) (unique : UniquePath) (supplied : Supplied rel subpath unique)
    (like : subpath.paramByRel other = blockedBy rel other) :
    unique.path.paramByRel other = blockedBy rel other ∧
      Uniform {rel with cheapestUniquePath := some unique} other := by
  have same : unique.path.paramByRel other = blockedBy rel other := by
    rcases supplied with cached | ⟨_,_,parameters⟩
    · exact uniform.unique unique cached
    · rw [paramByRel_congr _ _ other parameters,like]
  refine ⟨same,uniform.explore,?_,uniform.startup⟩
  intro other' member
  rw [← Option.some.inj member]
  exact same

section Blocked

variable (joinrel : RelCore) (estimates : Path → UniqueEstimates) (outerrel innerrel : RelOptInfo)

/-- So far no pair was parameterized across the join; the join type changes only once the inner
relation proved usable. -/
structure Unblocked (jointype : JoinType) (state : JoinState) : Prop where
  outer : SameButUnique state.outerrel outerrel
  inner : SameButUnique state.innerrel innerrel
  outerUniform : Uniform state.outerrel innerrel.toRelCore
  innerUniform : Uniform state.innerrel outerrel.toRelCore
  retyped : state.jointype = jointype ∨ blockedBy innerrel outerrel.toRelCore = false
  pairs : ∀ pair ∈ hashjoinPairs state.tries,
    pair.1.paramByRel innerrel.toRelCore = false ∧ pair.2.paramByRel outerrel.toRelCore = false

theorem pairStep_unblocked (jointype : JoinType) (outerkeys : List PathKey) (state : JoinState)
    (outerPath innerPath : Path) (member : innerPath ∈ innerrel.cheapestCostExplorePathlist)
    (after : JoinState × Path) (unblocked : Unblocked outerrel innerrel jointype state)
    (like : outerPath.paramByRel innerrel.toRelCore = blockedBy state.outerrel innerrel.toRelCore)
    (step : PairStep outerkeys state outerPath innerPath after) :
    Unblocked outerrel innerrel jointype after.1 ∧
      after.2.paramByRel innerrel.toRelCore = blockedBy after.1.outerrel innerrel.toRelCore := by
  have blocked :
    blockedBy state.innerrel outerrel.toRelCore = blockedBy innerrel outerrel.toRelCore := by
    rw [blockedBy,unblocked.inner.explore]
    rfl
  have like' :
    innerPath.paramByRel outerrel.toRelCore = blockedBy state.innerrel outerrel.toRelCore :=
    unblocked.innerUniform.explore innerPath (unblocked.inner.explore ▸ member)
  have outer_free (usable : usableOuter state.innerrel.toRelCore outerPath) :
      outerPath.paramByRel innerrel.toRelCore = false := by
    rw [unblocked.inner.core] at usable
    simpa [usableOuter] using usable
  have inner_free (usable : usableInner state.outerrel.toRelCore innerPath) :
      innerPath.paramByRel outerrel.toRelCore = false := by
    rw [unblocked.outer.core] at usable
    simpa [usableInner] using usable
  have extended (outer inner : Path) (kind : JoinType)
    (free : outer.paramByRel innerrel.toRelCore = false)
      (free' : inner.paramByRel outerrel.toRelCore = false) :
      ∀ pair ∈ hashjoinPairs (state.tries ++ [⟨false,outer,inner,outerkeys,kind⟩]),
        pair.1.paramByRel innerrel.toRelCore = false ∧
        pair.2.paramByRel outerrel.toRelCore = false := by
    rw [hashjoinPairs_append]
    intro pair among
    rcases List.mem_append.mp among with earlier | last
    · exact unblocked.pairs pair earlier
    · rw [List.mem_singleton.mp last]
      exact ⟨free,free'⟩
  cases step with
  | skip =>
    exact ⟨⟨unblocked.outer,unblocked.inner,unblocked.outerUniform,unblocked.innerUniform,
        unblocked.retyped,
      unblocked.pairs⟩,like⟩
  | uniqueOuter unique sjinfo usable usable' kind supplied =>
    obtain ⟨same,uniform⟩ := unblocked.outerUniform.supplied outerPath unique supplied like
    refine ⟨⟨unblocked.outer.unique _,unblocked.inner,uniform,unblocked.innerUniform,.inr ?_,?_⟩,
      same⟩
    · rw [← blocked,← like']
      exact inner_free usable'
    · exact extended _ _ _ (same.trans (like.symm.trans (outer_free usable))) (inner_free usable')
  | uniqueInner unique sjinfo usable usable' kind supplied =>
    obtain ⟨same,uniform⟩ := unblocked.innerUniform.supplied innerPath unique supplied like'
    refine ⟨⟨unblocked.outer,unblocked.inner.unique _,unblocked.outerUniform,uniform,.inr ?_,?_⟩,
      like⟩
    · rw [← blocked,← like']
      exact inner_free usable'
    · exact extended _ _ _ (outer_free usable) (same.trans (like'.symm.trans (inner_free usable')))
  | plain usable usable' kind =>
    refine ⟨⟨unblocked.outer,unblocked.inner,unblocked.outerUniform,unblocked.innerUniform,
        unblocked.retyped,?_⟩,like⟩
    exact extended _ _ _ (outer_free usable) (inner_free usable')

theorem exploreOuter_unblocked (jointype : JoinType) (outerkeys : List PathKey)
    (state explored : JoinState) (unblocked : Unblocked outerrel innerrel jointype state)
    (ran : exploreOuter estimates outerkeys outerrel.cheapestCostExplorePathlist
      innerrel.cheapestCostExplorePathlist state = some explored) :
        Unblocked outerrel innerrel jointype explored := by
  refine exploreOuter_kept estimates outerkeys _ _ (Unblocked outerrel innerrel jointype)
    (fun current => Unblocked outerrel innerrel jointype current.1 ∧
      current.2.paramByRel innerrel.toRelCore = blockedBy current.1.outerrel innerrel.toRelCore)
    ?_ ?_ ?_ state explored unblocked ran
  · intro state outerPath member kept
    exact ⟨kept,kept.outerUniform.explore outerPath (kept.outer.explore ▸ member)⟩
  · intro state outerPath innerPath member after inside step
    exact pairStep_unblocked outerrel innerrel jointype outerkeys state outerPath innerPath
      member after inside.1 inside.2 step
  · exact fun _ _ inside => inside.1

theorem Unblocked.append {jointype : JoinType} {state after : JoinState} {innerPath : Option Path}
    {kind : JoinType} {tries : List JoinTry}
    (unblocked : Unblocked outerrel innerrel jointype state)
    (advances : Advances state after kind innerPath tries) (retyped : kind = state.jointype)
    (free : ∀ pair ∈ hashjoinPairs tries,
      pair.1.paramByRel innerrel.toRelCore = false ∧ pair.2.paramByRel outerrel.toRelCore = false) :
    Unblocked outerrel innerrel jointype after := by
  refine ⟨advances.outerrel ▸ unblocked.outer,advances.innerrel ▸ unblocked.inner,
    advances.outerrel ▸ unblocked.outerUniform,advances.innerrel ▸ unblocked.innerUniform,?_,?_⟩
  · rw [advances.jointype,retyped]
    exact unblocked.retyped
  · rw [advances.tries,hashjoinPairs_append]
    exact List.forall_mem_append.mpr ⟨unblocked.pairs,free⟩

theorem uniqueStartupPair_unblocked (jointype : JoinType) (startup : Path)
    (free : startup.paramByRel innerrel.toRelCore = false)
    (usable : blockedBy innerrel outerrel.toRelCore = false) (state after : JoinState)
    (innerPath : Path) (member : innerPath ∈ innerrel.cheapestCostExplorePathlist)
    (unblocked : Unblocked outerrel innerrel jointype state)
    (ran : uniqueStartupPair estimates startup state innerPath = some after) :
    Unblocked outerrel innerrel jointype after := by
  obtain ⟨⟨path,next⟩,made,rest⟩ := Option.bind_eq_some_iff.mp ran
  obtain ⟨unique,sjinfo,supplied,rfl,rfl⟩ := uniqueInner_supplied _ _ _ _ _ made
  have blocked : blockedBy state.innerrel outerrel.toRelCore = false := by
    rw [← usable,blockedBy,unblocked.inner.explore]
    rfl
  obtain ⟨same,uniform⟩ := unblocked.innerUniform.supplied innerPath unique supplied
    (unblocked.innerUniform.explore innerPath (unblocked.inner.explore ▸ member))
  cases rest
  refine ⟨unblocked.outer,unblocked.inner.unique _,unblocked.outerUniform,uniform,.inr usable,?_⟩
  rw [JoinState.tryPair,hashjoinPairs_append]
  refine List.forall_mem_append.mpr ⟨unblocked.pairs,?_⟩
  intro pair last
  rw [List.mem_singleton.mp last]
  exact ⟨free,same.trans blocked⟩

/-- The startup path is joined without a test, so the inner relation has to be usable by then. -/
theorem hashStartup_unblocked (jointype : JoinType) (state started : JoinState)
    (unblocked : Unblocked outerrel innerrel jointype state)
    (safe : jointype = .uniqueOuter ∨ StartupCovered outerrel ∨
      blockedBy innerrel outerrel.toRelCore = false)
    (ran : hashStartup estimates state = some started) :
    Unblocked outerrel innerrel jointype started := by
  have covered_iff : StartupCovered state.outerrel ↔ StartupCovered outerrel := by
    rw [StartupCovered,unblocked.outer.startup,unblocked.outer.explore]
    rfl
  by_cases covered : StartupCovered outerrel
  · rw [hashStartup_covered estimates state (covered_iff.mpr covered)] at ran
    exact Option.some.inj ran ▸ unblocked
  obtain ⟨startup,found,untried⟩ := uncovered_startup state.outerrel (mt covered_iff.mp covered)
  by_cases kind : state.jointype = .uniqueOuter
  · rw [hashStartup_uniqueOuter estimates state kind] at ran
    exact Option.some.inj ran ▸ unblocked
  have usable : blockedBy innerrel outerrel.toRelCore = false := by
    rcases safe with outer | impossible | usable
    · exact unblocked.retyped.resolve_left (outer ▸ kind)
    · exact absurd impossible covered
    · exact usable
  have free := unblocked.outerUniform.startup startup found
  by_cases kind' : state.jointype = .uniqueInner
  · simp only [hashStartup,found,untried,kind',Bool.false_eq_true,if_false] at ran
    refine Library.Machine.foldlM_kept _ (Unblocked outerrel innerrel jointype) _ ?_ state
      started unblocked ran
    intro state innerPath member next kept stepped
    exact uniqueStartupPair_unblocked estimates outerrel innerrel jointype startup free usable
      state next innerPath (unblocked.inner.explore ▸ member) kept stepped
  · obtain ⟨after,ran',advances⟩ :=
      hashStartup_plain estimates state startup ⟨kind,kind'⟩ found untried
    obtain rfl := Option.some.inj (ran.symm.trans ran')
    refine unblocked.append outerrel innerrel advances rfl ?_
    rw [hashjoinPairs_map _ _ fun _ => rfl]
    intro pair among
    obtain ⟨innerPath,member,rfl⟩ := List.mem_map.mp among
    refine ⟨free,?_⟩
    rw [unblocked.innerUniform.explore innerPath member,← usable,blockedBy,unblocked.inner.explore]
    rfl

theorem hashParameterized_unblocked (jointype : JoinType) (state : JoinState)
    (unblocked : Unblocked outerrel innerrel jointype state) :
    Unblocked outerrel innerrel jointype (hashParameterized state) := by
  by_cases kind : state.jointype = .uniqueOuter ∨ state.jointype = .uniqueInner
  · rw [hashParameterized_unique state kind]
    exact unblocked
  · refine unblocked.append outerrel innerrel
      (hashParameterized_plain state (not_or.mp kind)) rfl ?_
    rw [hashjoinPairs_map _ _ fun _ => rfl]
    intro pair among
    obtain ⟨source,member,rfl⟩ := List.mem_map.mp among
    obtain ⟨⟨_,_,free,free'⟩,_⟩ := (leftoverPairs_mem_iff _ _ source.1 source.2).mp member
    rw [unblocked.inner.core] at free
    rw [unblocked.outer.core] at free'
    exact ⟨Bool.not_eq_true _ ▸ free,Bool.not_eq_true _ ▸ free'⟩

/-- A startup path outside the explore list meets the inner path parameterized by its relation. -/
theorem hashStartup_blocked (innerParent : RelOptInfo) (processed : Processed innerParent innerrel)
    (state started : JoinState) (outer : state.outerrel = outerrel)
    (inner : state.innerrel = innerrel) (uncovered : ¬StartupCovered outerrel)
    (blocked : blockedBy innerrel outerrel.toRelCore) (kind : state.jointype ≠ .uniqueOuter)
    (ran : hashStartup estimates state = some started) :
    ∃ pair ∈ hashjoinPairs started.tries, pair.2.paramByRel outerrel.toRelCore := by
  obtain ⟨startup,found,untried⟩ := uncovered_startup outerrel uncovered
  subst outer inner
  have only : ∃ best, state.innerrel.cheapestCostExplorePathlist = [best] ∧
      best.paramByRel state.outerrel.toRelCore := by
    by_cases none_plain : unparameterized innerParent.pathlist = []
    · obtain ⟨best,lists⟩ := processed.parameterizedLists none_plain
      exact ⟨best,lists.explore,by simpa [blockedBy,lists.explore] using blocked⟩
    · obtain ⟨startup',total,lists⟩ := processed.plainLists none_plain
      obtain ⟨path,member,parameterized⟩ := List.any_eq_true.mp blocked
      rw [paramByRel_unparameterized path _ (explore_plain lists path member)] at parameterized
      exact absurd parameterized Bool.false_ne_true
  obtain ⟨best,explore,parameterized⟩ := only
  by_cases kind' : state.jointype = .uniqueInner
  · simp only [hashStartup,found,untried,kind',Bool.false_eq_true,if_false,explore,List.foldlM_cons,
      List.foldlM_nil] at ran
    obtain ⟨next,stepped,rest⟩ := Option.bind_eq_some_iff.mp ran
    obtain ⟨⟨path,after⟩,made,last⟩ := Option.bind_eq_some_iff.mp stepped
    obtain ⟨unique,sjinfo,supplied,rfl,rfl⟩ := uniqueInner_supplied _ _ _ _ _ made
    have uniform := processed.uniform state.outerrel.toRelCore
    have like := uniform.explore best (by simp [explore])
    cases last
    cases rest
    refine ⟨(startup,unique.path),?_,?_⟩
    · rw [JoinState.tryPair,hashjoinPairs_append]
      exact List.mem_append_right _ (by simp [hashjoinPairs])
    · rw [(uniform.supplied best unique supplied like).1]
      exact blocked
  · obtain ⟨after,ran',advances⟩ :=
      hashStartup_plain estimates state startup ⟨kind,kind'⟩ found untried
    obtain rfl := Option.some.inj (ran.symm.trans ran')
    refine ⟨(startup,best),?_,parameterized⟩
    rw [advances.tries,hashjoinPairs_append,explore]
    exact List.mem_append_right _ (by simp [hashjoinPairs])

theorem hashParameterized_keeps (state : JoinState) (pair : Path × Path)
    (member : pair ∈ hashjoinPairs state.tries) :
    pair ∈ hashjoinPairs (hashParameterized state).tries := by
  by_cases kind : state.jointype = .uniqueOuter ∨ state.jointype = .uniqueInner
  · rw [hashParameterized_unique state kind]
    exact member
  · rw [(hashParameterized_plain state (not_or.mp kind)).tries,hashjoinPairs_append]
    exact List.mem_append_left _ member

theorem hashStartup_runs (state : JoinState) (ready : UniqueReady state) :
    ∃ started, hashStartup estimates state = some started := by
  unfold hashStartup
  repeat' split
  · exact ⟨_,rfl⟩
  · exact ⟨_,rfl⟩
  · exact ⟨_,rfl⟩
  next kind =>
    obtain ⟨unique,cached⟩ := ready.2 kind
    obtain ⟨started,ran,_⟩ := Library.Machine.foldlM_runs (uniqueStartupPair estimates _)
      (fun state => state.innerrel.cheapestUniquePath = some unique) (by
        intro state innerPath cached
        simp only [uniqueStartupPair,JoinState.uniqueInner,
          createUniquePath_cached state.innerrel innerPath state.sjinfo
          (estimates innerPath) unique cached]
        exact ⟨_,rfl,cached⟩) state.innerrel.cheapestCostExplorePathlist state cached
    exact ⟨started,ran⟩
  · exact ⟨_,rfl⟩

theorem hashInnerAndOuter_runs (restrictlist : List JoinClause) (sjinfo : SpecialJoinInfo)
    (jointype : JoinType) (ready : UniqueReady ⟨outerrel,innerrel,sjinfo,jointype,none,[],[]⟩) :
    ∃ final, hashInnerAndOuter joinrel estimates restrictlist outerrel innerrel sjinfo jointype =
      some final := by
  unfold hashInnerAndOuter
  dsimp only
  split
  · exact ⟨_,rfl⟩
  · obtain ⟨explored,ran,ready'⟩ :=
      exploreOuter_runs estimates [] outerrel.cheapestCostExplorePathlist
        innerrel.cheapestCostExplorePathlist _ ready
    obtain ⟨started,ran'⟩ := hashStartup_runs estimates explored ready'
    exact ⟨hashPartial joinrel jointype (hashParameterized started),by
      simp only [ran,Option.bind_some,hashRest,ran',Option.map_some]⟩

end Blocked

/-- A pair is parameterized across the join exactly when the startup path of the outer relation is
not in its explore list and the inner relation has no path but those parameterized by the outer
one. -/
theorem hashInnerAndOuter_unblocked_iff (joinrel : RelCore) (estimates : Path → UniqueEstimates)
    (restrictlist : List JoinClause) (outerParent outerrel innerParent innerrel : RelOptInfo)
    (sjinfo : SpecialJoinInfo) (jointype : JoinType) (processed : Processed outerParent outerrel)
    (processed' : Processed innerParent innerrel) :
    (UniqueReady ⟨outerrel,innerrel,sjinfo,jointype,none,[],[]⟩ → ∃ final,
      hashInnerAndOuter joinrel estimates restrictlist outerrel innerrel sjinfo
      jointype = some final) ∧
    ∀ final, hashInnerAndOuter joinrel estimates restrictlist outerrel innerrel sjinfo
    jointype = some final →
      ((∀ pair ∈ hashjoinPairs final.tries,
          ¬pair.1.paramByRel innerrel.toRelCore ∧ ¬pair.2.paramByRel outerrel.toRelCore) ↔
        hashClauses jointype restrictlist outerrel.toRelCore innerrel.toRelCore = [] ∨
        jointype = .uniqueOuter ∨ StartupCovered outerrel ∨
        ∀ path ∈ innerrel.cheapestCostExplorePathlist, ¬path.paramByRel outerrel.toRelCore) := by
  refine ⟨hashInnerAndOuter_runs joinrel estimates outerrel innerrel restrictlist sjinfo jointype,
    ?_⟩
  intro final ran
  have free_iff :
    (∀ path ∈ innerrel.cheapestCostExplorePathlist, ¬path.paramByRel outerrel.toRelCore) ↔
      blockedBy innerrel outerrel.toRelCore = false := by
    rw [blockedBy,List.any_eq_false]
  rw [free_iff]
  unfold hashInnerAndOuter at ran
  dsimp only at ran
  split at ran
  next none_clause =>
    cases ran
    simp [none_clause,hashjoinPairs]
  next some_clause =>
    obtain ⟨explored,looped,rest⟩ := Option.bind_eq_some_iff.mp ran
    obtain ⟨started,ran',rfl⟩ := Option.map_eq_some_iff.mp rest
    have start :
      Unblocked outerrel innerrel jointype ⟨outerrel,innerrel,sjinfo,jointype,none,[],[]⟩ :=
      ⟨.refl _,.refl _,processed.uniform _,processed'.uniform _,.inl rfl,by simp [hashjoinPairs]⟩
    have unblocked :=
      exploreOuter_unblocked estimates outerrel innerrel jointype [] _ explored start looped
    rw [hashPartial_pairs]
    constructor
    · intro free
      by_contra exposed
      push Not at exposed
      obtain ⟨_,kind,uncovered,blocked⟩ := exposed
      have none_usable :
        innerrel.cheapestCostExplorePathlist.filter (usableInner outerrel.toRelCore) = [] := by
        rw [List.filter_eq_nil_iff]
        intro path member
        have parameterized := (processed'.uniform outerrel.toRelCore).explore path member
        simp [usableInner,parameterized,blocked]
      obtain ⟨after,looped',advances⟩ :=
        exploreOuter_unusable estimates [] outerrel.cheapestCostExplorePathlist
          innerrel.cheapestCostExplorePathlist ⟨outerrel,innerrel,sjinfo,jointype,none,[],[]⟩
          (.inr none_usable)
      obtain rfl := Option.some.inj (looped.symm.trans looped')
      obtain ⟨pair,member,parameterized⟩ :=
        hashStartup_blocked estimates outerrel innerrel innerParent processed' explored started
          advances.outerrel advances.innerrel uncovered (by simpa using blocked)
        (advances.jointype ▸ kind) ran'
      exact (free pair (hashParameterized_keeps started pair member)).2 parameterized
    · intro safe pair member
      have last := hashParameterized_unblocked outerrel innerrel jointype started
        (hashStartup_unblocked estimates outerrel innerrel jointype explored started unblocked
          (safe.resolve_left some_clause) ran')
      have free := last.pairs pair member
      simp [free]

theorem hashInnerAndOuter_unblocked_iff_plain :
    ∃ final, hashInnerAndOuter joinedCore noEstimates [equalityClause] startedRel leftRel
      ⟨true,true⟩ .inner =
        some final ∧ ∀ pair ∈ hashjoinPairs final.tries,
          ¬pair.1.paramByRel leftRel.toRelCore ∧ ¬pair.2.paramByRel startedRel.toRelCore := by
  obtain ⟨runs,exact_iff⟩ :=
    hashInnerAndOuter_unblocked_iff joinedCore noEstimates [equalityClause] startedParent startedRel
      (RelOptInfo.ofPaths (baseRel 2 0) [leftPath]) leftRel ⟨true,true⟩ .inner startedRel_processed
    leftRel_processed
  obtain ⟨final,ran⟩ := runs ⟨nofun,nofun⟩
  exact ⟨final,ran,(exact_iff final ran).mpr (.inr (.inr (.inr (by decide +kernel))))⟩

/-! A lateral subquery: its only path takes parameters from the other relation. -/

def lateralCore : RelCore := {baseRel 2 0 with lateralRelids := {1}}

def lateralScan : Path := {seqScan lateralCore 3 0 10 0 with paramInfo := some ⟨{1},1,[],0⟩}

def lateralParent : RelOptInfo := RelOptInfo.ofPaths lateralCore [lateralScan]

def lateralRel : RelOptInfo :=
  {lateralParent with
    cheapestCostExplorePathlist := [lateralScan]
    cheapestTotalPath := some lateralScan
    cheapestParameterizedPaths := [lateralScan]}

theorem lateralRel_processed : Processed lateralParent lateralRel := by
  constructor
  · decide +kernel
  · intro unique cached
    cases cached

/-- The quickest start is joined with the lateral path that takes its parameters from it. -/
theorem hashInnerAndOuter_takes_lateral :
    Processed startedParent startedRel ∧ Processed lateralParent lateralRel ∧
      ∃ final, hashInnerAndOuter joinedCore noEstimates [equalityClause] startedRel lateralRel
      ⟨true,true⟩ .inner =
        some final ∧ (promptScan,lateralScan) ∈ hashjoinPairs final.tries ∧
          lateralScan.paramByRel startedRel.toRelCore := by
  refine ⟨startedRel_processed,lateralRel_processed,?_⟩
  have pairs :
    (hashInnerAndOuter joinedCore noEstimates [equalityClause] startedRel lateralRel
        ⟨true,true⟩ .inner).map
      (fun final => hashjoinPairs final.tries) = some [(promptScan,lateralScan)] := by
    decide +kernel
  obtain ⟨final,ran,shape⟩ := Option.map_eq_some_iff.mp pairs
  refine ⟨final,ran,?_,by decide +kernel⟩
  rw [shape]
  simp

end ExploratoryOptimizer.HashPairing
