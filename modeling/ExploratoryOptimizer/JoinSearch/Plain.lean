import ExploratoryOptimizer.JoinSearch.Levels

/-! Queries without special joins and lateral references. Every join is legal and inner, so the
search cannot fail: no level stays empty. -/
namespace ExploratoryOptimizer.JoinSearch
open Library.Attempt Library.Blocks

structure Plain (root : PlannerInfo) : Prop where
  special : root.joinInfoList = []
  lateral : root.hasLateralRTEs = false

/-- One of the inputs is empty, or a clause is never true. -/
def emptyJoin (state : SearchState) (rel1 rel2 : SearchRel)
    (restrictlist : List RestrictInfo) : Prop :=
  state.isDummyRel rel1 ∨ state.isDummyRel rel2 ∨ restrictionIsConstantFalse restrictlist false

instance (state : SearchState) (rel1 rel2 : SearchRel) (restrictlist : List RestrictInfo) :
    Decidable (emptyJoin state rel1 rel2 restrictlist) := inferInstanceAs (Decidable (_ ∨ _ ∨ _))

/-- The two calls of an inner join. -/
def innerCalls (rel1 rel2 : SearchRel) (restrictlist : List RestrictInfo) : List JoinCall :=
  [⟨rel1.relids ∪ rel2.relids,rel1.relids,rel2.relids,.inner,innerJoinInfo rel1 rel2,restrictlist⟩,
    ⟨rel1.relids ∪ rel2.relids,rel2.relids,rel1.relids,.inner,innerJoinInfo rel1 rel2,restrictlist⟩]

/-- What an inner join does besides building its relation. -/
inductive Outcome (state next : SearchState) (rel1 rel2 : SearchRel)
    (restrictlist : List RestrictInfo) : Prop
  | known (dummy : rel1.relids ∪ rel2.relids ∈ state.dummies)
      (dummies : next.dummies = state.dummies) (calls : next.calls = state.calls)
  | marked (live : rel1.relids ∪ rel2.relids ∉ state.dummies)
      (empty : emptyJoin state rel1 rel2 restrictlist)
      (dummies : next.dummies = (rel1.relids ∪ rel2.relids) :: state.dummies)
      (calls : next.calls = state.calls)
  | asked (live : rel1.relids ∪ rel2.relids ∉ state.dummies)
      (filled : ¬emptyJoin state rel1 rel2 restrictlist) (dummies : next.dummies = state.dummies)
      (calls : next.calls = state.calls ++ innerCalls rel1 rel2 restrictlist)

section Step

variable {root : PlannerInfo} (state : SearchState) (rel1 rel2 : SearchRel)

theorem buildJoinRel_spec (root : PlannerInfo) (joinrelids : Relids) :
    ∃ joinrel middle, joinrel.relids = joinrelids ∧ middle.dummies = state.dummies ∧
      middle.calls = state.calls ∧ buildJoinRel root state joinrelids rel1 rel2 =
        (joinrel,(buildJoinrelRestrictlist root joinrelids rel1 rel2 state.eclasses).1,middle) := by
  unfold buildJoinRel
  cases found : state.findJoinRel joinrelids with
  | some joinrel =>
    refine ⟨joinrel,_,?_,?_,?_,rfl⟩
    · exact (findJoinRel_some state joinrelids joinrel found).2
    · rfl
    · rfl
  | none =>
    refine ⟨_,_,?_,?_,?_,rfl⟩
    · rfl
    · rfl
    · rfl

theorem makeLegalJoinRel_inner (root : PlannerInfo) :
    ∃ next, makeLegalJoinRel root state rel1 rel2 (innerJoinInfo rel1 rel2) = .ok next ∧
      Outcome state next rel1 rel2
        (buildJoinrelRestrictlist root (rel1.relids ∪ rel2.relids) rel1 rel2 state.eclasses).1 := by
  obtain ⟨joinrel,middle,covers,dummies,calls,built⟩ := buildJoinRel_spec state rel1 rel2 root
    (rel1.relids ∪ rel2.relids)
  unfold makeLegalJoinRel
  rw [built]
  simp only [SearchState.isDummyRel,covers,dummies]
  split
  next dummy => exact ⟨middle,rfl,.known dummy dummies calls⟩
  next live =>
    unfold populateJoinrelWithPaths innerJoinInfo
    simp only [SearchState.isDummyRel,dummies]
    split
    next empty =>
      refine ⟨_,rfl,.marked live empty ?_ ?_⟩
      · simp [SearchState.markDummyRel,SearchState.isDummyRel,covers,dummies,live]
      · simp [SearchState.markDummyRel,SearchState.isDummyRel,covers,dummies,live,calls]
    next filled =>
      refine ⟨_,rfl,.asked live filled dummies ?_⟩
      simp [SearchState.addPathsToJoinrel,calls,covers,innerCalls,innerJoinInfo]

theorem makeLegalJoinRel_inner_ok (next : SearchState)
    (ran : makeLegalJoinRel root state rel1 rel2 (innerJoinInfo rel1 rel2) = .ok next) :
    Joined root state next rel1 rel2 (innerJoinInfo rel1 rel2) ∧ Outcome state next rel1 rel2
      (buildJoinrelRestrictlist root (rel1.relids ∪ rel2.relids) rel1 rel2 state.eclasses).1 := by
  obtain ⟨other,made,outcome⟩ := makeLegalJoinRel_inner state rel1 rel2 root
  refine ⟨makeLegalJoinRel_joined root state next rel1 rel2 _ ran,?_⟩
  rw [made] at ran
  cases ran
  exact outcome

variable (plain : Plain root)

include plain

theorem joinIsLegal_plain (joinrelids : Relids) :
    joinIsLegal root rel1 rel2 joinrelids = some (none,false) := by
  unfold joinIsLegal scanSpecialJoins
  simp [plain.special,plain.lateral,Found.breaksRighthand]

theorem legalAs_plain (matched : Option SpecialJoinInfo) (legal : legalAs root rel1 rel2 matched) :
    matched = none := by
  rcases legal with straight | turned
  · rw [joinIsLegal_plain rel1 rel2 plain] at straight
    cases straight
    rfl
  · rw [joinIsLegal_plain rel2 rel1 plain] at turned
    cases turned

theorem makeJoinRel_plain :
    makeJoinRel root state rel1 rel2 = makeLegalJoinRel root state rel1 rel2
      (innerJoinInfo rel1 rel2) := by
  unfold makeJoinRel
  rw [joinIsLegal_plain rel1 rel2 plain]
  rfl

theorem makeJoinRel_plain_ok (next : SearchState)
    (ran : makeJoinRel root state rel1 rel2 = .ok next) :
    Joined root state next rel1 rel2 (innerJoinInfo rel1 rel2) ∧ Outcome state next rel1 rel2
      (buildJoinrelRestrictlist root (rel1.relids ∪ rel2.relids) rel1 rel2 state.eclasses).1 := by
  rw [makeJoinRel_plain state rel1 rel2 plain] at ran
  exact makeLegalJoinRel_inner_ok state rel1 rel2 next ran

end Step

section Level

variable {root : PlannerInfo} (plain : Plain root) {initialRels old : List SearchRel}
  {oldCalls : List JoinCall} {joinrels : Nat → List SearchRel} {level : Nat}
  (separate : Separate initialRels old) (pairs : List (SearchRel × SearchRel))
  (sized : ∀ pair ∈ pairs, ∃ i j, SizedPair joinrels level pair i j) (state : SearchState)
  (within : Within initialRels old oldCalls joinrels level state)

include plain separate sized within

theorem tryPairs_ends : ∃ final, tryPairs root pairs state = .ok final ∧
    Within initialRels old oldCalls joinrels level final := by
  refine foldlM_ends _ (Within initialRels old oldCalls joinrels level) pairs ?_ state within
  intro pair member state within
  obtain ⟨i,j,sizedPair⟩ := sized pair member
  obtain ⟨next,ran,_⟩ := makeLegalJoinRel_inner state pair.1 pair.2 root
  rw [← makeJoinRel_plain state pair.1 pair.2 plain] at ran
  exact ⟨next,ran,makeJoinRel_within separate state next within pair i j sizedPair ran⟩

/-- After the pass the union of every pair is a relation of the level. -/
theorem tryPairs_reached (final : SearchState) (ran : tryPairs root pairs state = .ok final)
    (pair : SearchRel × SearchRel) (member : pair ∈ pairs) :
    pair.1.relids ∪ pair.2.relids ∈ (final.joinRelLevel level).map (·.relids) := by
  refine foldlM_reached _ (Within initialRels old oldCalls joinrels level)
    (fun state => pair.1.relids ∪ pair.2.relids ∈ (state.joinRelLevel level).map (·.relids))
    pairs pair member (fun other among state next within stepped => ?_)
    (fun state next within stepped => ?_) (fun other among state next within here stepped => ?_)
    state final within ran
  · obtain ⟨i,j,sizedPair⟩ := sized other among
    exact makeJoinRel_within separate state next within other i j sizedPair stepped
  · obtain ⟨i,j,sizedPair⟩ := sized pair member
    have joined := (makeJoinRel_plain_ok state pair.1 pair.2 plain next stepped).1
    have current :=
      joined_current separate within.layered (within.sizedPair pair i j sizedPair) root _ joined
    rwa [within.current] at current
  · obtain ⟨rel,present,same⟩ := List.mem_map.mp here
    have joined := (makeJoinRel_plain_ok state other.1 other.2 plain next stepped).1
    exact List.mem_map.mpr ⟨rel,joined_extended root _ _ _ joined level rel present,same⟩

end Level

section Search

variable {root : PlannerInfo} (plain : Plain root) {initialRels old : List SearchRel}
  {oldCalls : List JoinCall} (separate : Separate initialRels old)

include plain separate

/-- A relation of the level below that does not cover all can be joined with an initial relation. -/
theorem joinSearchOneLevel_ends (state : SearchState)
    (layered : Layered initialRels old oldCalls state) (level : Nat) (enough : 2 ≤ level)
    (few : level ≤ initialRels.length) (below : state.joinRelLevel (level - 1) ≠ []) :
    ∃ final, joinSearchOneLevel root state level = .ok final ∧
      Within initialRels old oldCalls state.joinRelLevel level final ∧
      final.joinRelLevel level ≠ [] := by
  rw [joinSearchOneLevel_eq]
  obtain ⟨next,ran,within⟩ :=
    tryPairs_ends plain separate _ (levelPairs_sized root state.joinRelLevel level enough) _
      (layered.begin level)
  rw [ran]
  by_cases filled : next.joinRelLevel level = []
  · have sized : ∀ pair ∈ lastDitchPairs level state.joinRelLevel, ∃ i j,
      SizedPair state.joinRelLevel level pair i j :=
      fun pair member => ⟨_,_,lastDitchPairs_sized state.joinRelLevel level enough pair member⟩
    obtain ⟨final,again,done⟩ := tryPairs_ends plain separate _ sized next within
    obtain ⟨oldRel,present⟩ := List.exists_mem_of_ne_nil _ below
    obtain ⟨wholeOld,sizeOld⟩ := layered.sized _ oldRel present
    have fewer : size (blocksOf initialRels) oldRel.relids < (blocksOf initialRels).length := by
      rw [sizeOld,blocksOf,List.length_map]
      omega
    obtain ⟨block,among,outside⟩ := exists_outside separate.apart oldRel.relids wholeOld fewer
    obtain ⟨initial,isInitial,rfl⟩ := List.mem_map.mp among
    have member : (oldRel,initial) ∈ lastDitchPairs level state.joinRelLevel := by
      refine List.mem_flatMap.mpr
        ⟨oldRel,present,(mem_productPairs _ _ _).mpr ⟨rfl,?_,not_not.mpr outside⟩⟩
      rw [layered.first]
      exact isInitial
    have reached := tryPairs_reached plain separate _ sized next within final again _ member
    have some : final.joinRelLevel level ≠ [] := by
      intro none
      simp [none] at reached
    refine ⟨final,?_,done,some⟩
    simp only [bind,Except.bind,filled,if_true,again,some,false_and,if_false]
  · refine ⟨next,?_,within,filled⟩
    simp only [bind,Except.bind,filled,if_false]

theorem joinSearchOneLevel_fills (state : SearchState)
    (layered : Layered initialRels old oldCalls state) (level : Nat) (enough : 2 ≤ level)
    (few : level ≤ initialRels.length)
    (filled : ∀ lower, 1 ≤ lower → lower < level → state.joinRelLevel lower ≠ []) :
    ∃ final, joinSearchOneLevel root state level = .ok final ∧
      Layered initialRels old oldCalls final ∧
      ∀ lower, 1 ≤ lower → lower < level + 1 → final.joinRelLevel lower ≠ [] := by
  obtain ⟨final,ran,within,here⟩ :=
    joinSearchOneLevel_ends plain separate state layered level enough few
      (filled (level - 1) (by omega) (by omega))
  refine ⟨final,ran,within.layered,fun lower low high => ?_⟩
  by_cases same : lower = level
  · rw [same]
    exact here
  · rw [within.others lower same]
    exact filled lower low (by omega)

end Search

/-- Without special joins and lateral references the search never reports an error: each level up to
the number of initial relations gets a relation, by products with single relations where no clause
helps. -/
theorem search_succeeds (root : PlannerInfo) (initialRels : List SearchRel) (state : SearchState)
    (plain : Plain root) (separate : Separate initialRels state.joinRelList)
    (inhabited : initialRels ≠ []) :
    ∃ rel final, aqoJoinSearch root initialRels.length initialRels state = .ok (rel,final) ∧
      rel.relids = (blocksOf initialRels).toFinset.biUnion id ∧
      ∀ level, 1 ≤ level → level ≤ initialRels.length → final.joinRelLevel level ≠ [] := by
  have one : 0 < initialRels.length := List.length_pos_iff.mpr inhabited
  have start := startSearch_layered separate state rfl
  have first :
    ∀ level, 1 ≤ level → level < 2 → (startSearch state initialRels).joinRelLevel level ≠ [] := by
    intro level low high
    obtain rfl : level = 1 := by omega
    rw [start.first]
    exact inhabited
  obtain ⟨final,ran,layered,filled⟩ := foldlM_counted_ends (joinSearchOneLevel root)
    (fun level current => Layered initialRels state.joinRelList state.calls current ∧
      ∀ lower, 1 ≤ lower → lower < level → current.joinRelLevel lower ≠ []) 2
      (initialRels.length - 1)
    (fun level current low high ⟨layered,filled⟩ =>
      joinSearchOneLevel_fills plain separate current layered level low (by omega) filled)
    (startSearch state initialRels) ⟨start,first⟩
  obtain ⟨rel,rest,shape⟩ := List.exists_cons_of_ne_nil (filled initialRels.length one (by omega))
  refine ⟨rel,final,?_,layered_top layered rel (by simp [shape]),fun level low high =>
    filled level low (by omega)⟩
  unfold aqoJoinSearch searchLevels
  rw [ran]
  simp only [bind,Except.bind,shape]

theorem innerRoot_ends : ∃ rel final,
    aqoJoinSearch innerRoot threeRels.length threeRels emptySearch = .ok (rel,final) ∧
    final.dummies = [] := by
  obtain ⟨⟨rel,final⟩,ran⟩ :=
    exists_of_isOk (aqoJoinSearch innerRoot threeRels.length threeRels emptySearch) (by decide)
  have live :
    ((aqoJoinSearch innerRoot threeRels.length threeRels emptySearch).toOption.map (·.2.dummies)) =
      some [] := by
    decide
  rw [ran] at live
  exact ⟨rel,final,ran,Option.some.inj live⟩

end ExploratoryOptimizer.JoinSearch
