import ExploratoryOptimizer.JoinSearch.Search
import ExploratoryOptimizer.Library.Attempt

/-! What a call of `make_join_rel` can do to the state of the search, and the loops of a level as
one pass over a list of pairs that is fixed before the level begins. -/
namespace ExploratoryOptimizer.JoinSearch
open Library.Attempt

section Populate

/-- The join types asked for with the inputs in the order of the special join, and in the other
order. -/
def forwardTypes : JoinPath.JoinType → List JoinPath.JoinType
  | .inner => [.inner]
  | .left => [.left]
  | .full => [.full]
  | .semi => [.semi,.uniqueInner]
  | .anti => [.anti]
  | _ => []

def backwardTypes : JoinPath.JoinType → List JoinPath.JoinType
  | .inner => [.inner]
  | .left => [.right]
  | .full => [.full]
  | .semi => [.uniqueOuter]
  | _ => []

/-- The call is for this join relation and this pair of inputs, in one order or the other. -/
structure JoinCall.isFor (call : JoinCall) (joinrel rel1 rel2 : Relids) (sjinfo : SpecialJoinInfo)
    (restrictlist : List RestrictInfo) : Prop where
  joinrel : call.joinrel = joinrel
  sides :
    call.outerrel = rel1 ∧ call.innerrel = rel2 ∧ call.jointype ∈ forwardTypes sjinfo.jointype ∨
    call.outerrel = rel2 ∧ call.innerrel = rel1 ∧ call.jointype ∈ backwardTypes sjinfo.jointype
  semijoin : call.jointype = .semi → sjinfo.minLefthand ⊆ rel1 ∧ sjinfo.minRighthand ⊆ rel2
  unique : call.jointype = .uniqueInner ∨ call.jointype = .uniqueOuter → sjinfo.synRighthand = rel2
  sjinfo : call.sjinfo = sjinfo
  restrictlist : call.restrictlist = restrictlist

/-- Paths are asked for and relations marked dummy; the relations stay as they are. -/
structure Populated (state next : SearchState) (joinrel rel1 rel2 : Relids)
    (sjinfo : SpecialJoinInfo) (restrictlist : List RestrictInfo) : Prop where
  eclasses : next.eclasses = state.eclasses
  joinRelList : next.joinRelList = state.joinRelList
  joinRelLevel : next.joinRelLevel = state.joinRelLevel
  joinCurLevel : next.joinCurLevel = state.joinCurLevel
  dummiesKept : ∀ relids ∈ state.dummies, relids ∈ next.dummies
  calls :
    ∃ made, next.calls = state.calls ++ made ∧ ∀ call ∈ made,
      call.isFor joinrel rel1 rel2 sjinfo restrictlist

variable {state middle next : SearchState} {joinrel rel1 rel2 : SearchRel}
  {sjinfo : SpecialJoinInfo} {restrictlist : List RestrictInfo}

theorem Populated.refl (state : SearchState) :
    Populated state state joinrel.relids rel1.relids rel2.relids sjinfo restrictlist :=
  ⟨rfl,rfl,rfl,rfl,fun _ marked => marked,[],by simp,by simp⟩

theorem Populated.trans (first : Populated state middle joinrel.relids rel1.relids rel2.relids
      sjinfo restrictlist)
    (second : Populated middle next joinrel.relids rel1.relids rel2.relids sjinfo restrictlist) :
    Populated state next joinrel.relids rel1.relids rel2.relids sjinfo restrictlist := by
  obtain ⟨early,madeEarly,forEarly⟩ := first.calls
  obtain ⟨late,madeLate,forLate⟩ := second.calls
  refine ⟨second.eclasses.trans first.eclasses,second.joinRelList.trans first.joinRelList,
    second.joinRelLevel.trans first.joinRelLevel,second.joinCurLevel.trans first.joinCurLevel,
    fun relids marked => second.dummiesKept relids (first.dummiesKept relids marked),
    early ++ late,?_,?_⟩
  · rw [madeLate,madeEarly,List.append_assoc]
  · intro call member
    rcases List.mem_append.mp member with before | after
    · exact forEarly call before
    · exact forLate call after

theorem Populated.markDummyRel (state : SearchState) (rel : SearchRel) :
    Populated state (state.markDummyRel rel) joinrel.relids rel1.relids rel2.relids sjinfo
      restrictlist := by
  unfold SearchState.markDummyRel
  split
  · exact Populated.refl state
  · exact ⟨rfl,rfl,rfl,rfl,fun _ marked => List.mem_cons_of_mem _ marked,[],by simp,by simp⟩

theorem Populated.addPaths (state : SearchState) (jointype : JoinPath.JoinType)
    (forward : jointype ∈ forwardTypes sjinfo.jointype)
    (semijoin : jointype = .semi → sjinfo.minLefthand ⊆ rel1.relids ∧
      sjinfo.minRighthand ⊆ rel2.relids)
    (unique : jointype = .uniqueInner ∨ jointype = .uniqueOuter →
      sjinfo.synRighthand = rel2.relids) :
    Populated state (state.addPathsToJoinrel joinrel rel1 rel2 jointype sjinfo restrictlist)
      joinrel.relids rel1.relids rel2.relids sjinfo restrictlist := by
  refine ⟨rfl,rfl,rfl,rfl,fun _ marked => marked,_,rfl,fun call member => ?_⟩
  obtain rfl := List.mem_singleton.mp member
  exact ⟨rfl,.inl ⟨rfl,rfl,forward⟩,semijoin,unique,rfl,rfl⟩

theorem Populated.addPathsSwapped (state : SearchState) (jointype : JoinPath.JoinType)
    (backward : jointype ∈ backwardTypes sjinfo.jointype) (notSemi : jointype ≠ .semi)
    (unique : jointype = .uniqueInner ∨ jointype = .uniqueOuter →
      sjinfo.synRighthand = rel2.relids) :
    Populated state (state.addPathsToJoinrel joinrel rel2 rel1 jointype sjinfo restrictlist)
      joinrel.relids rel1.relids rel2.relids sjinfo restrictlist := by
  refine ⟨rfl,rfl,rfl,rfl,fun _ marked => marked,_,rfl,fun call member => ?_⟩
  obtain rfl := List.mem_singleton.mp member
  exact ⟨rfl,.inr ⟨rfl,rfl,backward⟩,fun semi => absurd semi notSemi,unique,rfl,rfl⟩

theorem Populated.addBoth (state : SearchState) (there back : JoinPath.JoinType)
    (forward : there ∈ forwardTypes sjinfo.jointype)
    (backward : back ∈ backwardTypes sjinfo.jointype) (notSemi : there ≠ .semi ∧ back ≠ .semi)
    (unique : (there = .uniqueInner ∨ there = .uniqueOuter) ∨ back = .uniqueInner ∨
      back = .uniqueOuter → sjinfo.synRighthand = rel2.relids) :
    Populated state ((state.addPathsToJoinrel joinrel rel1 rel2 there sjinfo
          restrictlist).addPathsToJoinrel
      joinrel rel2 rel1 back sjinfo restrictlist) joinrel.relids rel1.relids rel2.relids
        sjinfo restrictlist :=
  (Populated.addPaths state there forward (fun semi => absurd semi notSemi.1) fun kind =>
      unique (.inl kind)).trans
    (Populated.addPathsSwapped _ back backward notSemi.2 fun kind => unique (.inr kind))

theorem Populated.either (condition : Prop) [Decidable condition]
    (first : condition → Populated state middle joinrel.relids rel1.relids rel2.relids
      sjinfo restrictlist)
    (second : Populated state next joinrel.relids rel1.relids rel2.relids sjinfo restrictlist) :
    Populated state (if condition then middle else next) joinrel.relids rel1.relids rel2.relids
      sjinfo restrictlist := by
  split
  next holds => exact first holds
  · exact second

theorem Populated.markIf (state : SearchState) (rel : SearchRel) (condition : Prop)
    [Decidable condition] :
    Populated state (if condition then state.markDummyRel rel else state)
      joinrel.relids rel1.relids rel2.relids sjinfo restrictlist :=
  Populated.either condition (fun _ => Populated.markDummyRel state rel) (Populated.refl state)

theorem populated (root : PlannerInfo)
    (ran : populateJoinrelWithPaths root state rel1 rel2 joinrel sjinfo restrictlist = .ok next) :
    Populated state next joinrel.relids rel1.relids rel2.relids sjinfo restrictlist := by
  unfold populateJoinrelWithPaths at ran
  cases kind : sjinfo.jointype with
  | inner =>
    simp only [kind] at ran
    split at ran
    · cases ran
      exact Populated.markDummyRel state joinrel
    · cases ran
      exact Populated.addBoth state _ _ (by simp [kind,forwardTypes]) (by simp [kind,backwardTypes])
        (by simp) (by simp)
  | left =>
    simp only [kind] at ran
    split at ran
    · cases ran
      exact Populated.markDummyRel state joinrel
    · cases ran
      exact (Populated.markIf state rel2 _).trans
        (Populated.addBoth _ _ _ (by simp [kind,forwardTypes]) (by simp [kind,backwardTypes])
          (by simp) (by simp))
  | full =>
    simp only [kind] at ran
    split at ran
    · cases ran
      exact Populated.markDummyRel state joinrel
    · split at ran
      · cases ran
        exact Populated.addBoth state _ _ (by simp [kind,forwardTypes])
          (by simp [kind,backwardTypes]) (by simp) (by simp)
      · cases ran
  | semi =>
    simp only [kind] at ran
    split at ran
    · cases ran
      exact Populated.markDummyRel state joinrel
    · cases ran
      refine (Populated.either _ (fun semijoin => ?_) (Populated.refl state)).trans
        (Populated.either _ (fun unique => ?_) (Populated.refl _))
      · exact Populated.addPaths state _ (by simp [kind,forwardTypes]) (fun _ => semijoin) (by simp)
      · exact Populated.addBoth _ _ _ (by simp [kind,forwardTypes])
          (by simp [kind,backwardTypes]) (by simp) fun _ => unique.1
  | anti =>
    simp only [kind] at ran
    split at ran
    · cases ran
      exact Populated.markDummyRel state joinrel
    · cases ran
      exact (Populated.markIf state rel2 _).trans
        (Populated.addPaths _ _ (by simp [kind,forwardTypes]) (by simp) (by simp))
  | right => simp only [kind] at ran; cases ran
  | uniqueOuter => simp only [kind] at ran; cases ran
  | uniqueInner => simp only [kind] at ran; cases ran

end Populate

/-- What `make_join_rel` does when the join is legal, with its inputs in the order of the special
join. -/
structure Joined (root : PlannerInfo) (state next : SearchState) (rel1 rel2 : SearchRel)
    (sjinfo : SpecialJoinInfo) :
    Prop where
  eclasses :
    next.eclasses = (buildJoinrelRestrictlist root (rel1.relids ∪ rel2.relids) rel1 rel2
        state.eclasses).2
  joinCurLevel : next.joinCurLevel = state.joinCurLevel
  rels : (∃ joinrel ∈ state.joinRelList, joinrel.relids = rel1.relids ∪ rel2.relids ∧
      next.joinRelList = state.joinRelList ∧ next.joinRelLevel = state.joinRelLevel) ∨
    (∀ joinrel ∈ state.joinRelList, joinrel.relids ≠ rel1.relids ∪ rel2.relids) ∧
      next.joinRelList = state.joinRelList ++
        [newJoinRel root (rel1.relids ∪ rel2.relids) rel1 rel2] ∧
      next.joinRelLevel = Function.update state.joinRelLevel state.joinCurLevel
        (state.joinRelLevel state.joinCurLevel ++
          [newJoinRel root (rel1.relids ∪ rel2.relids) rel1 rel2])
  dummiesKept : ∀ relids ∈ state.dummies, relids ∈ next.dummies
  calls : ∃ made, next.calls = state.calls ++ made ∧ ∀ call ∈ made,
    call.isFor (rel1.relids ∪ rel2.relids) rel1.relids rel2.relids sjinfo
      (buildJoinrelRestrictlist root (rel1.relids ∪ rel2.relids) rel1 rel2 state.eclasses).1

section Build

variable (root : PlannerInfo) (state : SearchState) (rel1 rel2 : SearchRel)

theorem findJoinRel_some (relids : Relids) (joinrel : SearchRel)
    (found : state.findJoinRel relids = some joinrel) :
    joinrel ∈ state.joinRelList ∧ joinrel.relids = relids :=
  ⟨List.mem_of_find?_eq_some found,by simpa using List.find?_some found⟩

theorem findJoinRel_none (relids : Relids) (missing : state.findJoinRel relids = none) :
    ∀ joinrel ∈ state.joinRelList, joinrel.relids ≠ relids := by
  intro joinrel member
  simpa using List.find?_eq_none.mp missing joinrel member

end Build

theorem makeLegalJoinRel_joined (root : PlannerInfo) (state next : SearchState)
    (rel1 rel2 : SearchRel) (sjinfo : SpecialJoinInfo)
    (ran : makeLegalJoinRel root state rel1 rel2 sjinfo = .ok next) :
    Joined root state next rel1 rel2 sjinfo := by
  unfold makeLegalJoinRel buildJoinRel at ran
  cases found : state.findJoinRel (rel1.relids ∪ rel2.relids) with
  | some joinrel =>
    obtain ⟨listed,same⟩ := findJoinRel_some state _ joinrel found
    simp only [found] at ran
    split at ran
    · cases ran
      exact ⟨rfl,rfl,.inl ⟨joinrel,listed,same,rfl,rfl⟩,fun _ marked => marked,[],by simp,by simp⟩
    · have effect := populated root ran
      rw [same] at effect
      exact ⟨effect.eclasses,effect.joinCurLevel,
        .inl ⟨joinrel,listed,same,effect.joinRelList,effect.joinRelLevel⟩,
        effect.dummiesKept,effect.calls⟩
  | none =>
    have fresh := findJoinRel_none state _ found
    simp only [found] at ran
    split at ran
    · cases ran
      exact ⟨rfl,rfl,.inr ⟨fresh,rfl,rfl⟩,fun _ marked => marked,[],
        by simp [SearchState.addJoinRel],by simp⟩
    · have effect := populated root ran
      exact ⟨effect.eclasses,effect.joinCurLevel,
        .inr ⟨fresh,effect.joinRelList,effect.joinRelLevel⟩,effect.dummiesKept,effect.calls⟩

/-- The join is not legal and nothing happens, or it is made in the order of the special join. -/
theorem makeJoinRel_cases (root : PlannerInfo) (state next : SearchState) (rel1 rel2 : SearchRel)
    (ran : makeJoinRel root state rel1 rel2 = .ok next) :
    joinIsLegal root rel1 rel2 (rel1.relids ∪ rel2.relids) = none ∧ next = state ∨
      ∃ matched reversed, joinIsLegal root rel1 rel2 (rel1.relids ∪ rel2.relids) =
      some (matched,reversed) ∧
        ∃ first second, (first = rel1 ∧ second = rel2 ∧ reversed = false ∨
            first = rel2 ∧ second = rel1 ∧ reversed = true) ∧
          makeLegalJoinRel root state first second (matched.getD (innerJoinInfo first second)) =
            .ok next := by
  unfold makeJoinRel at ran
  cases legal : joinIsLegal root rel1 rel2 (rel1.relids ∪ rel2.relids) with
  | none =>
    simp only [legal] at ran
    cases ran
    exact .inl ⟨rfl,rfl⟩
  | some found =>
    obtain ⟨matched,reversed⟩ := found
    refine .inr ⟨matched,reversed,rfl,?_⟩
    cases reversed with
    | false =>
      simp only [legal] at ran
      exact ⟨rel1,rel2,.inl ⟨rfl,rfl,rfl⟩,ran⟩
    | true =>
      simp only [legal] at ran
      exact ⟨rel2,rel1,.inr ⟨rfl,rfl,rfl⟩,ran⟩

section Pairs

/-- The pairs handed to `make_join_rel`, one after another. -/
def tryPairs (root : PlannerInfo) (pairs : List (SearchRel × SearchRel)) (state : SearchState) :
    Except String SearchState :=
  pairs.foldlM (fun state pair => makeJoinRel root state pair.1 pair.2) state

def clausePairs (root : PlannerInfo) (oldRel : SearchRel) (otherRels : List SearchRel) :
    List (SearchRel × SearchRel) :=
  (otherRels.filter (joinWanted root oldRel)).map (Prod.mk oldRel)

def productPairs (oldRel : SearchRel) (otherRels : List SearchRel) : List (SearchRel × SearchRel) :=
  (otherRels.filter fun otherRel => ¬overlap otherRel.relids oldRel.relids).map (Prod.mk oldRel)

def initialPairs (root : PlannerInfo) (level : Nat) (joinrels : Nat → List SearchRel) :
    List (SearchRel × SearchRel) :=
  (cells (joinrels (level - 1))).flatMap fun cell =>
    if hasJoinReason root cell.1 then clausePairs root cell.1 (if level = 2 then cell.2
        else joinrels 1)
    else productPairs cell.1 (joinrels 1)

def bushyPairs (root : PlannerInfo) (level : Nat) (joinrels : Nat → List SearchRel) (k : Nat) :
    List (SearchRel × SearchRel) :=
  (cells (joinrels k)).flatMap fun cell =>
    if hasJoinReason root cell.1 then clausePairs root cell.1 (if k = level - k then cell.2
        else joinrels (level - k))
    else []

def levelPairs (root : PlannerInfo) (level : Nat) (joinrels : Nat → List SearchRel) : List
    (SearchRel × SearchRel) :=
  initialPairs root level joinrels ++ (bushySizes level).flatMap (bushyPairs root level joinrels)

def lastDitchPairs (level : Nat) (joinrels : Nat → List SearchRel) : List (SearchRel × SearchRel) :=
  (joinrels (level - 1)).flatMap fun oldRel => productPairs oldRel (joinrels 1)

variable (root : PlannerInfo)

theorem tryPairs_clause (oldRel : SearchRel) (otherRels : List SearchRel) (state : SearchState) :
    otherRels.foldlM (fun state otherRel =>
      if joinWanted root oldRel otherRel then makeJoinRel root state oldRel otherRel
      else .ok state) state =
      tryPairs root (clausePairs root oldRel otherRels) state := by
  rw [foldlM_filter (fun state otherRel => makeJoinRel root state oldRel otherRel)
    (joinWanted root oldRel)]
  unfold tryPairs clausePairs
  rw [List.foldlM_map]

theorem tryPairs_product (oldRel : SearchRel) (otherRels : List SearchRel) (state : SearchState) :
    makeRelsByClauselessJoins root oldRel otherRels state = tryPairs root
      (productPairs oldRel otherRels) state := by
  unfold makeRelsByClauselessJoins
  rw [foldlM_filter (fun state otherRel => makeJoinRel root state oldRel otherRel)
    (fun otherRel => ¬overlap otherRel.relids oldRel.relids)]
  unfold tryPairs productPairs
  rw [List.foldlM_map]

theorem joinInitialRels_eq (level : Nat) (joinrels : Nat → List SearchRel) (state : SearchState) :
    joinInitialRels root level joinrels state = tryPairs root
      (initialPairs root level joinrels) state := by
  unfold joinInitialRels initialPairs
  rw [tryPairs,← foldlM_flatMap]
  congr 1
  funext state cell
  split
  · exact tryPairs_clause root cell.1 _ state
  · exact tryPairs_product root cell.1 _ state

theorem joinBushy_eq (level : Nat) (joinrels : Nat → List SearchRel) (k : Nat)
    (state : SearchState) :
    joinBushy root level joinrels k state = tryPairs root
      (bushyPairs root level joinrels k) state := by
  unfold joinBushy bushyPairs
  rw [tryPairs,← foldlM_flatMap]
  congr 1
  funext state cell
  split
  · exact tryPairs_clause root cell.1 _ state
  · rfl

theorem joinLastDitch_eq (level : Nat) (joinrels : Nat → List SearchRel) (state : SearchState) :
    joinLastDitch root level joinrels state = tryPairs root
      (lastDitchPairs level joinrels) state := by
  unfold joinLastDitch lastDitchPairs
  rw [tryPairs,← foldlM_flatMap]
  congr 1
  funext state oldRel
  exact tryPairs_product root oldRel _ state

theorem tryPairs_level (level : Nat) (joinrels : Nat → List SearchRel) (state : SearchState) :
    tryPairs root (levelPairs root level joinrels) state =
      (joinInitialRels root level joinrels state >>=
        (bushySizes level).foldlM fun state k => joinBushy root level joinrels k state) := by
  have bushy :
    ∀ state : SearchState, ((bushySizes level).flatMap (bushyPairs root level joinrels)).foldlM
      (fun state pair => makeJoinRel root state pair.1 pair.2) state =
      (bushySizes level).foldlM (fun state k => joinBushy root level joinrels k state) state := by
    intro state
    rw [← foldlM_flatMap]
    congr 1
    funext state k
    exact (joinBushy_eq root level joinrels k state).symm
  unfold tryPairs levelPairs
  rw [List.foldlM_append,joinInitialRels_eq]
  exact congrArg _ (funext bushy)

/-- The loops of a level, as passes over lists of pairs. -/
theorem joinSearchOneLevel_eq (state : SearchState) (level : Nat) :
    joinSearchOneLevel root state level =
      (tryPairs root (levelPairs root level state.joinRelLevel)
        {state with joinCurLevel := level} >>= fun next =>
        if next.joinRelLevel level = [] then
          tryPairs root (lastDitchPairs level state.joinRelLevel) next >>= fun final =>
            if final.joinRelLevel level = [] ∧ root.joinInfoList = [] ∧
              root.hasLateralRTEs = false then
              .error s!"failed to build any {level}-way joins"
            else .ok final
        else .ok next) := by
  unfold joinSearchOneLevel
  rw [tryPairs_level,bind_assoc]
  simp only [joinLastDitch_eq]

end Pairs

end ExploratoryOptimizer.JoinSearch
