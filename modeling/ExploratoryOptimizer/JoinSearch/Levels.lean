import ExploratoryOptimizer.JoinSearch.Steps
import ExploratoryOptimizer.Library.Blocks

/-! The levels of the join search. Every relation of a level is the union of as many initial
relations as the level says, no two of a level have the same relids, and every pair whose paths are
asked for consists of two relations of lower levels that add up to it. -/
namespace ExploratoryOptimizer.JoinSearch
open Library.Attempt Library.Blocks

def blocksOf (initialRels : List SearchRel) : List Relids := initialRels.map (·.relids)

/-- The inputs of a recorded join are of lower levels, and the join relation of the level they add
up to. -/
structure Placed (levels : Nat → List SearchRel) (call : JoinCall)
    (outerLevel innerLevel : Nat) : Prop where
  outerPos : 0 < outerLevel
  innerPos : 0 < innerLevel
  outer : call.outerrel ∈ (levels outerLevel).map (·.relids)
  inner : call.innerrel ∈ (levels innerLevel).map (·.relids)
  joinrel : call.joinrel ∈ (levels (outerLevel + innerLevel)).map (·.relids)
  union : call.joinrel = call.outerrel ∪ call.innerrel
  disjoint : Disjoint call.outerrel call.innerrel

/-- The calls that came after the given ones. -/
def SearchState.since (state : SearchState) (oldCalls : List JoinCall) : List JoinCall :=
  state.calls.drop oldCalls.length

/-- `old` and `oldCalls` are the join relations and calls of earlier searches. -/
structure Layered (initialRels old : List SearchRel) (oldCalls : List JoinCall)
    (state : SearchState) : Prop where
  first : state.joinRelLevel 1 = initialRels
  sized : ∀ level, ∀ rel ∈ state.joinRelLevel level,
    whole (blocksOf initialRels) rel.relids ∧ size (blocksOf initialRels) rel.relids = level
  distinct : ∀ level, ((state.joinRelLevel level).map (·.relids)).Nodup
  listed : ∀ level, 2 ≤ level → ∀ rel ∈ state.joinRelLevel level, rel ∈ state.joinRelList
  known : ∀ rel ∈ state.joinRelList, rel ∈ old ∨ ∃ level, rel ∈ state.joinRelLevel level
  earlier : oldCalls.length ≤ state.calls.length
  called : ∀ call ∈ state.since oldCalls, ∃ i j, Placed state.joinRelLevel call i j

/-- The initial relations have nothing in common, and no earlier join relation holds two of them. -/
structure Separate (initialRels old : List SearchRel) : Prop where
  apart : Apart (blocksOf initialRels)
  fresh : ∀ rel ∈ old, size (blocksOf initialRels) rel.relids ≤ 1

theorem since_append (state next : SearchState) (oldCalls made : List JoinCall)
    (earlier : oldCalls.length ≤ state.calls.length) (appended : next.calls = state.calls ++ made) :
    next.since oldCalls = state.since oldCalls ++ made := by
  unfold SearchState.since
  rw [appended,List.drop_append_of_le_length earlier]

section Cells

theorem mem_cells {α : Type} (items rest : List α) (item : α) (member : (item,rest) ∈ cells items) :
    item ∈ items ∧ ∀ later ∈ rest, later ∈ items := by
  induction items with
  | nil => cases member
  | cons head tail ih =>
    rcases List.mem_cons.mp member with here | there
    · obtain ⟨rfl,rfl⟩ := Prod.mk.inj here
      exact ⟨List.mem_cons_self ..,fun later => List.mem_cons_of_mem _⟩
    · obtain ⟨inside,within⟩ := ih there
      exact ⟨List.mem_cons_of_mem _ inside,fun later among =>
        List.mem_cons_of_mem _ (within later among)⟩

theorem mem_bushySizes (level k : Nat) : k ∈ bushySizes level ↔ 2 ≤ k ∧ k ≤ level - k := by
  have general : ∀ start count, k ∈ (List.range' start count).takeWhile (fun k => k ≤ level - k) ↔
      start ≤ k ∧ k < start + count ∧ k ≤ level - k := by
    intro start count
    induction count generalizing start with
    | zero => simp; omega
    | succ count ih =>
      rw [List.range'_succ,List.takeWhile_cons]
      split
      next small =>
        rw [List.mem_cons,ih]
        have small : start ≤ level - start := by simpa using small
        omega
      next large =>
        have large : ¬start ≤ level - start := by simpa using large
        simp only [List.not_mem_nil,false_iff]
        omega
  unfold bushySizes
  rw [general]
  omega

end Cells

section PairsOfLevel

/-- The inputs of a pair are of levels that add up to the level at hand, and have nothing in
common. -/
structure SizedPair (joinrels : Nat → List SearchRel) (level : Nat)
    (pair : SearchRel × SearchRel) (i j : Nat) :
    Prop where
  firstPos : 0 < i
  secondPos : 0 < j
  sum : i + j = level
  first : pair.1 ∈ joinrels i
  second : pair.2 ∈ joinrels j
  disjoint : Disjoint pair.1.relids pair.2.relids

variable (root : PlannerInfo) (joinrels : Nat → List SearchRel)

theorem mem_clausePairs (oldRel : SearchRel) (otherRels : List SearchRel)
    (pair : SearchRel × SearchRel) :
    pair ∈ clausePairs root oldRel otherRels ↔ pair.1 = oldRel ∧ pair.2 ∈ otherRels ∧
      joinWanted root oldRel pair.2 := by
  unfold clausePairs
  obtain ⟨first,second⟩ := pair
  simp only [List.mem_map,List.mem_filter,decide_eq_true_eq,Prod.mk.injEq]
  constructor
  · rintro ⟨other,⟨among,wanted⟩,rfl,rfl⟩
    exact ⟨rfl,among,wanted⟩
  · rintro ⟨rfl,among,wanted⟩
    exact ⟨second,⟨among,wanted⟩,rfl,rfl⟩

theorem mem_productPairs (oldRel : SearchRel) (otherRels : List SearchRel)
    (pair : SearchRel × SearchRel) :
    pair ∈ productPairs oldRel otherRels ↔
      pair.1 = oldRel ∧ pair.2 ∈ otherRels ∧ ¬overlap pair.2.relids oldRel.relids := by
  unfold productPairs
  obtain ⟨first,second⟩ := pair
  simp only [List.mem_map,List.mem_filter,decide_eq_true_eq,Prod.mk.injEq]
  constructor
  · rintro ⟨other,⟨among,apart⟩,rfl,rfl⟩
    exact ⟨rfl,among,apart⟩
  · rintro ⟨rfl,among,apart⟩
    exact ⟨second,⟨among,apart⟩,rfl,rfl⟩

theorem clausePairs_sized (level i j : Nat) (oldRel : SearchRel) (otherRels : List SearchRel)
    (firstPos : 0 < i) (secondPos : 0 < j) (sum : i + j = level) (old : oldRel ∈ joinrels i)
    (others : ∀ rel ∈ otherRels, rel ∈ joinrels j) (pair : SearchRel × SearchRel)
    (member : pair ∈ clausePairs root oldRel otherRels) :
    SizedPair joinrels level pair i j := by
  obtain ⟨same,among,apart,_⟩ := (mem_clausePairs root oldRel otherRels pair).mp member
  exact ⟨firstPos,secondPos,sum,same ▸ old,others _ among,same ▸ not_not.mp apart⟩

theorem productPairs_sized (level : Nat) (oldRel : SearchRel) (enough : 2 ≤ level)
    (old : oldRel ∈ joinrels (level - 1)) (pair : SearchRel × SearchRel)
    (member : pair ∈ productPairs oldRel (joinrels 1)) :
    SizedPair joinrels level pair (level - 1) 1 := by
  obtain ⟨same,among,apart⟩ := (mem_productPairs oldRel (joinrels 1) pair).mp member
  exact ⟨by omega,by omega,by omega,same ▸ old,among,same ▸ (not_not.mp apart).symm⟩

theorem initialPairs_sized (level : Nat) (enough : 2 ≤ level) (pair : SearchRel × SearchRel)
    (member : pair ∈ initialPairs root level joinrels) :
    SizedPair joinrels level pair (level - 1) 1 := by
  obtain ⟨cell,among,inside⟩ := List.mem_flatMap.mp member
  obtain ⟨old,behind⟩ := mem_cells _ cell.2 cell.1 among
  split at inside
  · refine clausePairs_sized root joinrels level _ _ cell.1 _ (by omega) (by omega)
      (by omega) old ?_ pair inside
    split
    next two => exact fun rel later => by simpa [two] using behind rel later
    next => exact fun rel among => among
  · exact productPairs_sized joinrels level cell.1 enough old pair inside

theorem bushyPairs_sized (level k : Nat) (size : k ∈ bushySizes level)
    (pair : SearchRel × SearchRel) (member : pair ∈ bushyPairs root level joinrels k) :
    SizedPair joinrels level pair k (level - k) := by
  obtain ⟨low,high⟩ := (mem_bushySizes level k).mp size
  obtain ⟨cell,among,inside⟩ := List.mem_flatMap.mp member
  obtain ⟨old,behind⟩ := mem_cells _ cell.2 cell.1 among
  split at inside
  · refine clausePairs_sized root joinrels level _ _ cell.1 _ (by omega) (by omega)
      (by omega) old ?_ pair inside
    split
    next half => exact fun rel later => half ▸ behind rel later
    next => exact fun rel among => among
  · cases inside

theorem levelPairs_sized (level : Nat) (enough : 2 ≤ level) (pair : SearchRel × SearchRel)
    (member : pair ∈ levelPairs root level joinrels) :
    ∃ i j, SizedPair joinrels level pair i j := by
  rcases List.mem_append.mp member with initial | bushy
  · exact ⟨_,_,initialPairs_sized root joinrels level enough pair initial⟩
  · obtain ⟨k,size,inside⟩ := List.mem_flatMap.mp bushy
    exact ⟨_,_,bushyPairs_sized root joinrels level k size pair inside⟩

theorem lastDitchPairs_sized (level : Nat) (enough : 2 ≤ level) (pair : SearchRel × SearchRel)
    (member : pair ∈ lastDitchPairs level joinrels) :
    SizedPair joinrels level pair (level - 1) 1 := by
  obtain ⟨oldRel,old,inside⟩ := List.mem_flatMap.mp member
  exact productPairs_sized joinrels level oldRel enough old pair inside

end PairsOfLevel

section Step

variable {initialRels old : List SearchRel} {oldCalls : List JoinCall} {state next : SearchState}

/-- The levels of the state go on in those of the next one. -/
def extended (levels later : Nat → List SearchRel) : Prop :=
  ∀ level, ∀ rel ∈ levels level, rel ∈ later level

theorem Placed.extend (levels later : Nat → List SearchRel) (call : JoinCall) (i j : Nat)
    (placed : Placed levels call i j) (grown : extended levels later) : Placed later call i j := by
  have more : ∀ level relids, relids ∈ (levels level).map (·.relids) →
    relids ∈ (later level).map (·.relids) := by
    intro level relids member
    obtain ⟨rel,among,same⟩ := List.mem_map.mp member
    exact List.mem_map.mpr ⟨rel,grown level rel among,same⟩
  exact ⟨placed.outerPos,placed.innerPos,more _ _ placed.outer,more _ _ placed.inner,
    more _ _ placed.joinrel,placed.union,placed.disjoint⟩

theorem joined_extended (root : PlannerInfo) (rel1 rel2 : SearchRel) (sjinfo : SpecialJoinInfo)
    (joined : Joined root state next rel1 rel2 sjinfo) :
    extended state.joinRelLevel next.joinRelLevel := by
  intro level rel member
  rcases joined.rels with ⟨_,_,_,_,same⟩ | ⟨_,_,same⟩
  · rwa [same]
  · rw [same]
    by_cases current : level = state.joinCurLevel
    · subst current
      rw [Function.update_self]
      exact List.mem_append_left _ member
    · rwa [Function.update_of_ne current]

/-- A relation of the next state is old, or the new one of the current level. -/
theorem joined_mem_level (root : PlannerInfo) (rel1 rel2 : SearchRel) (sjinfo : SpecialJoinInfo)
    (joined : Joined root state next rel1 rel2 sjinfo) (level : Nat) (rel : SearchRel)
    (member : rel ∈ next.joinRelLevel level) :
    rel ∈ state.joinRelLevel level ∨
      level = state.joinCurLevel ∧ rel = newJoinRel root (rel1.relids ∪ rel2.relids) rel1 rel2 := by
  rcases joined.rels with ⟨_,_,_,_,levels⟩ | ⟨_,_,levels⟩
  · rw [levels] at member
    exact .inl member
  · by_cases current : level = state.joinCurLevel
    · subst current
      rw [levels,Function.update_self] at member
      rcases List.mem_append.mp member with before | new
      · exact .inl before
      · exact .inr ⟨rfl,List.mem_singleton.mp new⟩
    · rw [levels,Function.update_of_ne current] at member
      exact .inl member

theorem joined_other_level (root : PlannerInfo) (rel1 rel2 : SearchRel) (sjinfo : SpecialJoinInfo)
    (joined : Joined root state next rel1 rel2 sjinfo) (level : Nat)
    (other : level ≠ state.joinCurLevel) :
    next.joinRelLevel level = state.joinRelLevel level := by
  rcases joined.rels with ⟨_,_,_,_,same⟩ | ⟨_,_,same⟩
  · rw [same]
  · rw [same,Function.update_of_ne other]

theorem layered_nonempty (separate : Separate initialRels old)
    (layered : Layered initialRels old oldCalls state) (level : Nat) (pos : 0 < level)
    (rel : SearchRel) (member : rel ∈ state.joinRelLevel level) :
    rel.relids.Nonempty := by
  obtain ⟨_,sized⟩ := layered.sized level rel member
  rw [Finset.nonempty_iff_ne_empty]
  intro empty
  rw [empty,size_empty separate.apart] at sized
  omega

variable (separate : Separate initialRels old) (layered : Layered initialRels old oldCalls state)
  {rel1 rel2 : SearchRel} {i j : Nat}
  (sized : SizedPair state.joinRelLevel state.joinCurLevel (rel1,rel2) i j)

include separate layered sized

theorem sizedPair_union :
    whole (blocksOf initialRels) (rel1.relids ∪ rel2.relids) ∧
      size (blocksOf initialRels) (rel1.relids ∪ rel2.relids) = state.joinCurLevel := by
  obtain ⟨wholeFirst,sizeFirst⟩ := layered.sized i rel1 sized.first
  obtain ⟨wholeSecond,sizeSecond⟩ := layered.sized j rel2 sized.second
  refine ⟨whole_union _ _ _ wholeFirst wholeSecond,?_⟩
  rw [size_union separate.apart _ _ wholeFirst wholeSecond sized.disjoint,sizeFirst,sizeSecond]
  exact sized.sum

/-- A join relation with these relids is of the current level, if there is one. -/
theorem known_current (joinrel : SearchRel) (listed : joinrel ∈ state.joinRelList)
    (same : joinrel.relids = rel1.relids ∪ rel2.relids) :
    joinrel ∈ state.joinRelLevel state.joinCurLevel := by
  obtain ⟨_,sizeUnion⟩ := sizedPair_union separate layered sized
  have two : 2 ≤ state.joinCurLevel := by
    have sum := sized.sum
    have firstPos := sized.firstPos
    have secondPos := sized.secondPos
    omega
  rcases layered.known joinrel listed with early | ⟨level,here⟩
  · have few := separate.fresh joinrel early
    rw [same] at few
    omega
  · have sizeHere := (layered.sized level joinrel here).2
    rw [same,sizeUnion] at sizeHere
    rwa [sizeHere]

theorem joined_current (root : PlannerInfo) (sjinfo : SpecialJoinInfo)
    (joined : Joined root state next rel1 rel2 sjinfo) :
    rel1.relids ∪ rel2.relids ∈ (next.joinRelLevel state.joinCurLevel).map (·.relids) := by
  rcases joined.rels with ⟨joinrel,listed,same,_,levels⟩ | ⟨_,_,levels⟩
  · rw [levels]
    exact List.mem_map.mpr ⟨joinrel,known_current separate layered sized joinrel listed same,same⟩
  · rw [levels,Function.update_self]
    refine List.mem_map.mpr ⟨newJoinRel root (rel1.relids ∪ rel2.relids) rel1 rel2,?_,rfl⟩
    exact List.mem_append_right _ (List.mem_singleton_self _)

theorem joined_placed (root : PlannerInfo) (sjinfo : SpecialJoinInfo)
    (joined : Joined root state next rel1 rel2 sjinfo) (call : JoinCall)
    (restrictlist : List RestrictInfo)
    (isFor : call.isFor (rel1.relids ∪ rel2.relids) rel1.relids rel2.relids sjinfo restrictlist) :
    ∃ i j, Placed next.joinRelLevel call i j := by
  have grown := joined_extended root rel1 rel2 sjinfo joined
  have present := joined_current separate layered sized root sjinfo joined
  have firstIn := List.mem_map_of_mem (f := (·.relids)) (grown i rel1 sized.first)
  have secondIn := List.mem_map_of_mem (f := (·.relids)) (grown j rel2 sized.second)
  rw [← sized.sum] at present
  rcases isFor.sides with ⟨outer,inner,_⟩ | ⟨outer,inner,_⟩
  · refine ⟨i,j,sized.firstPos,sized.secondPos,outer ▸ firstIn,inner ▸ secondIn,
      isFor.joinrel ▸ present,?_,?_⟩
    · rw [isFor.joinrel,outer,inner]
    · rw [outer,inner]
      exact sized.disjoint
  · refine ⟨j,i,sized.secondPos,sized.firstPos,outer ▸ secondIn,inner ▸ firstIn,?_,?_,?_⟩
    · rw [isFor.joinrel,Nat.add_comm]
      exact present
    · rw [isFor.joinrel,outer,inner,Finset.union_comm]
    · rw [outer,inner]
      exact sized.disjoint.symm

theorem joined_layered (root : PlannerInfo) (sjinfo : SpecialJoinInfo)
    (joined : Joined root state next rel1 rel2 sjinfo) :
    Layered initialRels old oldCalls next := by
  have grown := joined_extended root rel1 rel2 sjinfo joined
  obtain ⟨made,appended,isFor⟩ := joined.calls
  have earlier : oldCalls.length ≤ next.calls.length := by
    have before := layered.earlier
    rw [appended,List.length_append]
    omega
  have called : ∀ call ∈ next.since oldCalls, ∃ i j, Placed next.joinRelLevel call i j := by
    intro call member
    rw [since_append state next oldCalls made layered.earlier appended] at member
    rcases List.mem_append.mp member with before | new
    · obtain ⟨i,j,placed⟩ := layered.called call before
      exact ⟨i,j,placed.extend _ _ call i j grown⟩
    · exact joined_placed separate layered sized root sjinfo joined call _ (isFor call new)
  have two : state.joinCurLevel ≠ 1 := by
    have sum := sized.sum
    have firstPos := sized.firstPos
    have secondPos := sized.secondPos
    omega
  rcases joined.rels with ⟨_,_,_,rels,levels⟩ | ⟨fresh,rels,levels⟩
  · exact ⟨by rw [levels]; exact layered.first,by rw [levels]; exact layered.sized,
      by rw [levels]; exact layered.distinct,by rw [levels,rels]; exact layered.listed,
      by rw [levels,rels]; exact layered.known,earlier,called⟩
  · set joinrel := newJoinRel root (rel1.relids ∪ rel2.relids) rel1 rel2
    have inLevel := joined_mem_level root rel1 rel2 sjinfo joined
    refine ⟨?_,?_,?_,?_,?_,earlier,called⟩
    · rw [levels,Function.update_of_ne (Ne.symm two)]
      exact layered.first
    · intro level rel member
      rcases inLevel level rel member with before | ⟨rfl,rfl⟩
      · exact layered.sized level rel before
      · exact sizedPair_union separate layered sized
    · intro level
      by_cases current : level = state.joinCurLevel
      · subst current
        rw [levels,Function.update_self,List.map_append,List.nodup_append]
        refine ⟨layered.distinct _,by simp,?_⟩
        intro relids before other new same
        obtain ⟨rel,among,rfl⟩ := List.mem_map.mp before
        obtain rfl := List.mem_singleton.mp new
        refine fresh rel (layered.listed _ ?_ rel among) same
        have sum := sized.sum
        have firstPos := sized.firstPos
        have secondPos := sized.secondPos
        omega
      · rw [levels,Function.update_of_ne current]
        exact layered.distinct level
    · intro level enough rel member
      rw [rels]
      rcases inLevel level rel member with before | ⟨rfl,rfl⟩
      · exact List.mem_append_left _ (layered.listed level enough rel before)
      · exact List.mem_append_right _ (List.mem_singleton_self _)
    · intro rel member
      rw [rels] at member
      rcases List.mem_append.mp member with before | new
      · refine (layered.known rel before).imp_right ?_
        rintro ⟨level,here⟩
        exact ⟨level,grown level rel here⟩
      · obtain rfl := List.mem_singleton.mp new
        refine .inr ⟨state.joinCurLevel,?_⟩
        rw [levels,Function.update_self]
        exact List.mem_append_right _ (List.mem_singleton_self _)

end Step

section Run

variable {root : PlannerInfo} {initialRels old : List SearchRel} {oldCalls : List JoinCall}
  {joinrels : Nat → List SearchRel} {level : Nat}

/-- A state in the middle of a level: the other levels are as they were at its beginning. -/
structure Within (initialRels old : List SearchRel) (oldCalls : List JoinCall)
    (joinrels : Nat → List SearchRel) (level : Nat) (state : SearchState) : Prop where
  layered : Layered initialRels old oldCalls state
  current : state.joinCurLevel = level
  others : ∀ other, other ≠ level → state.joinRelLevel other = joinrels other

theorem Within.sizedPair {state : SearchState}
    (within : Within initialRels old oldCalls joinrels level state) (pair : SearchRel × SearchRel)
    (i j : Nat) (sized : SizedPair joinrels level pair i j) :
    SizedPair state.joinRelLevel state.joinCurLevel pair i j := by
  have sum := sized.sum
  have firstPos := sized.firstPos
  have secondPos := sized.secondPos
  refine ⟨firstPos,secondPos,by rw [within.current,sum],?_,?_,sized.disjoint⟩
  · rw [within.others i (by omega)]
    exact sized.first
  · rw [within.others j (by omega)]
    exact sized.second

theorem SizedPair.swap (pair : SearchRel × SearchRel) (i j : Nat)
    (sized : SizedPair joinrels level pair i j) :
    SizedPair joinrels level pair.swap j i :=
  ⟨sized.secondPos,sized.firstPos,by rw [Nat.add_comm]; exact sized.sum,sized.second,sized.first,
    sized.disjoint.symm⟩

theorem joined_within (separate : Separate initialRels old) {state next : SearchState}
    (within : Within initialRels old oldCalls joinrels level state)
    (rel1 rel2 : SearchRel) (i j : Nat) (sized : SizedPair joinrels level (rel1,rel2) i j)
    (sjinfo : SpecialJoinInfo) (joined : Joined root state next rel1 rel2 sjinfo) :
    Within initialRels old oldCalls joinrels level next := by
  refine ⟨?_,joined.joinCurLevel.trans within.current,fun other different => ?_⟩
  · exact joined_layered separate within.layered (within.sizedPair _ i j sized) root sjinfo joined
  · rw [joined_other_level root rel1 rel2 sjinfo joined other
      (by rw [within.current]; exact different)]
    exact within.others other different

/-- A call of `make_join_rel` does nothing, or joins the pair in one order or the other. -/
theorem makeJoinRel_joined (state next : SearchState) (pair : SearchRel × SearchRel)
    (ran : makeJoinRel root state pair.1 pair.2 = .ok next) :
    next = state ∨ ∃ first second sjinfo, ((first,second) = pair ∨ (first,second) = pair.swap) ∧
      Joined root state next first second sjinfo := by
  rcases makeJoinRel_cases root state next pair.1 pair.2 ran with ⟨_,same⟩ | ⟨_,_,_,first,
    second,order,made⟩
  · exact .inl same
  · refine .inr ⟨first,second,_,?_,makeLegalJoinRel_joined root state next first second _ made⟩
    rcases order with ⟨rfl,rfl,_⟩ | ⟨rfl,rfl,_⟩
    · exact .inl rfl
    · exact .inr rfl

theorem makeJoinRel_within (separate : Separate initialRels old) (state next : SearchState)
    (within : Within initialRels old oldCalls joinrels level state)
    (pair : SearchRel × SearchRel) (i j : Nat) (sized : SizedPair joinrels level pair i j)
    (ran : makeJoinRel root state pair.1 pair.2 = .ok next) :
    Within initialRels old oldCalls joinrels level next := by
  rcases makeJoinRel_joined state next pair ran with rfl | ⟨first,second,sjinfo,
    rfl | swapped,joined⟩
  · exact within
  · exact joined_within separate within first second i j sized sjinfo joined
  · exact joined_within separate within first second j i
      (swapped ▸ sized.swap pair i j) sjinfo joined

theorem Layered.begin {state : SearchState} (layered : Layered initialRels old oldCalls state)
    (level : Nat) :
    Within initialRels old oldCalls state.joinRelLevel level {state with joinCurLevel := level} :=
  ⟨⟨layered.first,layered.sized,layered.distinct,layered.listed,layered.known,layered.earlier,
    layered.called⟩,rfl,fun _ _ => rfl⟩

/-- A level is a pass over its pairs, and over the last-ditch pairs if it is still empty. -/
theorem joinSearchOneLevel_cases (state final : SearchState) (level : Nat)
    (ran : joinSearchOneLevel root state level = .ok final) :
    ∃ next, tryPairs root (levelPairs root level state.joinRelLevel)
      {state with joinCurLevel := level} = .ok next ∧
      (next.joinRelLevel level ≠ [] ∧ final = next ∨ next.joinRelLevel level = [] ∧
        tryPairs root (lastDitchPairs level state.joinRelLevel) next = .ok final) := by
  rw [joinSearchOneLevel_eq] at ran
  obtain ⟨next,first,ran⟩ := bind_ok _ _ _ ran
  refine ⟨next,first,?_⟩
  split at ran
  next empty =>
    obtain ⟨last,second,ran⟩ := bind_ok _ _ _ ran
    split at ran
    · cases ran
    · cases ran
      exact .inr ⟨empty,second⟩
  next filled =>
    cases ran
    exact .inl ⟨filled,rfl⟩

theorem startSearch_layered (separate : Separate initialRels old) (state : SearchState)
    (listed : state.joinRelList = old) :
    Layered initialRels old state.calls (startSearch state initialRels) := by
  have levels : ∀ level, 1 ≠ level → (startSearch state initialRels).joinRelLevel level = [] := by
    intro level other
    exact Function.update_of_ne (f := fun _ => []) (Ne.symm other) initialRels
  have first : (startSearch state initialRels).joinRelLevel 1 = initialRels := by simp [startSearch]
  refine ⟨first,fun level rel member => ?_,fun level => ?_,fun level enough rel member =>
    ?_,?_,le_rfl,?_⟩
  · by_cases one : 1 = level
    · subst one
      rw [first] at member
      have among : rel.relids ∈ blocksOf initialRels := List.mem_map_of_mem member
      exact ⟨whole_block _ _ among,size_block separate.apart _ among⟩
    · rw [levels level one] at member
      cases member
  · by_cases one : 1 = level
    · subst one
      rw [first]
      exact blocks_nodup separate.apart
    · rw [levels level one]
      exact List.nodup_nil
  · rw [levels level (by omega)] at member
    cases member
  · exact fun rel member => .inl (listed ▸ member)
  · intro call member
    have none : (startSearch state initialRels).since state.calls = [] := List.drop_length
    rw [none] at member
    cases member

theorem aqoJoinSearch_cases (levelsNeeded : Nat) (state final : SearchState) (rel : SearchRel)
    (ran : aqoJoinSearch root levelsNeeded initialRels state = .ok (rel,final)) :
    searchLevels root levelsNeeded (startSearch state initialRels) = .ok final ∧
      ∃ rest, final.joinRelLevel levelsNeeded = rel :: rest := by
  unfold aqoJoinSearch at ran
  obtain ⟨last,searched,ran⟩ := bind_ok _ _ _ ran
  cases top : last.joinRelLevel levelsNeeded with
  | nil =>
    rw [top] at ran
    cases ran
  | cons head rest =>
    rw [top] at ran
    cases ran
    exact ⟨searched,rest,top⟩

theorem layered_top {state : SearchState} (layered : Layered initialRels old oldCalls state)
    (rel : SearchRel) (member : rel ∈ state.joinRelLevel initialRels.length) :
    rel.relids = (blocksOf initialRels).toFinset.biUnion id := by
  obtain ⟨wholeRel,sizeRel⟩ := layered.sized _ rel member
  exact size_full _ _ wholeRel (by rw [sizeRel]; exact (List.length_map _).symm)

section Invariants

/-- The join of the two relations is legal in this order of its inputs, as the given special
join. -/
def legalAs (root : PlannerInfo) (first second : SearchRel)
    (matched : Option SpecialJoinInfo) : Prop :=
  joinIsLegal root first second (first.relids ∪ second.relids) = some (matched,false) ∨
    joinIsLegal root second first (second.relids ∪ first.relids) = some (matched,true)

/-- What every legal join of two relations of lower levels keeps. -/
def keptByJoins (root : PlannerInfo) (initialRels old : List SearchRel) (oldCalls : List JoinCall)
    (P : SearchState → Prop) : Prop :=
  ∀ state next first second i j matched, Layered initialRels old oldCalls state →
    SizedPair state.joinRelLevel state.joinCurLevel (first,second) i j →
    legalAs root first second matched → P state →
    makeLegalJoinRel root state first second (matched.getD (innerJoinInfo first second)) =
    .ok next → P next

variable (separate : Separate initialRels old) (P : SearchState → Prop)
  (joins : keptByJoins root initialRels old oldCalls P)

include separate joins

theorem makeJoinRel_kept (state next : SearchState)
    (within : Within initialRels old oldCalls joinrels level state) (pair : SearchRel × SearchRel)
    (i j : Nat) (sized : SizedPair joinrels level pair i j) (holds : P state)
    (ran : makeJoinRel root state pair.1 pair.2 = .ok next) :
    Within initialRels old oldCalls joinrels level next ∧ P next := by
  refine ⟨makeJoinRel_within separate state next within pair i j sized ran,?_⟩
  have here := within.sizedPair pair i j sized
  rcases makeJoinRel_cases root state next pair.1 pair.2 ran with
    ⟨_,rfl⟩ | ⟨matched,reversed,legal,first,second,⟨rfl,rfl,rfl⟩ | ⟨rfl,rfl,rfl⟩,made⟩
  · exact holds
  · exact joins state next _ _ i j matched within.layered here (.inl legal) holds made
  · exact joins state next _ _ j i matched within.layered (here.swap pair i j)
      (.inr legal) holds made

theorem tryPairs_kept (pairs : List (SearchRel × SearchRel))
    (sized : ∀ pair ∈ pairs, ∃ i j, SizedPair joinrels level pair i j) (state final : SearchState)
    (within : Within initialRels old oldCalls joinrels level state) (holds : P state)
    (ran : tryPairs root pairs state = .ok final) :
    Within initialRels old oldCalls joinrels level final ∧ P final := by
  refine foldlM_invariant _ (fun state => Within initialRels old oldCalls joinrels level state ∧
      P state) pairs ?_
    state final ⟨within,holds⟩ ran
  rintro pair member state next ⟨within,holds⟩ stepped
  obtain ⟨i,j,sizedPair⟩ := sized pair member
  exact makeJoinRel_kept separate P joins state next within pair i j sizedPair holds stepped

theorem joinSearchOneLevel_kept (state final : SearchState)
    (layered : Layered initialRels old oldCalls state) (level : Nat)
    (begun : P {state with joinCurLevel := level}) (enough : 2 ≤ level)
    (ran : joinSearchOneLevel root state level = .ok final) :
    Within initialRels old oldCalls state.joinRelLevel level final ∧ P final := by
  obtain ⟨next,first,rest⟩ := joinSearchOneLevel_cases state final level ran
  have middle :=
    tryPairs_kept separate P joins _ (levelPairs_sized root state.joinRelLevel level enough) _
      next (layered.begin level) begun first
  rcases rest with ⟨_,rfl⟩ | ⟨_,second⟩
  · exact middle
  · refine tryPairs_kept separate P joins _ (fun pair member => ?_) next final
      middle.1 middle.2 second
    exact ⟨_,_,lastDitchPairs_sized state.joinRelLevel level enough pair member⟩

/-- A property that legal joins keep holds at the end of the search. -/
theorem searchLevels_kept (marks : ∀ state level, P state → P {state with joinCurLevel := level})
    (levelsNeeded : Nat) (state final : SearchState)
    (layered : Layered initialRels old oldCalls state) (holds : P state)
    (ran : searchLevels root levelsNeeded state = .ok final) :
    Layered initialRels old oldCalls final ∧ P final := by
  refine foldlM_invariant _ (fun state => Layered initialRels old oldCalls state ∧ P state)
    _ ?_ state final ⟨layered,holds⟩ ran
  rintro level member state next ⟨layered,holds⟩ stepped
  have enough := (List.mem_range'_1.mp member).1
  obtain ⟨within,kept⟩ := joinSearchOneLevel_kept separate P joins state next layered level
    (marks state level holds) enough stepped
  exact ⟨within.layered,kept⟩

end Invariants

/-- Whatever the special joins, lateral references and clauses of the query: each level holds unions
of that many initial relations, one relation for each union; each pair whose paths were asked for is
made of two disjoint relations of lower levels that add up to the level of their union; and the
search answers with the one relation that covers all. -/
theorem aqoJoinSearch_layers (root : PlannerInfo) (initialRels : List SearchRel)
    (state final : SearchState) (rel : SearchRel)
    (separate : Separate initialRels state.joinRelList)
    (ran : aqoJoinSearch root initialRels.length initialRels state = .ok (rel,final)) :
    (∀ level, ∀ joinrel ∈ final.joinRelLevel level,
        whole (blocksOf initialRels) joinrel.relids ∧
        size (blocksOf initialRels) joinrel.relids = level) ∧
      (∀ level, ((final.joinRelLevel level).map (·.relids)).Nodup) ∧
      (∀ call ∈ final.since state.calls, ∃ i j, Placed final.joinRelLevel call i j) ∧
      final.joinRelLevel initialRels.length = [rel] ∧
      rel.relids = (blocksOf initialRels).toFinset.biUnion id := by
  obtain ⟨searched,rest,top⟩ := aqoJoinSearch_cases initialRels.length state final rel ran
  have layered :=
    (searchLevels_kept separate (fun _ => True) (fun _ _ _ _ _ _ _ _ _ _ _ _ => trivial)
        (fun _ _ _ => trivial) initialRels.length _ final (startSearch_layered separate state rfl)
        trivial searched).1
  refine ⟨layered.sized,layered.distinct,layered.called,?_,layered_top layered rel (by simp [top])⟩
  -- a second relation of the last level would have the same relids
  cases rest with
  | nil => exact top
  | cons other rest =>
    have same : rel.relids = other.relids :=
      (layered_top layered rel (by simp [top])).trans
        (layered_top layered other (by simp [top])).symm
    have distinct := layered.distinct initialRels.length
    rw [top,List.map_cons,List.map_cons,same] at distinct
    exact absurd (List.mem_cons_self ..) (List.nodup_cons.mp distinct).1

end Run

/-! A query of three relations, `a join b on a.x = b.y left join c on b.z = c.w`: its first
condition is a class, its second one a clause. -/

def outerClause : RestrictInfo := ⟨0,.other,{2,3},false,none,none,none⟩

def joinedMembers : EquivalenceMember × EquivalenceMember := (⟨0,{1},0,0,true⟩,⟨1,{2},0,0,true⟩)

def joinedClass : EquivalenceClass where
  address := 0
  ecOpfamilies := [0]
  ecMembers := [joinedMembers.1,joinedMembers.2]
  ecSources := [⟨1,.opExpr 0,{1,2},true,some joinedMembers.1,some joinedMembers.2,some 0⟩]
  ecRelids := {1,2}
  ecHasConst := false
  ecMaxSecurity := 0

def leftJoin : SpecialJoinInfo := ⟨{2},{3},{1,2},{3},.left,true⟩

def threeRels : List SearchRel :=
  [⟨{1},∅,∅,∅,[],true⟩,⟨{2},∅,∅,∅,[outerClause],true⟩,⟨{3},∅,∅,∅,[outerClause],false⟩]

def leftJoinRoot : PlannerInfo where
  eqClasses := [joinedClass]
  joinInfoList := [leftJoin]
  placeholderList := []
  hasLateralRTEs := false
  simpleRelArray := none :: threeRels.map some
  initialRels := threeRels
  getOpfamilyMember := fun _ _ _ => some 0
  getFuncLeakproof := fun _ => true
  opHashjoinable := fun _ _ => true
  createUniquePath := fun _ _ => false
  addsPath := fun _ => true

/-- The same query with an inner join in place of the left join. -/
def innerRoot : PlannerInfo := {leftJoinRoot with joinInfoList := []}

def emptySearch : SearchState := ⟨⟨[],[],2⟩,[],fun _ => [],1,[],[]⟩

theorem threeRels_separate : Separate threeRels emptySearch.joinRelList :=
  ⟨⟨by decide,by decide⟩,by decide⟩

theorem leftJoin_ends :
    ∃ rel final, aqoJoinSearch leftJoinRoot threeRels.length threeRels emptySearch =
      .ok (rel,final) := by
  obtain ⟨⟨rel,final⟩,ran⟩ :=
    exists_of_isOk (aqoJoinSearch leftJoinRoot threeRels.length threeRels emptySearch) (by decide)
  exact ⟨rel,final,ran⟩

theorem aqoJoinSearch_layers_leftJoin :
    ∃ rel final, aqoJoinSearch leftJoinRoot threeRels.length threeRels emptySearch =
      .ok (rel,final) ∧ final.joinRelLevel 3 = [rel] ∧ rel.relids = {1,2,3} := by
  obtain ⟨rel,final,ran⟩ := leftJoin_ends
  obtain ⟨_,_,_,top,covers⟩ :=
    aqoJoinSearch_layers leftJoinRoot threeRels emptySearch final rel threeRels_separate ran
  exact ⟨rel,final,ran,top,covers.trans (by decide)⟩

end ExploratoryOptimizer.JoinSearch
