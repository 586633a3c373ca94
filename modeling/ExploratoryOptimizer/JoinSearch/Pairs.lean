import ExploratoryOptimizer.JoinSearch.Enumeration

/-! The pairs that the join search tries. If the query hangs together and nothing restricts the join
order, paths are asked for once for every ordered pair of linked connected unions. -/
namespace ExploratoryOptimizer.JoinSearch
open Library.Attempt Library.Blocks

section Distinct

/-- The pairs are different, in one order and in the other. -/
def distinctPairs (first second : SearchRel × SearchRel) : Prop :=
  ¬(first.1.relids = second.1.relids ∧ first.2.relids = second.2.relids) ∧
    ¬(first.1.relids = second.2.relids ∧ first.2.relids = second.1.relids)

variable {root : PlannerInfo}

theorem clausePairs_distinct (oldRel : SearchRel) (otherRels : List SearchRel)
    (different : (otherRels.map (·.relids)).Nodup)
    (away : ∀ rel ∈ otherRels, oldRel.relids ≠ rel.relids) :
    (clausePairs root oldRel otherRels).Pairwise distinctPairs := by
  unfold clausePairs
  rw [List.pairwise_map]
  refine (List.Pairwise.filter _ (List.pairwise_map.mp different)).imp_of_mem
    fun {first second} _ secondIn other => ?_
  exact ⟨fun same => other same.2,fun same => away second (List.mem_of_mem_filter secondIn) same.1⟩

/-- The pairs of all cells are different if the partners are those behind the cell, or other
relations. -/
theorem cellPairs_distinct (items others : List SearchRel) (same : Prop) [Decidable same]
    (different : (items.map (·.relids)).Nodup) (differentOthers : (others.map (·.relids)).Nodup)
    (away : ¬same → ∀ item ∈ items, ∀ other ∈ others, item.relids ≠ other.relids) :
    ((cells items).flatMap fun cell =>
        clausePairs root cell.1 (if same then cell.2 else others)).Pairwise
      distinctPairs := by
  have behind (cell : SearchRel × List SearchRel) (member : cell ∈ cells items) :
      (∀ rel ∈ cell.2, cell.1.relids ≠ rel.relids) ∧ (cell.2.map (·.relids)).Nodup := by
    have sub := different.sublist ((cells_sublist items cell member).map (·.relids))
    rw [List.map_cons,List.nodup_cons] at sub
    refine ⟨fun rel among equal => sub.1 ?_,sub.2⟩
    rw [equal]
    exact List.mem_map_of_mem among
  refine List.pairwise_flatMap.mpr ⟨fun cell member => ?_,?_⟩
  · by_cases sameList : same
    · rw [if_pos sameList]
      exact clausePairs_distinct cell.1 cell.2 (behind cell member).2 (behind cell member).1
    · rw [if_neg sameList]
      exact clausePairs_distinct cell.1 others differentOthers
        (away sameList _ (mem_cells _ _ _ member).1)
  · refine (cells_pairwise items).imp_of_mem fun {cell later} member laterIn ⟨after,inside⟩ => ?_
    intro first inFirst second inSecond
    obtain ⟨firstSame,_,_⟩ := (mem_clausePairs root _ _ _).mp inFirst
    obtain ⟨secondSame,partner,_⟩ := (mem_clausePairs root _ _ _).mp inSecond
    unfold distinctPairs
    rw [firstSame,secondSame]
    refine ⟨fun equal => (behind cell member).1 _ after equal.1,fun equal => ?_⟩
    by_cases sameList : same
    · rw [if_pos sameList] at partner
      exact (behind cell member).1 _ (inside _ partner) equal.1
    · rw [if_neg sameList] at partner
      exact away sameList _ (mem_cells _ _ _ member).1 _ partner equal.1

section Sizes

variable {blocks : List Relids} {joinrels : Nat → List SearchRel} {level : Nat}
  (sized : ∀ level, ∀ rel ∈ joinrels level, size blocks rel.relids = level)

include sized

theorem levels_apart (i j : Nat) (other : i ≠ j) :
    ∀ rel1 ∈ joinrels i, ∀ rel2 ∈ joinrels j, rel1.relids ≠ rel2.relids := by
  intro rel1 inI rel2 inJ equal
  have size1 := sized i rel1 inI
  rw [equal,sized j rel2 inJ] at size1
  exact other size1.symm

/-- Pairs are different if one of them has a relation of a level that the other has none of. -/
theorem distinct_of_sizes (first second : SearchRel × SearchRel) (level other i j i' j' : Nat)
    (one : SizedPair joinrels level first i j) (two : SizedPair joinrels other second i' j')
    (away : j ≠ i' ∧ j ≠ j') :
    distinctPairs first second :=
  ⟨fun equal => levels_apart sized j j' away.2 _ one.second _ two.second equal.2,
    fun equal => levels_apart sized j i' away.1 _ one.second _ two.first equal.2⟩

variable (enough : 2 ≤ level) (distinct : ∀ level, ((joinrels level).map (·.relids)).Nodup)
  (reasons : ∀ lower, 0 < lower → lower < level → ∀ rel ∈ joinrels lower, hasJoinReason root rel)

include distinct reasons

omit sized distinct in
theorem reasoned_cells (k : Nat) (pos : 0 < k) (less : k < level)
    (partners : SearchRel × List SearchRel → List SearchRel)
    (unmatched : SearchRel → List (SearchRel × SearchRel)) :
    ((cells (joinrels k)).flatMap fun cell =>
        if hasJoinReason root cell.1 then clausePairs root cell.1 (partners cell)
        else unmatched cell.1) =
      (cells (joinrels k)).flatMap fun cell => clausePairs root cell.1 (partners cell) := by
  refine List.flatMap_congr fun cell member => ?_
  rw [if_pos (reasons k pos less cell.1 (mem_cells _ cell.2 cell.1 member).1)]

theorem bushyPairs_distinct (k : Nat) (low : 2 ≤ k) (high : k ≤ level - k) :
    (bushyPairs root level joinrels k).Pairwise distinctPairs := by
  unfold bushyPairs
  rw [reasoned_cells reasons k (by omega) (by omega) (fun cell => if k = level - k then cell.2
      else joinrels (level - k))
    fun _ => []]
  exact cellPairs_distinct _ _ (k = level - k) (distinct k) (distinct _)
    (levels_apart sized k (level - k))

include enough

theorem initialPairs_distinct : (initialPairs root level joinrels).Pairwise distinctPairs := by
  unfold initialPairs
  rw [reasoned_cells reasons (level - 1) (by omega) (by omega) (fun cell => if level = 2 then cell.2
      else joinrels 1)
    fun rel => productPairs rel (joinrels 1)]
  exact cellPairs_distinct _ _ (level = 2) (distinct _) (distinct 1) fun more =>
    levels_apart sized _ _ (by omega)

/-- No pair of a level is tried twice. -/
theorem levelPairs_distinct : (levelPairs root level joinrels).Pairwise distinctPairs := by
  have increasing : (bushySizes level).Pairwise (· < ·) :=
    List.Pairwise.sublist (List.takeWhile_sublist _) List.pairwise_lt_range'
  refine List.pairwise_append.mpr ⟨initialPairs_distinct sized enough distinct reasons,
    List.pairwise_flatMap.mpr
    ⟨fun k member => ?_,increasing.imp_of_mem fun {k k'} member memberLater less => ?_⟩,?_⟩
  · obtain ⟨low,high⟩ := (mem_bushySizes level k).mp member
    exact bushyPairs_distinct sized distinct reasons k low high
  · intro first inFirst second inSecond
    have one := bushyPairs_sized root joinrels level k member first inFirst
    have two := bushyPairs_sized root joinrels level k' memberLater second inSecond
    obtain ⟨_,high⟩ := (mem_bushySizes level k').mp memberLater
    exact distinct_of_sizes sized first second level level _ _ _ _ one two (by omega)
  · intro first inFirst second inSecond
    obtain ⟨k,member,inside⟩ := List.mem_flatMap.mp inSecond
    have one := initialPairs_sized root joinrels level enough first inFirst
    have two := bushyPairs_sized root joinrels level k member second inside
    obtain ⟨low,high⟩ := (mem_bushySizes level k).mp member
    exact distinct_of_sizes sized first second level level _ _ _ _ one two (by omega)

end Sizes

end Distinct

section Recorded

def JoinCall.sides (call : JoinCall) : Relids × Relids := (call.outerrel,call.innerrel)

/-- Each pair is asked for in both orders. -/
def bothWays (pair : SearchRel × SearchRel) : List (Relids × Relids) :=
  [(pair.1.relids,pair.2.relids),(pair.2.relids,pair.1.relids)]

variable {root : PlannerInfo}

/-- As long as no relation is marked dummy, the calls of a pass are those of its pairs. -/
theorem tryPairs_calls (plain : Plain root) (pairs : List (SearchRel × SearchRel))
    (state final : SearchState) (oldCalls : List JoinCall)
    (earlier : oldCalls.length ≤ state.calls.length) (live : final.dummies = [])
    (ran : tryPairs root pairs state = .ok final) :
    (final.since oldCalls).map JoinCall.sides = (state.since oldCalls).map JoinCall.sides ++
      pairs.flatMap bothWays := by
  refine (foldlM_kept _ (fun done current => oldCalls.length ≤ current.calls.length ∧
        (current.dummies = [] →
    (current.since oldCalls).map JoinCall.sides = (state.since oldCalls).map JoinCall.sides ++
      done.flatMap bothWays))
    pairs ?_ state final ⟨earlier,by simp⟩ ran).2 live
  rintro done pair rest current next _ ⟨earlier,logged⟩ stepped
  obtain ⟨joined,outcome⟩ := makeJoinRel_plain_ok current pair.1 pair.2 plain next stepped
  obtain ⟨made,appended,_⟩ := joined.calls
  refine ⟨by rw [appended,List.length_append]; omega,fun stillLive => ?_⟩
  have before : current.dummies = [] := List.eq_nil_iff_forall_not_mem.mpr fun relids marked => by
    simpa [stillLive] using joined.dummiesKept relids marked
  cases outcome with
  | known dummy => simp [before] at dummy
  | marked _ _ dummies => simp [stillLive] at dummies
  | asked _ _ _ calls =>
    rw [since_append current next oldCalls _ earlier calls,List.map_append,logged before,
      List.flatMap_append,List.append_assoc]
    simp [innerCalls,JoinCall.sides,bothWays]

theorem levelPairs_congr (level : Nat) (enough : 2 ≤ level) (joinrels later : Nat → List SearchRel)
    (same : ∀ lower, 0 < lower → lower < level → joinrels lower = later lower) :
    levelPairs root level joinrels = levelPairs root level later := by
  unfold levelPairs initialPairs
  rw [same (level - 1) (by omega) (by omega),same 1 (by omega) (by omega)]
  congr 1
  refine List.flatMap_congr fun k member => ?_
  obtain ⟨low,high⟩ := (mem_bushySizes level k).mp member
  unfold bushyPairs
  rw [same k (by omega) (by omega),same (level - k) (by omega) (by omega)]

/-- The pairs of the levels from the second to the one before the given one. -/
def pairsBelow (root : PlannerInfo) (joinrels : Nat → List SearchRel) (level : Nat) : List
    (SearchRel × SearchRel) :=
  (List.range' 2 (level - 2)).flatMap fun lower => levelPairs root lower joinrels

theorem pairsBelow_succ (joinrels later : Nat → List SearchRel) (level : Nat) (enough : 2 ≤ level)
    (same : ∀ lower, lower ≠ level → later lower = joinrels lower) :
    pairsBelow root later (level + 1) = pairsBelow root joinrels level ++
      levelPairs root level joinrels := by
  have shape : level + 1 - 2 = (level - 2) + 1 := by omega
  unfold pairsBelow
  rw [shape,List.range'_concat,List.flatMap_append,List.flatMap_singleton]
  congr 1
  · refine List.flatMap_congr fun lower member => ?_
    have bounds := List.mem_range'_1.mp member
    exact levelPairs_congr lower (by omega) later joinrels fun lowest _ less =>
      same lowest (by omega)
  · rw [show 2 + 1 * (level - 2) = level by omega]
    exact levelPairs_congr level enough later joinrels fun lower _ less => same lower (by omega)

variable {clauses : List RestrictInfo} {initialRels old : List SearchRel} {oldCalls : List JoinCall}

/-- The calls so far are those of the pairs so far, each in both orders. -/
def logged (root : PlannerInfo) (oldCalls : List JoinCall) (level : Nat)
    (state : SearchState) : Prop :=
  state.dummies = [] →
    (state.since oldCalls).map JoinCall.sides =
    (pairsBelow root state.joinRelLevel level).flatMap bothWays

theorem joinSearchOneLevel_logged (unrestricted : Unrestricted root)
    (separate : Separate initialRels old) {level : Nat} (enough : 2 ≤ level)
    (few : level ≤ initialRels.length) {state : SearchState}
    (enumerated : Enumerated root clauses initialRels old oldCalls level state)
    (query : Connected (blocksOf initialRels) (near root clauses)
      ((blocksOf initialRels).toFinset.biUnion id))
    (log : logged root oldCalls level state) (final : SearchState)
    (ran : joinSearchOneLevel root state level = .ok final) :
    logged root oldCalls (level + 1) final := by
  intro live
  have pass := joinSearchOneLevel_pass unrestricted separate enough few enumerated query final ran
  have within := (tryPairs_kept separate (fun _ => True) (fun _ _ _ _ _ _ _ _ _ _ _ _ => trivial) _
    (levelPairs_sized root state.joinRelLevel level enough) _ final
    (enumerated.layered.begin level) trivial pass).1
  have before : state.dummies = [] := by
    have kept : ∀ relids ∈ state.dummies, relids ∈ final.dummies := by
      refine foldlM_invariant _ (fun current => ∀ relids ∈ state.dummies,
          relids ∈ current.dummies) _ ?_ _ final
        (fun _ marked => marked) pass
      intro pair _ current next marked stepped relids inside
      have joined :=
        (makeJoinRel_plain_ok current pair.1 pair.2 unrestricted.toPlain next stepped).1
      exact joined.dummiesKept relids (marked relids inside)
    exact List.eq_nil_iff_forall_not_mem.mpr fun relids marked => by
      simpa [live] using kept relids marked
  rw [tryPairs_calls unrestricted.toPlain _ {state with joinCurLevel := level} final oldCalls
    enumerated.layered.earlier live pass,pairsBelow_succ state.joinRelLevel final.joinRelLevel level
    enough within.others,List.flatMap_append]
  congr 1
  exact log before

end Recorded

section AllPairs

variable {root : PlannerInfo} {clauses : List RestrictInfo} {initialRels old : List SearchRel}
  {oldCalls : List JoinCall} {state : SearchState} (separate : Separate initialRels old)
  (layered : Layered initialRels old oldCalls state) (clausal : allClausal root clauses state)
  (query : Connected (blocksOf initialRels) (near root clauses)
    ((blocksOf initialRels).toFinset.biUnion id))

include separate layered clausal query

theorem pairsBelow_distinct :
    (pairsBelow root state.joinRelLevel (initialRels.length + 1)).Pairwise distinctPairs := by
  have sized :
    ∀ level, ∀ rel ∈ state.joinRelLevel level, size (blocksOf initialRels) rel.relids = level :=
    fun level rel member => (layered.sized level rel member).2
  refine List.pairwise_flatMap.mpr ⟨fun level member => ?_,?_⟩
  · have bounds := List.mem_range'_1.mp member
    refine levelPairs_distinct sized (by omega) layered.distinct fun lower pos less => ?_
    exact level_hasJoinReason separate layered clausal query lower pos (by omega)
  · refine List.Pairwise.imp_of_mem
      (fun {level other} inRange inRangeLater less first inFirst second inSecond => ?_)
      List.pairwise_lt_range'
    have bounds := List.mem_range'_1.mp inRange
    obtain ⟨i,j,one⟩ := levelPairs_sized root state.joinRelLevel level (by omega) first inFirst
    obtain ⟨i',j',two⟩ := levelPairs_sized root state.joinRelLevel other (by omega) second inSecond
    have sum := one.sum
    have otherSum := two.sum
    -- equal pairs would have equal sizes, and their levels are the sums of the sizes
    have sizes := And.intro (sized i _ one.first) (sized j _ one.second)
    refine ⟨fun equal => ?_,fun equal => ?_⟩
    · rw [equal.1,equal.2,sized i' _ two.first,sized j' _ two.second] at sizes
      omega
    · rw [equal.1,equal.2,sized i' _ two.first,sized j' _ two.second] at sizes
      omega

theorem mem_pairsBelow (unrestricted : Unrestricted root)
    (connected : allConnected root clauses initialRels state) (pair : SearchRel × SearchRel)
    (member : pair ∈ pairsBelow root state.joinRelLevel (initialRels.length + 1)) :
    pair.1.relids ≠ pair.2.relids ∧ Disjoint pair.1.relids pair.2.relids ∧
      linked (near root clauses) pair.1.relids pair.2.relids ∧
      Connected (blocksOf initialRels) (near root clauses) pair.1.relids ∧
      Connected (blocksOf initialRels) (near root clauses) pair.2.relids := by
  obtain ⟨level,inRange,inside⟩ := List.mem_flatMap.mp member
  have bounds := List.mem_range'_1.mp inRange
  obtain ⟨i,j,sized⟩ := levelPairs_sized root state.joinRelLevel level (by omega) pair inside
  have first := (connected i _ sized.first).1
  refine ⟨fun equal => ?_,sized.disjoint,levelPairs_linked unrestricted separate (by omega)
    (by omega) layered clausal connected query pair inside,first,(connected j _ sized.second).1⟩
  have empty := sized.disjoint
  rw [← equal,Finset.disjoint_self_iff_empty] at empty
  exact Finset.nonempty_iff_ne_empty.mp first.nonempty empty

omit layered query in
theorem pairsBelow_reach (complete : ∀ relids, Connected (blocksOf initialRels)
      (near root clauses) relids →
      relids ∈ (state.joinRelLevel (size (blocksOf initialRels) relids)).map (·.relids))
    (outer inner : Relids) (connectedOuter : Connected (blocksOf initialRels)
      (near root clauses) outer)
    (connectedInner : Connected (blocksOf initialRels) (near root clauses) inner)
    (apart : Disjoint outer inner) (link : linked (near root clauses) outer inner) :
    (outer,inner) ∈ (pairsBelow root state.joinRelLevel (initialRels.length + 1)).flatMap
      bothWays := by
  obtain ⟨rel1,inOuter,rfl⟩ := List.mem_map.mp (complete outer connectedOuter)
  obtain ⟨rel2,inInner,rfl⟩ := List.mem_map.mp (complete inner connectedInner)
  have eligible :=
    eligible_of_linked (clausal _ rel1 inOuter)
      (clausal _ rel2 inInner) connectedOuter.nonempty apart link
  have outerPos := size_pos _ _ connectedOuter.wholeSet connectedOuter.nonempty
  have innerPos := size_pos _ _ connectedInner.wholeSet connectedInner.nonempty
  have total := size_union separate.apart _ _ connectedOuter.wholeSet connectedInner.wholeSet apart
  have bound := size_le (blocksOf initialRels) (rel1.relids ∪ rel2.relids)
  rw [total,show (blocksOf initialRels).length = initialRels.length from List.length_map _] at bound
  have inRange : size (blocksOf initialRels) rel1.relids + size (blocksOf initialRels) rel2.relids ∈
      List.range' 2 (initialRels.length + 1 - 2) := List.mem_range'_1.mpr (by omega)
  rcases mem_levelPairs state.joinRelLevel _ eligible _ _ outerPos innerPos rfl inOuter
    inInner with straight | turned
  · exact List.mem_flatMap.mpr ⟨(rel1,rel2),List.mem_flatMap.mpr ⟨_,inRange,straight⟩,
      by simp [bothWays]⟩
  · exact List.mem_flatMap.mpr ⟨(rel2,rel1),List.mem_flatMap.mpr ⟨_,inRange,turned⟩,
      by simp [bothWays]⟩

end AllPairs

/-- For a connected query without join-order restrictions in which no relation turns out to be
empty, paths are asked for exactly once for each ordered pair of disjoint connected unions of
initial relations that a clause or class links, and for no other pair. -/
theorem aqoJoinSearch_pairs_once (root : PlannerInfo) (clauses : List RestrictInfo)
    (initialRels : List SearchRel) (state final : SearchState) (rel : SearchRel)
    (unrestricted : Unrestricted root) (separate : Separate initialRels state.joinRelList)
    (clausal : ∀ rel ∈ initialRels, Clausal root clauses rel)
    (direct : ∀ rel ∈ initialRels, rel.directLateralRelids = ∅)
    (query : Connected (blocksOf initialRels) (near root clauses)
      ((blocksOf initialRels).toFinset.biUnion id))
    (ran : aqoJoinSearch root initialRels.length initialRels state = .ok (rel,final))
    (live : final.dummies = []) :
    ((final.since state.calls).map JoinCall.sides).Nodup ∧
      ∀ outer inner, (outer,inner) ∈ (final.since state.calls).map JoinCall.sides ↔
        Connected (blocksOf initialRels) (near root clauses) outer ∧
          Connected (blocksOf initialRels) (near root clauses) inner ∧ Disjoint outer inner ∧
          linked (near root clauses) outer inner := by
  obtain ⟨searched,_,_⟩ := aqoJoinSearch_cases initialRels.length state final rel ran
  have begun : logged root state.calls 2 (startSearch state initialRels) := by
    have none : (startSearch state initialRels).since state.calls = [] := List.drop_length
    simp [logged,none,pairsBelow]
  obtain ⟨enumerated,connected,log⟩ :=
    foldlM_counted (joinSearchOneLevel root) (fun level current =>
    Enumerated root clauses initialRels state.joinRelList state.calls level current ∧
      allConnected root clauses initialRels current ∧ logged root state.calls level current) 2
      (initialRels.length - 1)
    (fun level current next low high ⟨enumerated,connected,log⟩ stepped =>
      ⟨joinSearchOneLevel_enumerates unrestricted.toPlain separate low enumerated next stepped,
        joinSearchOneLevel_connected unrestricted separate low (by omega) connected enumerated
        query next stepped,joinSearchOneLevel_logged unrestricted separate low
        (by omega) enumerated query log next stepped⟩)
    _ final ⟨startSearch_enumerated separate clausal,startSearch_connected separate direct,begun⟩
      searched
  have inhabited : 0 < initialRels.length := by
    obtain ⟨x,inside⟩ := query.nonempty
    obtain ⟨block,among,_⟩ := Finset.mem_biUnion.mp inside
    have some := List.length_pos_of_mem (List.mem_toFinset.mp among)
    rwa [blocksOf,List.length_map] at some
  have calls := log live
  rw [show 2 + (initialRels.length - 1) = initialRels.length + 1 by omega] at calls enumerated
  have facts :=
    mem_pairsBelow separate enumerated.layered enumerated.clausal query unrestricted connected
  rw [calls]
  refine ⟨List.nodup_flatMap.mpr ⟨fun pair member => ?_,?_⟩,fun outer inner =>
    ⟨fun member => ?_,?_⟩⟩
  · have different := (facts pair member).1
    simp [bothWays,different]
  · refine (pairsBelow_distinct separate enumerated.layered enumerated.clausal query).imp
      fun {first second} other => ?_
    simp only [Function.onFun,bothWays,List.disjoint_cons_left,List.mem_cons,Prod.mk.injEq,
      List.not_mem_nil,or_false,List.disjoint_nil_left,and_true,not_or]
    obtain ⟨straight,turned⟩ := other
    exact ⟨⟨straight,turned⟩,fun equal => turned ⟨equal.2,equal.1⟩,fun equal =>
      straight ⟨equal.2,equal.1⟩⟩
  · obtain ⟨pair,below,sides⟩ := List.mem_flatMap.mp member
    obtain ⟨_,apart,link,first,second⟩ := facts pair below
    simp only [bothWays,List.mem_cons,Prod.mk.injEq,List.not_mem_nil,or_false] at sides
    rcases sides with ⟨rfl,rfl⟩ | ⟨rfl,rfl⟩
    · exact ⟨first,second,apart,link⟩
    · exact ⟨second,first,apart.symm,linked_symm _ (near_symm root clauses) _ _ link⟩
  · rintro ⟨first,second,apart,link⟩
    refine pairsBelow_reach separate enumerated.clausal (fun relids connected => ?_)
      outer inner first second apart link
    refine enumerated.complete relids connected ?_
    have bound := size_le (blocksOf initialRels) relids
    rw [show (blocksOf initialRels).length = initialRels.length from List.length_map _] at bound
    omega

theorem aqoJoinSearch_pairs_once_inner :
    ∃ rel final, aqoJoinSearch innerRoot threeRels.length threeRels emptySearch = .ok (rel,final) ∧
      ((final.since emptySearch.calls).map JoinCall.sides).Nodup := by
  obtain ⟨rel,final,ran,live⟩ := innerRoot_ends
  exact ⟨rel,final,ran,(aqoJoinSearch_pairs_once innerRoot [outerClause] threeRels emptySearch final
      rel ⟨⟨rfl,rfl⟩,rfl⟩
    threeRels_separate threeRels_innerClausal (by decide) threeRels_connected ran live).1⟩

end ExploratoryOptimizer.JoinSearch
