import ExploratoryOptimizer.JoinSearch.Clauses
import ExploratoryOptimizer.JoinSearch.Plain
import ExploratoryOptimizer.Library.Connected

/-! The relations that the join search builds. Two relations are linked if a clause or an
equivalence class touches both. Without join-order restrictions, and if the query hangs together,
the relations of a level are the connected unions of that many initial relations. -/
namespace ExploratoryOptimizer.JoinSearch
open Library.Attempt Library.Blocks

/-- A clause, or a class of several members, touches both. -/
def near (root : PlannerInfo) (clauses : List RestrictInfo) (x y : Nat) : Prop :=
  (∃ rinfo ∈ clauses, x ∈ rinfo.requiredRelids ∧ y ∈ rinfo.requiredRelids) ∨
    ∃ ec ∈ root.eqClasses, 1 < ec.ecMembers.length ∧ x ∈ ec.ecRelids ∧ y ∈ ec.ecRelids

theorem near_symm (root : PlannerInfo) (clauses : List RestrictInfo) (x y : Nat)
    (close : near root clauses x y) :
    near root clauses y x := by
  rcases close with ⟨rinfo,listed,inX,inY⟩ | ⟨ec,member,several,inX,inY⟩
  · exact .inl ⟨rinfo,listed,inY,inX⟩
  · exact .inr ⟨ec,member,several,inY,inX⟩

section Linked

variable {root : PlannerInfo} {clauses : List RestrictInfo} {rel1 rel2 : SearchRel}
  (first : Clausal root clauses rel1) (separate : Disjoint rel1.relids rel2.relids)

include first separate

theorem haveRelevantJoinclause_linked (second : Clausal root clauses rel2) :
    haveRelevantJoinclause root rel1 rel2 ↔ linked (near root clauses) rel1.relids rel2.relids := by
  rw [haveRelevantJoinclause_iff first second separate]
  constructor
  · rintro (⟨rinfo,listed,meetsFirst,meetsSecond⟩ | ⟨ec,member,several,meetsFirst,meetsSecond⟩)
    · obtain ⟨x,inX,x1⟩ := (overlap_iff _ _).mp meetsFirst
      obtain ⟨y,inY,y2⟩ := (overlap_iff _ _).mp meetsSecond
      exact ⟨x,x1,y,y2,.inl ⟨rinfo,listed,inX,inY⟩⟩
    · obtain ⟨x,x1,inX⟩ := (overlap_iff _ _).mp meetsFirst
      obtain ⟨y,y2,inY⟩ := (overlap_iff _ _).mp meetsSecond
      exact ⟨x,x1,y,y2,.inr ⟨ec,member,several,inX,inY⟩⟩
  · rintro ⟨x,x1,y,y2,⟨rinfo,listed,inX,inY⟩ | ⟨ec,member,several,inX,inY⟩⟩
    · exact .inl ⟨rinfo,listed,(overlap_iff _ _).mpr ⟨x,inX,x1⟩,(overlap_iff _ _).mpr ⟨y,inY,y2⟩⟩
    · exact .inr ⟨ec,member,several,(overlap_iff _ _).mpr ⟨x,x1,inX⟩,
        (overlap_iff _ _).mpr ⟨y,y2,inY⟩⟩

omit separate in
/-- A relation that is linked to others has a reason to be joined. -/
theorem hasJoinReason_of_linked (others : Finset Nat) (away : Disjoint rel1.relids others)
    (link : linked (near root clauses) rel1.relids others) : hasJoinReason root rel1 := by
  obtain ⟨x,x1,y,outside,⟨rinfo,listed,inX,inY⟩ | ⟨ec,member,several,inX,inY⟩⟩ := link
  · refine .inl (List.ne_nil_of_mem
        ((first.joininfo rinfo).mpr ⟨listed,(overlap_iff _ _).mpr ⟨x,inX,x1⟩,?_⟩))
    exact fun inside => Finset.disjoint_right.mp away outside (inside inY)
  · refine .inr (.inl (first.eclass.mpr ⟨ec,member,several,(overlap_iff _ _).mpr ⟨x,x1,inX⟩,?_⟩))
    exact fun inside => Finset.disjoint_right.mp away outside (inside inY)

end Linked

/-- The two relations are tried as a pair whichever of them comes first. -/
structure Eligible (root : PlannerInfo) (rel1 rel2 : SearchRel) : Prop where
  different : rel1 ≠ rel2
  wanted : joinWanted root rel1 rel2
  turned : joinWanted root rel2 rel1
  reason : hasJoinReason root rel1
  otherReason : hasJoinReason root rel2

theorem Eligible.symm {root : PlannerInfo} {rel1 rel2 : SearchRel}
    (eligible : Eligible root rel1 rel2) :
    Eligible root rel2 rel1 :=
  ⟨eligible.different.symm,eligible.turned,eligible.wanted,eligible.otherReason,eligible.reason⟩

theorem eligible_of_linked {root : PlannerInfo} {clauses : List RestrictInfo}
    {rel1 rel2 : SearchRel} (first : Clausal root clauses rel1) (second : Clausal root clauses rel2)
    (inhabited : rel1.relids.Nonempty) (separate : Disjoint rel1.relids rel2.relids)
    (link : linked (near root clauses) rel1.relids rel2.relids) :
    Eligible root rel1 rel2 := by
  have back := linked_symm _ (near_symm root clauses) _ _ link
  refine ⟨?_,⟨not_not.mpr separate,.inl ?_⟩,⟨not_not.mpr separate.symm,.inl ?_⟩,?_,?_⟩
  · rintro rfl
    exact Finset.nonempty_iff_ne_empty.mp inhabited
      (Finset.disjoint_self_iff_empty _ |>.mp separate)
  · exact (haveRelevantJoinclause_linked first separate second).mpr link
  · exact (haveRelevantJoinclause_linked second separate.symm first).mpr back
  · exact hasJoinReason_of_linked first _ separate link
  · exact hasJoinReason_of_linked second _ separate.symm back

section Cells

theorem cells_fst {α : Type} (items : List α) : (cells items).map (·.1) = items := by
  induction items with
  | nil => rfl
  | cons item rest ih => rw [cells,List.map_cons,ih]

theorem exists_cell {α : Type} (items : List α) (item : α) (member : item ∈ items) :
    ∃ rest, (item,rest) ∈ cells items := by
  rw [← cells_fst items] at member
  obtain ⟨⟨_,rest⟩,among,rfl⟩ := List.mem_map.mp member
  exact ⟨rest,among⟩

/-- Of two different items one stands behind the other. -/
theorem cells_either {α : Type} (items : List α) (first second : α) (firstIn : first ∈ items)
    (secondIn : second ∈ items) (different : first ≠ second) :
    (∃ rest, (first,rest) ∈ cells items ∧ second ∈ rest) ∨ ∃ rest, (second,rest) ∈ cells items ∧
      first ∈ rest := by
  induction items with
  | nil => cases firstIn
  | cons head tail ih =>
    rcases List.mem_cons.mp firstIn with rfl | firstLater
    · exact .inl ⟨tail,List.mem_cons_self ..,(List.mem_cons.mp secondIn).resolve_left
        (Ne.symm different)⟩
    · rcases List.mem_cons.mp secondIn with rfl | secondLater
      · exact .inr ⟨tail,List.mem_cons_self ..,firstLater⟩
      · rcases ih firstLater secondLater with ⟨rest,among,behind⟩ | ⟨rest,among,behind⟩
        · exact .inl ⟨rest,List.mem_cons_of_mem _ among,behind⟩
        · exact .inr ⟨rest,List.mem_cons_of_mem _ among,behind⟩

/-- The cells of a list with those that come later. -/
theorem cells_pairwise {α : Type} (items : List α) :
    (cells items).Pairwise fun cell later => later.1 ∈ cell.2 ∧ ∀ item ∈ later.2,
      item ∈ cell.2 := by
  induction items with
  | nil => exact .nil
  | cons head tail ih => exact .cons (fun later member => mem_cells tail later.2 later.1 member) ih

theorem cells_sublist {α : Type} (items : List α) :
    ∀ cell ∈ cells items, (cell.1 :: cell.2).Sublist items := by
  induction items with
  | nil => exact fun _ member => by cases member
  | cons head tail ih =>
    intro cell member
    rcases List.mem_cons.mp member with rfl | later
    · exact List.Sublist.refl _
    · exact (ih cell later).cons head

end Cells

section PairsTried

variable {root : PlannerInfo} {rel1 rel2 : SearchRel}

/-- An eligible pair is tried in one order or the other, whether the partners of a cell are those
behind it or another list. -/
theorem cellPairs_either (eligible : Eligible root rel1 rel2)
    (items others : List SearchRel) (same : Prop) [Decidable same] (equal : same → others = items)
    (unmatched : SearchRel → List (SearchRel × SearchRel)) (firstIn : rel1 ∈ items)
    (secondIn : rel2 ∈ others) :
    let pairs := (cells items).flatMap fun cell =>
      if hasJoinReason root cell.1 then clausePairs root cell.1 (if same then cell.2 else others)
      else unmatched cell.1
    (rel1,rel2) ∈ pairs ∨ (rel2,rel1) ∈ pairs := by
  intro pairs
  by_cases sameList : same
  · rw [equal sameList] at secondIn
    rcases cells_either items rel1 rel2 firstIn secondIn eligible.different with ⟨rest,among,
      behind⟩ | ⟨rest,among,behind⟩
    · refine .inl (List.mem_flatMap.mpr ⟨_,among,?_⟩)
      rw [if_pos eligible.reason,if_pos sameList]
      exact (mem_clausePairs root rel1 rest _).mpr ⟨rfl,behind,eligible.wanted⟩
    · refine .inr (List.mem_flatMap.mpr ⟨_,among,?_⟩)
      rw [if_pos eligible.otherReason,if_pos sameList]
      exact (mem_clausePairs root rel2 rest _).mpr ⟨rfl,behind,eligible.turned⟩
  · obtain ⟨rest,among⟩ := exists_cell items rel1 firstIn
    refine .inl (List.mem_flatMap.mpr ⟨_,among,?_⟩)
    rw [if_pos eligible.reason,if_neg sameList]
    exact (mem_clausePairs root rel1 others _).mpr ⟨rfl,secondIn,eligible.wanted⟩

variable (joinrels : Nat → List SearchRel) (level : Nat)

theorem mem_initialPairs (eligible : Eligible root rel1 rel2)
    (firstIn : rel1 ∈ joinrels (level - 1)) (secondIn : rel2 ∈ joinrels 1) :
    (rel1,rel2) ∈ levelPairs root level joinrels ∨ (rel2,rel1) ∈ levelPairs root level joinrels :=
  (cellPairs_either eligible (joinrels (level - 1)) (joinrels 1) (level = 2)
      (fun two => by rw [two])
    (fun rel => productPairs rel (joinrels 1)) firstIn secondIn).imp (List.mem_append_left _)
      (List.mem_append_left _)

theorem mem_bushyPairs (eligible : Eligible root rel1 rel2) (k : Nat) (low : 2 ≤ k)
    (high : k ≤ level - k) (firstIn : rel1 ∈ joinrels k) (secondIn : rel2 ∈ joinrels (level - k)) :
    (rel1,rel2) ∈ levelPairs root level joinrels ∨
      (rel2,rel1) ∈ levelPairs root level joinrels := by
  have inside (pair : SearchRel × SearchRel) (member : pair ∈ bushyPairs root level joinrels k) :
      pair ∈ levelPairs root level joinrels :=
    List.mem_append_right _ (List.mem_flatMap.mpr
        ⟨k,(mem_bushySizes level k).mpr ⟨low,high⟩,member⟩)
  exact (cellPairs_either eligible (joinrels k) (joinrels (level - k)) (k = level - k)
      (fun half => by rw [← half])
    (fun _ => []) firstIn secondIn).imp (inside _) (inside _)

/-- Two relations of levels that add up to the level at hand are tried, if they are eligible. -/
theorem mem_levelPairs (eligible : Eligible root rel1 rel2) (i j : Nat) (firstPos : 0 < i)
    (secondPos : 0 < j) (sum : i + j = level) (firstIn : rel1 ∈ joinrels i)
    (secondIn : rel2 ∈ joinrels j) :
    (rel1,rel2) ∈ levelPairs root level joinrels ∨
      (rel2,rel1) ∈ levelPairs root level joinrels := by
  subst sum
  rcases Nat.lt_or_ge 1 j with secondMore | secondOne
  · rcases Nat.lt_or_ge 1 i with firstMore | firstOne
    · -- the smaller relation of a bushy pair comes first
      rcases Nat.le_total i j with small | large
      · apply mem_bushyPairs joinrels _ eligible i firstMore (by omega) firstIn
        rwa [Nat.add_sub_cancel_left]
      · apply (mem_bushyPairs joinrels _ eligible.symm j secondMore (by omega) secondIn ?_).symm
        rwa [Nat.add_sub_cancel]
    · obtain rfl : i = 1 := by omega
      apply (mem_initialPairs joinrels _ eligible.symm ?_ firstIn).symm
      rwa [Nat.add_sub_cancel_left]
  · obtain rfl : j = 1 := by omega
    exact mem_initialPairs joinrels _ eligible firstIn secondIn

end PairsTried

section Complete

variable {root : PlannerInfo} {clauses : List RestrictInfo} {initialRels old : List SearchRel}
  {oldCalls : List JoinCall}

/-- Every connected union of fewer initial relations than the level says is there. -/
structure Enumerated (root : PlannerInfo) (clauses : List RestrictInfo)
    (initialRels old : List SearchRel) (oldCalls : List JoinCall) (level : Nat)
    (state : SearchState) : Prop where
  layered : Layered initialRels old oldCalls state
  clausal : allClausal root clauses state
  complete : ∀ relids, Connected (blocksOf initialRels) (near root clauses) relids →
    size (blocksOf initialRels) relids < level →
      relids ∈ (state.joinRelLevel (size (blocksOf initialRels) relids)).map (·.relids)

theorem clausal_kept : keptByJoins root initialRels old oldCalls (allClausal root clauses) := by
  intro state next rel1 rel2 i j matched _ sized _ clausal made
  exact joined_clausal _ sized clausal (makeLegalJoinRel_joined root state next rel1 rel2 _ made)

variable (plain : Plain root) (separate : Separate initialRels old) {level : Nat}
  (enough : 2 ≤ level) {state : SearchState}
  (enumerated : Enumerated root clauses initialRels old oldCalls level state)

include plain separate enough enumerated

/-- The pass over the pairs of the level builds the connected unions of the level. -/
theorem levelPairs_reach (next : SearchState)
    (ran : tryPairs root (levelPairs root level state.joinRelLevel)
      {state with joinCurLevel := level} = .ok next)
    (relids : Relids) (connected : Connected (blocksOf initialRels) (near root clauses) relids)
    (sized : size (blocksOf initialRels) relids = level) : relids ∈ (next.joinRelLevel level).map
    (·.relids) := by
  obtain ⟨part,block,among,connectedPart,apart,rfl,link⟩ :=
    connected_split separate.apart _ (near_symm root clauses) relids connected (by omega)
  obtain ⟨initial,isInitial,rfl⟩ := List.mem_map.mp among
  have total :=
    size_union separate.apart part initial.relids connectedPart.wholeSet
      (whole_block _ _ among) apart
  rw [size_block separate.apart _ among,sized] at total
  have below := enumerated.complete part connectedPart (by omega)
  rw [show size (blocksOf initialRels) part = level - 1 by omega] at below
  obtain ⟨rel,inLevel,rfl⟩ := List.mem_map.mp below
  rw [← enumerated.layered.first] at isInitial
  have eligible :=
    eligible_of_linked (enumerated.clausal _ rel inLevel) (enumerated.clausal 1 initial isInitial)
      connectedPart.nonempty apart link
  have reached :=
    tryPairs_reached plain separate _ (levelPairs_sized root state.joinRelLevel level enough) _
      (enumerated.layered.begin level) next ran
  rcases mem_levelPairs state.joinRelLevel level eligible (level - 1) 1 (by omega) (by omega)
    (by omega) inLevel
      isInitial with straight | turned
  · exact reached _ straight
  · rw [Finset.union_comm]
    exact reached _ turned

theorem joinSearchOneLevel_enumerates (final : SearchState)
    (ran : joinSearchOneLevel root state level = .ok final) :
    Enumerated root clauses initialRels old oldCalls (level + 1) final := by
  obtain ⟨within,clausal⟩ := joinSearchOneLevel_kept separate (allClausal root clauses) clausal_kept
    state final enumerated.layered level enumerated.clausal enough ran
  refine ⟨within.layered,clausal,fun relids connected smaller => ?_⟩
  by_cases here : size (blocksOf initialRels) relids = level
  · obtain ⟨next,first,⟨_,rfl⟩ | ⟨empty,_⟩⟩ := joinSearchOneLevel_cases state final level ran
    · rw [here]
      exact levelPairs_reach plain separate enough enumerated final first relids connected here
    · have reached :=
        levelPairs_reach plain separate enough enumerated next first relids connected here
      simp [empty] at reached
  · rw [within.others _ here]
    exact enumerated.complete relids connected (by omega)

end Complete

/-- No special joins, lateral references or placeholders. -/
structure Unrestricted (root : PlannerInfo) : Prop extends Plain root where
  placeholders : root.placeholderList = []

section Sound

variable {root : PlannerInfo} {clauses : List RestrictInfo} {initialRels old : List SearchRel}
  {oldCalls : List JoinCall}

def allConnected (root : PlannerInfo) (clauses : List RestrictInfo) (initialRels : List SearchRel)
    (state : SearchState) : Prop :=
  ∀ level, ∀ rel ∈ state.joinRelLevel level,
    Connected (blocksOf initialRels) (near root clauses) rel.relids ∧ rel.directLateralRelids = ∅

theorem levelPairs_wanted (joinrels : Nat → List SearchRel) (level : Nat)
    (reasons : ∀ rel ∈ joinrels (level - 1), hasJoinReason root rel) (pair : SearchRel × SearchRel)
    (member : pair ∈ levelPairs root level joinrels) : joinWanted root pair.1 pair.2 := by
  have wanted (oldRel : SearchRel) (otherRels : List SearchRel)
    (inside : pair ∈ clausePairs root oldRel otherRels) :
      joinWanted root pair.1 pair.2 := by
    obtain ⟨rfl,_,wanted⟩ := (mem_clausePairs root oldRel otherRels pair).mp inside
    exact wanted
  rcases List.mem_append.mp member with initial | bushy
  · obtain ⟨cell,among,inside⟩ := List.mem_flatMap.mp initial
    rw [if_pos (reasons cell.1 (mem_cells _ cell.2 cell.1 among).1)] at inside
    exact wanted _ _ inside
  · obtain ⟨k,_,inside⟩ := List.mem_flatMap.mp bushy
    obtain ⟨cell,among,inside⟩ := List.mem_flatMap.mp inside
    split at inside
    · exact wanted _ _ inside
    · cases inside

variable (unrestricted : Unrestricted root)

include unrestricted

theorem joinWanted_linked {rel1 rel2 : SearchRel} (first : Clausal root clauses rel1)
    (second : Clausal root clauses rel2) (direct1 : rel1.directLateralRelids = ∅)
    (direct2 : rel2.directLateralRelids = ∅) (wanted : joinWanted root rel1 rel2) :
    linked (near root clauses) rel1.relids rel2.relids := by
  obtain ⟨apart,clause | restriction⟩ := wanted
  · exact (haveRelevantJoinclause_linked first (not_not.mp apart) second).mp clause
  · have free : ¬haveJoinOrderRestriction root rel1 rel2 := by
      simp [haveJoinOrderRestriction,overlap,direct1,direct2,unrestricted.placeholders,
        unrestricted.special]
    exact absurd restriction free

theorem newJoinRel_direct (joinrelids : Relids) (rel1 rel2 : SearchRel)
    (direct1 : rel1.directLateralRelids = ∅) (direct2 : rel2.directLateralRelids = ∅) :
    (newJoinRel root joinrelids rel1 rel2).directLateralRelids = ∅ := by
  simp [newJoinRel,placeholderLaterals,unrestricted.placeholders,direct1,direct2]

variable (separate : Separate initialRels old)

include separate

theorem tryPairs_connected (joinrels : Nat → List SearchRel) (level : Nat)
    (pairs : List (SearchRel × SearchRel))
    (sized : ∀ pair ∈ pairs, ∃ i j, SizedPair joinrels level pair i j)
    (links : ∀ pair ∈ pairs, linked (near root clauses) pair.1.relids pair.2.relids)
    (state final : SearchState) (within : Within initialRels old oldCalls joinrels level state)
    (connected : allConnected root clauses initialRels state)
    (ran : tryPairs root pairs state = .ok final) :
    allConnected root clauses initialRels final := by
  refine (foldlM_invariant _ (fun state => Within initialRels old oldCalls joinrels level state ∧
    allConnected root clauses initialRels state) pairs ?_ state final ⟨within,connected⟩ ran).2
  rintro pair member state next ⟨within,connected⟩ stepped
  obtain ⟨i,j,sizedPair⟩ := sized pair member
  refine ⟨makeJoinRel_within separate state next within pair i j sizedPair stepped,
    fun level rel inLevel => ?_⟩
  have joined := (makeJoinRel_plain_ok state pair.1 pair.2 unrestricted.toPlain next stepped).1
  have here := within.sizedPair pair i j sizedPair
  rcases joined_mem_level root pair.1 pair.2 _ joined level rel inLevel with before | ⟨_,rfl⟩
  · exact connected level rel before
  · obtain ⟨first,direct1⟩ := connected i pair.1 here.first
    obtain ⟨second,direct2⟩ := connected j pair.2 here.second
    exact ⟨connected_union separate.apart _ (near_symm root clauses) _ _ first second
      (links pair member),newJoinRel_direct unrestricted _ _ _ direct1 direct2⟩

variable {level : Nat} (enough : 2 ≤ level) (few : level ≤ initialRels.length) {state : SearchState}
  (layered : Layered initialRels old oldCalls state) (clausal : allClausal root clauses state)
  (connected : allConnected root clauses initialRels state)
  (enumerated : Enumerated root clauses initialRels old oldCalls level state)
  (query : Connected (blocksOf initialRels) (near root clauses)
    ((blocksOf initialRels).toFinset.biUnion id))

include query

section Linked

include layered clausal

omit unrestricted in
/-- A relation that does not cover the query is linked to the rest of it. -/
theorem level_hasJoinReason (lower : Nat) (pos : 0 < lower) (less : lower < initialRels.length)
    (rel : SearchRel) (inLevel : rel ∈ state.joinRelLevel lower) : hasJoinReason root rel := by
  obtain ⟨wholeRel,sizeRel⟩ := layered.sized lower rel inLevel
  have proper : rel.relids ⊂ (blocksOf initialRels).toFinset.biUnion id := by
    refine Finset.ssubset_iff_subset_ne.mpr ⟨whole_subset _ _ wholeRel,fun same => ?_⟩
    rw [same,size_all,blocksOf,List.length_map] at sizeRel
    omega
  refine hasJoinReason_of_linked (clausal lower rel inLevel) _ Finset.disjoint_sdiff
    (query.uncut rel.relids wholeRel ?_ proper)
  exact layered_nonempty separate layered lower pos rel inLevel

include connected enough few

theorem levelPairs_linked : ∀ pair ∈ levelPairs root level state.joinRelLevel,
    linked (near root clauses) pair.1.relids pair.2.relids := by
  intro pair member
  obtain ⟨i,j,sized⟩ := levelPairs_sized root state.joinRelLevel level enough pair member
  refine joinWanted_linked unrestricted (clausal i _ sized.first) (clausal j _ sized.second)
    (connected i _ sized.first).2 (connected j _ sized.second).2
    (levelPairs_wanted _ level ?_ pair member)
  exact level_hasJoinReason separate layered clausal query (level - 1) (by omega) (by omega)

end Linked

include enough few enumerated

/-- The level is filled by the first pass, so no products are tried. -/
theorem joinSearchOneLevel_pass (final : SearchState)
    (ran : joinSearchOneLevel root state level = .ok final) :
    tryPairs root (levelPairs root level state.joinRelLevel)
      {state with joinCurLevel := level} = .ok final := by
  obtain ⟨next,first,⟨_,rfl⟩ | ⟨empty,_⟩⟩ := joinSearchOneLevel_cases state final level ran
  · exact first
  · have all :
      level ≤ size (blocksOf initialRels) ((blocksOf initialRels).toFinset.biUnion id) := by
      rw [size_all,blocksOf,List.length_map]
      exact few
    obtain ⟨part,connectedPart,_,sized⟩ :=
      connected_grow separate.apart _ (near_symm root clauses) _ query level (by omega) all
    have reached :=
      levelPairs_reach unrestricted.toPlain separate enough enumerated next first part
        connectedPart sized
    simp [empty] at reached

include connected

theorem joinSearchOneLevel_connected (final : SearchState)
    (ran : joinSearchOneLevel root state level = .ok final) :
    allConnected root clauses initialRels final :=
  tryPairs_connected unrestricted separate state.joinRelLevel level _
    (levelPairs_sized root state.joinRelLevel level enough)
    (levelPairs_linked unrestricted separate enough few enumerated.layered enumerated.clausal
      connected query) _ final
    (enumerated.layered.begin level) connected
    (joinSearchOneLevel_pass unrestricted separate enough few enumerated query final ran)

end Sound

section Start

variable {root : PlannerInfo} {clauses : List RestrictInfo} {initialRels : List SearchRel}
  {state : SearchState}

variable (separate : Separate initialRels state.joinRelList)

include separate

theorem startSearch_enumerated (clausal : ∀ rel ∈ initialRels, Clausal root clauses rel) :
    Enumerated root clauses initialRels state.joinRelList state.calls 2
      (startSearch state initialRels) := by
  have layered := startSearch_layered separate state rfl
  refine ⟨layered,startSearch_clausal state clausal,fun relids connected smaller => ?_⟩
  have some := size_pos _ relids connected.wholeSet connected.nonempty
  have single : size (blocksOf initialRels) relids = 1 := by omega
  rw [single,layered.first]
  exact whole_single separate.apart relids connected.wholeSet single

theorem startSearch_connected (direct : ∀ rel ∈ initialRels, rel.directLateralRelids = ∅) :
    allConnected root clauses initialRels (startSearch state initialRels) := by
  intro level rel member
  by_cases one : level = 1
  · subst one
    have initial : rel ∈ initialRels := by simpa [startSearch] using member
    exact ⟨connected_block separate.apart _ _ (List.mem_map_of_mem initial),direct rel initial⟩
  · simp [startSearch,one] at member

end Start

/-- For a query without special joins and lateral references: every connected union of initial
relations is a relation of the level of its size. If no placeholder asks for more and the query as a
whole is connected, there are no other relations: no product is built. -/
theorem aqoJoinSearch_connected (root : PlannerInfo) (clauses : List RestrictInfo)
    (initialRels : List SearchRel) (state final : SearchState) (rel : SearchRel)
    (plain : Plain root) (separate : Separate initialRels state.joinRelList)
    (clausal : ∀ rel ∈ initialRels, Clausal root clauses rel)
    (ran : aqoJoinSearch root initialRels.length initialRels state = .ok (rel,final)) :
    (∀ relids, Connected (blocksOf initialRels) (near root clauses) relids →
        relids ∈ (final.joinRelLevel (size (blocksOf initialRels) relids)).map (·.relids)) ∧
      (root.placeholderList = [] → (∀ rel ∈ initialRels, rel.directLateralRelids = ∅) →
        Connected (blocksOf initialRels) (near root clauses)
        ((blocksOf initialRels).toFinset.biUnion id) →
          ∀ level, ∀ joinrel ∈ final.joinRelLevel level,
            Connected (blocksOf initialRels) (near root clauses) joinrel.relids) := by
  obtain ⟨searched,_,_⟩ := aqoJoinSearch_cases initialRels.length state final rel ran
  have start : Enumerated root clauses initialRels state.joinRelList state.calls 2
    (startSearch state initialRels) :=
    startSearch_enumerated separate clausal
  refine ⟨fun relids connected => ?_,fun placeholders direct query level joinrel built => ?_⟩
  · have done := foldlM_counted (joinSearchOneLevel root)
      (Enumerated root clauses initialRels state.joinRelList state.calls) 2 (initialRels.length - 1)
      (fun level current next low _ enumerated stepped =>
        joinSearchOneLevel_enumerates plain separate low enumerated next stepped) _
          final start searched
    refine done.complete relids connected ?_
    have bound := size_le (blocksOf initialRels) relids
    rw [blocksOf,List.length_map] at bound
    rw [blocksOf]
    omega
  · have unrestricted : Unrestricted root := ⟨plain,placeholders⟩
    have done := foldlM_counted (joinSearchOneLevel root) (fun level current =>
      Enumerated root clauses initialRels state.joinRelList state.calls level current ∧
        allConnected root clauses initialRels current) 2 (initialRels.length - 1)
      (fun level current next low high holds stepped =>
        ⟨joinSearchOneLevel_enumerates plain separate low holds.1 next stepped,
          joinSearchOneLevel_connected unrestricted separate low (by omega) holds.2 holds.1
          query next stepped⟩)
      _ final ⟨start,startSearch_connected separate direct⟩ searched
    exact (done.2 level joinrel built).1

theorem threeRels_connected : Connected (blocksOf threeRels) (near innerRoot [outerClause])
    ((blocksOf threeRels).toFinset.biUnion id) := by
  have block (set : Relids) (member : set ∈ blocksOf threeRels) :
      Connected (blocksOf threeRels) (near innerRoot [outerClause]) set :=
    connected_block threeRels_separate.apart _ set member
  have two := connected_union threeRels_separate.apart _ (near_symm innerRoot [outerClause]) {1} {2}
    (block {1} (by decide)) (block {2} (by decide))
    ⟨1,by decide,2,by decide,
    .inr ⟨joinedClass,List.mem_singleton_self _,by decide,by decide,by decide⟩⟩
  exact connected_union threeRels_separate.apart _ (near_symm innerRoot [outerClause])
    ({1} ∪ {2}) {3} two (block {3} (by decide))
    ⟨2,by decide,3,by decide,.inl ⟨outerClause,List.mem_singleton_self _,by decide,by decide⟩⟩

theorem aqoJoinSearch_connected_inner :
    ∃ rel final, aqoJoinSearch innerRoot threeRels.length threeRels emptySearch = .ok (rel,final) ∧
      ∀ level, ∀ joinrel ∈ final.joinRelLevel level,
        Connected (blocksOf threeRels) (near innerRoot [outerClause]) joinrel.relids := by
  obtain ⟨rel,final,ran,_⟩ := innerRoot_ends
  exact ⟨rel,final,ran,(aqoJoinSearch_connected innerRoot [outerClause] threeRels emptySearch
      final rel ⟨rfl,rfl⟩
    threeRels_separate threeRels_innerClausal ran).2 rfl (by decide) threeRels_connected⟩

end ExploratoryOptimizer.JoinSearch
