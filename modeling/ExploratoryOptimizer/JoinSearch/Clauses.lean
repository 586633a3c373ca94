import ExploratoryOptimizer.JoinSearch.Implied
import ExploratoryOptimizer.JoinSearch.Levels
import ExploratoryOptimizer.Library.JoinTree

/-! Join clauses in the join search. The clause list of a relation depends on its relids alone, and
in every tree of recorded joins a clause is checked at exactly one join: the lowest that covers
it. -/
namespace ExploratoryOptimizer.JoinSearch
open Library.Blocks Library.JoinTree

/-- The clauses of the query that the relation shares with others, and whether it shares a class. -/
structure Clausal (root : PlannerInfo) (clauses : List RestrictInfo) (rel : SearchRel) : Prop where
  joininfo : ∀ rinfo, rinfo ∈ rel.joininfo ↔
    rinfo ∈ clauses ∧ overlap rinfo.requiredRelids rel.relids ∧ ¬rinfo.requiredRelids ⊆ rel.relids
  eclass : rel.hasEclassJoins = true ↔ hasRelevantEclassJoinclause root rel.relids

def allClausal (root : PlannerInfo) (clauses : List RestrictInfo) (state : SearchState) : Prop :=
  ∀ level, ∀ rel ∈ state.joinRelLevel level, Clausal root clauses rel

/-- A clause that reaches into the first relation and is not inside it reaches out of the second. -/
theorem splits_iff (first second required : Relids) (separate : Disjoint first second)
    (inside : required ⊆ first ∪ second) :
    (overlap required first ∧ ¬required ⊆ first ∨ overlap required second ∧ ¬required ⊆ second) ↔
      ¬required ⊆ first ∧ ¬required ⊆ second := by
  constructor
  · rintro (⟨meets,outside⟩ | ⟨meets,outside⟩)
    · exact ⟨outside,fun within => meets (separate.symm.mono_left within)⟩
    · exact ⟨fun within => meets (separate.mono_left within),outside⟩
  · rintro ⟨outsideFirst,outsideSecond⟩
    refine .inl ⟨?_,outsideFirst⟩
    obtain ⟨relid,member,absent⟩ := Finset.not_subset.mp outsideSecond
    have present : relid ∈ first := (Finset.mem_union.mp (inside member)).resolve_right absent
    exact (overlap_iff required first).mpr ⟨relid,member,present⟩

section Clausal

variable {root : PlannerInfo} {clauses : List RestrictInfo} {rel1 rel2 : SearchRel}
  (first : Clausal root clauses rel1) (second : Clausal root clauses rel2)

include first second

theorem newJoinRel_clausal :
    Clausal root clauses (newJoinRel root (rel1.relids ∪ rel2.relids) rel1 rel2) := by
  refine ⟨fun rinfo => ?_,by simp [newJoinRel]⟩
  change rinfo ∈ buildJoinrelJoinlist (rel1.relids ∪ rel2.relids) rel1 rel2 ↔
    rinfo ∈ clauses ∧ overlap rinfo.requiredRelids (rel1.relids ∪ rel2.relids) ∧
      ¬rinfo.requiredRelids ⊆ rel1.relids ∪ rel2.relids
  rw [mem_buildJoinrelJoinlist,first.joininfo,second.joininfo,
    overlap_comm _ (rel1.relids ∪ rel2.relids),overlap_union,overlap_comm rel1.relids,
    overlap_comm rel2.relids]
  constructor
  · rintro ⟨⟨listed,meets,_⟩ | ⟨listed,meets,_⟩,outside⟩
    · exact ⟨listed,.inl meets,outside⟩
    · exact ⟨listed,.inr meets,outside⟩
  · rintro ⟨listed,meets | meets,outside⟩
    · exact ⟨.inl ⟨listed,meets,fun inside => outside (inside.trans Finset.subset_union_left)⟩,
        outside⟩
    · exact ⟨.inr ⟨listed,meets,fun inside => outside (inside.trans Finset.subset_union_right)⟩,
        outside⟩

/-- The clauses that a pair of inputs has to check besides the implied equalities. -/
theorem mem_restrictlist (separate : Disjoint rel1.relids rel2.relids) (rinfo : RestrictInfo) :
    rinfo ∈ subbuildJoinrelRestrictlist (rel1.relids ∪ rel2.relids) rel2.joininfo
        (subbuildJoinrelRestrictlist (rel1.relids ∪ rel2.relids) rel1.joininfo []) ↔
      rinfo ∈ clauses ∧ Tree.begins (rinfo.requiredRelids ⊆ ·) rel1.relids rel2.relids := by
  unfold subbuildJoinrelRestrictlist Tree.begins
  rw [mem_appendWanted,mem_appendWanted,first.joininfo,second.joininfo]
  simp only [List.not_mem_nil,false_or]
  constructor
  · rintro (⟨⟨listed,crossing⟩,inside⟩ | ⟨⟨listed,crossing⟩,inside⟩)
    · exact ⟨listed,inside,(splits_iff _ _ _ separate inside).mp (.inl crossing)⟩
    · exact ⟨listed,inside,(splits_iff _ _ _ separate inside).mp (.inr crossing)⟩
  · rintro ⟨listed,inside,crossing⟩
    rcases (splits_iff _ _ _ separate inside).mpr crossing with reaches | reaches
    · exact .inl ⟨⟨listed,reaches⟩,inside⟩
    · exact .inr ⟨⟨listed,reaches⟩,inside⟩

/-- Some clause, or some class of several members, touches both. -/
theorem haveRelevantJoinclause_iff (separate : Disjoint rel1.relids rel2.relids) :
    haveRelevantJoinclause root rel1 rel2 ↔
      (∃ rinfo ∈ clauses, overlap rinfo.requiredRelids rel1.relids ∧
        overlap rinfo.requiredRelids rel2.relids) ∨
        haveRelevantEclassJoinclause root rel1 rel2 := by
  have clause :
    (∃ rinfo ∈ (scannedJoininfo rel1 rel2).1,
        overlap (scannedJoininfo rel1 rel2).2 rinfo.requiredRelids) ↔
      ∃ rinfo ∈ clauses, overlap rinfo.requiredRelids rel1.relids ∧
        overlap rinfo.requiredRelids rel2.relids := by
    unfold scannedJoininfo
    split
    · refine exists_congr fun rinfo => ?_
      rw [first.joininfo,overlap_comm rel2.relids]
      constructor
      · rintro ⟨⟨listed,meets,_⟩,other⟩
        exact ⟨listed,meets,other⟩
      · rintro ⟨listed,meets,other⟩
        exact ⟨⟨listed,meets,fun inside => other (separate.mono_left inside)⟩,other⟩
    · refine exists_congr fun rinfo => ?_
      rw [second.joininfo,overlap_comm rel1.relids]
      constructor
      · rintro ⟨⟨listed,meets,_⟩,other⟩
        exact ⟨listed,other,meets⟩
      · rintro ⟨listed,other,meets⟩
        exact ⟨⟨listed,meets,fun inside => other (separate.symm.mono_left inside)⟩,other⟩
  have eclass : rel1.hasEclassJoins = true ∧ rel2.hasEclassJoins = true ∧
    haveRelevantEclassJoinclause root rel1 rel2 ↔
      haveRelevantEclassJoinclause root rel1 rel2 := by
    refine ⟨fun ⟨_,_,shared⟩ => shared,fun shared => ⟨?_,?_,shared⟩⟩
    · obtain ⟨ec,member,several,meets,other⟩ := shared
      refine first.eclass.mpr ⟨ec,member,several,meets,fun inside => other ?_⟩
      exact separate.symm.mono_right inside
    · obtain ⟨ec,member,several,other,meets⟩ := shared
      refine second.eclass.mpr ⟨ec,member,several,meets,fun inside => other ?_⟩
      exact separate.mono_right inside
  unfold haveRelevantJoinclause
  rw [clause,eclass]

end Clausal

section Trees

/-- A tree of joins: initial relations at the leaves, recorded calls at the nodes. -/
abbrev PlanTree := Tree Nat JoinCall

inductive Planned (initialRels : List SearchRel) (calls : List JoinCall) : PlanTree → Relids → Prop
  | initial (rel : SearchRel) (member : rel ∈ initialRels) :
    Planned initialRels calls (.leaf rel.relids) rel.relids
  | join (call : JoinCall) (made : call ∈ calls) (outer inner : PlanTree)
      (outerPlanned : Planned initialRels calls outer call.outerrel)
      (innerPlanned : Planned initialRels calls inner call.innerrel) :
      Planned initialRels calls (.node call outer inner) call.joinrel

/-- The inputs of every call are disjoint and their union is the join relation. -/
def unites (calls : List JoinCall) : Prop :=
  ∀ call ∈ calls, call.joinrel = call.outerrel ∪ call.innerrel ∧
    Disjoint call.outerrel call.innerrel

theorem planned_cover (initialRels : List SearchRel) (calls : List JoinCall) (united : unites calls)
    (tree : PlanTree) (relids : Relids) (planned : Planned initialRels calls tree relids) :
    tree.cover = relids ∧ tree.everyLeaf (· ∈ blocksOf initialRels) ∧
      tree.everyNode fun call outer inner =>
        call ∈ calls ∧ outer = call.outerrel ∧ inner = call.innerrel ∧ Disjoint outer inner := by
  induction planned with
  | initial rel member => exact ⟨rfl,List.mem_map_of_mem member,trivial⟩
  | join call made outer inner _ _ ihOuter ihInner =>
    obtain ⟨union,separate⟩ := united call made
    refine ⟨?_,⟨ihOuter.2.1,ihInner.2.1⟩,⟨made,ihOuter.1,ihInner.1,?_⟩,ihOuter.2.2,ihInner.2.2⟩
    · rw [Tree.cover,ihOuter.1,ihInner.1,union]
    · rw [ihOuter.1,ihInner.1]
      exact separate

theorem planned_inhabited (initialRels : List SearchRel) (calls : List JoinCall) (tree : PlanTree)
    (relids : Relids) (planned : Planned initialRels calls tree relids) :
    ∃ rel, rel ∈ initialRels := by
  induction planned with
  | initial rel member => exact ⟨rel,member⟩
  | join _ _ _ _ _ _ ih _ => exact ih

theorem everyNode_imp (tree : PlanTree) (Q R : JoinCall → Relids → Relids → Prop)
    (weaker : ∀ call outer inner, Q call outer inner → R call outer inner)
    (nodes : tree.everyNode Q) :
    tree.everyNode R := by
  induction tree with
  | leaf => trivial
  | node call outer inner ihOuter ihInner =>
    exact ⟨weaker _ _ _ nodes.1,ihOuter nodes.2.1,ihInner nodes.2.2⟩

theorem everyLeaf_imp (tree : PlanTree) (P Q : Relids → Prop) (weaker : ∀ set, P set → Q set)
    (leaves : tree.everyLeaf P) : tree.everyLeaf Q := by
  induction tree with
  | leaf set => exact weaker set leaves
  | node call outer inner ihOuter ihInner => exact ⟨ihOuter leaves.1,ihInner leaves.2⟩

theorem layered_unites {initialRels old : List SearchRel} {oldCalls : List JoinCall}
    {state : SearchState} (layered : Layered initialRels old oldCalls state) :
    unites (state.since oldCalls) := by
  intro call member
  obtain ⟨i,j,placed⟩ := layered.called call member
  exact ⟨placed.union,placed.disjoint⟩

/-- If every call bears a mark exactly when an upward closed property begins at its join, a tree
that has the property bears the mark once. -/
theorem planned_once (initialRels : List SearchRel) (calls : List JoinCall) (united : unites calls)
    (P : Relids → Prop) [DecidablePred P]
    (upward : ∀ small large, small ⊆ large → P small → P large)
    (exclusive : ∀ first second, P first → P second → ¬Disjoint first second)
    (low : ∀ rel ∈ initialRels, ¬P rel.relids) (marked : JoinCall → Prop) [DecidablePred marked]
    (exact : ∀ call ∈ calls, marked call ↔ Tree.begins P call.outerrel call.innerrel)
    (tree : PlanTree) (relids : Relids) (planned : Planned initialRels calls tree relids) :
    tree.countNodes marked = if P relids then 1 else 0 := by
  obtain ⟨covered,leaves,nodes⟩ := planned_cover initialRels calls united tree relids planned
  subst covered
  refine Tree.countNodes_begins P upward exclusive marked tree ?_ ?_
  · refine everyLeaf_imp tree _ _ (fun set among => ?_) leaves
    obtain ⟨rel,member,rfl⟩ := List.mem_map.mp among
    exact low rel member
  · refine everyNode_imp tree _ _ ?_ nodes
    rintro call outer inner ⟨made,rfl,rfl,separate⟩
    exact ⟨separate,exact call made⟩

end Trees

section Checked

/-- A clause of no class: it compares no members. -/
def RestrictInfo.plain (rinfo : RestrictInfo) : Prop := rinfo.leftEm = none

/-- The sources of a class compare two of its members. -/
def sourcesCompare (root : PlannerInfo) : Prop :=
  ∀ ec ∈ root.eqClasses, ∀ rinfo ∈ ec.ecSources, rinfo.leftEm.isSome

/-- The call checks the plain clauses that its join is the first to cover. -/
def JoinCall.checks (clauses : List RestrictInfo) (call : JoinCall) : Prop :=
  ∀ rinfo ∈ clauses, rinfo.plain →
    (rinfo ∈ call.restrictlist ↔ Tree.begins (rinfo.requiredRelids ⊆ ·) call.outerrel call.innerrel)

theorem begins_comm (P : Relids → Prop) (outer inner : Relids) :
    Tree.begins P outer inner ↔ Tree.begins P inner outer := by
  unfold Tree.begins
  rw [Finset.union_comm,and_comm (a := ¬P outer)]

variable {root : PlannerInfo} {clauses : List RestrictInfo} {initialRels old : List SearchRel}
  {oldCalls : List JoinCall}

theorem implied_not_plain (compare : sourcesCompare root)
    (joinrelids outerRelids innerRelids : Relids) (state : EclassState) (rinfo : RestrictInfo)
    (member : rinfo ∈ (generateJoinImpliedEqualities root joinrelids outerRelids innerRelids
        state).1) : ¬rinfo.plain := by
  intro plain
  obtain ⟨ec,among,_,⟨left,_,right,_,_,_,_,compares,_⟩ | ⟨source,_⟩⟩ :=
    implied_asks root _ _ _ state rinfo member
  · rw [plain] at compares
    cases compares
  · have some := compare ec among rinfo source
    rw [plain] at some
    cases some

theorem buildJoinrelRestrictlist_checks (compare : sourcesCompare root) (rel1 rel2 : SearchRel)
    (first : Clausal root clauses rel1) (second : Clausal root clauses rel2)
    (separate : Disjoint rel1.relids rel2.relids) (state : EclassState) (rinfo : RestrictInfo)
    (listed : rinfo ∈ clauses) (plain : rinfo.plain) :
    rinfo ∈ (buildJoinrelRestrictlist root (rel1.relids ∪ rel2.relids) rel1 rel2 state).1 ↔
      Tree.begins (rinfo.requiredRelids ⊆ ·) rel1.relids rel2.relids := by
  unfold buildJoinrelRestrictlist
  rw [List.mem_append,mem_restrictlist first second separate]
  constructor
  · rintro (⟨_,crossing⟩ | implied)
    · exact crossing
    · exact absurd plain (implied_not_plain compare _ _ _ state rinfo implied)
  · exact fun crossing => .inl ⟨listed,crossing⟩

theorem joined_clausal {state next : SearchState} {rel1 rel2 : SearchRel} {i j : Nat}
    (sjinfo : SpecialJoinInfo)
    (sized : SizedPair state.joinRelLevel state.joinCurLevel (rel1,rel2) i j)
    (clausal : allClausal root clauses state) (joined : Joined root state next rel1 rel2 sjinfo) :
    allClausal root clauses next := by
  intro level rel member
  rcases joined_mem_level root rel1 rel2 sjinfo joined level rel member with before | ⟨_,rfl⟩
  · exact clausal level rel before
  · exact newJoinRel_clausal (clausal i rel1 sized.first) (clausal j rel2 sized.second)

theorem startSearch_clausal (state : SearchState)
    (clausal : ∀ rel ∈ initialRels, Clausal root clauses rel) :
    allClausal root clauses (startSearch state initialRels) := by
  intro level rel member
  by_cases one : level = 1
  · subst one
    exact clausal rel (by simpa [startSearch] using member)
  · simp [startSearch,one] at member

theorem joined_checks (compare : sourcesCompare root) :
    keptByJoins root initialRels old oldCalls fun state =>
      allClausal root clauses state ∧ ∀ call ∈ state.since oldCalls, call.checks clauses := by
  rintro state next rel1 rel2 i j matched layered sized legal ⟨clausal,checked⟩ made
  have joined := makeLegalJoinRel_joined root state next rel1 rel2 _ made
  refine ⟨joined_clausal _ sized clausal joined,fun call member rinfo listed plain => ?_⟩
  obtain ⟨added,appended,isFor⟩ := joined.calls
  rw [since_append state next oldCalls added layered.earlier appended] at member
  rcases List.mem_append.mp member with before | new
  · exact checked call before rinfo listed plain
  · have recorded := isFor call new
    rw [recorded.restrictlist,buildJoinrelRestrictlist_checks compare rel1 rel2
      (clausal i rel1 sized.first) (clausal j rel2 sized.second) sized.disjoint state.eclasses
      rinfo listed plain]
    rcases recorded.sides with ⟨outer,inner,_⟩ | ⟨outer,inner,_⟩
    · rw [outer,inner]
    · rw [outer,inner,begins_comm]

/-- For any query: the clause list of every relation the search builds is the clauses that reach
into and out of its relids, and in every tree of its recorded joins each clause is checked at one
join if the tree covers it, and at none if it does not. -/
theorem aqoJoinSearch_checks_once (root : PlannerInfo) (clauses : List RestrictInfo)
    (initialRels : List SearchRel) (state final : SearchState) (rel : SearchRel)
    (separate : Separate initialRels state.joinRelList) (compare : sourcesCompare root)
    (clausal : ∀ rel ∈ initialRels, Clausal root clauses rel)
    (ran : aqoJoinSearch root initialRels.length initialRels state = .ok (rel,final)) :
    allClausal root clauses final ∧
      ∀ tree relids, Planned initialRels (final.since state.calls) tree relids →
        ∀ rinfo ∈ clauses, rinfo.plain → (∀ rel ∈ initialRels, ¬rinfo.requiredRelids ⊆ rel.relids) →
          tree.countNodes (fun call => rinfo ∈ call.restrictlist) =
          if rinfo.requiredRelids ⊆ relids then 1 else 0 := by
  obtain ⟨searched,_,_⟩ := aqoJoinSearch_cases initialRels.length state final rel ran
  have none : (startSearch state initialRels).since state.calls = [] := List.drop_length
  obtain ⟨layered,allClausal,checked⟩ := searchLevels_kept separate _ (joined_checks compare)
    (fun _ _ holds => holds) initialRels.length _ final (startSearch_layered separate state rfl)
    ⟨startSearch_clausal state clausal,by simp [none]⟩ searched
  refine ⟨allClausal,fun tree relids planned rinfo listed plain low => ?_⟩
  refine planned_once initialRels _ (layered_unites layered) (rinfo.requiredRelids ⊆ ·)
    (fun small large inside within => within.trans inside) ?_ low _
    (fun call made => checked call made rinfo listed plain) tree relids planned
  intro first second inFirst inSecond apart
  -- only the empty set is inside both, and it is inside every initial relation
  obtain ⟨initial,among⟩ := planned_inhabited initialRels _ tree relids planned
  have empty : rinfo.requiredRelids = ∅ :=
    Finset.disjoint_self_iff_empty _ |>.mp (apart.mono inFirst inSecond)
  exact low initial among (by rw [empty]; exact Finset.empty_subset _)

end Checked

theorem threeRels_clausal : ∀ rel ∈ threeRels, Clausal leftJoinRoot [outerClause] rel := by
  have absent (rel : SearchRel) (none : rel.joininfo = [])
    (away : ¬overlap outerClause.requiredRelids rel.relids)
      (rinfo : RestrictInfo) : rinfo ∈ rel.joininfo ↔
        rinfo ∈ [outerClause] ∧ overlap rinfo.requiredRelids rel.relids ∧
        ¬rinfo.requiredRelids ⊆ rel.relids := by
    rw [none,List.mem_singleton]
    exact ⟨fun member => (List.not_mem_nil member).elim,fun ⟨same,meets,_⟩ =>
      absurd (same ▸ meets) away⟩
  have present (rel : SearchRel) (listed : rel.joininfo = [outerClause])
      (meets : overlap outerClause.requiredRelids rel.relids)
      (outside : ¬outerClause.requiredRelids ⊆ rel.relids) (rinfo : RestrictInfo) :
        rinfo ∈ rel.joininfo ↔
        rinfo ∈ [outerClause] ∧ overlap rinfo.requiredRelids rel.relids ∧
        ¬rinfo.requiredRelids ⊆ rel.relids := by
    rw [listed,List.mem_singleton]
    exact ⟨fun same => ⟨same,same ▸ meets,same ▸ outside⟩,fun known => known.1⟩
  intro rel member
  simp only [threeRels,List.mem_cons,List.not_mem_nil,or_false] at member
  rcases member with rfl | rfl | rfl
  · exact ⟨absent _ rfl (by decide),by decide⟩
  · exact ⟨present _ rfl (by decide) (by decide),by decide⟩
  · exact ⟨present _ rfl (by decide) (by decide),by decide⟩

theorem threeRels_innerClausal : ∀ rel ∈ threeRels, Clausal innerRoot [outerClause] rel :=
  fun rel member =>
  ⟨(threeRels_clausal rel member).joininfo,(threeRels_clausal rel member).eclass⟩

theorem aqoJoinSearch_checks_once_leftJoin :
    ∃ rel final, aqoJoinSearch leftJoinRoot threeRels.length threeRels emptySearch =
      .ok (rel,final) ∧ ∀ tree, Planned threeRels (final.since emptySearch.calls) tree {1,2,3} →
        tree.countNodes (fun call => outerClause ∈ call.restrictlist) = 1 := by
  obtain ⟨rel,final,ran⟩ := leftJoin_ends
  refine ⟨rel,final,ran,fun tree planned => ?_⟩
  exact (aqoJoinSearch_checks_once leftJoinRoot [outerClause] threeRels emptySearch final rel
      threeRels_separate
    (by unfold sourcesCompare; decide) threeRels_clausal ran).2 tree {1,2,3} planned outerClause
    (List.mem_singleton_self _) rfl (by decide)

end ExploratoryOptimizer.JoinSearch
