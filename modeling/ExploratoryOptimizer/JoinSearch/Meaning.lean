import ExploratoryOptimizer.JoinSearch.Clauses
import ExploratoryOptimizer.JoinSearch.Plain
import ExploratoryOptimizer.Library.Agreement

/-! What the plans of an inner-join query compute. A row of a join is as frequent as its parts
together if it satisfies the clauses of the join. Whatever the order of the joins, and whenever an
equivalence class breaks during the search, every recorded plan for a set of relations computes the
product of the base relations, restricted to clauses between what the query demands and what it
implies. -/
namespace ExploratoryOptimizer.JoinSearch
open Library.Attempt Library.Blocks Library.JoinTree Library.Agreement

/-- How often a base relation holds its part of a row, whether a clause is true of it, and the
values of the members with the equality of their operators. A null is not equal to itself. -/
structure Reading (Row Value : Type) where
  scan : Relids → Row → Nat
  holds : RestrictInfo → Row → Bool
  value : EquivalenceMember → Row → Value
  equal : Value → Value → Bool

/-- A class that joins have to enforce: the scans compare with a constant, and one member needs
nothing. -/
def EquivalenceClass.joined (ec : EquivalenceClass) : Prop :=
  ec.ecHasConst = false ∧ 1 < ec.ecMembers.length

instance (ec : EquivalenceClass) : Decidable ec.joined := inferInstanceAs (Decidable (_ ∧ _))

/-- What the planner knows of the classes and clauses of a query over the given relations. -/
structure WellFormed (classes : List EquivalenceClass) (clauses : List RestrictInfo)
    (all : Relids) : Prop where
  addresses : (classes.map (·.address)).Nodup
  members : ∀ ec ∈ classes, ec.ecMembers.Nodup
  relids : ∀ ec ∈ classes, ec.joined → ∀ em ∈ ec.ecMembers, em.emRelids.Nonempty ∧
    em.emRelids ⊆ ec.ecRelids
  sources : ∀ ec ∈ classes, ∀ rinfo ∈ ec.ecSources, rinfo.requiredRelids ⊆ all ∧
    ∃ left ∈ ec.ecMembers, ∃ right ∈ ec.ecMembers, left ≠ right ∧ rinfo.equates left right ∧
      left.emRelids ⊆ rinfo.requiredRelids ∧ right.emRelids ⊆ rinfo.requiredRelids
  -- the members were put together by the sources
  tied : ∀ ec ∈ classes, ∀ left ∈ ec.ecMembers, ∀ right ∈ ec.ecMembers,
    Relation.EqvGen (fun left right => ∃ rinfo ∈ ec.ecSources, rinfo.equates left right) left right
  clauses : ∀ rinfo ∈ clauses, rinfo.requiredRelids ⊆ all

namespace Reading

variable {Row Value : Type} (reading : Reading Row Value)

/-- The two members are equal in the row. -/
def same (row : Row) (left right : EquivalenceMember) : Prop :=
  reading.equal (reading.value left row) (reading.value right row)

structure Lawful : Prop where
  symmetric : ∀ left right, reading.equal left right → reading.equal right left
  transitive : ∀ left middle right, reading.equal left middle → reading.equal middle right →
    reading.equal left right
  equates : ∀ rinfo left right, rinfo.equates left right →
    ∀ row, reading.holds rinfo row ↔ reading.same row left right
  never : ∀ rinfo : RestrictInfo, rinfo.clause = .const none ∨ rinfo.clause = .const (some false) →
    ∀ row, reading.holds rinfo row = false

theorem Lawful.same_symm {reading : Reading Row Value} (lawful : reading.Lawful) (row : Row)
    (left right : EquivalenceMember) (equal : reading.same row left right) :
    reading.same row right left :=
  lawful.symmetric _ _ equal

theorem Lawful.same_trans {reading : Reading Row Value} (lawful : reading.Lawful) (row : Row)
    (left middle right : EquivalenceMember) (first : reading.same row left middle)
    (second : reading.same row middle right) : reading.same row left right :=
  lawful.transitive _ _ _ first second

/-- How often a plan produces a row. -/
def rows : PlanTree → Row → Nat
  | .leaf set,row => reading.scan set row
  | .node call outer inner,row =>
    if ∀ rinfo ∈ call.restrictlist, reading.holds rinfo row then rows outer row * rows inner row
    else 0

/-- How often the query asks for a row. -/
def query (classes : List EquivalenceClass) (clauses : List RestrictInfo)
    (baseRels : List SearchRel) (row : Row) : Nat :=
  if (∀ rinfo ∈ clauses, reading.holds rinfo row) ∧
      ∀ ec ∈ classes, ec.joined → ∀ rinfo ∈ ec.ecSources, reading.holds rinfo row then
    (baseRels.map fun rel => reading.scan rel.relids row).prod
  else 0

/-- The clauses that the relations cover are true. -/
def clausesHold (clauses : List RestrictInfo) (relids : Relids) (row : Row) : Prop :=
  ∀ rinfo ∈ clauses, rinfo.requiredRelids ⊆ relids → reading.holds rinfo row

/-- The members that the relations can compute are equal. -/
def membersAgree (ec : EquivalenceClass) (relids : Relids) (row : Row) : Prop :=
  agree (reading.same row) (ec.ecMembers.filter (·.emRelids ⊆ relids))

/-- The least that a plan for the relations has to ensure, and the most that it may ask for. -/
def least (classes : List EquivalenceClass) (clauses : List RestrictInfo) (relids : Relids)
    (row : Row) : Prop :=
  reading.clausesHold clauses relids row ∧
    ∀ ec ∈ classes, ec.joined → reading.clausesHold ec.ecSources relids row

def most (classes : List EquivalenceClass) (clauses : List RestrictInfo) (relids : Relids)
    (row : Row) : Prop :=
  reading.clausesHold clauses relids row ∧ ∀ ec ∈ classes, ec.joined →
    reading.membersAgree ec relids row

def scans (baseRels : List SearchRel) (relids : Relids) (row : Row) : Nat :=
  total (blocksOf baseRels) (fun block => reading.scan block row) relids

/-- The count is that of a plan for the relations: it has all rows that satisfy the most, and its
rows are as frequent as their parts, satisfy the least, and agree on the members of classes that are
not broken. -/
structure Computes (classes : List EquivalenceClass) (clauses : List RestrictInfo)
    (baseRels : List SearchRel) (eclasses : EclassState) (relids : Relids)
    (count : Row → Nat) : Prop where
  complete :
    ∀ row, reading.most classes clauses relids row → count row = reading.scans baseRels relids row
  sound : ∀ row, count row ≠ 0 →
    reading.least classes clauses relids row ∧ count row = reading.scans baseRels relids row
  agreed : ∀ ec ∈ classes, ec.joined → ¬eclasses.isBroken ec →
    ∀ row, count row ≠ 0 → reading.membersAgree ec relids row

end Reading

section Restrictlist

variable {Row Value : Type} {reading : Reading Row Value} (lawful : reading.Lawful)
  {root : PlannerInfo} {clauses : List RestrictInfo} {all : Relids}
  (wellFormed : WellFormed root.eqClasses clauses all)

theorem clausesHold_mono (reading : Reading Row Value) (clauses : List RestrictInfo)
    (small large : Relids) (inside : small ⊆ large) (row : Row)
    (holds : reading.clausesHold clauses large row) :
    reading.clausesHold clauses small row :=
  fun rinfo listed within => holds rinfo listed (within.trans inside)

theorem most_mono (small large : Relids) (inside : small ⊆ large) (row : Row)
    (holds : reading.most root.eqClasses clauses large row) :
    reading.most root.eqClasses clauses small row := by
  refine ⟨clausesHold_mono reading clauses small large inside row holds.1,
    fun ec member joined => ?_⟩
  refine agree_subset _ _ _ (fun em among => ?_) (holds.2 ec member joined)
  have facts := List.mem_filter.mp among
  exact List.mem_filter.mpr ⟨facts.1,decide_eq_true ((of_decide_eq_true facts.2).trans inside)⟩

include lawful wellFormed

/-- Members that agree make the sources between them true. -/
theorem sourcesHold_of_agree (ec : EquivalenceClass) (member : ec ∈ root.eqClasses)
    (relids : Relids) (row : Row) (agreed : reading.membersAgree ec relids row) :
    reading.clausesHold ec.ecSources relids row := by
  intro rinfo source inside
  obtain ⟨_,left,leftIn,right,rightIn,different,equates,leftRelids,rightRelids⟩ :=
    wellFormed.sources ec member rinfo source
  apply (lawful.equates rinfo left right equates row).mpr
  exact agreed left (List.mem_filter.mpr ⟨leftIn,decide_eq_true (leftRelids.trans inside)⟩)
    right (List.mem_filter.mpr ⟨rightIn,decide_eq_true (rightRelids.trans inside)⟩) different

/-- For the whole query the least is the most. -/
theorem most_of_least (row : Row) (holds : reading.least root.eqClasses clauses all row) :
    reading.most root.eqClasses clauses all row := by
  refine ⟨holds.1,fun ec member joined left leftIn right rightIn different => ?_⟩
  have generated :=
    wellFormed.tied ec member left (List.mem_of_mem_filter leftIn) right
      (List.mem_of_mem_filter rightIn)
  refine (related_of_tied (lawful.same_symm row) (lawful.same_trans row) _
    (fun left right ⟨rinfo,source,equates⟩ => ?_) left right generated).resolve_left different
  apply (lawful.equates rinfo left right equates row).mp
  exact holds.2 ec member joined rinfo source (wellFormed.sources ec member rinfo source).1

/-- What a class asks for is true of the rows that satisfy the most. -/
theorem asked_holds (ec : EquivalenceClass) (member : ec ∈ root.eqClasses)
    (relids : Relids) (row : Row) (agreed : reading.membersAgree ec relids row)
    (rinfo : RestrictInfo) (asked : ec.asks relids rinfo) :
    reading.holds rinfo row := by
  rcases asked with ⟨left,leftIn,right,rightIn,leftRelids,rightRelids,different,
    equates⟩ | ⟨source,inside⟩
  · apply (lawful.equates rinfo left right equates row).mpr
    exact agreed left (List.mem_filter.mpr ⟨leftIn,decide_eq_true leftRelids⟩)
      right (List.mem_filter.mpr ⟨rightIn,decide_eq_true rightRelids⟩)
        (different (wellFormed.members ec member))
  · exact sourcesHold_of_agree lawful wellFormed ec member relids row agreed rinfo source inside

omit lawful in
/-- Away from the class there is nothing to enforce. -/
theorem away_agrees (ec : EquivalenceClass) (member : ec ∈ root.eqClasses) (joined : ec.joined)
    (relids : Relids) (row : Row) (away : ¬ec.enforcedAt relids) :
    reading.membersAgree ec relids row := by
  intro left leftIn
  obtain ⟨inside,within⟩ := List.mem_filter.mp leftIn
  obtain ⟨⟨relid,here⟩,inClass⟩ := wellFormed.relids ec member joined left inside
  refine absurd ⟨joined.1,joined.2,?_⟩ away
  exact (overlap_iff _ _).mpr ⟨relid,inClass here,of_decide_eq_true within here⟩

omit wellFormed in
/-- The clauses of a class that is not broken make its members equal if they are on both sides. -/
theorem equated_agree (ec : EquivalenceClass) (outerRelids innerRelids : Relids)
    (row : Row) (rinfos : List RestrictInfo)
    (equated : classEquated ec (outerRelids ∪ innerRelids) outerRelids innerRelids rinfos)
    (outerAgree : reading.membersAgree ec outerRelids row)
    (innerAgree : reading.membersAgree ec innerRelids row)
    (holds : ∀ rinfo ∈ rinfos, reading.holds rinfo row) :
    reading.membersAgree ec (outerRelids ∪ innerRelids) row := by
  obtain ⟨sides,added,rfl,sidesKnown,chained⟩ := equated
  have equal (rinfo : RestrictInfo) (member : rinfo ∈ sides ++ added)
    (left right : EquivalenceMember)
      (equates : rinfo.equates left right) : reading.same row left right :=
    (lawful.equates rinfo left right equates row).mp (holds rinfo member)
  have join := agree_append (lawful.same_symm row) (lawful.same_trans row)
  have outers :
    agree (reading.same row) (outerMembers ec (outerRelids ∪ innerRelids) outerRelids) := by
    refine agree_subset _ _ _ (fun em among => ?_) outerAgree
    have facts := (mem_outerMembers ec _ _ em).mp among
    exact List.mem_filter.mpr ⟨facts.1,decide_eq_true facts.2.2⟩
  have inners :
    agree (reading.same row) (innerMembers ec (outerRelids ∪ innerRelids) outerRelids
        innerRelids) := by
    refine agree_subset _ _ _ (fun em among => ?_) innerAgree
    have facts := (mem_innerMembers ec _ _ _ em).mp among
    exact List.mem_filter.mpr ⟨facts.1,decide_eq_true facts.2.2.2⟩
  have olds : agree (reading.same row) (outerMembers ec (outerRelids ∪ innerRelids) outerRelids ++
      innerMembers ec (outerRelids ∪ innerRelids) outerRelids innerRelids) := by
    refine join _ _ outers inners ?_
    rcases sidesKnown with ⟨none | none,_⟩ | ⟨outerEm,outer,innerEm,inner,rinfo,rfl,equates⟩
    · exact .inl none
    · exact .inr (.inl none)
    · exact .inr (.inr ⟨outerEm,outer,innerEm,inner,equal rinfo (by simp) outerEm innerEm equates⟩)
  have everything :
    agree (reading.same row) (newMembers ec (outerRelids ∪ innerRelids) outerRelids innerRelids ++
      (outerMembers ec (outerRelids ∪ innerRelids) outerRelids ++
        innerMembers ec (outerRelids ∪ innerRelids) outerRelids innerRelids)) := by
    by_cases none : newMembers ec (outerRelids ∪ innerRelids) outerRelids innerRelids = []
    · rw [none]
      exact olds
    · rw [if_neg none] at chained
      have chain := chained.2.imp fun left right ⟨rinfo,among,equates⟩ =>
        equal rinfo (List.mem_append_right _ among) left right equates
      have linked := agree_chain (lawful.same_symm row) (lawful.same_trans row) _ chain
      refine join _ _ (agree_subset _ _ _ (fun em among => List.mem_append_left _ among) linked)
        olds ?_
      cases first : (outerMembers ec (outerRelids ∪ innerRelids) outerRelids ++
          innerMembers ec (outerRelids ∪ innerRelids) outerRelids innerRelids).head? with
      | none => exact .inr (.inl (List.head?_eq_none_iff.mp first))
      | some old =>
        obtain ⟨new,isNew⟩ := List.exists_mem_of_ne_nil _ none
        rw [first] at chain
        have : IsTrans EquivalenceMember (reading.same row) := ⟨lawful.same_trans row⟩
        have across := (List.pairwise_append.mp chain.pairwise).2.2 new isNew old (by simp)
        exact .inr (.inr ⟨new,isNew,old,List.mem_of_head? first,across⟩)
  refine agree_subset _ _ _ (fun em among => ?_) everything
  obtain ⟨inside,within⟩ := List.mem_filter.mp among
  have within := of_decide_eq_true within
  rw [List.mem_append,List.mem_append,mem_newMembers,mem_outerMembers,mem_innerMembers]
  by_cases outer : em.emRelids ⊆ outerRelids
  · exact .inr (.inl ⟨inside,within,outer⟩)
  · by_cases inner : em.emRelids ⊆ innerRelids
    · exact .inr (.inr ⟨inside,within,outer,inner⟩)
    · exact .inl ⟨inside,within,outer,inner⟩

end Restrictlist

section Join

variable {Row Value : Type} {reading : Reading Row Value} (lawful : reading.Lawful)
  {root : PlannerInfo} {clauses : List RestrictInfo} {all : Relids}
  (wellFormed : WellFormed root.eqClasses clauses all) {rel1 rel2 : SearchRel}
  (eclasses : EclassState)

include lawful wellFormed

theorem restrictlist_of_most (first : Clausal root clauses rel1)
    (second : Clausal root clauses rel2) (apart : Disjoint rel1.relids rel2.relids) (row : Row)
    (holds : reading.most root.eqClasses clauses (rel1.relids ∪ rel2.relids) row) :
    ∀ rinfo ∈ (buildJoinrelRestrictlist root (rel1.relids ∪ rel2.relids) rel1 rel2 eclasses).1,
      reading.holds rinfo row := by
  intro rinfo member
  rcases List.mem_append.mp member with clause | implied
  · obtain ⟨listed,inside,_⟩ := (mem_restrictlist first second apart rinfo).mp clause
    exact holds.1 rinfo listed inside
  · obtain ⟨ec,among,needed,asked⟩ := implied_asks root _ _ _ eclasses rinfo implied
    exact asked_holds lawful wellFormed ec among _ row
      (holds.2 ec among ⟨needed.1,needed.2.1⟩) rinfo asked

omit lawful wellFormed in
theorem clauses_of_restrictlist (first : Clausal root clauses rel1)
    (second : Clausal root clauses rel2) (apart : Disjoint rel1.relids rel2.relids) (row : Row)
    (outer : reading.clausesHold clauses rel1.relids row)
    (inner : reading.clausesHold clauses rel2.relids row)
    (holds : ∀ rinfo ∈ (buildJoinrelRestrictlist root (rel1.relids ∪ rel2.relids) rel1
        rel2 eclasses).1,
      reading.holds rinfo row) : reading.clausesHold clauses (rel1.relids ∪ rel2.relids) row := by
  intro rinfo listed inside
  by_cases inOuter : rinfo.requiredRelids ⊆ rel1.relids
  · exact outer rinfo listed inOuter
  by_cases inInner : rinfo.requiredRelids ⊆ rel2.relids
  · exact inner rinfo listed inInner
  exact holds rinfo (List.mem_append_left _
    ((mem_restrictlist first second apart rinfo).mpr ⟨listed,inside,inOuter,inInner⟩))

variable (ec : EquivalenceClass) (member : ec ∈ root.eqClasses) (joined : ec.joined) (row : Row)
  (holds : ∀ rinfo ∈ (buildJoinrelRestrictlist root (rel1.relids ∪ rel2.relids) rel1
      rel2 eclasses).1,
    reading.holds rinfo row)

include member joined holds

theorem members_of_restrictlist
    (sound : ¬(buildJoinrelRestrictlist root (rel1.relids ∪ rel2.relids) rel1 rel2
        eclasses).2.isBroken ec)
    (outer : reading.membersAgree ec rel1.relids row)
    (inner : reading.membersAgree ec rel2.relids row) :
    reading.membersAgree ec (rel1.relids ∪ rel2.relids) row := by
  by_cases needed : ec.enforcedAt (rel1.relids ∪ rel2.relids)
  · rcases implied_each root _ rel1.relids rel2.relids wellFormed.addresses eclasses ec
      member needed with
      ⟨broken,_⟩ | ⟨_,_,rinfos,equated,asked⟩
    · exact absurd broken sound
    · exact equated_agree lawful ec _ _ row rinfos equated outer inner
        fun rinfo among => holds rinfo (List.mem_append_right _ (asked rinfo among))
  · exact away_agrees wellFormed ec member joined _ row needed

theorem sources_of_restrictlist (agreed : ¬eclasses.isBroken ec →
      reading.membersAgree ec rel1.relids row ∧ reading.membersAgree ec rel2.relids row)
    (outer : reading.clausesHold ec.ecSources rel1.relids row)
    (inner : reading.clausesHold ec.ecSources rel2.relids row) :
    reading.clausesHold ec.ecSources (rel1.relids ∪ rel2.relids) row := by
  by_cases needed : ec.enforcedAt (rel1.relids ∪ rel2.relids)
  · rcases implied_each root _ rel1.relids rel2.relids wellFormed.addresses eclasses ec
      member needed with
      ⟨_,asked⟩ | ⟨sound,_,rinfos,equated,asked⟩
    · intro rinfo source inside
      by_cases inOuter : rinfo.requiredRelids ⊆ rel1.relids
      · exact outer rinfo source inOuter
      by_cases inInner : rinfo.requiredRelids ⊆ rel2.relids
      · exact inner rinfo source inInner
      refine holds rinfo (List.mem_append_right _ (asked rinfo (List.mem_filter.mpr ⟨source,?_⟩)))
      exact decide_eq_true ⟨inside,inOuter,inInner⟩
    · obtain ⟨outerAgree,innerAgree⟩ := agreed sound
      exact sourcesHold_of_agree lawful wellFormed ec member _ row
        (equated_agree lawful ec _ _ row rinfos equated outerAgree innerAgree fun rinfo among =>
          holds rinfo (List.mem_append_right _ (asked rinfo among)))
  · exact sourcesHold_of_agree lawful wellFormed ec member _ row
      (away_agrees wellFormed ec member joined _ row needed)

end Join

section Computes

variable {Row Value : Type} {reading : Reading Row Value} {root : PlannerInfo}
  {clauses : List RestrictInfo} {baseRels : List SearchRel}

theorem Reading.Computes.unbroken {eclasses later : EclassState} {relids : Relids}
    {count : Row → Nat} (computes : reading.Computes root.eqClasses clauses baseRels
      eclasses relids count)
    (grown : ∀ ec ∈ root.eqClasses, eclasses.isBroken ec → later.isBroken ec) :
    reading.Computes root.eqClasses clauses baseRels later relids count :=
  ⟨computes.complete,computes.sound,fun ec member joined sound =>
    computes.agreed ec member joined fun broken => sound (grown ec member broken)⟩

variable (lawful : reading.Lawful) {all : Relids}
  (wellFormed : WellFormed root.eqClasses clauses all) (separate : Apart (blocksOf baseRels))
  {rel1 rel2 : SearchRel} (first : Clausal root clauses rel1) (second : Clausal root clauses rel2)
  (wholeFirst : whole (blocksOf baseRels) rel1.relids)
  (wholeSecond : whole (blocksOf baseRels) rel2.relids) (apart : Disjoint rel1.relids rel2.relids)
  (eclasses : EclassState)

include lawful wellFormed separate first second wholeFirst wholeSecond apart

theorem join_computes (outer inner : Row → Nat)
    (outerComputes : reading.Computes root.eqClasses clauses baseRels eclasses rel1.relids outer)
    (innerComputes : reading.Computes root.eqClasses clauses baseRels eclasses rel2.relids inner) :
    reading.Computes root.eqClasses clauses baseRels
      (buildJoinrelRestrictlist root (rel1.relids ∪ rel2.relids) rel1 rel2 eclasses).2
      (rel1.relids ∪ rel2.relids) fun row =>
        if ∀ rinfo ∈ (buildJoinrelRestrictlist root (rel1.relids ∪ rel2.relids) rel1
            rel2 eclasses).1,
          reading.holds rinfo row then outer row * inner row else 0 := by
  have scans (row : Row) : reading.scans baseRels (rel1.relids ∪ rel2.relids) row =
      reading.scans baseRels rel1.relids row * reading.scans baseRels rel2.relids row :=
    total_union separate _ _ _ wholeFirst wholeSecond apart
  -- a row of the join satisfies its clauses and is a row of both inputs
  have split (row : Row) (some : (if ∀ rinfo ∈ (buildJoinrelRestrictlist root
        (rel1.relids ∪ rel2.relids) rel1 rel2
      eclasses).1, reading.holds rinfo row then outer row * inner row else 0) ≠ 0) :
      (∀ rinfo ∈ (buildJoinrelRestrictlist root (rel1.relids ∪ rel2.relids) rel1 rel2 eclasses).1,
        reading.holds rinfo row) ∧ outer row ≠ 0 ∧ inner row ≠ 0 := by
    split at some
    next holds => exact ⟨holds,left_ne_zero_of_mul some,right_ne_zero_of_mul some⟩
    next => exact absurd rfl some
  have before (ec : EquivalenceClass) (member : ec ∈ root.eqClasses)
      (sound : ¬(buildJoinrelRestrictlist root (rel1.relids ∪ rel2.relids) rel1 rel2
          eclasses).2.isBroken ec) :
      ¬eclasses.isBroken ec :=
    fun broken => sound (implied_broken root _ _ _ wellFormed.addresses eclasses ec member broken)
  refine ⟨fun row most => ?_,fun row some => ?_,fun ec member joined sound row some => ?_⟩
  · rw [if_pos (restrictlist_of_most lawful wellFormed eclasses first second apart row most),
      outerComputes.complete row (most_mono _ _ Finset.subset_union_left row most),
      innerComputes.complete row (most_mono _ _ Finset.subset_union_right row most),scans]
  · obtain ⟨holds,someOuter,someInner⟩ := split row some
    obtain ⟨leastOuter,outerCount⟩ := outerComputes.sound row someOuter
    obtain ⟨leastInner,innerCount⟩ := innerComputes.sound row someInner
    refine ⟨⟨clauses_of_restrictlist eclasses first second apart row leastOuter.1
        leastInner.1 holds,
      fun ec member joined => ?_⟩,?_⟩
    · refine sources_of_restrictlist lawful wellFormed eclasses ec member joined row holds
        (fun sound => ?_) (leastOuter.2 ec member joined) (leastInner.2 ec member joined)
      exact ⟨outerComputes.agreed ec member joined sound row someOuter,
        innerComputes.agreed ec member joined sound row someInner⟩
    · rw [if_pos holds,outerCount,innerCount,scans]
  · obtain ⟨holds,someOuter,someInner⟩ := split row some
    exact members_of_restrictlist lawful wellFormed eclasses ec member joined row holds sound
      (outerComputes.agreed ec member joined (before ec member sound) row someOuter)
      (innerComputes.agreed ec member joined (before ec member sound) row someInner)

end Computes

section Invariant

variable {Row Value : Type} {reading : Reading Row Value} {root : PlannerInfo}
  {clauses : List RestrictInfo} {baseRels initialRels old : List SearchRel}
  {oldCalls : List JoinCall}

/-- No row can come of these relations. -/
def Reading.emptyIn (reading : Reading Row Value) (classes : List EquivalenceClass)
    (clauses : List RestrictInfo) (baseRels : List SearchRel) (relids : Relids) : Prop :=
  ∀ row, reading.most classes clauses relids row → reading.scans baseRels relids row = 0

/-- Every plan of the recorded joins computes what it should, and what is marked dummy is empty. -/
structure Reading.Explains (reading : Reading Row Value) (classes : List EquivalenceClass)
    (clauses : List RestrictInfo) (baseRels : List SearchRel) (state : SearchState) : Prop where
  trees : ∀ tree relids, Planned baseRels state.calls tree relids →
    reading.Computes classes clauses baseRels state.eclasses relids (reading.rows tree)
  dummies : ∀ relids ∈ state.dummies, reading.emptyIn classes clauses baseRels relids

/-- The relation is marked dummy or has a plan. -/
def planned (baseRels : List SearchRel) (state : SearchState) (relids : Relids) : Prop :=
  relids ∉ state.dummies → ∃ tree, Planned baseRels state.calls tree relids

/-- Joins are recorded behind those of the earlier state, and what is dummy stays so. -/
structure Later (start state : SearchState) : Prop where
  calls : ∃ made, state.calls = start.calls ++ made
  dummies : ∀ relids ∈ start.dummies, relids ∈ state.dummies

/-- The state of a search: the inputs of all joins are of lower levels. -/
structure Meant (reading : Reading Row Value) (root : PlannerInfo) (clauses : List RestrictInfo)
    (baseRels initialRels : List SearchRel) (start state : SearchState) : Prop where
  later : Later start state
  explains : reading.Explains root.eqClasses clauses baseRels state
  clausal : allClausal root clauses state
  lower : ∀ call ∈ state.calls, size (blocksOf initialRels) call.outerrel < state.joinCurLevel ∧
    size (blocksOf initialRels) call.innerrel < state.joinCurLevel
  live : ∀ level, ∀ rel ∈ state.joinRelLevel level, planned baseRels state rel.relids

theorem Planned.more (calls more : List JoinCall) (inside : ∀ call ∈ calls, call ∈ more)
    (tree : PlanTree) (relids : Relids) (tall : Planned baseRels calls tree relids) :
    Planned baseRels more tree relids := by
  induction tall with
  | initial rel member => exact .initial rel member
  | join call made outer inner _ _ ihOuter ihInner =>
    exact .join call (inside call made) outer inner ihOuter ihInner

/-- New calls whose join relation is an input of no call stand at the root of a tree. -/
theorem planned_append (calls made : List JoinCall) (joinrel : Relids)
    (new : ∀ call ∈ made, call.joinrel = joinrel)
    (fresh : ∀ call ∈ calls ++ made, call.outerrel ≠ joinrel ∧ call.innerrel ≠ joinrel)
    (tree : PlanTree) (relids : Relids) (tall : Planned baseRels (calls ++ made) tree relids) :
    Planned baseRels calls tree relids ∨ relids = joinrel ∧ ∃ call ∈ made, ∃ outer inner,
      tree = .node call outer inner ∧ Planned baseRels calls outer call.outerrel ∧
        Planned baseRels calls inner call.innerrel := by
  induction tall with
  | initial rel member => exact .inl (.initial rel member)
  | join call recorded outer inner _ _ ihOuter ihInner =>
    obtain ⟨notOuter,notInner⟩ := fresh call recorded
    have plannedOuter := ihOuter.resolve_right fun root => notOuter root.1
    have plannedInner := ihInner.resolve_right fun root => notInner root.1
    rcases List.mem_append.mp recorded with before | now
    · exact .inl (.join call before outer inner plannedOuter plannedInner)
    · exact .inr ⟨new call now,call,now,outer,inner,rfl,plannedOuter,plannedInner⟩

theorem planned_later (start state : SearchState) (later : Later start state) (relids : Relids)
    (live : planned baseRels start relids) : planned baseRels state relids := by
  intro alive
  obtain ⟨tree,tall⟩ := live fun dummy => alive (later.dummies relids dummy)
  obtain ⟨made,appended⟩ := later.calls
  refine ⟨tree,tall.more start.calls _ (fun call before => ?_) tree relids⟩
  rw [appended]
  exact List.mem_append_left _ before

theorem Later.trans {start middle state : SearchState} (first : Later start middle)
    (second : Later middle state) :
    Later start state := by
  obtain ⟨early,madeEarly⟩ := first.calls
  obtain ⟨late,madeLate⟩ := second.calls
  refine ⟨⟨early ++ late,?_⟩,fun relids marked =>
    second.dummies relids (first.dummies relids marked)⟩
  rw [madeLate,madeEarly,List.append_assoc]

theorem joined_later {start state next : SearchState} {rel1 rel2 : SearchRel}
    {sjinfo : SpecialJoinInfo} (joined : Joined root state next rel1 rel2 sjinfo)
    (later : Later start state) : Later start next := by
  obtain ⟨made,appended,_⟩ := joined.calls
  exact later.trans ⟨⟨made,appended⟩,joined.dummiesKept⟩

variable (lawful : reading.Lawful) {all : Relids}
  (wellFormed : WellFormed root.eqClasses clauses all) (base : Apart (blocksOf baseRels))
  (based : ∀ rel ∈ initialRels, whole (blocksOf baseRels) rel.relids)
  (separate : Separate initialRels old)

section Step

variable {start state next : SearchState} {rel1 rel2 : SearchRel} {i j : Nat}
  (layered : Layered initialRels old oldCalls state)
  (sized : SizedPair state.joinRelLevel state.joinCurLevel (rel1,rel2) i j)
  (meant : Meant reading root clauses baseRels initialRels start state)

include layered

include based in
theorem level_based (level : Nat) (rel : SearchRel) (inLevel : rel ∈ state.joinRelLevel level) :
    whole (blocksOf baseRels) rel.relids := by
  refine whole_trans _ (blocksOf initialRels) _ (fun block among => ?_)
    (layered.sized level rel inLevel).1
  obtain ⟨initial,member,rfl⟩ := List.mem_map.mp among
  exact based initial member

include sized meant

theorem innerCalls_lower (restrictlist : List RestrictInfo) :
    ∀ call ∈ state.calls ++ innerCalls rel1 rel2 restrictlist,
      size (blocksOf initialRels) call.outerrel < state.joinCurLevel ∧
        size (blocksOf initialRels) call.innerrel < state.joinCurLevel := by
  have sum := sized.sum
  have firstPos := sized.firstPos
  have secondPos := sized.secondPos
  have firstLess : size (blocksOf initialRels) rel1.relids < state.joinCurLevel := by
    rw [(layered.sized i rel1 sized.first).2]
    omega
  have secondLess : size (blocksOf initialRels) rel2.relids < state.joinCurLevel := by
    rw [(layered.sized j rel2 sized.second).2]
    omega
  intro call recorded
  rcases List.mem_append.mp recorded with before | new
  · exact meant.lower call before
  · simp only [innerCalls,List.mem_cons,List.not_mem_nil,or_false] at new
    rcases new with rfl | rfl
    · exact ⟨firstLess,secondLess⟩
    · exact ⟨secondLess,firstLess⟩

include lawful wellFormed base based

/-- A join is empty if one of its inputs is, or if one of its clauses is never true. -/
theorem emptyJoin_empty (empty : emptyJoin state rel1 rel2
      (buildJoinrelRestrictlist root (rel1.relids ∪ rel2.relids) rel1 rel2 state.eclasses).1) :
    reading.emptyIn root.eqClasses clauses baseRels (rel1.relids ∪ rel2.relids) := by
  intro row most
  have scans : reading.scans baseRels (rel1.relids ∪ rel2.relids) row =
      reading.scans baseRels rel1.relids row * reading.scans baseRels rel2.relids row :=
    total_union base _ _ _ (level_based based layered i rel1 sized.first)
      (level_based based layered j rel2 sized.second) sized.disjoint
  rcases empty with dummy | dummy | ⟨rinfo,listed,_,constant⟩
  · rw [scans,meant.explains.dummies _ dummy row (most_mono _ _ Finset.subset_union_left row most),
      zero_mul]
  · rw [scans,meant.explains.dummies _ dummy row (most_mono _ _ Finset.subset_union_right row most),
      mul_zero]
  · have holds :=
      restrictlist_of_most lawful wellFormed state.eclasses (meant.clausal i rel1 sized.first)
        (meant.clausal j rel2 sized.second) sized.disjoint row most rinfo listed
    rw [lawful.never rinfo constant row] at holds
    cases holds

include separate

/-- The trees after paths were asked for in both orders. -/
theorem innerCalls_compute (tree : PlanTree) (relids : Relids)
    (tall : Planned baseRels (state.calls ++ innerCalls rel1 rel2
      (buildJoinrelRestrictlist root (rel1.relids ∪ rel2.relids) rel1 rel2 state.eclasses).1) tree
      relids) :
    reading.Computes root.eqClasses clauses baseRels
      (buildJoinrelRestrictlist root (rel1.relids ∪ rel2.relids) rel1 rel2 state.eclasses).2 relids
      (reading.rows tree) := by
  have join := join_computes lawful wellFormed base (meant.clausal i rel1 sized.first)
    (meant.clausal j rel2 sized.second) (level_based based layered i rel1 sized.first)
    (level_based based layered j rel2 sized.second) sized.disjoint state.eclasses
  -- the join relation is of the current level, and the inputs of all calls are of lower ones
  have larger (relids : Relids) (less : size (blocksOf initialRels) relids < state.joinCurLevel) :
      relids ≠ rel1.relids ∪ rel2.relids := by
    rintro rfl
    rw [(sizedPair_union separate layered sized).2] at less
    exact Nat.lt_irrefl _ less
  have lower := innerCalls_lower layered sized meant
    (buildJoinrelRestrictlist root (rel1.relids ∪ rel2.relids) rel1 rel2 state.eclasses).1
  rcases planned_append state.calls _ (rel1.relids ∪ rel2.relids) (by simp [innerCalls])
      (fun call recorded => ⟨larger _ (lower call recorded).1,larger _ (lower call recorded).2⟩)
      tree relids tall with before | ⟨rfl,call,new,outer,inner,rfl,plannedOuter,plannedInner⟩
  · refine (meant.explains.trees tree relids before).unbroken fun ec member broken => ?_
    exact implied_broken root _ _ _ wellFormed.addresses state.eclasses ec member broken
  · simp only [innerCalls,List.mem_cons,List.not_mem_nil,or_false] at new
    rcases new with rfl | rfl
    · exact join _ _ (meant.explains.trees outer _ plannedOuter)
        (meant.explains.trees inner _ plannedInner)
    · have turned :=
        join _ _ (meant.explains.trees inner _ plannedInner)
          (meant.explains.trees outer _ plannedOuter)
      simp only [mul_comm (reading.rows inner _)] at turned
      exact turned

theorem inner_meant (ran : makeLegalJoinRel root state rel1 rel2
      (innerJoinInfo rel1 rel2) = .ok next) :
    Meant reading root clauses baseRels initialRels start next := by
  obtain ⟨joined,outcome⟩ := makeLegalJoinRel_inner_ok state rel1 rel2 next ran
  have clausal := joined_clausal _ sized meant.clausal joined
  have inLevel := joined_mem_level root rel1 rel2 _ joined
  have later := joined_later joined meant.later
  have computes (tree : PlanTree) (relids : Relids)
    (tall : Planned baseRels state.calls tree relids) :
      reading.Computes root.eqClasses clauses baseRels next.eclasses relids
        (reading.rows tree) := by
    rw [joined.eclasses]
    refine (meant.explains.trees tree relids tall).unbroken fun ec member broken => ?_
    exact implied_broken root _ _ _ wellFormed.addresses state.eclasses ec member broken
  cases outcome with
  | known dummy dummies calls =>
    refine ⟨later,⟨by rw [calls]; exact computes,by rw [dummies]; exact meant.explains.dummies⟩,
      clausal,?_,?_⟩
    · rw [calls,joined.joinCurLevel]
      exact meant.lower
    · intro level rel built alive
      rw [dummies] at alive
      rw [calls]
      rcases inLevel level rel built with before | ⟨_,rfl⟩
      · exact meant.live level rel before alive
      · exact absurd dummy alive
  | marked _ empty dummies calls =>
    refine ⟨later,⟨by rw [calls]; exact computes,?_⟩,clausal,?_,?_⟩
    · rw [dummies]
      refine List.forall_mem_cons.mpr ⟨?_,meant.explains.dummies⟩
      exact emptyJoin_empty lawful wellFormed base based layered sized meant empty
    · rw [calls,joined.joinCurLevel]
      exact meant.lower
    · intro level rel built alive
      rw [dummies] at alive
      rw [calls]
      rcases inLevel level rel built with before | ⟨_,rfl⟩
      · exact meant.live level rel before fun marked => alive (List.mem_cons_of_mem _ marked)
      · exact absurd (List.mem_cons_self ..) alive
  | asked _ filled dummies calls =>
    refine ⟨later,⟨?_,by rw [dummies]; exact meant.explains.dummies⟩,clausal,?_,?_⟩
    · rw [calls,joined.eclasses]
      exact innerCalls_compute lawful wellFormed base based separate layered sized meant
    · rw [calls,joined.joinCurLevel]
      exact innerCalls_lower layered sized meant _
    · intro level rel built alive
      rw [dummies] at alive
      rw [calls]
      have more (tree : PlanTree) (relids : Relids)
        (tall : Planned baseRels state.calls tree relids) :
          Planned baseRels (state.calls ++ innerCalls rel1 rel2
            (buildJoinrelRestrictlist root (rel1.relids ∪ rel2.relids) rel1 rel2 state.eclasses).1)
            tree relids :=
        tall.more state.calls _ (fun call => List.mem_append_left _) tree relids
      rcases inLevel level rel built with before | ⟨_,rfl⟩
      · obtain ⟨tree,tall⟩ := meant.live level rel before alive
        exact ⟨tree,more tree _ tall⟩
      · obtain ⟨outer,plannedOuter⟩ :=
          meant.live i rel1 sized.first fun dummy => filled (.inl dummy)
        obtain ⟨inner,plannedInner⟩ :=
          meant.live j rel2 sized.second fun dummy => filled (.inr (.inl dummy))
        exact ⟨_,.join _ (List.mem_append_right _ (List.mem_cons_self ..)) outer inner
          (more outer _ plannedOuter) (more inner _ plannedInner)⟩

end Step

theorem Meant.raise {start state : SearchState} (level : Nat) (higher : state.joinCurLevel ≤ level)
    (meant : Meant reading root clauses baseRels initialRels start state) :
    Meant reading root clauses baseRels initialRels start {state with joinCurLevel := level} := by
  refine ⟨⟨meant.later.calls,meant.later.dummies⟩,⟨meant.explains.trees,meant.explains.dummies⟩,
    meant.clausal,fun call recorded => ?_,meant.live⟩
  obtain ⟨outer,inner⟩ := meant.lower call recorded
  exact ⟨outer.trans_le higher,inner.trans_le higher⟩

include lawful wellFormed base based

/-- A search of inner joins explains the plans of the joins that it adds. -/
theorem search_meant (plain : Plain root) (state final : SearchState) (rel : SearchRel)
    (separate : Separate initialRels state.joinRelList)
    (clausal : ∀ rel ∈ initialRels, Clausal root clauses rel)
    (explains : reading.Explains root.eqClasses clauses baseRels state)
    (live : ∀ rel ∈ initialRels, planned baseRels state rel.relids)
    (small : ∀ call ∈ state.calls, size (blocksOf initialRels) call.outerrel ≤ 1 ∧
      size (blocksOf initialRels) call.innerrel ≤ 1)
    (ran : aqoJoinSearch root initialRels.length initialRels state = .ok (rel,final)) :
    Layered initialRels state.joinRelList state.calls final ∧
      Meant reading root clauses baseRels initialRels state
        {final with joinCurLevel := 2 + (initialRels.length - 1)} := by
  obtain ⟨searched,_⟩ := aqoJoinSearch_cases initialRels.length state final rel ran
  have joins : keptByJoins root initialRels state.joinRelList state.calls
      (Meant reading root clauses baseRels initialRels state) := by
    intro current next rel1 rel2 i j matched layered sized legal meant made
    obtain rfl := legalAs_plain rel1 rel2 plain matched legal
    exact inner_meant lawful wellFormed base based separate layered sized meant made
  have start : Meant reading root clauses baseRels initialRels state
      {startSearch state initialRels with joinCurLevel := 2} := by
    refine ⟨⟨⟨[],(List.append_nil _).symm⟩,fun _ marked => marked⟩,
      ⟨explains.trees,explains.dummies⟩,startSearch_clausal state clausal,
      fun call recorded => ?_,?_⟩
    · obtain ⟨outer,inner⟩ := small call recorded
      exact ⟨Nat.lt_succ_of_le outer,Nat.lt_succ_of_le inner⟩
    · intro level rel built
      by_cases one : level = 1
      · subst one
        exact live rel (by simpa [startSearch] using built)
      · simp [startSearch,one] at built
  refine foldlM_counted (joinSearchOneLevel root) (fun level current =>
    Layered initialRels state.joinRelList state.calls current ∧
      Meant reading root clauses baseRels initialRels state {current with joinCurLevel := level})
    2 (initialRels.length - 1) ?_ _ final ⟨startSearch_layered separate state rfl,start⟩ searched
  rintro level current next low _ ⟨layered,meant⟩ stepped
  obtain ⟨within,after⟩ :=
    joinSearchOneLevel_kept separate _ joins current next layered level meant low stepped
  exact ⟨within.layered,after.raise (level + 1) (by rw [within.current]; omega)⟩

end Invariant

end ExploratoryOptimizer.JoinSearch
