import ExploratoryOptimizer.JoinSearch.Clauses
import ExploratoryOptimizer.Library.Machine

/-! Safety of the join order. Every join that `join_is_legal` lets through keeps the hands of the
special joins together, and in every tree of recorded joins each special join is performed at one
node, with its left hand on the left and its right hand on the right. -/
namespace ExploratoryOptimizer.JoinSearch
open Library.Blocks Library.JoinTree

/-- What the planner knows of the special joins it makes. -/
structure SpecialJoinInfo.Proper (sjinfo : SpecialJoinInfo) : Prop where
  left : sjinfo.minLefthand.Nonempty
  right : sjinfo.minRighthand.Nonempty
  disjoint : Disjoint sjinfo.minLefthand sjinfo.minRighthand
  syntactic : sjinfo.minRighthand ⊆ sjinfo.synRighthand
  special : sjinfo.jointype ≠ .inner

/-- The relation misses the right hand, is a part of it, or has the special join behind it. A left
join also lets relations associate into its right hand as long as they miss the left one. -/
def SpecialJoinInfo.respectedIn (sjinfo : SpecialJoinInfo) (relids : Relids) : Prop :=
  ¬overlap sjinfo.minRighthand relids ∨ relids ⊆ sjinfo.minRighthand ∨ sjinfo.settledIn relids ∨
    sjinfo.jointype = .left ∧ ¬overlap sjinfo.minLefthand relids

/-- The special join can be performed with these inputs, or its unique right hand joined. -/
def SpecialJoinInfo.fits (sjinfo : SpecialJoinInfo) (left right : Relids) : Prop :=
  sjinfo.minLefthand ⊆ left ∧ sjinfo.minRighthand ⊆ right ∨ sjinfo.jointype = .semi ∧
    sjinfo.synRighthand = right

/-- `join_is_legal` passes over the special join. -/
def SpecialJoinInfo.passedOver (sjinfo : SpecialJoinInfo) (rel1 rel2 joinrelids : Relids) : Prop :=
  ¬overlap sjinfo.minRighthand joinrelids ∨ joinrelids ⊆ sjinfo.minRighthand ∨
    sjinfo.settledIn rel1 ∨ sjinfo.settledIn rel2

section Settled

variable (sjinfo : SpecialJoinInfo)

theorem settledIn_mono (small large : Relids) (inside : small ⊆ large)
    (settled : sjinfo.settledIn small) :
    sjinfo.settledIn large := by
  rcases settled with ⟨left,right⟩ | ⟨semi,within,different⟩
  · exact .inl ⟨left.trans inside,right.trans inside⟩
  · refine .inr ⟨semi,within.trans inside,fun same => different ?_⟩
    exact within.antisymm (same ▸ inside)

theorem fits_settled (left right : Relids) (fits : sjinfo.fits left right)
    (separate : Disjoint left right) (inhabited : left.Nonempty) :
    sjinfo.settledIn (left ∪ right) := by
  rcases fits with ⟨inLeft,inRight⟩ | ⟨semi,same⟩
  · exact .inl ⟨inLeft.trans Finset.subset_union_left,inRight.trans Finset.subset_union_right⟩
  · refine .inr ⟨semi,same ▸ Finset.subset_union_right,fun equal => ?_⟩
    obtain ⟨relid,member⟩ := inhabited
    have absent := Finset.disjoint_left.mp separate member
    rw [← same,equal] at absent
    exact absent (Finset.mem_union_left _ member)

/-- A relation that reaches into the right hand without the special join behind it lies in it, or
misses the left hand of a left join. -/
theorem respected_both (relids : Relids) (respected : sjinfo.respectedIn relids)
    (meets : overlap sjinfo.minRighthand relids) (unsettled : ¬sjinfo.settledIn relids) :
    relids ⊆ sjinfo.minRighthand ∨ sjinfo.jointype = .left ∧
      ¬overlap sjinfo.minLefthand relids := by
  rcases respected with misses | part | settled | outside
  · exact absurd meets misses
  · exact .inl part
  · exact absurd settled unsettled
  · exact .inr outside

variable {sjinfo} (proper : sjinfo.Proper)

include proper

theorem settled_reaches (relids : Relids) (settled : sjinfo.settledIn relids) :
    overlap sjinfo.minRighthand relids ∧ ¬relids ⊆ sjinfo.minRighthand := by
  have inside : sjinfo.minRighthand ⊆ relids := by
    rcases settled with ⟨_,right⟩ | ⟨_,within,_⟩
    · exact right
    · exact proper.syntactic.trans within
  obtain ⟨relid,member⟩ := proper.right
  refine ⟨(overlap_iff _ _).mpr ⟨relid,member,inside member⟩,fun part => ?_⟩
  rcases settled with ⟨left,_⟩ | ⟨_,within,different⟩
  · obtain ⟨other,leftMember⟩ := proper.left
    exact Finset.disjoint_left.mp proper.disjoint leftMember (part (left leftMember))
  · exact different (within.antisymm (part.trans proper.syntactic))

theorem settled_exclusive (first second : Relids) (inFirst : sjinfo.settledIn first)
    (inSecond : sjinfo.settledIn second) : ¬Disjoint first second := by
  have reach : ∀ relids, sjinfo.settledIn relids → sjinfo.minRighthand ⊆ relids := by
    rintro relids (⟨_,right⟩ | ⟨_,within,_⟩)
    · exact right
    · exact proper.syntactic.trans within
  obtain ⟨relid,member⟩ := proper.right
  exact fun separate => Finset.disjoint_left.mp separate (reach first inFirst member)
    (reach second inSecond member)

theorem away_unsettled (relids : Relids) (left : sjinfo.jointype = .left)
    (away : ¬overlap sjinfo.minLefthand relids) :
    ¬sjinfo.settledIn relids := by
  rintro (⟨inside,_⟩ | ⟨semi,_⟩)
  · obtain ⟨relid,here⟩ := proper.left
    exact away ((overlap_iff _ _).mpr ⟨relid,here,inside here⟩)
  · rw [left] at semi
    cases semi

theorem part_misses_left (relids : Relids) (part : relids ⊆ sjinfo.minRighthand) :
    ¬overlap sjinfo.minLefthand relids := not_not.mpr (proper.disjoint.mono_right part)

end Settled

section Scan

variable (root : PlannerInfo) (rel1 rel2 joinrelids : Relids)

theorem perform_some (found after : Found) (sjinfo : SpecialJoinInfo) (reversed uniqueIfied : Bool)
    (done : found.perform sjinfo reversed uniqueIfied = some after) :
    found.matchSjinfo = none ∧ after.matchSjinfo = some sjinfo ∧ after.reversed = reversed := by
  unfold Found.perform at done
  split at done
  · cases done
  next free =>
    cases done
    exact ⟨by simpa using free,rfl,rfl⟩

/-- The inputs in the order of the special join. -/
def SpecialJoinInfo.fitsTurned (sjinfo : SpecialJoinInfo) (rel1 rel2 : Relids)
    (reversed : Bool) : Prop :=
  if reversed then sjinfo.fits rel2 rel1 else sjinfo.fits rel1 rel2

/-- What one special join does to the scan. -/
theorem legalStep_cases (found after : Found) (sjinfo : SpecialJoinInfo)
    (done : legalStep root rel1 rel2 joinrelids found sjinfo = some after) :
    sjinfo.passedOver rel1 rel2 joinrelids ∧ after = found ∨
      ¬sjinfo.passedOver rel1 rel2 joinrelids ∧
        ((found.matchSjinfo = none ∧ after.matchSjinfo = some sjinfo ∧
            sjinfo.fitsTurned rel1 rel2 after.reversed) ∨
        (after.matchSjinfo = found.matchSjinfo ∧ after.reversed = found.reversed ∧
          (overlap rel1 sjinfo.minRighthand ∧ overlap rel2 sjinfo.minRighthand ∨
            sjinfo.jointype = .left ∧ ¬overlap joinrelids sjinfo.minLefthand))) := by
  unfold legalStep at done
  by_cases misses : ¬overlap sjinfo.minRighthand joinrelids
  · rw [if_pos misses] at done
    cases done
    exact .inl ⟨.inl misses,rfl⟩
  rw [if_neg misses] at done
  by_cases part : joinrelids ⊆ sjinfo.minRighthand
  · rw [if_pos part] at done
    cases done
    exact .inl ⟨.inr (.inl part),rfl⟩
  rw [if_neg part] at done
  by_cases behind : sjinfo.settledIn rel1 ∨ sjinfo.settledIn rel2
  · rw [if_pos behind] at done
    cases done
    exact .inl ⟨.inr (.inr behind),rfl⟩
  rw [if_neg behind] at done
  have relevant : ¬sjinfo.passedOver rel1 rel2 joinrelids := by
    rintro (away | inside | settled)
    · exact misses away
    · exact part inside
    · exact behind settled
  refine .inr ⟨relevant,?_⟩
  by_cases straight : sjinfo.minLefthand ⊆ rel1 ∧ sjinfo.minRighthand ⊆ rel2
  · rw [if_pos straight] at done
    obtain ⟨free,matched,way⟩ := perform_some found after sjinfo _ _ done
    exact .inl ⟨free,matched,by rw [way]; exact .inl straight⟩
  rw [if_neg straight] at done
  by_cases turned : sjinfo.minLefthand ⊆ rel2 ∧ sjinfo.minRighthand ⊆ rel1
  · rw [if_pos turned] at done
    obtain ⟨free,matched,way⟩ := perform_some found after sjinfo _ _ done
    exact .inl ⟨free,matched,by rw [way]; exact .inl turned⟩
  rw [if_neg turned] at done
  by_cases uniqueSecond :
    sjinfo.jointype = .semi ∧ sjinfo.synRighthand = rel2 ∧ root.createUniquePath rel2 sjinfo
  · rw [if_pos uniqueSecond] at done
    obtain ⟨free,matched,way⟩ := perform_some found after sjinfo _ _ done
    exact .inl ⟨free,matched,by rw [way]; exact .inr ⟨uniqueSecond.1,uniqueSecond.2.1⟩⟩
  rw [if_neg uniqueSecond] at done
  by_cases uniqueFirst :
    sjinfo.jointype = .semi ∧ sjinfo.synRighthand = rel1 ∧ root.createUniquePath rel1 sjinfo
  · rw [if_pos uniqueFirst] at done
    obtain ⟨free,matched,way⟩ := perform_some found after sjinfo _ _ done
    exact .inl ⟨free,matched,by rw [way]; exact .inr ⟨uniqueFirst.1,uniqueFirst.2.1⟩⟩
  rw [if_neg uniqueFirst] at done
  by_cases both : overlap rel1 sjinfo.minRighthand ∧ overlap rel2 sjinfo.minRighthand
  · rw [if_pos both] at done
    cases done
    exact .inr ⟨rfl,rfl,.inl both⟩
  rw [if_neg both] at done
  split at done
  · cases done
  next outside =>
    cases done
    obtain ⟨leftJoin,away⟩ := not_or.mp outside
    exact .inr ⟨rfl,rfl,.inr ⟨not_not.mp leftJoin,away⟩⟩

theorem scan_keeps_match (sjinfos : List SpecialJoinInfo) (found final : Found)
    (sjinfo : SpecialJoinInfo) (matched : found.matchSjinfo = some sjinfo)
    (ran : sjinfos.foldlM (legalStep root rel1 rel2 joinrelids) found = some final) :
    final.matchSjinfo = some sjinfo := by
  refine Library.Machine.foldlM_kept _ (fun found => found.matchSjinfo = some sjinfo) sjinfos ?_
    found final matched ran
  intro found other _ next matched done
  rcases legalStep_cases root rel1 rel2 joinrelids found next other done with
    ⟨_,rfl⟩ | ⟨_,⟨free,_⟩ | ⟨same,_⟩⟩
  · exact matched
  · rw [matched] at free
    cases free
  · rw [same]
    exact matched

/-- The match at the end of the scan is a special join that fits, in the order found. -/
theorem scan_matched (sjinfos : List SpecialJoinInfo) (found final : Found)
    (empty : found.matchSjinfo = none)
    (ran : sjinfos.foldlM (legalStep root rel1 rel2 joinrelids) found = some final)
    (sjinfo : SpecialJoinInfo) (matched : final.matchSjinfo = some sjinfo) :
    sjinfo ∈ sjinfos ∧ ¬sjinfo.passedOver rel1 rel2 joinrelids ∧
      sjinfo.fitsTurned rel1 rel2 final.reversed := by
  refine Library.Machine.foldlM_kept _ (fun found => ∀ sjinfo, found.matchSjinfo = some sjinfo →
    sjinfo ∈ sjinfos ∧ ¬sjinfo.passedOver rel1 rel2 joinrelids ∧
    sjinfo.fitsTurned rel1 rel2 found.reversed)
    sjinfos ?_ found final (by simp [empty]) ran sjinfo matched
  intro found other member next holds done sjinfo matched
  rcases legalStep_cases root rel1 rel2 joinrelids found next other done with
    ⟨_,rfl⟩ | ⟨relevant,⟨_,here,fits⟩ | ⟨same,way,_⟩⟩
  · exact holds sjinfo matched
  · rw [here] at matched
    cases matched
    exact ⟨member,relevant,fits⟩
  · rw [same] at matched
    rw [way]
    exact holds sjinfo matched

/-- Each special join is passed over, is the match, or is not violated by the join. -/
theorem scan_each (sjinfos : List SpecialJoinInfo) (found final : Found)
    (ran : sjinfos.foldlM (legalStep root rel1 rel2 joinrelids) found = some final)
    (sjinfo : SpecialJoinInfo) (member : sjinfo ∈ sjinfos) :
    sjinfo.passedOver rel1 rel2 joinrelids ∨ final.matchSjinfo = some sjinfo ∨
      overlap rel1 sjinfo.minRighthand ∧ overlap rel2 sjinfo.minRighthand ∨
      sjinfo.jointype = .left ∧ ¬overlap joinrelids sjinfo.minLefthand := by
  induction sjinfos generalizing found with
  | nil => cases member
  | cons head rest ih =>
    rw [List.foldlM_cons] at ran
    obtain ⟨next,done,remaining⟩ := Option.bind_eq_some_iff.mp ran
    rcases List.mem_cons.mp member with rfl | later
    · rcases legalStep_cases root rel1 rel2 joinrelids found next sjinfo done with
        ⟨passed,_⟩ | ⟨_,⟨_,matched,_⟩ | ⟨_,_,harmless⟩⟩
      · exact .inl passed
      · exact .inr (.inl (scan_keeps_match root rel1 rel2 joinrelids rest next final sjinfo
              matched remaining))
      · exact .inr (.inr harmless)
    · exact ih next remaining later

end Scan

section Legal

variable {root : PlannerInfo} {first second : SearchRel} {matched : Option SpecialJoinInfo}

theorem joinIsLegal_scan (rel1 rel2 : SearchRel) (joinrelids : Relids) (reversed : Bool)
    (legal : joinIsLegal root rel1 rel2 joinrelids = some (matched,reversed)) :
    ∃ found, scanSpecialJoins root rel1.relids rel2.relids joinrelids = some found ∧
      found.matchSjinfo = matched ∧ found.reversed = reversed := by
  unfold joinIsLegal at legal
  split at legal
  · cases legal
  next found scanned =>
    split at legal
    · cases legal
    · split at legal
      · cases legal
      · cases legal
        exact ⟨found,scanned,rfl,rfl⟩

/-- In the order of the special join the match fits, and it was not settled before. -/
theorem legalAs_match (legal : legalAs root first second matched) (sjinfo : SpecialJoinInfo)
    (isMatch : matched = some sjinfo) :
    sjinfo ∈ root.joinInfoList ∧ sjinfo.fits first.relids second.relids ∧
      ¬sjinfo.settledIn first.relids ∧ ¬sjinfo.settledIn second.relids := by
  rcases legal with straight | turned
  · obtain ⟨found,scanned,same,way⟩ := joinIsLegal_scan first second _ false straight
    obtain ⟨member,relevant,fits⟩ :=
      scan_matched root _ _ _ _ _ found rfl scanned sjinfo (same.trans isMatch)
    rw [way] at fits
    exact ⟨member,fits,fun settled => relevant (.inr (.inr (.inl settled))),
      fun settled => relevant (.inr (.inr (.inr settled)))⟩
  · obtain ⟨found,scanned,same,way⟩ := joinIsLegal_scan second first _ true turned
    obtain ⟨member,relevant,fits⟩ :=
      scan_matched root _ _ _ _ _ found rfl scanned sjinfo (same.trans isMatch)
    rw [way] at fits
    exact ⟨member,fits,fun settled => relevant (.inr (.inr (.inr settled))),
      fun settled => relevant (.inr (.inr (.inl settled)))⟩

theorem legalAs_each (legal : legalAs root first second matched) (sjinfo : SpecialJoinInfo)
    (member : sjinfo ∈ root.joinInfoList) :
    sjinfo.passedOver first.relids second.relids (first.relids ∪ second.relids) ∨
      matched = some sjinfo ∨
      overlap sjinfo.minRighthand first.relids ∧ overlap sjinfo.minRighthand second.relids ∨
      sjinfo.jointype = .left ∧ ¬overlap sjinfo.minLefthand (first.relids ∪ second.relids) := by
  rcases legal with straight | turned
  · obtain ⟨found,scanned,rfl,_⟩ := joinIsLegal_scan first second _ false straight
    rcases scan_each root _ _ _ _ _ found scanned sjinfo
      member with passed | isMatch | ⟨meetsFirst,meetsSecond⟩ |
        ⟨left,away⟩
    · exact .inl passed
    · exact .inr (.inl isMatch)
    · exact .inr (.inr (.inl ⟨(overlap_comm _ _).mp meetsFirst,(overlap_comm _ _).mp meetsSecond⟩))
    · exact .inr (.inr (.inr ⟨left,fun meets => away ((overlap_comm _ _).mp meets)⟩))
  · obtain ⟨found,scanned,rfl,_⟩ := joinIsLegal_scan second first _ true turned
    rw [Finset.union_comm first.relids]
    rcases scan_each root _ _ _ _ _ found scanned sjinfo
      member with passed | isMatch | ⟨meetsSecond,meetsFirst⟩ |
        ⟨left,away⟩
    · exact .inl (passed.imp_right (Or.imp_right Or.symm))
    · exact .inr (.inl isMatch)
    · exact .inr (.inr (.inl ⟨(overlap_comm _ _).mp meetsFirst,(overlap_comm _ _).mp meetsSecond⟩))
    · exact .inr (.inr (.inr ⟨left,fun meets => away ((overlap_comm _ _).mp meets)⟩))

variable {sjinfo : SpecialJoinInfo} (proper : sjinfo.Proper) (member : sjinfo ∈ root.joinInfoList)
  (legal : legalAs root first second matched) (separate : Disjoint first.relids second.relids)
  (inhabited : first.relids.Nonempty) (firstRespected : sjinfo.respectedIn first.relids)
  (secondRespected : sjinfo.respectedIn second.relids)

include proper member legal separate inhabited firstRespected secondRespected

/-- The special join is the match, or begins at this join neither as the match nor otherwise. -/
theorem legalAs_respected :
    sjinfo.respectedIn (first.relids ∪ second.relids) ∧
      (matched = some sjinfo ↔ Tree.begins sjinfo.settledIn first.relids second.relids) := by
  have performed :
    matched = some sjinfo → Tree.begins sjinfo.settledIn first.relids second.relids := by
    intro isMatch
    obtain ⟨_,fits,firstOpen,secondOpen⟩ := legalAs_match legal sjinfo isMatch
    exact ⟨fits_settled sjinfo _ _ fits separate inhabited,firstOpen,secondOpen⟩
  rcases legalAs_each legal sjinfo member with passed | isMatch | ⟨meetsFirst,
    meetsSecond⟩ | ⟨left,away⟩
  · -- passed over: away from the right hand, within it, or with the special join behind
    rcases passed with misses | part | settled | settled
    · refine ⟨.inl misses,performed,fun ⟨settled,_⟩ => ?_⟩
      exact absurd (settled_reaches proper _ settled).1 misses
    · refine ⟨.inr (.inl part),performed,fun ⟨settled,_⟩ => ?_⟩
      exact absurd part (settled_reaches proper _ settled).2
    · refine ⟨.inr (.inr (.inl (settledIn_mono sjinfo _ _ Finset.subset_union_left settled))),
        performed,?_⟩
      exact fun ⟨_,unsettled,_⟩ => absurd settled unsettled
    · refine ⟨.inr (.inr (.inl (settledIn_mono sjinfo _ _ Finset.subset_union_right settled))),
        performed,?_⟩
      exact fun ⟨_,_,unsettled⟩ => absurd settled unsettled
  · have begins := performed isMatch
    exact ⟨.inr (.inr (.inl begins.1)),performed,fun _ => isMatch⟩
  · -- both reach into the right hand
    by_cases firstSettled : sjinfo.settledIn first.relids
    · refine ⟨.inr (.inr (.inl (settledIn_mono sjinfo _ _ Finset.subset_union_left firstSettled))),
        performed,?_⟩
      exact fun ⟨_,unsettled,_⟩ => absurd firstSettled unsettled
    by_cases secondSettled : sjinfo.settledIn second.relids
    · refine ⟨.inr (.inr (.inl
            (settledIn_mono sjinfo _ _ Finset.subset_union_right secondSettled))),performed,?_⟩
      exact fun ⟨_,_,unsettled⟩ => absurd secondSettled unsettled
    have leftAway :
      sjinfo.jointype = .left → ¬overlap sjinfo.minLefthand (first.relids ∪ second.relids) := by
      intro _ meets
      rw [overlap_comm,overlap_union,overlap_comm,overlap_comm second.relids] at meets
      rcases meets with meets | meets
      · rcases respected_both sjinfo _ firstRespected meetsFirst firstSettled with part | ⟨_,away⟩
        · exact part_misses_left proper _ part meets
        · exact away meets
      · rcases respected_both sjinfo _ secondRespected meetsSecond
          secondSettled with part | ⟨_,away⟩
        · exact part_misses_left proper _ part meets
        · exact away meets
    by_cases left : sjinfo.jointype = .left
    · refine ⟨.inr (.inr (.inr ⟨left,leftAway left⟩)),performed,fun ⟨settled,_⟩ => ?_⟩
      exact absurd settled (away_unsettled proper _ left (leftAway left))
    · have part : first.relids ∪ second.relids ⊆ sjinfo.minRighthand := by
        apply Finset.union_subset
        · exact (respected_both sjinfo _ firstRespected meetsFirst firstSettled).resolve_right
            fun out => left out.1
        · exact (respected_both sjinfo _ secondRespected meetsSecond secondSettled).resolve_right
            fun out => left out.1
      refine ⟨.inr (.inl part),performed,fun ⟨settled,_⟩ => ?_⟩
      exact absurd part (settled_reaches proper _ settled).2
  · refine ⟨.inr (.inr (.inr ⟨left,away⟩)),performed,fun ⟨settled,_⟩ => ?_⟩
    exact absurd settled (away_unsettled proper _ left away)

end Legal

section Search

variable {root : PlannerInfo} {initialRels old : List SearchRel} {oldCalls : List JoinCall}

/-- The hands of the special join are on the sides that the join type of the call says. -/
def JoinCall.oriented (call : JoinCall) : Prop :=
  match call.jointype with
  | .right => call.sjinfo.minLefthand ⊆ call.innerrel ∧ call.sjinfo.minRighthand ⊆ call.outerrel
  | .full => call.sjinfo.minLefthand ⊆ call.outerrel ∧ call.sjinfo.minRighthand ⊆ call.innerrel ∨
      call.sjinfo.minLefthand ⊆ call.innerrel ∧ call.sjinfo.minRighthand ⊆ call.outerrel
  | .uniqueOuter => call.outerrel = call.sjinfo.synRighthand
  | .uniqueInner => call.innerrel = call.sjinfo.synRighthand
  | _ => call.sjinfo.minLefthand ⊆ call.outerrel ∧ call.sjinfo.minRighthand ⊆ call.innerrel

theorem forwardTypes_cases (type jointype : JoinPath.JoinType) (special : type ≠ .inner)
    (kind : jointype ∈ forwardTypes type) :
    (jointype = .semi ∨ jointype = .uniqueInner) ∨
      type ≠ .semi ∧ (jointype = .left ∨ jointype = .full ∨ jointype = .anti) := by
  cases type <;> simp_all [forwardTypes]

theorem backwardTypes_cases (type jointype : JoinPath.JoinType) (special : type ≠ .inner)
    (kind : jointype ∈ backwardTypes type) :
    jointype = .uniqueOuter ∨ type ≠ .semi ∧ (jointype = .right ∨ jointype = .full) := by
  cases type <;> simp_all [backwardTypes]

/-- The calls of a special join that fits put its hands on the right sides. -/
theorem isFor_oriented (call : JoinCall) (joinrel rel1 rel2 : Relids) (sjinfo : SpecialJoinInfo)
    (restrictlist : List RestrictInfo) (isFor : call.isFor joinrel rel1 rel2 sjinfo restrictlist)
    (special : sjinfo.jointype ≠ .inner) (fits : sjinfo.fits rel1 rel2) : call.oriented := by
  have hands : sjinfo.jointype ≠ .semi → sjinfo.minLefthand ⊆ rel1 ∧
    sjinfo.minRighthand ⊆ rel2 := by
    intro notSemi
    rcases fits with both | ⟨semi,_⟩
    · exact both
    · exact absurd semi notSemi
  unfold JoinCall.oriented
  rw [isFor.sjinfo]
  rcases isFor.sides with ⟨outer,inner,kind⟩ | ⟨outer,inner,kind⟩
  · rw [outer,inner]
    rcases forwardTypes_cases _ _ special kind with (semi | unique) | ⟨notSemi,left | full | anti⟩
    · rw [semi]
      exact isFor.semijoin semi
    · rw [unique]
      exact (isFor.unique (.inl unique)).symm
    · rw [left]
      exact hands notSemi
    · rw [full]
      exact .inl (hands notSemi)
    · rw [anti]
      exact hands notSemi
  · rw [outer,inner]
    rcases backwardTypes_cases _ _ special kind with unique | ⟨notSemi,right | full⟩
    · rw [unique]
      exact (isFor.unique (.inr unique)).symm
    · rw [right]
      exact hands notSemi
    · rw [full]
      exact .inr (hands notSemi)

def allRespect (sjinfo : SpecialJoinInfo) (state : SearchState) : Prop :=
  ∀ level, ∀ rel ∈ state.joinRelLevel level, sjinfo.respectedIn rel.relids

/-- The calls that perform the special join are those at which it begins, and they are oriented. -/
def JoinCall.performsRightly (sjinfo : SpecialJoinInfo) (call : JoinCall) : Prop :=
  (call.sjinfo = sjinfo ↔ Tree.begins sjinfo.settledIn call.outerrel call.innerrel) ∧
    (call.sjinfo = sjinfo → call.oriented)

theorem joined_performs (separate : Separate initialRels old) (sjinfo : SpecialJoinInfo)
    (proper : sjinfo.Proper) (member : sjinfo ∈ root.joinInfoList) :
    keptByJoins root initialRels old oldCalls fun state =>
      allRespect sjinfo state ∧ ∀ call ∈ state.since oldCalls, call.performsRightly sjinfo := by
  rintro state next rel1 rel2 i j matched layered sized legal ⟨respected,performed⟩ made
  have joined := makeLegalJoinRel_joined root state next rel1 rel2 _ made
  obtain ⟨together,isMatch⟩ := legalAs_respected proper member legal sized.disjoint
    (layered_nonempty separate layered i sized.firstPos rel1 sized.first)
    (respected i rel1 sized.first) (respected j rel2 sized.second)
  refine ⟨fun level rel inLevel => ?_,fun call recorded => ?_⟩
  · rcases joined_mem_level root rel1 rel2 _ joined level rel inLevel with before | ⟨_,rfl⟩
    · exact respected level rel before
    · exact together
  · obtain ⟨added,appended,isFor⟩ := joined.calls
    rw [since_append state next oldCalls added layered.earlier appended] at recorded
    rcases List.mem_append.mp recorded with before | new
    · exact performed call before
    · have facts := isFor call new
      have same : call.sjinfo = sjinfo ↔ matched = some sjinfo := by
        rw [facts.sjinfo]
        cases matched with
        | none =>
          refine ⟨fun equal => ?_,fun isSome => by cases isSome⟩
          exact absurd (congrArg SpecialJoinInfo.jointype equal).symm proper.special
        | some other => simp
      refine ⟨?_,fun performs => ?_⟩
      · rw [same,isMatch]
        rcases facts.sides with ⟨outer,inner,_⟩ | ⟨outer,inner,_⟩
        · rw [outer,inner]
        · rw [outer,inner,begins_comm]
      · have isSome := same.mp performs
        subst isSome
        exact isFor_oriented call _ _ _ sjinfo _ facts proper.special
          (legalAs_match legal sjinfo rfl).2.1

variable {state final : SearchState} {rel : SearchRel}
  (separate : Separate initialRels state.joinRelList)
  (ran : aqoJoinSearch root initialRels.length initialRels state = .ok (rel,final))
  (sjinfo : SpecialJoinInfo) (proper : sjinfo.Proper) (member : sjinfo ∈ root.joinInfoList)
  (respected : ∀ rel ∈ initialRels, sjinfo.respectedIn rel.relids)

include separate ran proper member respected

theorem search_performs :
    Layered initialRels state.joinRelList state.calls final ∧ allRespect sjinfo final ∧
      ∀ call ∈ final.since state.calls, call.performsRightly sjinfo := by
  obtain ⟨searched,_,_⟩ := aqoJoinSearch_cases initialRels.length state final rel ran
  refine searchLevels_kept separate _ (joined_performs separate sjinfo proper member)
    (fun _ _ holds => holds) initialRels.length _ final (startSearch_layered separate state rfl)
    ⟨?_,?_⟩ searched
  · intro level rel inLevel
    by_cases one : level = 1
    · subst one
      exact respected rel (by simpa [startSearch] using inLevel)
    · simp [startSearch,one] at inLevel
  · have none : (startSearch state initialRels).since state.calls = [] := List.drop_length
    simp [none]

end Search

/-- No relation that the search builds holds a part of a special join's work: if it reaches into the
right hand and out of it, it has performed the special join, or made its right hand unique, or it is
on the way to the right side of a left join and away from the left side. -/
theorem aqoJoinSearch_keeps_hands (root : PlannerInfo) (initialRels : List SearchRel)
    (state final : SearchState) (rel : SearchRel)
    (separate : Separate initialRels state.joinRelList)
    (proper : ∀ sjinfo ∈ root.joinInfoList, sjinfo.Proper)
    (respected : ∀ sjinfo ∈ root.joinInfoList, ∀ rel ∈ initialRels, sjinfo.respectedIn rel.relids)
    (ran : aqoJoinSearch root initialRels.length initialRels state = .ok (rel,final)) (level : Nat)
    (joinrel : SearchRel) (built : joinrel ∈ final.joinRelLevel level) (sjinfo : SpecialJoinInfo)
    (member : sjinfo ∈ root.joinInfoList) :
    (overlap sjinfo.minLefthand joinrel.relids → overlap sjinfo.minRighthand joinrel.relids →
        sjinfo.settledIn joinrel.relids) ∧
      (sjinfo.jointype ≠ .left → overlap sjinfo.minRighthand joinrel.relids →
        ¬joinrel.relids ⊆ sjinfo.minRighthand → sjinfo.settledIn joinrel.relids) := by
  have kept :=
    (search_performs separate ran sjinfo (proper sjinfo member) member
        (respected sjinfo member)).2.1
    level joinrel built
  refine ⟨fun meetsLeft meetsRight => ?_,fun notLeft meetsRight reachesOut => ?_⟩
  · rcases kept with misses | part | settled | ⟨_,away⟩
    · exact absurd meetsRight misses
    · exact absurd meetsLeft (part_misses_left (proper sjinfo member) _ part)
    · exact settled
    · exact absurd meetsLeft away
  · rcases kept with misses | part | settled | ⟨left,_⟩
    · exact absurd meetsRight misses
    · exact absurd part reachesOut
    · exact settled
    · exact absurd left notLeft

theorem leftJoin_proper : leftJoin.Proper := ⟨by decide,by decide,by decide,by decide,by decide⟩

theorem leftJoin_respected : ∀ rel ∈ threeRels, leftJoin.respectedIn rel.relids := by
  unfold SpecialJoinInfo.respectedIn
  decide

theorem aqoJoinSearch_keeps_hands_leftJoin :
    ∃ rel final, aqoJoinSearch leftJoinRoot threeRels.length threeRels emptySearch =
      .ok (rel,final) ∧
      ∀ joinrel ∈ final.joinRelLevel 2, overlap {2} joinrel.relids → overlap {3} joinrel.relids →
        leftJoin.settledIn joinrel.relids := by
  obtain ⟨rel,final,ran⟩ := leftJoin_ends
  have only : ∀ sjinfo ∈ leftJoinRoot.joinInfoList, sjinfo = leftJoin :=
    fun _ member => List.mem_singleton.mp member
  refine ⟨rel,final,ran,fun joinrel built => ?_⟩
  exact (aqoJoinSearch_keeps_hands leftJoinRoot threeRels emptySearch final rel threeRels_separate
    (fun sjinfo member => only sjinfo member ▸ leftJoin_proper)
    (fun sjinfo member => only sjinfo member ▸ leftJoin_respected) ran 2 joinrel built leftJoin
    (List.mem_singleton_self _)).1

/-- In every tree of recorded joins that has a special join behind it, exactly one node performs it;
in a tree that has not, none does. The node has the left hand on the outer side and the right hand
on the inner one, the other way round for a right join, or joins the unique right hand of a
semijoin. -/
theorem aqoJoinSearch_performs_once (root : PlannerInfo) (initialRels : List SearchRel)
    (state final : SearchState) (rel : SearchRel)
    (separate : Separate initialRels state.joinRelList)
    (ran : aqoJoinSearch root initialRels.length initialRels state = .ok (rel,final))
    (sjinfo : SpecialJoinInfo) (proper : sjinfo.Proper) (member : sjinfo ∈ root.joinInfoList)
    (respected : ∀ rel ∈ initialRels, sjinfo.respectedIn rel.relids ∧
      ¬sjinfo.settledIn rel.relids) :
    (∀ call ∈ final.since state.calls, call.sjinfo = sjinfo → call.oriented) ∧
      ∀ tree relids, Planned initialRels (final.since state.calls) tree relids →
        tree.countNodes (fun call => call.sjinfo = sjinfo) = if sjinfo.settledIn relids then 1
        else 0 := by
  obtain ⟨layered,_,performed⟩ := search_performs separate ran sjinfo proper member
    fun rel among => (respected rel among).1
  refine ⟨fun call made => (performed call made).2,fun tree relids planned => ?_⟩
  exact planned_once initialRels _ (layered_unites layered) sjinfo.settledIn (settledIn_mono sjinfo)
    (settled_exclusive proper) (fun rel among => (respected rel among).2) _
    (fun call made => (performed call made).1) tree relids planned

theorem aqoJoinSearch_performs_once_leftJoin :
    ∃ rel final, aqoJoinSearch leftJoinRoot threeRels.length threeRels emptySearch =
      .ok (rel,final) ∧ ∀ tree, Planned threeRels (final.since emptySearch.calls) tree {1,2,3} →
        tree.countNodes (fun call => call.sjinfo = leftJoin) = 1 := by
  obtain ⟨rel,final,ran⟩ := leftJoin_ends
  refine ⟨rel,final,ran,fun tree planned => ?_⟩
  exact (aqoJoinSearch_performs_once leftJoinRoot threeRels emptySearch final rel
      threeRels_separate ran leftJoin
    leftJoin_proper (List.mem_singleton_self _)
    (fun rel member => ⟨leftJoin_respected rel member,by revert rel; decide⟩)).2
      tree {1,2,3} planned

end ExploratoryOptimizer.JoinSearch
