import ExploratoryOptimizer.JoinSearch.Rels
import ExploratoryOptimizer.Library.Saturation

/-! Join-order restrictions of path/joinrels.c: `join_is_legal` with its scan of the special joins
and its tests of the lateral references, and the heuristics that ask for a join without a clause. -/
namespace ExploratoryOptimizer.JoinSearch
open Library.Saturation

/-- The local variables of `join_is_legal`. -/
structure Found where
  matchSjinfo : Option SpecialJoinInfo
  reversed : Bool
  uniqueIfied : Bool
  mustBeLeftjoin : Bool
  deriving DecidableEq

/-- A second match makes the join invalid. -/
def Found.perform (found : Found) (sjinfo : SpecialJoinInfo)
    (reversed uniqueIfied : Bool) : Option Found :=
  if found.matchSjinfo.isSome then none
  else
    some {found with matchSjinfo := some sjinfo, reversed := reversed, uniqueIfied := uniqueIfied}

/-- Both hands are in the relation, or the right hand of a semijoin and more: the semijoin was
performed, or its right hand made unique, within. -/
def SpecialJoinInfo.settledIn (sjinfo : SpecialJoinInfo) (relids : Relids) : Prop :=
  sjinfo.minLefthand ⊆ relids ∧ sjinfo.minRighthand ⊆ relids ∨
    sjinfo.jointype = .semi ∧ sjinfo.synRighthand ⊆ relids ∧ sjinfo.synRighthand ≠ relids

instance (sjinfo : SpecialJoinInfo) (relids : Relids) : Decidable (sjinfo.settledIn relids) :=
  inferInstanceAs (Decidable (_ ∨ _))

/-- The body of the scan. `none` is a join that is not valid. -/
def legalStep (root : PlannerInfo) (rel1 rel2 joinrelids : Relids) (found : Found)
    (sjinfo : SpecialJoinInfo) :
    Option Found :=
  if ¬overlap sjinfo.minRighthand joinrelids then some found
  else if joinrelids ⊆ sjinfo.minRighthand then some found
  else if sjinfo.settledIn rel1 ∨ sjinfo.settledIn rel2 then some found
  else if sjinfo.minLefthand ⊆ rel1 ∧ sjinfo.minRighthand ⊆ rel2 then
    found.perform sjinfo false false
  else if sjinfo.minLefthand ⊆ rel2 ∧ sjinfo.minRighthand ⊆ rel1 then
    found.perform sjinfo true false
  else if sjinfo.jointype = .semi ∧ sjinfo.synRighthand = rel2 ∧
    root.createUniquePath rel2 sjinfo then
    found.perform sjinfo false true
  else if sjinfo.jointype = .semi ∧ sjinfo.synRighthand = rel1 ∧
    root.createUniquePath rel1 sjinfo then
    found.perform sjinfo true true
  -- the right hand was violated before, within the inputs
  else if overlap rel1 sjinfo.minRighthand ∧ overlap rel2 sjinfo.minRighthand then some found
  else if sjinfo.jointype ≠ .left ∨ overlap joinrelids sjinfo.minLefthand then none
  else some {found with mustBeLeftjoin := true}

def scanSpecialJoins (root : PlannerInfo) (rel1 rel2 joinrelids : Relids) : Option Found :=
  root.joinInfoList.foldlM (legalStep root rel1 rel2 joinrelids) ⟨none,false,false,false⟩

/-- The join associates into the right hand of a special join and is not a strict left join. -/
def Found.breaksRighthand (found : Found) : Prop :=
  found.mustBeLeftjoin ∧ ¬∃ sjinfo ∈ found.matchSjinfo, sjinfo.jointype = .left ∧ sjinfo.lhsStrict

instance (found : Found) : Decidable found.breaksRighthand := inferInstanceAs (Decidable (_ ∧ ¬_))

def haveDangerousPhv (root : PlannerInfo) (outerRelids innerParams : Relids) : Prop :=
  ∃ phinfo ∈ root.placeholderList, phinfo.phEvalAt ⊆ innerParams ∧
    overlap phinfo.phEvalAt outerRelids ∧ ¬phinfo.phEvalAt ⊆ outerRelids

instance (root : PlannerInfo) (outerRelids innerParams : Relids) :
    Decidable (haveDangerousPhv root outerRelids innerParams) :=
  inferInstanceAs (Decidable (∃ phinfo ∈ root.placeholderList, _))

/-- The inner relation refers to the outer one: a nested loop in this direction has to do. -/
def nestloopPossible (root : PlannerInfo) (outerRel innerRel : SearchRel) (found : Found)
    (wrongWay : Bool) : Prop :=
  (¬∃ sjinfo ∈ found.matchSjinfo, wrongWay ∨ found.uniqueIfied ∨ sjinfo.jointype = .full) ∧
    overlap outerRel.relids innerRel.directLateralRelids ∧
    ¬haveDangerousPhv root outerRel.relids innerRel.lateralRelids

instance (root : PlannerInfo) (outerRel innerRel : SearchRel) (found : Found) (wrongWay : Bool) :
    Decidable (nestloopPossible root outerRel innerRel found wrongWay) :=
  inferInstanceAs (Decidable ((¬_) ∧ _))

/-- What joining a relation of the set will bring in, as rules of one step. -/
def rhsRules (root : PlannerInfo) : List (Rule Nat) :=
  root.joinInfoList.flatMap fun sjinfo =>
    ⟨sjinfo.minLefthand,sjinfo.minRighthand⟩ ::
      -- full joins constrain both sides
      if sjinfo.jointype = .full then [⟨sjinfo.minRighthand,sjinfo.minLefthand⟩] else []

-- The loop ends by itself: a pass that changes something adds the set of one rule at least.
def joinPlusRhs (root : PlannerInfo) (joinrelids : Relids) : Relids :=
  saturate (Rule.sweep (rhsRules root)) ((rhsRules root).length + 1) joinrelids

def lateralsPossible (root : PlannerInfo) (rel1 rel2 : SearchRel) (joinrelids : Relids)
    (found : Found) : Prop :=
  ¬(overlap rel1.relids rel2.lateralRelids ∧ overlap rel2.relids rel1.lateralRelids) ∧
    (overlap rel1.relids rel2.lateralRelids →
      nestloopPossible root rel1 rel2 found found.reversed) ∧
    (overlap rel2.relids rel1.lateralRelids → nestloopPossible root rel2 rel1 found
      (!found.reversed)) ∧
    (minJoinParameterization joinrelids rel1 rel2 ≠ ∅ →
      ¬overlap (joinPlusRhs root joinrelids) (minJoinParameterization joinrelids rel1 rel2))

/-- With the hand of a special join that it meets, the set has the other hand. -/
def HandsComplete (root : PlannerInfo) (relids : Relids) : Prop :=
  ∀ sjinfo ∈ root.joinInfoList,
    (overlap sjinfo.minLefthand relids → sjinfo.minRighthand ⊆ relids) ∧
      (sjinfo.jointype = .full → overlap sjinfo.minRighthand relids → sjinfo.minLefthand ⊆ relids)

theorem rhsRules_closed (root : PlannerInfo) (relids : Relids) :
    Rule.closed (rhsRules root) relids ↔ HandsComplete root relids := by
  constructor
  · intro closed sjinfo member
    have fires (rule : Rule Nat) (own : rule ∈ ⟨sjinfo.minLefthand,sjinfo.minRighthand⟩ ::
        if sjinfo.jointype = .full then [⟨sjinfo.minRighthand,sjinfo.minLefthand⟩] else []) :=
      closed rule (List.mem_flatMap.mpr ⟨sjinfo,member,own⟩)
    refine ⟨fires _ (List.mem_cons_self ..),fun full => ?_⟩
    refine fires ⟨sjinfo.minRighthand,sjinfo.minLefthand⟩ (List.mem_cons_of_mem _ ?_)
    rw [if_pos full]
    exact List.mem_singleton_self _
  · intro complete rule own
    obtain ⟨sjinfo,member,own⟩ := List.mem_flatMap.mp own
    rcases List.mem_cons.mp own with rfl | other
    · exact (complete sjinfo member).1
    · split at other
      next full =>
        rw [List.mem_singleton.mp other]
        exact (complete sjinfo member).2 full
      next => cases other

/-- The loop finds the smallest complete set around the join. -/
theorem joinPlusRhs_least (root : PlannerInfo) (joinrelids : Relids) :
    joinrelids ⊆ joinPlusRhs root joinrelids ∧
      HandsComplete root (joinPlusRhs root joinrelids) ∧
      ∀ above, joinrelids ⊆ above → HandsComplete root above →
        joinPlusRhs root joinrelids ⊆ above := by
  obtain ⟨start,closed,least⟩ := Rule.saturate_least (rhsRules root) joinrelids
  refine ⟨start,(rhsRules_closed root _).mp closed,fun above below complete => ?_⟩
  exact least above below ((rhsRules_closed root above).mpr complete)

instance (root : PlannerInfo) (rel1 rel2 : SearchRel) (joinrelids : Relids) (found : Found) :
    Decidable (lateralsPossible root rel1 rel2 joinrelids found) :=
  inferInstanceAs (Decidable ((¬_) ∧ (_ → _) ∧ (_ → _) ∧ (_ → _)))

/-- The special join that the join performs, if any, and whether the relations have to be swapped
for it. -/
def joinIsLegal (root : PlannerInfo) (rel1 rel2 : SearchRel) (joinrelids : Relids) :
    Option (Option SpecialJoinInfo × Bool) :=
  match scanSpecialJoins root rel1.relids rel2.relids joinrelids with
  | none => none
  | some found =>
    if found.breaksRighthand then none
    else if root.hasLateralRTEs ∧ ¬lateralsPossible root rel1 rel2 joinrelids found then none
    else some (found.matchSjinfo,found.reversed)

/-- The lateral references that a legal join leaves open are to relations outside the hands of the
special joins it will be part of. -/
theorem joinIsLegal_laterals (root : PlannerInfo) (rel1 rel2 : SearchRel) (joinrelids : Relids)
    (lateral : root.hasLateralRTEs)
    (legal : (joinIsLegal root rel1 rel2 joinrelids).isSome = true) (sjinfo : SpecialJoinInfo)
    (member : sjinfo ∈ root.joinInfoList)
    (meets : overlap sjinfo.minLefthand (joinPlusRhs root joinrelids)) :
    ¬overlap sjinfo.minRighthand (minJoinParameterization joinrelids rel1 rel2) := by
  unfold joinIsLegal at legal
  split at legal
  · cases legal
  next found _ =>
    split_ifs at legal with broken impossible
    · cases legal
    · cases legal
    · have possible : lateralsPossible root rel1 rel2 joinrelids found := by
        by_contra not
        exact impossible ⟨lateral,not⟩
      have inside := ((joinPlusRhs_least root joinrelids).2.1 sjinfo member).1 meets
      intro refers
      obtain ⟨relid,right,left⟩ := Finset.not_disjoint_iff.mp refers
      refine possible.2.2.2 (Finset.ne_empty_of_mem left) (Finset.not_disjoint_iff.mpr ?_)
      exact ⟨relid,inside right,left⟩

def hasLegalJoinclause (root : PlannerInfo) (rel : SearchRel) : Prop :=
  ∃ rel2 ∈ root.initialRels, ¬overlap rel.relids rel2.relids ∧
    haveRelevantJoinclause root rel rel2 ∧
    (joinIsLegal root rel rel2 (rel.relids ∪ rel2.relids)).isSome

instance (root : PlannerInfo) (rel : SearchRel) : Decidable (hasLegalJoinclause root rel) :=
  inferInstanceAs (Decidable (∃ rel2 ∈ root.initialRels, _))

/-- The two relations are the sides of the special join, or parts of one of its hands. -/
def SpecialJoinInfo.restricts (sjinfo : SpecialJoinInfo) (rel1 rel2 : Relids) : Prop :=
  sjinfo.jointype ≠ .full ∧
    (sjinfo.minLefthand ⊆ rel1 ∧ sjinfo.minRighthand ⊆ rel2 ∨
      sjinfo.minLefthand ⊆ rel2 ∧ sjinfo.minRighthand ⊆ rel1 ∨
      overlap sjinfo.minRighthand rel1 ∧ overlap sjinfo.minRighthand rel2 ∨
      overlap sjinfo.minLefthand rel1 ∧ overlap sjinfo.minLefthand rel2)

instance (sjinfo : SpecialJoinInfo) (rel1 rel2 : Relids) : Decidable (sjinfo.restricts rel1 rel2) :=
  inferInstanceAs (Decidable (_ ∧ _))

def haveJoinOrderRestriction (root : PlannerInfo) (rel1 rel2 : SearchRel) : Prop :=
  (overlap rel1.relids rel2.directLateralRelids ∨ overlap rel2.relids rel1.directLateralRelids) ∨
    (∃ phinfo ∈ root.placeholderList, rel1.relids ⊆ phinfo.phEvalAt ∧
      rel2.relids ⊆ phinfo.phEvalAt) ∨
    (∃ sjinfo ∈ root.joinInfoList, sjinfo.restricts rel1.relids rel2.relids) ∧
      ¬(hasLegalJoinclause root rel1 ∨ hasLegalJoinclause root rel2)

instance (root : PlannerInfo) (rel1 rel2 : SearchRel) :
    Decidable (haveJoinOrderRestriction root rel1 rel2) :=
  inferInstanceAs (Decidable (_ ∨ _ ∨ (∃ sjinfo ∈ root.joinInfoList, _) ∧ ¬_))

def hasJoinRestriction (root : PlannerInfo) (rel : SearchRel) : Prop :=
  rel.lateralRelids ≠ ∅ ∨ rel.lateralReferencers ≠ ∅ ∨
    (∃ phinfo ∈ root.placeholderList, rel.relids ⊆ phinfo.phEvalAt ∧ rel.relids ≠ phinfo.phEvalAt) ∨
    ∃ sjinfo ∈ root.joinInfoList, sjinfo.jointype ≠ .full ∧
      ¬(sjinfo.minLefthand ⊆ rel.relids ∧ sjinfo.minRighthand ⊆ rel.relids) ∧
      (overlap sjinfo.minLefthand rel.relids ∨ overlap sjinfo.minRighthand rel.relids)

instance (root : PlannerInfo) (rel : SearchRel) : Decidable (hasJoinRestriction root rel) :=
  inferInstanceAs (Decidable (_ ∨ _ ∨ (∃ phinfo ∈ root.placeholderList, _) ∨
        ∃ sjinfo ∈ root.joinInfoList, _))

end ExploratoryOptimizer.JoinSearch
