import ExploratoryOptimizer.JoinPath

/-! What the join search reads of a query: the clauses, equivalence classes, special joins and
placeholders of nodes/relation.h, the tests of util/joininfo.c and path/equivclass.c that link two
relations, and the clause lists of util/relnode.c. A node that the planner compares by address
carries it, so equal records are one node. -/
namespace ExploratoryOptimizer.JoinSearch
open JoinPath (JoinType)

def overlap (a b : Relids) : Prop := ¬Disjoint a b

instance (a b : Relids) : Decidable (overlap a b) := inferInstanceAs (Decidable (¬_))

structure EquivalenceMember where
  address : Nat
  emRelids : Relids
  emDatatype : Nat
  exprType : Nat
  -- the expression is a Var, or a RelabelType of one
  isVar : Bool
  deriving DecidableEq

/-- A constant keeps its value, null included; of an operator only its number is read. -/
inductive Clause where
  | const (value : Option Bool)
  | opExpr (opno : Nat)
  | other
  deriving DecidableEq

structure RestrictInfo where
  address : Nat
  clause : Clause
  requiredRelids : Relids
  isPushedDown : Bool
  leftEm : Option EquivalenceMember
  rightEm : Option EquivalenceMember
  -- the address of the class
  parentEc : Option Nat
  deriving DecidableEq

/-- The fields that stay as they are during the search. -/
structure EquivalenceClass where
  address : Nat
  ecOpfamilies : List Nat
  ecMembers : List EquivalenceMember
  ecSources : List RestrictInfo
  ecRelids : Relids
  ecHasConst : Bool
  ecMaxSecurity : Nat
  deriving DecidableEq

structure SpecialJoinInfo where
  minLefthand : Relids
  minRighthand : Relids
  synLefthand : Relids
  synRighthand : Relids
  jointype : JoinType
  lhsStrict : Bool
  deriving DecidableEq

structure PlaceHolderInfo where
  phEvalAt : Relids
  phLateral : Relids
  phNeeded : Relids
  deriving DecidableEq

/-- The part of a RelOptInfo that the join search reads. -/
structure SearchRel where
  relids : Relids
  lateralRelids : Relids
  directLateralRelids : Relids
  lateralReferencers : Relids
  joininfo : List RestrictInfo
  hasEclassJoins : Bool
  deriving DecidableEq

/-- A call of `add_paths_to_joinrel`. -/
structure JoinCall where
  joinrel : Relids
  outerrel : Relids
  innerrel : Relids
  jointype : JoinType
  sjinfo : SpecialJoinInfo
  restrictlist : List RestrictInfo
  deriving DecidableEq

/-- The fields that stay as they are during the search, with the answers of the catalog and of the
path layer: whether `create_unique_path` finds a path, and whether a call of `add_paths_to_joinrel`
does. -/
structure PlannerInfo where
  eqClasses : List EquivalenceClass
  joinInfoList : List SpecialJoinInfo
  placeholderList : List PlaceHolderInfo
  hasLateralRTEs : Bool
  -- indexed by the range table, with gaps
  simpleRelArray : List (Option SearchRel)
  initialRels : List SearchRel
  getOpfamilyMember : Nat → Nat → Nat → Option Nat
  getFuncLeakproof : Nat → Bool
  opHashjoinable : Nat → Nat → Bool
  createUniquePath : Relids → SpecialJoinInfo → Bool
  addsPath : JoinCall → Bool

def findBaseRel (root : PlannerInfo) (relid : Nat) : Except String SearchRel :=
  match root.simpleRelArray[relid]? with
  | some (some rel) => .ok rel
  | _ => .error s!"no relation entry for relid {relid}"

def haveRelevantEclassJoinclause (root : PlannerInfo) (rel1 rel2 : SearchRel) : Prop :=
  ∃ ec ∈ root.eqClasses, 1 < ec.ecMembers.length ∧ overlap rel1.relids ec.ecRelids ∧
    overlap rel2.relids ec.ecRelids

instance (root : PlannerInfo) (rel1 rel2 : SearchRel) :
    Decidable (haveRelevantEclassJoinclause root rel1 rel2) :=
  inferInstanceAs (Decidable (∃ ec ∈ root.eqClasses, _))

def hasRelevantEclassJoinclause (root : PlannerInfo) (relids : Relids) : Prop :=
  ∃ ec ∈ root.eqClasses, 1 < ec.ecMembers.length ∧ overlap relids ec.ecRelids ∧
    ¬ec.ecRelids ⊆ relids

instance (root : PlannerInfo) (relids : Relids) :
    Decidable (hasRelevantEclassJoinclause root relids) :=
  inferInstanceAs (Decidable (∃ ec ∈ root.eqClasses, _))

-- The shorter of the two clause lists is scanned, against the relations of the other side.
def scannedJoininfo (rel1 rel2 : SearchRel) : List RestrictInfo × Relids :=
  if rel1.joininfo.length ≤ rel2.joininfo.length then (rel1.joininfo,rel2.relids)
  else (rel2.joininfo,rel1.relids)

def haveRelevantJoinclause (root : PlannerInfo) (rel1 rel2 : SearchRel) : Prop :=
  (∃ rinfo ∈ (scannedJoininfo rel1 rel2).1,
      overlap (scannedJoininfo rel1 rel2).2 rinfo.requiredRelids) ∨
    rel1.hasEclassJoins ∧ rel2.hasEclassJoins ∧ haveRelevantEclassJoinclause root rel1 rel2

instance (root : PlannerInfo) (rel1 rel2 : SearchRel) :
    Decidable (haveRelevantJoinclause root rel1 rel2) :=
  inferInstanceAs (Decidable (_ ∨ _))

/-- `list_append_unique_ptr`. -/
def appendUnique (rinfos : List RestrictInfo) (rinfo : RestrictInfo) : List RestrictInfo :=
  if rinfo ∈ rinfos then rinfos else rinfos ++ [rinfo]

def appendWanted (wanted : RestrictInfo → Prop) [DecidablePred wanted]
    (joininfoList result : List RestrictInfo) :
    List RestrictInfo :=
  joininfoList.foldl (fun result rinfo => if wanted rinfo then appendUnique result rinfo
      else result) result

def subbuildJoinrelRestrictlist (joinrelids : Relids)
    (joininfoList newRestrictlist : List RestrictInfo) :
    List RestrictInfo :=
  appendWanted (·.requiredRelids ⊆ joinrelids) joininfoList newRestrictlist

def subbuildJoinrelJoinlist (joinrelids : Relids) (joininfoList newJoininfo : List RestrictInfo) :
    List RestrictInfo :=
  appendWanted (¬·.requiredRelids ⊆ joinrelids) joininfoList newJoininfo

def buildJoinrelJoinlist (joinrelids : Relids) (outerRel innerRel : SearchRel) :
    List RestrictInfo :=
  subbuildJoinrelJoinlist joinrelids innerRel.joininfo
    (subbuildJoinrelJoinlist joinrelids outerRel.joininfo [])

def minJoinParameterization (joinrelids : Relids) (outerRel innerRel : SearchRel) : Relids :=
  (outerRel.lateralRelids ∪ innerRel.lateralRelids) \ joinrelids

/-- The lateral references that `add_placeholders_to_joinrel` adds. -/
def placeholderLaterals (root : PlannerInfo) (joinrelids start : Relids) : Relids :=
  root.placeholderList.foldl (fun laterals phinfo =>
    if ¬phinfo.phNeeded ⊆ joinrelids ∧ phinfo.phEvalAt ⊆ joinrelids then laterals ∪ phinfo.phLateral
    else laterals) start

/-- The relation that `build_join_rel` makes. -/
def newJoinRel (root : PlannerInfo) (joinrelids : Relids)
    (outerRel innerRel : SearchRel) : SearchRel where
  relids := joinrelids
  lateralRelids := minJoinParameterization joinrelids outerRel innerRel
  directLateralRelids := placeholderLaterals root joinrelids
    (outerRel.directLateralRelids ∪ innerRel.directLateralRelids) \ joinrelids
  lateralReferencers := ∅
  joininfo := buildJoinrelJoinlist joinrelids outerRel innerRel
  hasEclassJoins := hasRelevantEclassJoinclause root joinrelids

theorem overlap_iff (a b : Relids) : overlap a b ↔ ∃ relid ∈ a, relid ∈ b := Finset.not_disjoint_iff

theorem overlap_comm (a b : Relids) : overlap a b ↔ overlap b a := not_congr disjoint_comm

theorem overlap_union (a b c : Relids) : overlap (a ∪ b) c ↔ overlap a c ∨ overlap b c := by
  unfold overlap
  rw [Finset.disjoint_union_left,not_and_or]

section ClauseLists

theorem mem_appendUnique (rinfos : List RestrictInfo) (rinfo other : RestrictInfo) :
    other ∈ appendUnique rinfos rinfo ↔ other ∈ rinfos ∨ other = rinfo := by
  unfold appendUnique
  split
  next known =>
    refine ⟨Or.inl,?_⟩
    rintro (old | rfl)
    · exact old
    · exact known
  next => simp

theorem mem_appendWanted (wanted : RestrictInfo → Prop) [DecidablePred wanted]
    (joininfoList result : List RestrictInfo) (rinfo : RestrictInfo) :
    rinfo ∈ appendWanted wanted joininfoList result ↔ rinfo ∈ result ∨ rinfo ∈ joininfoList ∧
      wanted rinfo := by
  unfold appendWanted
  induction joininfoList generalizing result with
  | nil => simp
  | cons head rest ih =>
    rw [List.foldl_cons,ih,List.mem_cons]
    split
    next chosen =>
      rw [mem_appendUnique]
      constructor
      · rintro ((old | rfl) | ⟨later,wish⟩)
        · exact .inl old
        · exact .inr ⟨.inl rfl,chosen⟩
        · exact .inr ⟨.inr later,wish⟩
      · rintro (old | ⟨rfl | later,wish⟩)
        · exact .inl (.inl old)
        · exact .inl (.inr rfl)
        · exact .inr ⟨later,wish⟩
    next passed =>
      refine or_congr_right ⟨fun ⟨later,wish⟩ => ⟨.inr later,wish⟩,?_⟩
      rintro ⟨rfl | later,wish⟩
      · exact absurd wish passed
      · exact ⟨later,wish⟩

theorem mem_buildJoinrelJoinlist (joinrelids : Relids) (outerRel innerRel : SearchRel)
    (rinfo : RestrictInfo) :
    rinfo ∈ buildJoinrelJoinlist joinrelids outerRel innerRel ↔
      (rinfo ∈ outerRel.joininfo ∨ rinfo ∈ innerRel.joininfo) ∧
      ¬rinfo.requiredRelids ⊆ joinrelids := by
  unfold buildJoinrelJoinlist subbuildJoinrelJoinlist
  rw [mem_appendWanted,mem_appendWanted]
  simp only [List.not_mem_nil,false_or]
  exact or_and_right.symm

end ClauseLists

end ExploratoryOptimizer.JoinSearch
