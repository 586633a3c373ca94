import ExploratoryOptimizer.JoinSearch.Rels

/-! Equalities that an equivalence class implies at a join: `generate_join_implied_equalities` of
path/equivclass.c for relations that are no children of an append relation. -/
namespace ExploratoryOptimizer.JoinSearch

/-- The fields of the classes that the search changes: which are broken, the clauses derived for
each of them, and the address of the next clause. -/
structure EclassState where
  broken : List Nat
  derives : List (Nat × RestrictInfo)
  nextAddress : Nat
  deriving DecidableEq

namespace EclassState

def isBroken (state : EclassState) (ec : EquivalenceClass) : Prop := ec.address ∈ state.broken

instance (state : EclassState) (ec : EquivalenceClass) : Decidable (state.isBroken ec) :=
  inferInstanceAs (Decidable (_ ∈ _))

def breakClass (state : EclassState) (ec : EquivalenceClass) : EclassState :=
  {state with broken := ec.address :: state.broken}

def ecDerives (state : EclassState) (ec : EquivalenceClass) : List RestrictInfo :=
  (state.derives.filter (·.1 = ec.address)).map (·.2)

end EclassState

def selectEqualityOperator (root : PlannerInfo) (ec : EquivalenceClass)
    (lefttype righttype : Nat) : Option Nat :=
  ec.ecOpfamilies.findSome? fun opfamily =>
    match root.getOpfamilyMember opfamily lefttype righttype with
    | none => none
    | some opno => if ec.ecMaxSecurity = 0 ∨ root.getFuncLeakproof opno then some opno else none

def RestrictInfo.compares (rinfo : RestrictInfo) (opno : Nat) (leftem rightem : EquivalenceMember)
    (parentEc : Option Nat) : Prop :=
  rinfo.leftEm = some leftem ∧ rinfo.rightEm = some rightem ∧ rinfo.parentEc = parentEc ∧
    rinfo.clause = .opExpr opno

instance (rinfo : RestrictInfo) (opno : Nat) (leftem rightem : EquivalenceMember)
    (parentEc : Option Nat) :
    Decidable (rinfo.compares opno leftem rightem parentEc) := inferInstanceAs (Decidable (_ ∧ _))

def buildImpliedJoinEquality (address opno : Nat) (leftem rightem : EquivalenceMember)
    (parentEc : Option Nat) :
    RestrictInfo where
  address := address
  clause := .opExpr opno
  requiredRelids := leftem.emRelids ∪ rightem.emRelids
  isPushedDown := true
  leftEm := some leftem
  rightEm := some rightem
  parentEc := parentEc

/-- A clause with the same members and operator is used again. -/
def createJoinClause (ec : EquivalenceClass) (opno : Nat) (leftem rightem : EquivalenceMember)
    (parentEc : Option Nat) (state : EclassState) : RestrictInfo × EclassState :=
  match (ec.ecSources ++ state.ecDerives ec).find? fun rinfo =>
    rinfo.compares opno leftem rightem parentEc with
  | some rinfo => (rinfo,state)
  | none =>
    let rinfo := buildImpliedJoinEquality state.nextAddress opno leftem rightem parentEc
    (rinfo,
        {state with
        derives := state.derives ++ [(ec.address,rinfo)], nextAddress := state.nextAddress + 1})

structure BestPair where
  outerEm : EquivalenceMember
  innerEm : EquivalenceMember
  eqOp : Nat
  score : Nat
  deriving DecidableEq

def pairScore (root : PlannerInfo) (outerEm innerEm : EquivalenceMember) (eqOp : Nat) : Nat :=
  outerEm.isVar.toNat + innerEm.isVar.toNat + (root.opHashjoinable eqOp outerEm.exprType).toNat

/-- The inner loop; a score of three ends it. -/
def scanInner (root : PlannerInfo) (ec : EquivalenceClass) (outerEm : EquivalenceMember) :
    List EquivalenceMember → Option BestPair → Option BestPair
  | [],best => best
  | innerEm :: rest,best =>
    match selectEqualityOperator root ec outerEm.emDatatype innerEm.emDatatype with
    | none => scanInner root ec outerEm rest best
    | some eqOp =>
      let score := pairScore root outerEm innerEm eqOp
      if best.all (·.score < score) then
        if score = 3 then some ⟨outerEm,innerEm,eqOp,score⟩
        else scanInner root ec outerEm rest (some ⟨outerEm,innerEm,eqOp,score⟩)
      else scanInner root ec outerEm rest best

def scanOuter (root : PlannerInfo) (ec : EquivalenceClass) (innerMembers : List EquivalenceMember) :
    List EquivalenceMember → Option BestPair → Option BestPair
  | [],best => best
  | outerEm :: rest,best =>
    let best := scanInner root ec outerEm innerMembers best
    if best.any (·.score = 3) then best else scanOuter root ec innerMembers rest best

/-- Each member is equated with the next one. Without an operator the class is broken and what was
built is dropped. -/
def equateChain (root : PlannerInfo) (ec : EquivalenceClass) :
    List EquivalenceMember → EclassState → Option (List RestrictInfo) × EclassState
  | prevEm :: curEm :: rest,state =>
    match selectEqualityOperator root ec prevEm.emDatatype curEm.emDatatype with
    | none => (none,state.breakClass ec)
    | some eqOp =>
      let made := createJoinClause ec eqOp prevEm curEm none state
      let later := equateChain root ec (curEm :: rest) made.2
      (later.1.map (made.1 :: ·),later.2)
  | [_],state => (some [],state)
  | [],state => (some [],state)

/-- The members that are computable at the outer input, at the inner one, and only at the join. -/
def outerMembers (ec : EquivalenceClass) (joinRelids outerRelids : Relids) :
    List EquivalenceMember :=
  ec.ecMembers.filter fun em => em.emRelids ⊆ joinRelids ∧ em.emRelids ⊆ outerRelids

def innerMembers (ec : EquivalenceClass) (joinRelids outerRelids innerRelids : Relids) :
    List EquivalenceMember :=
  ec.ecMembers.filter fun em => em.emRelids ⊆ joinRelids ∧ ¬em.emRelids ⊆ outerRelids ∧
    em.emRelids ⊆ innerRelids

def newMembers (ec : EquivalenceClass) (joinRelids outerRelids innerRelids : Relids) :
    List EquivalenceMember :=
  ec.ecMembers.filter fun em => em.emRelids ⊆ joinRelids ∧ ¬em.emRelids ⊆ outerRelids ∧
    ¬em.emRelids ⊆ innerRelids

/-- The clause that equates one outer member with one inner member. -/
def equateSides (root : PlannerInfo) (ec : EquivalenceClass)
    (outers inners : List EquivalenceMember) (state : EclassState) :
    Option (List RestrictInfo) × EclassState :=
  if outers ≠ [] ∧ inners ≠ [] then
    match scanOuter root ec inners outers none with
    | none => (none,state.breakClass ec)
    | some best =>
      let made := createJoinClause ec best.eqOp best.outerEm best.innerEm (some ec.address) state
      (some [made.1],made.2)
  else (some [],state)

-- The first old member is put behind the new ones.
def equateNew (root : PlannerInfo) (ec : EquivalenceClass) (news olds : List EquivalenceMember)
    (state : EclassState) : Option (List RestrictInfo) × EclassState :=
  if news ≠ [] then equateChain root ec (news ++ olds.head?.toList) state else (some [],state)

def generateJoinImpliedEqualitiesNormal (root : PlannerInfo) (ec : EquivalenceClass)
    (joinRelids outerRelids innerRelids : Relids) (state : EclassState) :
    Option (List RestrictInfo) × EclassState :=
  let outers := outerMembers ec joinRelids outerRelids
  let inners := innerMembers ec joinRelids outerRelids innerRelids
  let news := newMembers ec joinRelids outerRelids innerRelids
  match equateSides root ec outers inners state with
  | (none,state) => (none,state)
  | (some sides,state) =>
    let added := equateNew root ec news (outers ++ inners) state
    (added.1.map (sides ++ ·),added.2)

def generateJoinImpliedEqualitiesBroken (ec : EquivalenceClass)
    (joinRelids outerRelids innerRelids : Relids) :
    List RestrictInfo :=
  ec.ecSources.filter fun rinfo =>
    rinfo.requiredRelids ⊆ joinRelids ∧ ¬rinfo.requiredRelids ⊆ outerRelids ∧
      ¬rinfo.requiredRelids ⊆ innerRelids

/-- Classes with a constant, with one member, or away from the join need no clause. -/
def EquivalenceClass.enforcedAt (ec : EquivalenceClass) (joinRelids : Relids) : Prop :=
  ec.ecHasConst = false ∧ 1 < ec.ecMembers.length ∧ overlap ec.ecRelids joinRelids

instance (ec : EquivalenceClass) (joinRelids : Relids) : Decidable (ec.enforcedAt joinRelids) :=
  inferInstanceAs (Decidable (_ ∧ _))

def generateForClass (root : PlannerInfo) (joinRelids outerRelids innerRelids : Relids)
    (ec : EquivalenceClass) (state : EclassState) : List RestrictInfo × EclassState :=
  if ec.enforcedAt joinRelids then
    if state.isBroken ec then
      (generateJoinImpliedEqualitiesBroken ec joinRelids outerRelids innerRelids,state)
    else
      match generateJoinImpliedEqualitiesNormal root ec joinRelids outerRelids
        innerRelids state with
      | (some rinfos,state) => (rinfos,state)
      | (none,state) =>
        (generateJoinImpliedEqualitiesBroken ec joinRelids outerRelids innerRelids,state)
  else ([],state)

def generateJoinImpliedEqualitiesForEcs (root : PlannerInfo)
    (joinRelids outerRelids innerRelids : Relids) :
    List EquivalenceClass → EclassState → List RestrictInfo × EclassState
  | [],state => ([],state)
  | ec :: eclasses,state =>
    let first := generateForClass root joinRelids outerRelids innerRelids ec state
    let rest :=
      generateJoinImpliedEqualitiesForEcs root joinRelids outerRelids innerRelids eclasses first.2
    (first.1 ++ rest.1,rest.2)

def generateJoinImpliedEqualities (root : PlannerInfo) (joinRelids outerRelids innerRelids : Relids)
    (state : EclassState) : List RestrictInfo × EclassState :=
  generateJoinImpliedEqualitiesForEcs root joinRelids outerRelids innerRelids root.eqClasses state

end ExploratoryOptimizer.JoinSearch
