import ExploratoryOptimizer.JoinPath

/-! Merge orderings of path/pathkeys.c. A path key is its position in `canon_pathkeys`, which holds
one object for each combination of fields and only grows. Equivalence classes are numbers: their
merging is over when joins are planned, so the chase along `ec_merged` is the identity. -/
namespace ExploratoryOptimizer.Pathkeys
open JoinPath

abbrev EquivalenceClass := Nat

structure PathKeyFields where
  pkEclass : EquivalenceClass
  pkOpfamily : Nat
  pkStrategy : Nat
  pkNullsFirst : Bool
  deriving DecidableEq

structure RestrictInfo where
  clause : ClauseRef
  mergeable : Bool
  leftEc : EquivalenceClass
  rightEc : EquivalenceClass
  outerIsLeft : Bool
  deriving DecidableEq

/-- The join relation with what decides which of its orderings are still useful above it. -/
structure JoinRel extends RelCore where
  hasEclassJoins : Bool
  joininfo : List RestrictInfo

structure EclassInfo where
  hasConst : EquivalenceClass → Bool
  belowOuterJoin : EquivalenceClass → Bool
  usefulForMerging : EquivalenceClass → RelCore → Bool

inductive JoinFailure where
  | error (message : String)
  | assertion
  | nullPointer
  deriving DecidableEq

def btLessStrategyNumber : Nat := 1

def RestrictInfo.sideEc (rinfo : RestrictInfo) (outerKeys : Bool) : EquivalenceClass :=
  if outerKeys then if rinfo.outerIsLeft then rinfo.leftEc else rinfo.rightEc
  else if rinfo.outerIsLeft then rinfo.rightEc else rinfo.leftEc

section CanonPathkeys

variable (canonPathkeys : List PathKeyFields)

def pkEclass (pathkey : PathKey) : Option EquivalenceClass :=
  (canonPathkeys[pathkey]?).map (·.pkEclass)

def makeCanonicalPathkey (fields : PathKeyFields) : PathKey × List PathKeyFields :=
  match canonPathkeys.idxOf? fields with
  | some pathkey => (pathkey,canonPathkeys)
  | none => (canonPathkeys.length,canonPathkeys ++ [fields])

def pathkeyIsRedundant (eclasses : EclassInfo) (newPathkey : PathKey)
    (pathkeys : List PathKey) : Bool :=
  (match pkEclass canonPathkeys newPathkey with
    | some newEc => eclasses.hasConst newEc && !eclasses.belowOuterJoin newEc
    | none => false) ||
  pathkeys.any fun oldPathkey => pkEclass canonPathkeys newPathkey =
    pkEclass canonPathkeys oldPathkey

def findMergeclausesForPathkeys (outerKeys : Bool) (restrictinfos : List RestrictInfo) :
    List PathKey → List RestrictInfo
  | [] => []
  | pathkey :: pathkeys =>
    match restrictinfos.filter fun rinfo => some (rinfo.sideEc outerKeys) =
      pkEclass canonPathkeys pathkey with
    | [] => []
    | first :: rest => first :: rest ++ findMergeclausesForPathkeys outerKeys restrictinfos pathkeys

def rightMergeDirection (queryPathkeys : List PathKey) (fields : PathKeyFields) : Bool :=
  match (queryPathkeys.filterMap (canonPathkeys[·]?)).find? fun queryFields =>
      fields.pkEclass = queryFields.pkEclass && fields.pkOpfamily = queryFields.pkOpfamily with
  | some queryFields => fields.pkStrategy = queryFields.pkStrategy
  | none => fields.pkStrategy = btLessStrategyNumber

def usefulForMerging (eclasses : EclassInfo) (rel : JoinRel) (eclass : EquivalenceClass) : Bool :=
  (rel.hasEclassJoins && eclasses.usefulForMerging eclass rel.toRelCore) ||
    rel.joininfo.any fun rinfo => rinfo.mergeable &&
    (eclass = rinfo.leftEc || eclass = rinfo.rightEc)

def pathkeysUsefulForMerging (eclasses : EclassInfo) (queryPathkeys : List PathKey)
    (rel : JoinRel) :
    List PathKey → Nat
  | [] => 0
  | pathkey :: pathkeys =>
    match canonPathkeys[pathkey]? with
    | none => 0
    | some fields =>
      if rightMergeDirection canonPathkeys queryPathkeys fields &&
        usefulForMerging eclasses rel fields.pkEclass then
        pathkeysUsefulForMerging eclasses queryPathkeys rel pathkeys + 1
      else 0

def pathkeysUsefulForOrdering (queryPathkeys pathkeys : List PathKey) : Nat :=
  if queryPathkeys = [] then 0
  else if pathkeys = [] then 0
  else if pathkeysContainedIn queryPathkeys pathkeys then queryPathkeys.length
  else 0

def truncateUselessPathkeys (eclasses : EclassInfo) (queryPathkeys : List PathKey) (rel : JoinRel)
    (pathkeys : List PathKey) : List PathKey :=
  pathkeys.take (max (pathkeysUsefulForMerging canonPathkeys eclasses queryPathkeys rel pathkeys)
    (pathkeysUsefulForOrdering queryPathkeys pathkeys))

def buildJoinPathkeys (eclasses : EclassInfo) (queryPathkeys : List PathKey) (joinrel : JoinRel)
    (jointype : JoinType) (outerPathkeys : List PathKey) : List PathKey :=
  if jointype = .full ∨ jointype = .right then []
  else truncateUselessPathkeys canonPathkeys eclasses queryPathkeys joinrel outerPathkeys

end CanonPathkeys

/-- Variables of the loop in `make_inner_pathkeys_for_merge`: the outer key in use with its fields,
the outer keys after it, the inner keys so far, and the canonical keys. -/
structure InnerKeys where
  opathkey : Option (PathKey × PathKeyFields)
  lop : List PathKey
  pathkeys : List PathKey
  canonPathkeys : List PathKeyFields

def tooFewPathkeys : JoinFailure := .error "too few pathkeys for mergeclauses"

def outerPathkeysMismatch : JoinFailure := .error "outer pathkeys do not match mergeclause"

def nextOuterPathkey (state : InnerKeys) (oeclass : EquivalenceClass) :
    Except JoinFailure ((PathKey × PathKeyFields) × List PathKey) :=
  match state.opathkey with
  | some current => if oeclass = current.2.pkEclass then .ok (current,state.lop) else advance
  | none => advance
where
  advance : Except JoinFailure ((PathKey × PathKeyFields) × List PathKey) :=
    match state.lop with
    | [] => .error tooFewPathkeys
    | pathkey :: lop =>
      match state.canonPathkeys[pathkey]? with
      | none => .error .nullPointer
      | some fields =>
        if oeclass = fields.pkEclass then .ok ((pathkey,fields),lop)
        else .error outerPathkeysMismatch

def addInnerPathkey (eclasses : EclassInfo) (state : InnerKeys) (rinfo : RestrictInfo) :
    Except JoinFailure InnerKeys := do
  let oeclass := rinfo.sideEc true
  let ieclass := rinfo.sideEc false
  let (current,lop) ← nextOuterPathkey state oeclass
  let (pathkey,canonPathkeys) :=
    if ieclass = oeclass then (current.1,state.canonPathkeys)
    else makeCanonicalPathkey state.canonPathkeys {current.2 with pkEclass := ieclass}
  let pathkeys :=
    if pathkeyIsRedundant canonPathkeys eclasses pathkey state.pathkeys then state.pathkeys
    else state.pathkeys ++ [pathkey]
  return ⟨some current,lop,pathkeys,canonPathkeys⟩

def makeInnerPathkeysForMerge (eclasses : EclassInfo) (canonPathkeys : List PathKeyFields)
    (mergeclauses : List RestrictInfo) (outerPathkeys : List PathKey) :
    Except JoinFailure (List PathKey × List PathKeyFields) := do
  let state ← mergeclauses.foldlM (addInnerPathkey eclasses) ⟨none,outerPathkeys,[],canonPathkeys⟩
  return (state.pathkeys,state.canonPathkeys)

def getCheapestPathForPathkeys (paths : List Path) (pathkeys : List PathKey)
    (requiredOuter : Relids) (costCriterion : CostSelector)
    (requireParallelSafe : Bool) : Option Path :=
  paths.foldl (fun matchedPath path =>
    if matchedPath.any fun current =>
      comparePathCosts current path costCriterion ≠ .gt then matchedPath
    else if requireParallelSafe && !path.parallelSafe then matchedPath
    else if pathkeysContainedIn pathkeys path.pathkeys &&
      path.reqOuter ⊆ requiredOuter then some path
    else matchedPath) none

end ExploratoryOptimizer.Pathkeys
