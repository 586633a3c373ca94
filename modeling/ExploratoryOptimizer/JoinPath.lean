import ExploratoryOptimizer.AddPath
import ExploratoryOptimizer.Library.Semijoin

/-! Input pairing shared by `hash_inner_and_outer` and `sort_inner_and_outer` of
path/joinpath.c, with `create_unique_path` of util/pathnode.c. The join type is a variable that
the loops rewrite; the pairs handed to the try functions are recorded in order. A null unique
path fails an assertion of the source and ends the run with `none`. -/
namespace ExploratoryOptimizer.JoinPath
open Library.Semijoin

inductive JoinType where
  | inner
  | left
  | full
  | right
  | semi
  | anti
  | uniqueOuter
  | uniqueInner
  deriving DecidableEq

def isOuterJoin : JoinType → Bool
  | .left => true
  | .full => true
  | .right => true
  | .anti => true
  | _ => false

structure SpecialJoinInfo where
  semiCanBtree : Bool
  semiCanHash : Bool
  deriving DecidableEq

structure UniqueEstimates where
  address : Nat
  hasUniqueIndex : Bool
  subqueryDistinct : Bool
  groups : ℚ
  sortStartupCost : ℚ
  sortTotalCost : ℚ
  aggStartupCost : ℚ
  aggTotalCost : ℚ
  exceedsWorkMem : Bool
  deriving DecidableEq

def uniquePathNode (rel : RelCore) (subpath : Path) (address : Nat) (rows startupCost totalCost : ℚ)
    (pathkeys : List PathKey) : Path where
  address := address
  type := .uniquePath
  parent := rel
  paramInfo := subpath.paramInfo
  parallelSafe := rel.considerParallel && subpath.parallelSafe
  parallelWorkers := subpath.parallelWorkers
  rows := rows
  startupCost := startupCost
  totalCost := totalCost
  exploreValue := subpath.exploreValue
  pathkeys := pathkeys

def uniqueMethod (sjinfo : SpecialJoinInfo) (estimates : UniqueEstimates) : Option UniqueMethod :=
  match sjinfo.semiCanBtree,sjinfo.semiCanHash with
  | true,true => some (if estimates.aggTotalCost < estimates.sortTotalCost then .hash else .sort)
  | true,false => some .sort
  | false,true => some .hash
  | false,false => none

/-- The unique path, the relation with its cache filled, and the semijoin data, which remembers
that hashing was abandoned. A cached path is returned whatever subpath is asked for. -/
def createUniquePath (rel : RelOptInfo) (subpath : Path) (sjinfo : SpecialJoinInfo)
    (estimates : UniqueEstimates) : Option UniquePath × RelOptInfo × SpecialJoinInfo :=
  match rel.cheapestUniquePath with
  | some cached => (some cached,rel,sjinfo)
  | none =>
    if !(sjinfo.semiCanBtree || sjinfo.semiCanHash) then (none,rel,sjinfo)
    else if (estimates.hasUniqueIndex && sjinfo.semiCanBtree) || estimates.subqueryDistinct then
      let unique : UniquePath := ⟨uniquePathNode rel.toRelCore subpath estimates.address rel.rows
        subpath.startupCost subpath.totalCost subpath.pathkeys,subpath,.noop⟩
      (some unique,{rel with cheapestUniquePath := some unique},sjinfo)
    else
      let sjinfo := {sjinfo with semiCanHash := sjinfo.semiCanHash && !estimates.exceedsWorkMem}
      match uniqueMethod sjinfo estimates with
      | none => (none,rel,sjinfo)
      | some umethod =>
        let unique : UniquePath := match umethod with
          | .hash => ⟨uniquePathNode rel.toRelCore subpath estimates.address estimates.groups
              estimates.aggStartupCost estimates.aggTotalCost [],subpath,umethod⟩
          | _ => ⟨uniquePathNode rel.toRelCore subpath estimates.address estimates.groups
              estimates.sortStartupCost estimates.sortTotalCost [],subpath,umethod⟩
        (some unique,{rel with cheapestUniquePath := some unique},sjinfo)

structure JoinTry where
  isPartial : Bool
  outer : Path
  inner : Path
  outerkeys : List PathKey
  jointype : JoinType
  deriving DecidableEq

structure UniqueCall where
  subpath : Path
  result : UniquePath
  deriving DecidableEq

structure JoinState where
  outerrel : RelOptInfo
  innerrel : RelOptInfo
  sjinfo : SpecialJoinInfo
  jointype : JoinType
  innerPath : Option Path
  tries : List JoinTry
  uniqueCalls : List UniqueCall
  deriving DecidableEq

namespace JoinState

def tryPair (state : JoinState) (outerkeys : List PathKey) (outer inner : Path) : JoinState :=
  {state with tries := state.tries ++ [⟨false,outer,inner,outerkeys,state.jointype⟩]}

def tryPartial (state : JoinState) (outerkeys : List PathKey) (outer inner : Path) : JoinState :=
  {state with tries := state.tries ++ [⟨true,outer,inner,outerkeys,state.jointype⟩]}

def uniqueOuter (estimates : Path → UniqueEstimates) (state : JoinState) (subpath : Path) :
    Option (Path × JoinState) :=
  match createUniquePath state.outerrel subpath state.sjinfo (estimates subpath) with
  | (none,_,_) => none
  | (some unique,outerrel,sjinfo) =>
    some (unique.path,{state with
        outerrel,sjinfo,uniqueCalls := state.uniqueCalls ++ [⟨subpath,unique⟩]})

def uniqueInner (estimates : Path → UniqueEstimates) (state : JoinState) (subpath : Path) :
    Option (Path × JoinState) :=
  match createUniquePath state.innerrel subpath state.sjinfo (estimates subpath) with
  | (none,_,_) => none
  | (some unique,innerrel,sjinfo) =>
    some (unique.path,{state with
        innerrel,sjinfo,uniqueCalls := state.uniqueCalls ++ [⟨subpath,unique⟩]})

end JoinState

/-- Body of the two nested loops over the explore lists. The outer path is a variable of the
outer loop: once unique-ified it stays so for the rest of that iteration. -/
def explorePair (estimates : Path → UniqueEstimates) (outerkeys : List PathKey)
    (current : JoinState × Path) (innerPath : Path) : Option (JoinState × Path) :=
  let state := {current.1 with innerPath := some innerPath}
  let outerPath := current.2
  if outerPath.paramByRel state.innerrel.toRelCore ||
    innerPath.paramByRel state.outerrel.toRelCore then
    some (state,outerPath)
  else match state.jointype with
  | .uniqueOuter => do
    let (unique,next) ← state.uniqueOuter estimates outerPath
    return ({next with jointype := .inner}.tryPair outerkeys unique innerPath,unique)
  | .uniqueInner => do
    let (unique,next) ← state.uniqueInner estimates innerPath
    return ({next with jointype := .inner, innerPath := some unique}.tryPair outerkeys outerPath
        unique,outerPath)
  | _ => some (state.tryPair outerkeys outerPath innerPath,outerPath)

def exploreInner (estimates : Path → UniqueEstimates) (outerkeys : List PathKey)
    (inners : List Path) (state : JoinState) (outerPath : Path) : Option (JoinState × Path) :=
  inners.foldlM (explorePair estimates outerkeys) (state,outerPath)

def exploreOuter (estimates : Path → UniqueEstimates) (outerkeys : List PathKey)
    (outers inners : List Path) (state : JoinState) : Option JoinState :=
  outers.foldlM (fun state outerPath =>
      (exploreInner estimates outerkeys inners state outerPath).map (·.1)) state

def getCheapestParallelSafeTotalInner (paths : List Path) : Option Path :=
  paths.find? fun innerpath => innerpath.parallelSafe && innerpath.reqOuter = ∅

def partialAllowed (joinrel : RelCore) (outerrel : RelOptInfo) (saveJointype : JoinType) : Bool :=
  joinrel.considerParallel && saveJointype ≠ .uniqueOuter && saveJointype ≠ .full &&
    saveJointype ≠ .right && outerrel.partialPathlist ≠ [] && joinrel.lateralRelids = ∅

/-! Meaning of a unique-ified join: an inner join that stands for a semijoin. -/

/-- Left rows, right rows, and the right rows made unique on the semijoin columns. -/
structure SemijoinRows (α β κ : Type) [DecidableEq κ] where
  leftKey : α → κ
  rightKey : β → κ
  left : Multiset α
  right : Multiset β
  unique : Multiset β
  distinct : UniqueOn rightKey unique right

-- Only `create_unique_path` builds nodes of this type.
def isUniquePath (path : Path) : Prop := path.type = .uniquePath

instance (path : Path) : Decidable (isUniquePath path) := inferInstanceAs (Decidable (_ = _))

def uniqueSide (jointype : JoinType) (pair : JoinTry) : Path :=
  match jointype with
  | .uniqueOuter => pair.outer
  | _ => pair.inner

namespace SemijoinRows

variable {α β κ : Type} [DecidableEq κ]

def pathRows (rows : SemijoinRows α β κ) (path : Path) : Multiset β :=
  if isUniquePath path then rows.unique else rows.right

def joined (rows : SemijoinRows α β κ) (jointype : JoinType) (pair : JoinTry) : Multiset α :=
  joinRows rows.leftKey rows.rightKey rows.left (rows.pathRows (uniqueSide jointype pair))

def expected (rows : SemijoinRows α β κ) : Multiset α :=
  semijoin rows.leftKey rows.rightKey rows.left rows.right

theorem joined_unique (rows : SemijoinRows α β κ) (jointype : JoinType) (pair : JoinTry)
    (unique : isUniquePath (uniqueSide jointype pair)) :
    rows.joined jointype pair = rows.expected := by
  unfold joined pathRows
  rw [if_pos unique]
  exact joinRows_unique rows.leftKey rows.rightKey rows.left rows.right rows.unique rows.distinct

end SemijoinRows

/-- Every tried pair has its right-hand side made unique, and the join it builds returns the
rows of the semijoin whatever the data. -/
def StaysSemijoin (jointype : JoinType) (tries : List JoinTry) : Prop :=
  ∀ pair ∈ tries, isUniquePath (uniqueSide jointype pair) ∧
    ∀ (α β κ : Type) [DecidableEq κ] (rows : SemijoinRows α β κ),
    rows.joined jointype pair = rows.expected

theorem staysSemijoin_iff (jointype : JoinType) (tries : List JoinTry) :
    StaysSemijoin jointype tries ↔ ∀ pair ∈ tries, isUniquePath (uniqueSide jointype pair) := by
  constructor
  · exact fun stays pair member => (stays pair member).1
  · intro unique pair member
    exact ⟨unique pair member,fun _ _ _ _ rows => rows.joined_unique jointype pair
      (unique pair member)⟩

theorem staysSemijoin_append (jointype : JoinType) (tries tries' : List JoinTry) :
    StaysSemijoin jointype (tries ++ tries') ↔ StaysSemijoin jointype tries ∧
      StaysSemijoin jointype tries' := by
  simp only [staysSemijoin_iff,List.forall_mem_append]

theorem staysSemijoin_ordinary (jointype : JoinType) (tries : List JoinTry)
    (ordinary : ∀ pair ∈ tries, ¬isUniquePath (uniqueSide jointype pair)) :
    StaysSemijoin jointype tries ↔ tries = [] := by
  rw [staysSemijoin_iff]
  constructor
  · intro unique
    by_contra nonempty
    obtain ⟨pair,rest,rfl⟩ := List.exists_cons_of_ne_nil nonempty
    exact ordinary pair (by simp) (unique pair (by simp))
  · rintro rfl
    simp

theorem staysSemijoin_map {γ : Type} (jointype : JoinType) (sources : List γ) (toTry : γ → JoinTry)
    (ordinary : ∀ source ∈ sources, ¬isUniquePath (uniqueSide jointype (toTry source))) :
    StaysSemijoin jointype (sources.map toTry) ↔ sources = [] := by
  rw [staysSemijoin_ordinary,List.map_eq_nil_iff]
  intro pair member
  obtain ⟨source,among,rfl⟩ := List.mem_map.mp member
  exact ordinary source among

/-- No path kept for a relation is a unique path: those live in their own cache. -/
structure Ordinary (rel : RelOptInfo) : Prop where
  explore : ∀ path ∈ rel.cheapestCostExplorePathlist, ¬isUniquePath path
  startup : ∀ path ∈ rel.cheapestStartupPath, ¬isUniquePath path
  parameterized : ∀ path ∈ rel.cheapestParameterizedPaths, ¬isUniquePath path

/-! A semijoin whose right-hand relation has two paths in its explore list, for worked cases. -/

def rightPath : Path := seqScan (baseRel 1 0) 1 0 100 0

def explorablePath : Path := seqScan (baseRel 1 0) 2 0 105 (1/2)

def leftPath : Path := seqScan (baseRel 2 0) 3 0 10 0

def cachedUnique : UniquePath :=
  ⟨uniquePathNode (baseRel 1 0) rightPath 4 1 100 110 [],rightPath,.sort⟩

def rightRel (explorePaths : List Path) : RelOptInfo :=
  {RelOptInfo.ofPaths (baseRel 1 0) [rightPath,explorablePath] with
    cheapestCostExplorePathlist := explorePaths
    cheapestStartupPath := some rightPath
    cheapestTotalPath := some rightPath
    cheapestUniquePath := some cachedUnique
    cheapestParameterizedPaths := [rightPath]}

def leftRel : RelOptInfo :=
  {RelOptInfo.ofPaths (baseRel 2 0) [leftPath] with
    cheapestCostExplorePathlist := [leftPath]
    cheapestStartupPath := some leftPath
    cheapestTotalPath := some leftPath
    cheapestParameterizedPaths := [leftPath]}

def joinedCore : RelCore := {baseRel 0 0 with relids := {1,2}}

def noEstimates (_ : Path) : UniqueEstimates := ⟨0,false,false,1,0,0,0,0,false⟩

def duplicateRows : SemijoinRows Nat Nat Nat where
  leftKey := id
  rightKey := id
  left := {1}
  right := {1,1}
  unique := {1}
  distinct := by
    constructor
    · decide
    · intro value
      simp

theorem rightRel_ordinary (explorePaths : List Path)
    (subset : ∀ path ∈ explorePaths, path = rightPath ∨ path = explorablePath) :
    Ordinary (rightRel explorePaths) := by
  constructor
  · intro path member
    rcases subset path member with rfl | rfl
    · decide
    · decide
  · intro path same
    rw [← Option.some.inj same]
    decide
  · intro path member
    rw [List.mem_singleton.mp member]
    decide

theorem leftRel_ordinary : Ordinary leftRel := by
  constructor
  · decide
  · decide
  · decide

end ExploratoryOptimizer.JoinPath
