import ExploratoryOptimizer.JoinSearch.Eclass
import ExploratoryOptimizer.JoinSearch.Legal

/-! The join search: `join_search_one_level` and `make_join_rel` of path/joinrels.c,
`build_join_rel` of util/relnode.c, `make_rel_from_joinlist` of path/allpaths.c and
`aqo_join_search` of contrib/aqo. The calls of `add_paths_to_joinrel` are recorded in order; a
relation is known by its relids, so whether it is marked dummy is kept as a list of relids. -/
namespace ExploratoryOptimizer.JoinSearch

structure SearchState where
  eclasses : EclassState
  joinRelList : List SearchRel
  joinRelLevel : Nat → List SearchRel
  joinCurLevel : Nat
  dummies : List Relids
  calls : List JoinCall

namespace SearchState

def isDummyRel (state : SearchState) (rel : SearchRel) : Prop := rel.relids ∈ state.dummies

instance (state : SearchState) (rel : SearchRel) : Decidable (state.isDummyRel rel) :=
  inferInstanceAs (Decidable (_ ∈ _))

def markDummyRel (state : SearchState) (rel : SearchRel) : SearchState :=
  if state.isDummyRel rel then state else {state with dummies := rel.relids :: state.dummies}

def addPathsToJoinrel (state : SearchState) (joinrel outerrel innerrel : SearchRel)
    (jointype : JoinPath.JoinType) (sjinfo : SpecialJoinInfo)
    (restrictlist : List RestrictInfo) : SearchState :=
  {state with calls := state.calls ++
    [⟨joinrel.relids,outerrel.relids,innerrel.relids,jointype,sjinfo,restrictlist⟩]}

def findJoinRel (state : SearchState) (relids : Relids) : Option SearchRel :=
  state.joinRelList.find? (·.relids = relids)

/-- `add_join_rel`, and the entry in the list of the current level. -/
def addJoinRel (state : SearchState) (joinrel : SearchRel) : SearchState :=
  {state with
    joinRelList := state.joinRelList ++ [joinrel]
    joinRelLevel := Function.update state.joinRelLevel state.joinCurLevel
      (state.joinRelLevel state.joinCurLevel ++ [joinrel])}

end SearchState

def buildJoinrelRestrictlist (root : PlannerInfo) (joinrelids : Relids)
    (outerRel innerRel : SearchRel) (state : EclassState) : List RestrictInfo × EclassState :=
  let implied := generateJoinImpliedEqualities root joinrelids outerRel.relids innerRel.relids state
  (subbuildJoinrelRestrictlist joinrelids innerRel.joininfo
    (subbuildJoinrelRestrictlist joinrelids outerRel.joininfo []) ++ implied.1,implied.2)

/-- The join relation, the clauses for this pair of inputs, and the state with both. -/
def buildJoinRel (root : PlannerInfo) (state : SearchState) (joinrelids : Relids)
    (outerRel innerRel : SearchRel) :
    SearchRel × List RestrictInfo × SearchState :=
  let restrict := buildJoinrelRestrictlist root joinrelids outerRel innerRel state.eclasses
  match state.findJoinRel joinrelids with
  | some joinrel => (joinrel,restrict.1,{state with eclasses := restrict.2})
  | none =>
    let joinrel := newJoinRel root joinrelids outerRel innerRel
    (joinrel,restrict.1,{state with eclasses := restrict.2}.addJoinRel joinrel)

/-- Null is as good as false. -/
def restrictionIsConstantFalse (restrictlist : List RestrictInfo) (onlyPushedDown : Bool) : Prop :=
  ∃ rinfo ∈ restrictlist, ¬(onlyPushedDown ∧ ¬rinfo.isPushedDown) ∧
    (rinfo.clause = .const none ∨ rinfo.clause = .const (some false))

instance (restrictlist : List RestrictInfo) (onlyPushedDown : Bool) :
    Decidable (restrictionIsConstantFalse restrictlist onlyPushedDown) :=
  inferInstanceAs (Decidable (∃ rinfo ∈ restrictlist, _))

def populateJoinrelWithPaths (root : PlannerInfo) (state : SearchState)
    (rel1 rel2 joinrel : SearchRel) (sjinfo : SpecialJoinInfo) (restrictlist : List RestrictInfo) :
    Except String SearchState :=
  match sjinfo.jointype with
  | .inner =>
    if state.isDummyRel rel1 ∨ state.isDummyRel rel2 ∨
      restrictionIsConstantFalse restrictlist false then
      .ok (state.markDummyRel joinrel)
    else .ok ((state.addPathsToJoinrel joinrel rel1 rel2 .inner sjinfo
          restrictlist).addPathsToJoinrel
      joinrel rel2 rel1 .inner sjinfo restrictlist)
  | .left =>
    if state.isDummyRel rel1 ∨ restrictionIsConstantFalse restrictlist true then .ok
      (state.markDummyRel joinrel)
    else
      let state :=
        if restrictionIsConstantFalse restrictlist false ∧ rel2.relids ⊆ sjinfo.synRighthand then
        state.markDummyRel rel2 else state
      .ok ((state.addPathsToJoinrel joinrel rel1 rel2 .left sjinfo restrictlist).addPathsToJoinrel
        joinrel rel2 rel1 .right sjinfo restrictlist)
  | .full =>
    if state.isDummyRel rel1 ∧ state.isDummyRel rel2 ∨
      restrictionIsConstantFalse restrictlist true then
      .ok (state.markDummyRel joinrel)
    else
      let state :=
        (state.addPathsToJoinrel joinrel rel1 rel2 .full sjinfo restrictlist).addPathsToJoinrel
          joinrel rel2 rel1 .full sjinfo restrictlist
      -- the path list is empty as long as no call for the relation has found a path
      if state.calls.any fun call => call.joinrel = joinrel.relids &&
        root.addsPath call then .ok state
      else .error "FULL JOIN is only supported with merge-joinable or hash-joinable join conditions"
  | .semi =>
    let semijoin := sjinfo.minLefthand ⊆ rel1.relids ∧ sjinfo.minRighthand ⊆ rel2.relids
    let unique := sjinfo.synRighthand = rel2.relids ∧ root.createUniquePath rel2.relids sjinfo
    let empty :=
      state.isDummyRel rel1 ∨ state.isDummyRel rel2 ∨ restrictionIsConstantFalse restrictlist false
    if (semijoin ∨ unique) ∧ empty then .ok (state.markDummyRel joinrel)
    else
      let state :=
        if semijoin then state.addPathsToJoinrel joinrel rel1 rel2 .semi sjinfo restrictlist
        else state
      .ok (if unique then
        (state.addPathsToJoinrel joinrel rel1 rel2 .uniqueInner sjinfo
            restrictlist).addPathsToJoinrel
          joinrel rel2 rel1 .uniqueOuter sjinfo restrictlist
        else state)
  | .anti =>
    if state.isDummyRel rel1 ∨ restrictionIsConstantFalse restrictlist true then .ok
      (state.markDummyRel joinrel)
    else
      let state :=
        if restrictionIsConstantFalse restrictlist false ∧ rel2.relids ⊆ sjinfo.synRighthand then
        state.markDummyRel rel2 else state
      .ok (state.addPathsToJoinrel joinrel rel1 rel2 .anti sjinfo restrictlist)
  | .right => .error "unrecognized join type: 3"
  | .uniqueOuter => .error "unrecognized join type: 6"
  | .uniqueInner => .error "unrecognized join type: 7"

/-- The data of a plain inner join. -/
def innerJoinInfo (rel1 rel2 : SearchRel) : SpecialJoinInfo where
  minLefthand := rel1.relids
  minRighthand := rel2.relids
  synLefthand := rel1.relids
  synRighthand := rel2.relids
  jointype := .inner
  lhsStrict := false

/-- The join with its inputs in the order of the special join. -/
def makeLegalJoinRel (root : PlannerInfo) (state : SearchState) (rel1 rel2 : SearchRel)
    (sjinfo : SpecialJoinInfo) :
    Except String SearchState :=
  let (joinrel,restrictlist,state) := buildJoinRel root state (rel1.relids ∪ rel2.relids) rel1 rel2
  if state.isDummyRel joinrel then .ok state
  else populateJoinrelWithPaths root state rel1 rel2 joinrel sjinfo restrictlist

def makeJoinRel (root : PlannerInfo) (state : SearchState) (rel1 rel2 : SearchRel) :
    Except String SearchState :=
  match joinIsLegal root rel1 rel2 (rel1.relids ∪ rel2.relids) with
  | none => .ok state
  | some (sjinfo,false) =>
    makeLegalJoinRel root state rel1 rel2 (sjinfo.getD (innerJoinInfo rel1 rel2))
  | some (sjinfo,true) =>
    makeLegalJoinRel root state rel2 rel1 (sjinfo.getD (innerJoinInfo rel2 rel1))

/-- There is a clause or a restriction that speaks for the join. -/
def joinWanted (root : PlannerInfo) (oldRel otherRel : SearchRel) : Prop :=
  ¬overlap oldRel.relids otherRel.relids ∧
    (haveRelevantJoinclause root oldRel otherRel ∨ haveJoinOrderRestriction root oldRel otherRel)

instance (root : PlannerInfo) (oldRel otherRel : SearchRel) : Decidable
    (joinWanted root oldRel otherRel) :=
  inferInstanceAs (Decidable (_ ∧ _))

def makeRelsByClauseJoins (root : PlannerInfo) (oldRel : SearchRel) (otherRels : List SearchRel)
    (state : SearchState) : Except String SearchState :=
  otherRels.foldlM (fun state otherRel =>
    if joinWanted root oldRel otherRel then makeJoinRel root state oldRel otherRel
    else .ok state) state

def makeRelsByClauselessJoins (root : PlannerInfo) (oldRel : SearchRel) (otherRels : List SearchRel)
    (state : SearchState) : Except String SearchState :=
  otherRels.foldlM (fun state otherRel =>
    if ¬overlap otherRel.relids oldRel.relids then makeJoinRel root state oldRel otherRel
    else .ok state) state

/-- The cells of a list: each item with those behind it. -/
def cells {α : Type} : List α → List (α × List α)
  | [] => []
  | item :: rest => (item,rest) :: cells rest

def hasJoinReason (root : PlannerInfo) (rel : SearchRel) : Prop :=
  rel.joininfo ≠ [] ∨ rel.hasEclassJoins ∨ hasJoinRestriction root rel

instance (root : PlannerInfo) (rel : SearchRel) : Decidable (hasJoinReason root rel) :=
  inferInstanceAs (Decidable (_ ∨ _ ∨ _))

/-- Left-sided and right-sided plans. -/
def joinInitialRels (root : PlannerInfo) (level : Nat) (joinrels : Nat → List SearchRel)
    (state : SearchState) :
    Except String SearchState :=
  (cells (joinrels (level - 1))).foldlM (fun state cell =>
    if hasJoinReason root cell.1 then
      makeRelsByClauseJoins root cell.1 (if level = 2 then cell.2 else joinrels 1) state
    else makeRelsByClauselessJoins root cell.1 (joinrels 1) state) state

/-- Bushy plans of relations with `k` and `level - k` items. -/
def joinBushy (root : PlannerInfo) (level : Nat) (joinrels : Nat → List SearchRel) (k : Nat)
    (state : SearchState) :
    Except String SearchState :=
  (cells (joinrels k)).foldlM (fun state cell =>
    if hasJoinReason root cell.1 then
      (if k = level - k then cell.2 else joinrels (level - k)).foldlM (fun state newRel =>
        if joinWanted root cell.1 newRel then makeJoinRel root state cell.1 newRel
        else .ok state) state
    else .ok state) state

-- `k` counts up from two for as long as it is at most half of the level.
def bushySizes (level : Nat) : List Nat := (List.range' 2 level).takeWhile fun k => k ≤ level - k

/-- Products with every initial relation. -/
def joinLastDitch (root : PlannerInfo) (level : Nat) (joinrels : Nat → List SearchRel)
    (state : SearchState) :
    Except String SearchState :=
  (joinrels (level - 1)).foldlM
    (fun state oldRel => makeRelsByClauselessJoins root oldRel (joinrels 1) state) state

def joinSearchOneLevel (root : PlannerInfo) (state : SearchState) (level : Nat) :
    Except String SearchState := do
  let joinrels := state.joinRelLevel
  let state ← joinInitialRels root level joinrels {state with joinCurLevel := level}
  let state ← (bushySizes level).foldlM (fun state k => joinBushy root level joinrels k state) state
  if state.joinRelLevel level = [] then
    let state ← joinLastDitch root level joinrels state
    if state.joinRelLevel level = [] ∧ root.joinInfoList = [] ∧ root.hasLateralRTEs = false then
      .error s!"failed to build any {level}-way joins"
    else .ok state
  else .ok state

def startSearch (state : SearchState) (initialRels : List SearchRel) : SearchState :=
  {state with joinRelLevel := Function.update (fun _ => []) 1 initialRels}

def searchLevels (root : PlannerInfo) (levelsNeeded : Nat) (state : SearchState) :
    Except String SearchState :=
  (List.range' 2 (levelsNeeded - 1)).foldlM (joinSearchOneLevel root) state

/-- The relation of the last level, and the state of the search at its end. -/
def aqoJoinSearch (root : PlannerInfo) (levelsNeeded : Nat) (initialRels : List SearchRel)
    (state : SearchState) :
    Except String (SearchRel × SearchState) := do
  let state ← searchLevels root levelsNeeded (startSearch state initialRels)
  match state.joinRelLevel levelsNeeded with
  | [] => .error s!"failed to build any {levelsNeeded}-way joins"
  | rel :: _ => .ok (rel,state)

/-- A list of a join list has an item: `deconstruct_recurse` puts an empty one into its parent. -/
inductive JoinlistNode where
  | rangeTblRef (rtindex : Nat)
  | list (first : JoinlistNode) (rest : List JoinlistNode)
  | other (nodeTag : Nat)

/-- A single relation is taken as it is; the hook joins several. -/
def joinChildren (root : PlannerInfo) (first : SearchRel) (rest : List SearchRel)
    (state : SearchState) :
    Except String (SearchRel × SearchState) :=
  if rest.length + 1 = 1 then .ok (first,state)
  else aqoJoinSearch {root with initialRels := first :: rest} (rest.length + 1)
    (first :: rest) state

mutual

def JoinlistNode.thisrel (root : PlannerInfo) : JoinlistNode → SearchState → Except String
    (SearchRel × SearchState)
  | .rangeTblRef rtindex,state => do
    let rel ← findBaseRel root rtindex
    .ok (rel,state)
  | .list first rest,state => do
    let (rel,state) ← first.thisrel root state
    let (rels,state) ← joinlistRels root rest state
    joinChildren root rel rels state
  | .other nodeTag,_ => .error s!"unrecognized joinlist node type: {nodeTag}"

def joinlistRels (root : PlannerInfo) : List JoinlistNode → SearchState → Except String
    (List SearchRel × SearchState)
  | [],state => .ok ([],state)
  | node :: rest,state => do
    let (rel,state) ← node.thisrel root state
    let (rels,state) ← joinlistRels root rest state
    .ok (rel :: rels,state)

end

def makeRelFromJoinlist (root : PlannerInfo) (joinlist : List JoinlistNode) (state : SearchState) :
    Except String (Option SearchRel × SearchState) :=
  match joinlist with
  | [] => .ok (none,state)
  | first :: rest => do
    let (rel,state) ← (JoinlistNode.list first rest).thisrel root state
    .ok (some rel,state)

end ExploratoryOptimizer.JoinSearch
