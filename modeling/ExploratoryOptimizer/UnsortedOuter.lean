import ExploratoryOptimizer.Pathkeys

/-! `match_unsorted_outer` and `match_unsorted_outer_origin` of path/joinpath.c with the merge join
generators they use. The calls of the try functions are recorded in order, and so are those of
`create_unique_path`; they stay recorded when the run ends in an error. -/
namespace ExploratoryOptimizer.UnsortedOuter
open JoinPath AddPath Pathkeys

/-- Plan node types that `ExecMaterializesOutput` tells apart. -/
inductive PlanTag where
  | material
  | functionScan
  | tableFuncScan
  | cteScan
  | namedTuplestoreScan
  | workTableScan
  | sort
  | other
  deriving DecidableEq

structure PlannerInfo where
  eclasses : EclassInfo
  queryPathkeys : List PathKey
  enableMaterial : Bool
  cpuOperatorCost : ℚ
  seqPageCost : ℚ
  workMem : Nat
  pathtype : Path → PlanTag
  width : Path → Nat
  materialAddress : Path → Nat
  uniqueEstimates : Path → UniqueEstimates

inductive JoinCall where
  | nestloop (outer inner : Path) (pathkeys : List PathKey) (jointype : JoinType)
  | partialNestloop (outer inner : Path) (pathkeys : List PathKey) (jointype : JoinType)
  | mergejoin (outer inner : Path) (pathkeys : List PathKey) (mergeclauses : List RestrictInfo)
      (outersortkeys innersortkeys : List PathKey) (jointype : JoinType) (isPartial : Bool)
  deriving DecidableEq

structure JoinRun where
  outerrel : RelOptInfo
  innerrel : RelOptInfo
  sjinfo : SpecialJoinInfo
  canonPathkeys : List PathKeyFields
  calls : List JoinCall
  uniqueCalls : List UniqueCall
  deriving DecidableEq

abbrev JoinM := ExceptT JoinFailure (StateM JoinRun)

def issue (call : JoinCall) : JoinM Unit :=
  modify fun run => {run with calls := run.calls ++ [call]}

def createUniqueOuter (root : PlannerInfo) (subpath : Path) : JoinM Path := do
  let run ← get
  match createUniquePath run.outerrel subpath run.sjinfo (root.uniqueEstimates subpath) with
  | (none,_,_) => throw .assertion
  | (some unique,outerrel,sjinfo) =>
    set {run with outerrel,sjinfo,uniqueCalls := run.uniqueCalls ++ [UniqueCall.mk subpath unique]}
    return unique.path

def createUniqueInner (root : PlannerInfo) (subpath : Path) : JoinM Path := do
  let run ← get
  match createUniquePath run.innerrel subpath run.sjinfo (root.uniqueEstimates subpath) with
  | (none,_,_) => throw .assertion
  | (some unique,innerrel,sjinfo) =>
    set {run with innerrel,sjinfo,uniqueCalls := run.uniqueCalls ++ [UniqueCall.mk subpath unique]}
    return unique.path

def execMaterializesOutput : PlanTag → Bool
  | .other => false
  | _ => true

def maxAlign (size : Nat) : Nat := (size + 7) / 8 * 8

def sizeofHeapTupleHeader : Nat := 23

def blcksz : Nat := 8192

def relationByteSize (tuples : ℚ) (width : Nat) : ℚ :=
  tuples * (maxAlign width + maxAlign sizeofHeapTupleHeader : Nat)

def materialRunCost (root : PlannerInfo) (subpath : Path) : ℚ :=
  let nbytes := relationByteSize subpath.rows (root.width subpath)
  let runCost := subpath.totalCost - subpath.startupCost + 2 * root.cpuOperatorCost * subpath.rows
  if nbytes > root.workMem * 1024 then runCost + root.seqPageCost * (nbytes / blcksz).ceil
  else runCost

def createMaterialPath (root : PlannerInfo) (rel : RelCore) (subpath : Path) : Path where
  address := root.materialAddress subpath
  type := .materialPath
  parent := rel
  paramInfo := subpath.paramInfo
  parallelSafe := rel.considerParallel && subpath.parallelSafe
  parallelWorkers := subpath.parallelWorkers
  rows := subpath.rows
  startupCost := subpath.startupCost
  totalCost := subpath.startupCost + materialRunCost root subpath
  exploreValue := subpath.exploreValue
  pathkeys := subpath.pathkeys

/-- A join that makes one side unique is planned as an inner join. -/
def plainJointype : JoinType → JoinType
  | .uniqueOuter => .inner
  | .uniqueInner => .inner
  | jointype => jointype

def nestjoinOK : JoinType → Bool
  | .right => false
  | .full => false
  | _ => true

def useallclauses : JoinType → Bool
  | .right => true
  | .full => true
  | _ => false

def joinPathkeys (root : PlannerInfo) (joinrel : JoinRel) (jointype : JoinType) (outerpath : Path) :
    JoinM (List PathKey) := do
  return buildJoinPathkeys (← get).canonPathkeys root.eclasses root.queryPathkeys joinrel jointype
    outerpath.pathkeys

/-- Arguments of `try_mergejoin_path` that do not change within one generator call. -/
structure MergeTarget where
  outerpath : Path
  mergePathkeys : List PathKey
  jointype : JoinType
  isPartial : Bool

def tryMergejoin (target : MergeTarget) (innerpath : Path) (mergeclauses : List RestrictInfo)
    (innersortkeys : List PathKey) : JoinM Unit :=
  issue (.mergejoin target.outerpath innerpath target.mergePathkeys mergeclauses [] innersortkeys
    target.jointype target.isPartial)

def improves (innerpath : Path) (cheapest : Option Path) (criterion : CostSelector) : Bool :=
  cheapest.all fun current => comparePathCosts innerpath current criterion = .lt

/-- The clauses that the first `sortkeycnt` inner keys support. -/
def trialClauses (mergeclauses : List RestrictInfo) (trialsortkeys : List PathKey)
    (sortkeycnt numSortkeys : Nat) :
    JoinM (List RestrictInfo) := do
  if sortkeycnt < numSortkeys then
    match findMergeclausesForPathkeys (← get).canonPathkeys false mergeclauses trialsortkeys with
    | [] => throw .assertion
    | newclauses => return newclauses
  else return mergeclauses

/-- Loop over ever shorter inner orderings, last part of both generators. -/
def tryPresorted (target : MergeTarget) (innerrel : RelOptInfo) (useallclauses : Bool)
    (mergeclauses : List RestrictInfo) (numSortkeys : Nat) :
    Nat → List PathKey → Option Path → Option Path → JoinM Unit
  | 0,_,_,_ => return
  | sortkeycnt + 1,trialsortkeys,cheapestStartupInner,cheapestTotalInner => do
    let trialsortkeys := trialsortkeys.take (sortkeycnt + 1)
    let mut newclauses := []
    let mut cheapestStartupInner := cheapestStartupInner
    let mut cheapestTotalInner := cheapestTotalInner
    if let some innerpath :=
      getCheapestPathForPathkeys innerrel.pathlist trialsortkeys ∅ .totalCost target.isPartial then
      if improves innerpath cheapestTotalInner .totalCost then
        newclauses ← trialClauses mergeclauses trialsortkeys (sortkeycnt + 1) numSortkeys
        tryMergejoin target innerpath newclauses []
        cheapestTotalInner := some innerpath
    if let some innerpath :=
      getCheapestPathForPathkeys innerrel.pathlist trialsortkeys ∅ .startupCost
        target.isPartial then
      if improves innerpath cheapestStartupInner .startupCost then
        if some innerpath ≠ cheapestTotalInner then
          if newclauses = [] then
            newclauses ← trialClauses mergeclauses trialsortkeys (sortkeycnt + 1) numSortkeys
          tryMergejoin target innerpath newclauses []
        cheapestStartupInner := some innerpath
    if useallclauses then return
    tryPresorted target innerrel useallclauses mergeclauses numSortkeys sortkeycnt trialsortkeys
      cheapestStartupInner cheapestTotalInner

/-- First part of both generators: the usable merge clauses with the inner ordering they need, or
nothing when no merge join is possible. -/
def mergeOrdering (root : PlannerInfo) (outerpath : Path) (jointype : JoinType)
    (mergeclauseList : List RestrictInfo) (useallclauses : Bool) :
    JoinM (Option (List RestrictInfo × List PathKey)) := do
  let run ← get
  let mergeclauses :=
    findMergeclausesForPathkeys run.canonPathkeys true mergeclauseList outerpath.pathkeys
  if mergeclauses = [] && plainJointype jointype ≠ .full then return none
  if useallclauses && mergeclauses.length ≠ mergeclauseList.length then return none
  match makeInnerPathkeysForMerge root.eclasses run.canonPathkeys mergeclauses
    outerpath.pathkeys with
  | .error failure => throw failure
  | .ok (innersortkeys,canonPathkeys) =>
    set {run with canonPathkeys}
    return some (mergeclauses,innersortkeys)

def generateMergejoinPaths (root : PlannerInfo) (innerrel : RelOptInfo) (outerpath : Path)
    (jointype : JoinType) (mergeclauseList : List RestrictInfo) (useallclauses : Bool)
    (innerCheapestTotal : Path) (mergePathkeys : List PathKey) (isPartial : Bool) : JoinM Unit := do
  let target : MergeTarget := ⟨outerpath,mergePathkeys,plainJointype jointype,isPartial⟩
  match ← mergeOrdering root outerpath jointype mergeclauseList useallclauses with
  | none => return
  | some (mergeclauses,innersortkeys) =>
    tryMergejoin target innerCheapestTotal mergeclauses innersortkeys
    if jointype = .uniqueInner then return
    let presorted :=
      if pathkeysContainedIn innersortkeys innerCheapestTotal.pathkeys then some innerCheapestTotal
      else none
    tryPresorted target innerrel useallclauses mergeclauses innersortkeys.length
      innersortkeys.length innersortkeys presorted presorted

/-- Cheapest startup and cheapest total among the paths that need no sort. -/
def cheapestPresorted (innersortkeys : List PathKey) (cheapest : Option Path × Option Path)
    (innerCheapestTotal : Path) : Option Path × Option Path :=
  if pathkeysContainedIn innersortkeys innerCheapestTotal.pathkeys then
    (if improves innerCheapestTotal cheapest.1 .startupCost then some innerCheapestTotal
        else cheapest.1,
      if improves innerCheapestTotal cheapest.2 .totalCost then some innerCheapestTotal
      else cheapest.2)
  else cheapest

def generateMergejoinPathsExplore (root : PlannerInfo) (innerrel : RelOptInfo) (outerpath : Path)
    (jointype : JoinType) (mergeclauseList : List RestrictInfo) (useallclauses : Bool)
    (innerCheapestTotals : List Path) (mergePathkeys : List PathKey) (isPartial : Bool) :
    JoinM Unit := do
  let target : MergeTarget := ⟨outerpath,mergePathkeys,plainJointype jointype,isPartial⟩
  match ← mergeOrdering root outerpath jointype mergeclauseList useallclauses with
  | none => return
  | some (mergeclauses,innersortkeys) =>
    innerCheapestTotals.forM fun innerCheapestTotal =>
      tryMergejoin target innerCheapestTotal mergeclauses innersortkeys
    if jointype = .uniqueInner then return
    let cheapest := innerCheapestTotals.foldl (cheapestPresorted innersortkeys) (none,none)
    tryPresorted target innerrel useallclauses mergeclauses innersortkeys.length
      innersortkeys.length innersortkeys cheapest.1 cheapest.2

def considerParallelNestloop (root : PlannerInfo) (joinrel : JoinRel)
    (outerrel innerrel : RelOptInfo) (jointype : JoinType) : JoinM Unit := do
  let saveJointype := jointype
  let jointype := if jointype = .uniqueInner then .inner else jointype
  outerrel.partialPathlist.forM fun outerpath => do
    let pathkeys ← joinPathkeys root joinrel jointype outerpath
    innerrel.cheapestParameterizedPaths.forM fun innerpath => do
      if !innerpath.parallelSafe then return
      if saveJointype = .uniqueInner then
        if some innerpath ≠ innerrel.cheapestTotalPath then return
        issue (.partialNestloop outerpath (← createUniqueInner root innerpath) pathkeys jointype)
      else
        issue (.partialNestloop outerpath innerpath pathkeys jointype)

def considerParallelMergejoin (root : PlannerInfo) (joinrel : JoinRel)
    (outerrel innerrel : RelOptInfo) (jointype : JoinType) (mergeclauseList : List RestrictInfo)
    (innerCheapestTotal : Path) : JoinM Unit :=
  outerrel.partialPathlist.forM fun outerpath => do
    let mergePathkeys ← joinPathkeys root joinrel jointype outerpath
    generateMergejoinPaths root innerrel outerpath jointype mergeclauseList false innerCheapestTotal
      mergePathkeys true

/-- Partial joins, last part of both versions. -/
def considerPartialJoins (root : PlannerInfo) (joinrel : JoinRel) (outerrel innerrel : RelOptInfo)
    (saveJointype : JoinType) (mergeclauseList : List RestrictInfo)
    (innerCheapestTotal : Option Path) : JoinM Unit := do
  if partialAllowed joinrel.toRelCore outerrel saveJointype then
    if nestjoinOK saveJointype then
      considerParallelNestloop root joinrel outerrel innerrel saveJointype
    if innerCheapestTotal.any (·.parallelSafe) then
      tryParallelMergejoin innerCheapestTotal
    else if saveJointype = .uniqueInner then return
    else tryParallelMergejoin (getCheapestParallelSafeTotalInner innerrel.pathlist)
where
  tryParallelMergejoin : Option Path → JoinM Unit
    | none => return
    | some inner =>
      considerParallelMergejoin root joinrel outerrel innerrel saveJointype mergeclauseList inner

/-- Variables filled by the loop over the explore list of the inner relation. -/
structure InnerChoices where
  innerCheapestTotal : Option Path
  innerPathsExploreModify : List Path
  innerPathsExploreMat : List Path
  innerCheapestTotals : List Path

def materializes (root : PlannerInfo) (path : Path) : Bool :=
  root.enableMaterial && !execMaterializesOutput (root.pathtype path)

def considerInner (root : PlannerInfo) (outerrel innerrel : RelOptInfo) (saveJointype : JoinType)
    (choices : InnerChoices) (inner : Path) : JoinM InnerChoices := do
  if inner.paramByRel outerrel.toRelCore then return {choices with innerCheapestTotal := none}
  else if saveJointype = .uniqueInner then
    let unique ← createUniqueInner root inner
    return {choices with
      innerCheapestTotal := some unique
      innerPathsExploreModify := choices.innerPathsExploreModify ++ [unique]
      innerCheapestTotals := choices.innerCheapestTotals ++ [unique]}
  else
    let materialized :=
      if nestjoinOK saveJointype && materializes root inner then
        [createMaterialPath root innerrel.toRelCore inner] else []
    return {choices with
      innerCheapestTotal := some inner
      innerPathsExploreMat := choices.innerPathsExploreMat ++ materialized
      innerCheapestTotals := choices.innerCheapestTotals ++ [inner]}

def joinUnsortedPath (root : PlannerInfo) (joinrel : JoinRel) (innerrel : RelOptInfo)
    (saveJointype : JoinType) (mergeclauseList : List RestrictInfo) (choices : InnerChoices)
    (outerpath : Path) : JoinM Unit := do
  let jointype := plainJointype saveJointype
  let mergePathkeys ← joinPathkeys root joinrel jointype outerpath
  if saveJointype = .uniqueInner then
    choices.innerPathsExploreModify.forM fun innerpath =>
      issue (.nestloop outerpath innerpath mergePathkeys jointype)
  else if nestjoinOK saveJointype then
    innerrel.cheapestParameterizedPaths.forM fun innerpath =>
      issue (.nestloop outerpath innerpath mergePathkeys jointype)
    choices.innerPathsExploreMat.forM fun innerpath =>
      issue (.nestloop outerpath innerpath mergePathkeys jointype)
  if saveJointype = .uniqueOuter then return
  if choices.innerCheapestTotals = [] then return
  generateMergejoinPathsExplore root innerrel outerpath saveJointype mergeclauseList
    (useallclauses saveJointype) choices.innerCheapestTotals mergePathkeys false

/-- The outer loop and the partial joins, once the inner paths are chosen. -/
def joinUnsorted (root : PlannerInfo) (joinrel : JoinRel) (outerrel innerrel : RelOptInfo)
    (saveJointype : JoinType) (mergeclauseList : List RestrictInfo) (choices : InnerChoices) :
    JoinM Unit := do
  outerrel.pathlist.forM fun outerpath => do
    if outerpath.paramByRel innerrel.toRelCore then return
    if saveJointype = .uniqueOuter then
      if !isIncludeInPathlist outerpath outerrel.cheapestCostExplorePathlist then return
      joinUnsortedPath root joinrel innerrel saveJointype mergeclauseList choices
        (← createUniqueOuter root outerpath)
    else joinUnsortedPath root joinrel innerrel saveJointype mergeclauseList choices outerpath
  considerPartialJoins root joinrel outerrel innerrel saveJointype mergeclauseList
    choices.innerCheapestTotal

def matchUnsortedOuter (root : PlannerInfo) (joinrel : JoinRel) (outerrel innerrel : RelOptInfo)
    (saveJointype : JoinType) (mergeclauseList : List RestrictInfo) : JoinM Unit := do
  let choices ← innerrel.cheapestCostExplorePathlist.foldlM
    (considerInner root outerrel innerrel saveJointype) ⟨none,[],[],[]⟩
  if saveJointype = .uniqueInner ∧ choices.innerPathsExploreModify = [] then return
  joinUnsorted root joinrel outerrel innerrel saveJointype mergeclauseList choices

def joinUnsortedPathOrigin (root : PlannerInfo) (joinrel : JoinRel) (innerrel : RelOptInfo)
    (saveJointype : JoinType) (mergeclauseList : List RestrictInfo)
    (innerCheapestTotal matpath : Option Path) (outerpath : Path) :
    JoinM Unit := do
  let jointype := plainJointype saveJointype
  let mergePathkeys ← joinPathkeys root joinrel jointype outerpath
  if saveJointype = .uniqueInner then
    match innerCheapestTotal with
    | none => throw .nullPointer
    | some inner => issue (.nestloop outerpath inner mergePathkeys jointype)
  else if nestjoinOK saveJointype then
    innerrel.cheapestParameterizedPaths.forM fun innerpath =>
      issue (.nestloop outerpath innerpath mergePathkeys jointype)
    if let some matpath := matpath then issue (.nestloop outerpath matpath mergePathkeys jointype)
  if saveJointype = .uniqueOuter then return
  match innerCheapestTotal with
  | none => return
  | some inner =>
    generateMergejoinPaths root innerrel outerpath saveJointype mergeclauseList
      (useallclauses saveJointype) inner mergePathkeys false

/-- The outer loop and the partial joins of the original, once the inner path is chosen. -/
def joinUnsortedOrigin (root : PlannerInfo) (joinrel : JoinRel) (outerrel innerrel : RelOptInfo)
    (saveJointype : JoinType) (mergeclauseList : List RestrictInfo)
    (innerCheapestTotal matpath : Option Path) :
    JoinM Unit := do
  outerrel.pathlist.forM fun outerpath => do
    if outerpath.paramByRel innerrel.toRelCore then return
    if saveJointype = .uniqueOuter then
      if some outerpath ≠ outerrel.cheapestTotalPath then return
      joinUnsortedPathOrigin root joinrel innerrel saveJointype mergeclauseList
        innerCheapestTotal matpath (← createUniqueOuter root outerpath)
    else
      joinUnsortedPathOrigin root joinrel innerrel saveJointype mergeclauseList
        innerCheapestTotal matpath outerpath
  considerPartialJoins root joinrel outerrel innerrel saveJointype mergeclauseList
    innerCheapestTotal

def matchUnsortedOuterOrigin (root : PlannerInfo) (joinrel : JoinRel)
    (outerrel innerrel : RelOptInfo) (saveJointype : JoinType)
    (mergeclauseList : List RestrictInfo) : JoinM Unit := do
  match innerrel.cheapestTotalPath with
  | none => throw .nullPointer
  | some total =>
    let innerCheapestTotal := if total.paramByRel outerrel.toRelCore then none else some total
    if saveJointype = .uniqueInner then
      match innerCheapestTotal with
      | none => return
      | some inner =>
        let unique ← createUniqueInner root inner
        joinUnsortedOrigin root joinrel outerrel innerrel saveJointype mergeclauseList
          (some unique) none
    else
      let matpath :=
        if nestjoinOK saveJointype then
          (innerCheapestTotal.filter (materializes root)).map
            (createMaterialPath root innerrel.toRelCore)
        else none
      joinUnsortedOrigin root joinrel outerrel innerrel saveJointype mergeclauseList
        innerCheapestTotal matpath

theorem forM_single (path : Path) (body : Path → JoinM Unit) :
    [path].forM body = body path := bind_pure_unit

theorem cheapestPresorted_single (innersortkeys : List PathKey) (inner : Path) :
    cheapestPresorted innersortkeys (none,none) inner =
      (if pathkeysContainedIn innersortkeys inner.pathkeys then some inner else none,
        if pathkeysContainedIn innersortkeys inner.pathkeys then some inner else none) := by
  unfold cheapestPresorted improves
  split
  · rfl
  · rfl

section Single

variable (root : PlannerInfo) (joinrel : JoinRel) (outerrel innerrel : RelOptInfo)
  (saveJointype : JoinType) (mergeclauseList : List RestrictInfo)

theorem generateMergejoinPathsExplore_single (outerpath inner : Path) (useallclauses : Bool)
    (mergePathkeys : List PathKey) (isPartial : Bool) :
    generateMergejoinPathsExplore root innerrel outerpath saveJointype mergeclauseList
      useallclauses [inner]
        mergePathkeys isPartial =
      generateMergejoinPaths root innerrel outerpath saveJointype mergeclauseList
      useallclauses inner
        mergePathkeys isPartial := by
  unfold generateMergejoinPathsExplore generateMergejoinPaths
  simp only [forM_single,List.foldl_cons,List.foldl_nil,cheapestPresorted_single]

/-- What the loop over a one-element explore list leaves in place of the original's variables. -/
structure Chosen (choices : InnerChoices) (innerCheapestTotal matpath : Option Path) : Prop where
  total : choices.innerCheapestTotal = innerCheapestTotal
  totals : choices.innerCheapestTotals = innerCheapestTotal.toList
  materialized : choices.innerPathsExploreMat = matpath.toList
  modified : saveJointype = .uniqueInner → ∃ inner, innerCheapestTotal = some inner ∧
    choices.innerPathsExploreModify = [inner]

theorem joinUnsortedPath_chosen (choices : InnerChoices) (innerCheapestTotal matpath : Option Path)
    (chosen : Chosen saveJointype choices innerCheapestTotal matpath) (outerpath : Path) :
    joinUnsortedPath root joinrel innerrel saveJointype mergeclauseList choices outerpath =
      joinUnsortedPathOrigin root joinrel innerrel saveJointype mergeclauseList
      innerCheapestTotal matpath
        outerpath := by
  unfold joinUnsortedPath joinUnsortedPathOrigin
  rw [chosen.totals,chosen.materialized]
  by_cases kind : saveJointype = .uniqueInner
  · obtain ⟨inner,rfl,modified⟩ := chosen.modified kind
    simp only [kind,modified,forM_single,Option.toList_some,
      generateMergejoinPathsExplore_single,if_true,reduceCtorEq,if_false]
  · cases innerCheapestTotal with
    | none =>
      cases matpath with
      | none => simp [kind]
      | some matpath => simp [kind,forM_single]
    | some inner =>
      cases matpath with
      | none => simp [kind,generateMergejoinPathsExplore_single]
      | some matpath => simp [kind,forM_single,generateMergejoinPathsExplore_single]

theorem considerInner_plain (total : Path) (plain : saveJointype ≠ .uniqueInner) :
    ∃ choices, considerInner root outerrel innerrel saveJointype
      ⟨none,[],[],[]⟩ total = pure choices ∧
      Chosen saveJointype choices (if total.paramByRel outerrel.toRelCore then none else some total)
        (if nestjoinOK saveJointype then
          ((if total.paramByRel outerrel.toRelCore then none else some total).filter
              (materializes root)).map
            (createMaterialPath root innerrel.toRelCore)
        else none) := by
  unfold considerInner
  cases parameterized : total.paramByRel outerrel.toRelCore with
  | true =>
    refine ⟨_,rfl,rfl,rfl,?_,fun kind => absurd kind plain⟩
    simp
  | false =>
    rw [if_neg Bool.false_ne_true,if_neg plain]
    refine ⟨_,rfl,rfl,rfl,?_,fun kind => absurd kind plain⟩
    cases nestjoinOK saveJointype with
    | false => rfl
    | true => cases materialized : materializes root total with
      | true => simp [Option.filter,materialized]
      | false => simp [Option.filter,materialized]

theorem considerInner_unique (total : Path) (usable : total.paramByRel outerrel.toRelCore = false) :
    considerInner root outerrel innerrel .uniqueInner ⟨none,[],[],[]⟩ total =
      (createUniqueInner root total >>= fun unique => pure ⟨some unique,[unique],[],[unique]⟩) := by
  unfold considerInner
  simp [usable]

theorem outerLoop_chosen (outerTotal : Path)
    (explore : outerrel.cheapestCostExplorePathlist = [outerTotal])
    (cheapest : outerrel.cheapestTotalPath = some outerTotal) (choices : InnerChoices)
    (innerCheapestTotal matpath : Option Path)
    (chosen : Chosen saveJointype choices innerCheapestTotal matpath) :
    joinUnsorted root joinrel outerrel innerrel saveJointype mergeclauseList choices =
      joinUnsortedOrigin root joinrel outerrel innerrel saveJointype mergeclauseList
      innerCheapestTotal matpath := by
  unfold joinUnsorted joinUnsortedOrigin
  have sameTest (outerpath : Path) :
      (!isIncludeInPathlist outerpath outerrel.cheapestCostExplorePathlist) =
        decide (some outerpath ≠ outerrel.cheapestTotalPath) := by
    rw [explore,cheapest]
    simp [isIncludeInPathlist]
  simp only [joinUnsortedPath_chosen root joinrel innerrel saveJointype mergeclauseList
    choices _ _ chosen,chosen.total,sameTest,decide_eq_true_eq]

theorem matchUnsortedOuter_single (outerTotal innerTotal : Path)
    (outerExplore : outerrel.cheapestCostExplorePathlist = [outerTotal])
    (outerCheapest : outerrel.cheapestTotalPath = some outerTotal)
    (innerExplore : innerrel.cheapestCostExplorePathlist = [innerTotal])
    (innerCheapest : innerrel.cheapestTotalPath = some innerTotal) :
    matchUnsortedOuter root joinrel outerrel innerrel saveJointype mergeclauseList =
      matchUnsortedOuterOrigin root joinrel outerrel innerrel saveJointype mergeclauseList := by
  unfold matchUnsortedOuter matchUnsortedOuterOrigin
  rw [innerExplore,innerCheapest,List.foldlM_cons]
  simp only [List.foldlM_nil,bind_pure]
  by_cases kind : saveJointype = .uniqueInner
  · subst kind
    cases parameterized : innerTotal.paramByRel outerrel.toRelCore with
    | true => simp [considerInner,parameterized]
    | false =>
      rw [considerInner_unique root outerrel innerrel innerTotal parameterized]
      simp only [bind_assoc,pure_bind,and_false,if_false,if_true,List.cons_ne_self,
        Bool.false_eq_true]
      refine bind_congr fun unique => ?_
      exact outerLoop_chosen root joinrel outerrel innerrel .uniqueInner mergeclauseList
        outerTotal outerExplore outerCheapest _ _ _ ⟨rfl,rfl,rfl,fun _ => ⟨unique,rfl,rfl⟩⟩
  · obtain ⟨choices,made,chosen⟩ :=
      considerInner_plain root outerrel innerrel saveJointype innerTotal kind
    rw [made,pure_bind]
    simp only [kind,false_and,if_false]
    exact outerLoop_chosen root joinrel outerrel innerrel saveJointype mergeclauseList
      outerTotal outerExplore outerCheapest choices _ _ chosen

def JoinRun.start (outerrel innerrel : RelOptInfo) (sjinfo : SpecialJoinInfo)
    (canonPathkeys : List PathKeyFields) :
    JoinRun :=
  ⟨outerrel,innerrel,sjinfo,canonPathkeys,[],[]⟩

def issuedCalls (program : JoinM Unit) (start : JoinRun) : List JoinCall :=
  (program.run.run start).2.calls

def outcome (program : JoinM Unit) (start : JoinRun) : Except JoinFailure Unit :=
  (program.run.run start).1

/-- Also in a run that fails: the calls up to the failure and the failure are the same. -/
theorem matchUnsortedOuter_refines_origin (sjinfo : SpecialJoinInfo)
    (canonPathkeys : List PathKeyFields) (outerTotal innerTotal : Path)
    (outerExplore : outerrel.cheapestCostExplorePathlist = [outerTotal])
    (outerCheapest : outerrel.cheapestTotalPath = some outerTotal)
    (innerExplore : innerrel.cheapestCostExplorePathlist = [innerTotal])
    (innerCheapest : innerrel.cheapestTotalPath = some innerTotal) :
    issuedCalls (matchUnsortedOuter root joinrel outerrel innerrel saveJointype mergeclauseList)
        (.start outerrel innerrel sjinfo canonPathkeys) =
      issuedCalls (matchUnsortedOuterOrigin root joinrel outerrel innerrel saveJointype
        mergeclauseList) (.start outerrel innerrel sjinfo canonPathkeys) ∧
    outcome (matchUnsortedOuter root joinrel outerrel innerrel saveJointype mergeclauseList)
        (.start outerrel innerrel sjinfo canonPathkeys) =
      outcome (matchUnsortedOuterOrigin root joinrel outerrel innerrel saveJointype mergeclauseList)
        (.start outerrel innerrel sjinfo canonPathkeys) := by
  rw [matchUnsortedOuter_single root joinrel outerrel innerrel saveJointype mergeclauseList
    outerTotal innerTotal outerExplore outerCheapest innerExplore innerCheapest]
  exact ⟨rfl,rfl⟩

end Single

def plainPlanner : PlannerInfo where
  eclasses := ⟨fun _ => false,fun _ => false,fun _ _ => true⟩
  queryPathkeys := []
  enableMaterial := true
  cpuOperatorCost := 1/400
  seqPageCost := 1
  workMem := 4096
  pathtype := fun _ => .other
  width := fun _ => 4
  materialAddress := fun path => path.address + 100
  uniqueEstimates := noEstimates

def orderedLeft : Path := {leftPath with pathkeys := [0]}

def orderedRight : Path := {explorablePath with pathkeys := [0]}

def orderedLeftRel : RelOptInfo :=
  {leftRel with
    pathlist := [orderedLeft]
    cheapestCostExplorePathlist := [orderedLeft]
    cheapestTotalPath := some orderedLeft}

def orderedRightRel : RelOptInfo :=
  {rightRel [rightPath] with pathlist := [rightPath,orderedRight]}

def mergeableJoin : JoinRel := {joinedCore with hasEclassJoins := true, joininfo := []}

/-- Each outer path meets the cheapest inner path plain, materialized and sorted, and the dearer
inner path that is already in order. -/
theorem matchUnsortedOuter_refines_origin_ordered :
    issuedCalls (matchUnsortedOuter plainPlanner mergeableJoin orderedLeftRel orderedRightRel .inner
        [⟨1,true,5,5,true⟩]) (.start orderedLeftRel orderedRightRel ⟨true,true⟩ [⟨5,1,1,false⟩]) =
      [.nestloop orderedLeft rightPath [0] .inner,
        .nestloop orderedLeft (createMaterialPath plainPlanner orderedRightRel.toRelCore rightPath)
        [0] .inner,.mergejoin orderedLeft rightPath [0] [⟨1,true,5,5,true⟩] [] [0] .inner false,
        .mergejoin orderedLeft orderedRight [0] [⟨1,true,5,5,true⟩] [] [] .inner false] := by
  rw [(matchUnsortedOuter_refines_origin plainPlanner mergeableJoin orderedLeftRel
      orderedRightRel .inner
    [⟨1,true,5,5,true⟩] ⟨true,true⟩ [⟨5,1,1,false⟩] orderedLeft rightPath rfl rfl rfl rfl).1]
  decide +kernel

end ExploratoryOptimizer.UnsortedOuter
