import ExploratoryOptimizer.Aqo.Hash
import ExploratoryOptimizer.PathTree
import Mathlib.Data.Finset.Sort
import Mathlib.Data.Multiset.AddSub

/-! Learning after execution: `aqo_copy_generic_path_info`, `collect_planstat` and
`learn_query_stat` of contrib/aqo/postprocessing.c, and `get_path_clauses` of path_utils.c.
Plan nodes carry the path they were made from, so that a learned sample can be compared with the
clauses the estimator used. -/
namespace ExploratoryOptimizer.Aqo.PlanStat
open PathTree

def baseClauses (path : Path) : List ClauseRef :=
  path.parent.baserestrictinfo ++ (path.paramInfo.map (·.clauses)).getD []

def getPathClauses : PathNode → List ClauseRef
  | .join info _ outer inner =>
    info.joinrestrictinfo ++ (getPathClauses outer ++ getPathClauses inner)
  | .gather _ subpath => getPathClauses subpath
  | .wrapper .subqueryScan path _ => baseClauses path
  | .wrapper .projectSet path _ => baseClauses path
  | .wrapper _ _ subpath => getPathClauses subpath
  | node => baseClauses node.path

structure PathInfo where
  source : PathNode
  pathClauses : List ClauseRef
  pathRelids : List Nat
  pathParallelWorkers : Nat
  wasParametrized : Bool
  planRows : ℚ

def aqoCopyGenericPathInfo (rteRelid : Nat → Nat) (source : PathNode) : PathInfo where
  source := source
  pathClauses := match source with
    | .join info _ _ _ => info.joinrestrictinfo
    | node => baseClauses node.path
  pathRelids := (source.path.parent.relids.sort (· ≤ ·)).map rteRelid
  pathParallelWorkers := source.path.parallelWorkers
  wasParametrized := source.path.paramInfo.isSome
  planRows := source.path.rows

inductive Plan where
  | leaf (info : Option PathInfo)
  | unary (info : Option PathInfo) (left : Plan)
  | binary (info : Option PathInfo) (left right : Plan)
  | rightOnly (info : Option PathInfo) (right : Plan)

def Plan.insert (needed : Bool) (plan : Plan) : Plan := if needed then .unary none plan else plan

section CreatePlan

variable (rteRelid : Nat → Nat)

/-- Plans of scans, Material, Sort, Unique, Gather and joins. A bitmap scan is driven by one of
its clauses; its index subplan has no path of its own. A subquery scan with clauses is a leaf for
the walk; setrefs.c may remove one without. Other paths have other plan shapes. -/
def createPlan : PathNode → Option Plan
  | .scan .bitmapHeapScan path =>
    if baseClauses path = [] then none
    else some (.unary (some (aqoCopyGenericPathInfo rteRelid (.scan .bitmapHeapScan path)))
        (.leaf none))
  | .scan kind path => some (.leaf (some (aqoCopyGenericPathInfo rteRelid (.scan kind path))))
  | .wrapper .subqueryScan path subpath =>
    if baseClauses path = [] then none
    else some (.leaf (some (aqoCopyGenericPathInfo rteRelid (.wrapper .subqueryScan path subpath))))
  | .wrapper .material path subpath =>
    (createPlan subpath).map (.unary
        (some (aqoCopyGenericPathInfo rteRelid (.wrapper .material path subpath))))
  | .wrapper .sort path subpath =>
    (createPlan subpath).map (.unary
        (some (aqoCopyGenericPathInfo rteRelid (.wrapper .sort path subpath))))
  -- Input that is already distinct needs no node; sorting adds a Sort below the Unique.
  | .wrapper (.unique .noop) _ subpath => createPlan subpath
  | .wrapper (.unique .hash) path subpath =>
    (createPlan subpath).map
      (.unary (some (aqoCopyGenericPathInfo rteRelid (.wrapper (.unique .hash) path subpath))))
  | .wrapper (.unique .sort) path subpath =>
    (createPlan subpath).map fun plan =>
      .unary (some (aqoCopyGenericPathInfo rteRelid (.wrapper (.unique .sort) path subpath)))
        (.unary none plan)
  | .gather path subpath =>
    (createPlan subpath).map (.unary
        (some (aqoCopyGenericPathInfo rteRelid (.gather path subpath))))
  | .join info path outer inner =>
    (createPlan outer).bind fun outerPlan => (createPlan inner).map fun innerPlan =>
      .binary (some (aqoCopyGenericPathInfo rteRelid (.join info path outer inner)))
        (outerPlan.insert info.outersort)
        ((innerPlan.insert info.innersort).insert (info.materializeInner || info.kind = .hashJoin))
  | _ => none

end CreatePlan

structure Instrumentation where
  ntuples : ℚ
  nloops : ℚ

structure PlanNode where
  info : Option PathInfo
  instrument : Option Instrumentation

inductive PlanState where
  | leaf (node : PlanNode) (subPlan : List PlanState)
  | unary (node : PlanNode) (lefttree : PlanState) (subPlan : List PlanState)
  | binary (node : PlanNode) (lefttree righttree : PlanState) (subPlan : List PlanState)
  | rightOnly (node : PlanNode) (righttree : PlanState) (subPlan : List PlanState)

namespace PlanState

def plan : PlanState → Plan
  | .leaf node _ => .leaf node.info
  | .unary node lefttree _ => .unary node.info lefttree.plan
  | .binary node lefttree righttree _ => .binary node.info lefttree.plan righttree.plan
  | .rightOnly node righttree _ => .rightOnly node.info righttree.plan

end PlanState

/-- How clauses are told apart by `get_fss_for_object`: a hash that may depend on the equivalence
classes of all clauses at hand, and whether a clause compares with a constant. -/
structure Featurizer where
  clauseHash : Multiset ClauseRef → ClauseRef → Int
  hasConsts : ClauseRef → Bool

def Featurizer.keeps (featurizer : Featurizer) (clauses : List ClauseRef)
    (clause : ClauseRef) : Bool :=
  -- A clause without constants is a feature only if it is the only such clause of its hash.
  let same :=
    clauses.filter fun other => featurizer.clauseHash clauses other =
      featurizer.clauseHash clauses clause
  featurizer.hasConsts clause || same.countP featurizer.hasConsts + 1 = same.length

def Featurizer.nfeatures (featurizer : Featurizer) (clauses : List ClauseRef) : Nat :=
  clauses.countP (featurizer.keeps clauses)

/-- The clause hashes of hash.c; they do not depend on the order of the clauses. -/
def hashFeaturizer (hash : Hash.HashAny) (clauseOf : ClauseRef → Hash.Node) : Featurizer where
  clauseHash clauses clause :=
    Quotient.liftOn clauses
      (fun clauselist => ((Hash.getEclasses hash (clauselist.map clauseOf)).map fun eclasses =>
        Hash.getClauseHash hash eclasses (clauseOf clause)).getD 0)
      fun clauselist clauselist' perm => by
        rw [Hash.getEclasses_perm hash _ _ (List.Perm.map clauseOf perm)]
  hasConsts clause := ((clauseOf clause).clauseArgs.map Hash.hasConsts).getD false

structure Gathered where
  clauselist : List ClauseRef
  selectivities : List ℚ
  relidslist : List Nat

structure Sample where
  source : PathNode
  gathered : Gathered
  learnRows : ℚ
  planRows : ℚ

structure Collected where
  gathered : Gathered
  samples : List Sample
  otherPlans : List PlanState

inductive Inputs where
  | none
  | left
  | both
  deriving DecidableEq

def learnRows (info : PathInfo) (inputs : Inputs) (instrument : Instrumentation) : ℚ :=
  if instrument.nloops ≥ 1/2 then
    let rows := instrument.ntuples / instrument.nloops
    max 1 (if info.pathParallelWorkers > 0 ∧
        inputs = .none then rows * (info.pathParallelWorkers + 1) else rows)
  else 1

section Collect

variable (featurizer : Featurizer) (restoreSelectivities : PathInfo → List ℚ)

/-- The part of `collect_planstat` after the input trees have been walked. A sample without
features is learned from but not passed on to the nodes above. -/
def collectNode (node : PlanNode) (inputs : Inputs) (below : Collected) : Collected :=
  match node.info,node.instrument with
  | some info,some instrument =>
    if inputs = .both ∨ inputs = .none ∨ info.pathClauses ≠ [] then
      let temp : Gathered :=
        { clauselist := info.pathClauses ++ below.gathered.clauselist
          selectivities := restoreSelectivities info ++ below.gathered.selectivities
          relidslist :=
            if info.pathRelids ≠ [] then info.pathRelids else below.gathered.relidslist }
      if instrument.ntuples = 0 ∧ instrument.nloops = 0 then {below with gathered := temp}
      else
        { gathered := if featurizer.nfeatures temp.clauselist > 0 then temp else below.gathered
          samples :=
            below.samples ++ [⟨info.source,temp,learnRows info inputs instrument,info.planRows⟩]
          otherPlans := below.otherPlans }
    else below
  | _,_ => below

def collectPlanstat : PlanState → Gathered → Collected
  | .leaf node subPlan,gathered =>
    collectNode featurizer restoreSelectivities node .none ⟨gathered,[],subPlan⟩
  | .unary node lefttree subPlan,gathered =>
    let left := collectPlanstat lefttree gathered
    collectNode featurizer restoreSelectivities node .left
      {left with otherPlans := subPlan ++ left.otherPlans}
  | .binary node lefttree righttree subPlan,gathered =>
    let left := collectPlanstat lefttree gathered
    let right := collectPlanstat righttree ⟨[],[],[]⟩
    collectNode featurizer restoreSelectivities node .both
      { gathered :=
          { clauselist := right.gathered.clauselist ++ left.gathered.clauselist
            selectivities := right.gathered.selectivities ++ left.gathered.selectivities
            relidslist := right.gathered.relidslist ++ left.gathered.relidslist }
        samples := left.samples ++ right.samples
        otherPlans := subPlan ++ left.otherPlans ++ right.otherPlans }
  -- "failed to parse planstat": the walk gives up on this tree.
  | .rightOnly _ _ subPlan,gathered => ⟨gathered,[],subPlan⟩

def learnPlans : Nat → List PlanState → Gathered → List Sample
  -- The work list of `learn_query_stat`; what one plan gathers is still there for the next.
  | 0,_,_ => []
  | _,[],_ => []
  | fuel + 1,toWalk :: otherPlans,gathered =>
    let collected := collectPlanstat featurizer restoreSelectivities toWalk gathered
    collected.samples ++ learnPlans fuel (otherPlans ++ collected.otherPlans) collected.gathered

end Collect

/-! The walk visits every SubPlan once, in the order in which they are found. -/

namespace PlanState

def subPlans : PlanState → List PlanState
  | .leaf _ subPlan => subPlan
  | .unary _ lefttree subPlan => subPlan ++ lefttree.subPlans
  | .binary _ lefttree righttree subPlan => subPlan ++ lefttree.subPlans ++ righttree.subPlans
  | .rightOnly _ _ subPlan => subPlan

mutual

def size : PlanState → Nat
  | .leaf _ subPlan => sizeAll subPlan + 1
  | .unary _ lefttree subPlan => size lefttree + sizeAll subPlan + 1
  | .binary _ lefttree righttree subPlan => size lefttree + size righttree + sizeAll subPlan + 1
  | .rightOnly _ righttree subPlan => size righttree + sizeAll subPlan + 1

def sizeAll : List PlanState → Nat
  | [] => 0
  | state :: states => size state + sizeAll states

end

theorem sizeAll_append (states states' : List PlanState) :
    sizeAll (states ++ states') = sizeAll states + sizeAll states' := by
  induction states with
  | nil => simp [sizeAll]
  | cons state states ih =>
    rw [List.cons_append,sizeAll,sizeAll,ih,Nat.add_assoc]

theorem sizeAll_subPlans : ∀ state : PlanState, sizeAll state.subPlans < state.size
  | .leaf _ subPlan => by
    rw [subPlans,size]
    exact Nat.lt_succ_self _
  | .unary _ lefttree subPlan => by
    have left := sizeAll_subPlans lefttree
    rw [subPlans,size,sizeAll_append]
    omega
  | .binary _ lefttree righttree subPlan => by
    have left := sizeAll_subPlans lefttree
    have right := sizeAll_subPlans righttree
    rw [subPlans,size,sizeAll_append,sizeAll_append]
    omega
  | .rightOnly _ righttree subPlan => by
    rw [subPlans,size]
    omega

end PlanState

def walkOrder : Nat → List PlanState → List PlanState
  | 0,_ => []
  | _,[] => []
  | fuel + 1,toWalk :: otherPlans => toWalk :: walkOrder fuel (otherPlans ++ toWalk.subPlans)

def learnQueryStat (featurizer : Featurizer) (restoreSelectivities : PathInfo → List ℚ)
    (planstate : PlanState) :
    List Sample :=
  learnPlans featurizer restoreSelectivities planstate.size [planstate] ⟨[],[],[]⟩

theorem walkOrder_complete (fuel extra : Nat) (queue : List PlanState)
    (enough : PlanState.sizeAll queue ≤ fuel) :
    walkOrder (fuel + extra) queue = walkOrder fuel queue := by
  induction fuel generalizing queue with
  | zero =>
    cases queue with
    | nil =>
      cases extra with
      | zero => rfl
      | succ extra => rfl
    | cons state states =>
      have positive := PlanState.sizeAll_subPlans state
      rw [PlanState.sizeAll] at enough
      omega
  | succ fuel ih =>
    cases queue with
    | nil =>
      rw [Nat.succ_add]
      rfl
    | cons state states =>
      rw [Nat.succ_add,walkOrder,walkOrder,ih]
      have smaller := PlanState.sizeAll_subPlans state
      rw [PlanState.sizeAll] at enough
      rw [PlanState.sizeAll_append]
      omega

section Walk

variable (featurizer : Featurizer) (restoreSelectivities : PathInfo → List ℚ)

def collectAll : List PlanState → Gathered → List Sample
  | [],_ => []
  | toWalk :: states,gathered =>
    let collected := collectPlanstat featurizer restoreSelectivities toWalk gathered
    collected.samples ++ collectAll states collected.gathered

theorem collectNode_otherPlans (node : PlanNode) (inputs : Inputs) (below : Collected) :
    (collectNode featurizer restoreSelectivities node inputs below).otherPlans =
      below.otherPlans := by
  unfold collectNode
  split
  · dsimp only
    split_ifs
    all_goals rfl
  · rfl

theorem collectPlanstat_otherPlans : ∀ (state : PlanState) (gathered : Gathered),
    (collectPlanstat featurizer restoreSelectivities state gathered).otherPlans = state.subPlans
  | .leaf _ _,_ => collectNode_otherPlans ..
  | .unary _ lefttree subPlan,gathered => by
    rw [collectPlanstat,collectNode_otherPlans,PlanState.subPlans]
    exact congrArg (subPlan ++ ·) (collectPlanstat_otherPlans lefttree gathered)
  | .binary _ lefttree righttree _,gathered => by
    rw [collectPlanstat,collectNode_otherPlans,PlanState.subPlans,
      ← collectPlanstat_otherPlans lefttree gathered,
      ← collectPlanstat_otherPlans righttree ⟨[],[],[]⟩]
  | .rightOnly _ _ _,_ => rfl

theorem learnPlans_eq (fuel : Nat) (queue : List PlanState) (gathered : Gathered) :
    learnPlans featurizer restoreSelectivities fuel queue gathered =
      collectAll featurizer restoreSelectivities (walkOrder fuel queue) gathered := by
  induction fuel generalizing queue gathered with
  | zero =>
    cases queue with
    | nil => rfl
    | cons state states => rfl
  | succ fuel ih =>
    cases queue with
    | nil => rfl
    | cons state states =>
      rw [learnPlans,walkOrder,collectAll,ih,collectPlanstat_otherPlans]

/-- The work list runs empty within the bound of `learn_query_stat`. -/
theorem learnQueryStat_complete (planstate : PlanState) (extra : Nat) :
    learnPlans featurizer restoreSelectivities (planstate.size + extra) [planstate] ⟨[],[],[]⟩ =
      learnQueryStat featurizer restoreSelectivities planstate := by
  have enough : PlanState.sizeAll [planstate] ≤ planstate.size := by
    rw [PlanState.sizeAll,PlanState.sizeAll,Nat.add_zero]
  rw [learnQueryStat,learnPlans_eq,learnPlans_eq,walkOrder_complete _ _ _ enough]

end Walk

end ExploratoryOptimizer.Aqo.PlanStat
