import ExploratoryOptimizer.Aqo.OkNNr
import ExploratoryOptimizer.Conservative
import Mathlib.Data.Rat.Sqrt

/-! The query context of contrib/aqo through a session: `aqo_planner` (preprocessing.c), the
executor hooks (postprocessing.c), the service tables (storage.c) and the planner hooks that read
the context (plan_generation.c, cardinality_hooks.c). The service tables are installed; a client
may rewrite them between queries. Learned cardinality models are a function from clauses and
relations to an estimate, replaced by whatever an execution has learned. -/
namespace ExploratoryOptimizer.Aqo.Session
open OkNNr

inductive AqoMode where
  | intelligent
  | forced
  | controlled
  | learn
  | disabled
  deriving DecidableEq

structure QueryContext where
  queryHash : Int
  learnAqo : Bool
  useAqo : Bool
  fspaceHash : Int
  autoTuning : Bool
  collectStat : Bool
  addingQuery : Bool
  explainOnly : Bool
  explainAqo : Bool
  currentQueryHash : Nat
  queryDistribution : List ℚ
  nfeatures : Nat
  currentQueryFeatures : List ℚ
  bestEstCost : ℚ
  bestPredCost : ℚ
  deriving DecidableEq

def QueryContext.zero : QueryContext :=
  ⟨0,false,false,0,false,false,false,false,false,0,[],0,[],0,0⟩

/-- A row of `aqo_queries`; every template shares the one with query hash 1. -/
structure QueryRow where
  learnAqo : Bool
  useAqo : Bool
  fspaceHash : Int
  autoTuning : Bool
  queryHistory : List ℚ
  numHistory : Nat
  totalNum : Int32
  currentQuery : List ℚ
  numFeature : Nat
  deriving DecidableEq

structure TwoCosts where
  nfeatures : Nat
  record : CostRecord
  deriving DecidableEq

structure Tables where
  queries : Int → Option QueryRow
  bestTwoCosts : Nat → Option TwoCosts
  markov : Int → Option (List ℚ)

structure ExploreValue where
  rows : ℚ
  estUncof : ℚ
  estFuture : ℚ
  rate : ℚ
  deriving DecidableEq

abbrev Models := List ClauseRef → Relids → ExploreValue

/-- What `aqo_planner` and the join search see of a query. `excluded` collects the tests that
switch AQO off at once: other commands, extension scripts, parallel mode, system relations. -/
structure QueryInfo where
  excluded : Bool
  hash : Int
  inRecovery : Bool
  levelsNeeded : Nat

def numHistoryDataComputeProbabilityFs : Nat := 3

def numQueryPattern : Nat := 7

def numTwoCostsSave : Nat := 66

def templateOf (hash : Int) : Nat :=
  if hash = 1370653224 then 1
  else if hash = 164935887 then 2
  else if hash = -1029517898 then 3
  else if hash = 1392879147 then 4
  else if hash = -63216440 then 5
  else if hash = 933944866 then 6
  else if hash = 1409061130 then 7
  else 0

def disableAqoForQuery (context : QueryContext) : QueryContext :=
  -- Only the five switches are reset.
  {context with
    addingQuery := false, learnAqo := false, useAqo := false, autoTuning :=
    false, collectStat := false}

def firstSettings (mode : AqoMode) (context : QueryContext) : QueryContext :=
  match mode with
  | .intelligent => {context with
      addingQuery :=
        true, learnAqo := true, useAqo := false, fspaceHash := context.queryHash, autoTuning := true
      collectStat := true}
  | .forced => {context with
      addingQuery := false, learnAqo := true, useAqo := true, autoTuning := false, fspaceHash := 0
      collectStat := false}
  | .controlled =>
    {context with addingQuery := false, learnAqo := false, useAqo := false, collectStat := false}
  | .learn => {context with
      addingQuery :=
        true, learnAqo := true, useAqo := true, fspaceHash := context.queryHash, autoTuning := true
      collectStat := true}
  | .disabled => context

def firstRow (context : QueryContext) : QueryRow where
  learnAqo := context.learnAqo
  useAqo := context.useAqo
  fspaceHash := context.fspaceHash
  autoTuning := context.autoTuning
  queryHistory :=
    (context.currentQueryHash : ℚ) :: List.replicate (numHistoryDataComputeProbabilityFs - 1) 0
  numHistory := 1
  totalNum := 1
  currentQuery := [0,0]
  numFeature := 0

def pushHistory (row : QueryRow) (template : Nat) : QueryRow :=
  if row.numHistory < numHistoryDataComputeProbabilityFs then
    {row with
      queryHistory := row.queryHistory.set row.numHistory template
      numHistory := row.numHistory + 1
      totalNum := row.totalNum + 1}
  else
    {row with
      queryHistory := ((row.queryHistory.take row.numHistory).drop 1 ++
        row.queryHistory.drop (row.numHistory - 1)).set (row.numHistory - 1) template
      totalNum := row.totalNum + 1}

def loadQueryDistribution (tables : Tables) (fspaceHash : Int) (numHistory : Nat) : List ℚ :=
  -- The Markov table is searched under the feature space hash.
  let uniform := List.replicate numQueryPattern (1 / (numQueryPattern : ℚ))
  if numHistory < numHistoryDataComputeProbabilityFs then uniform
  else (tables.markov fspaceHash).getD uniform

def loadBestTwoCosts (tables : Tables) (template nfeatures : Nat) : Option CostRecord :=
  (tables.bestTwoCosts template).bind fun costs => if costs.nfeatures = nfeatures then
    some costs.record else none

section Planner

variable (arith : Arithmetic)

def calculateCurrentBestEstimateCost (tables : Tables) (template nfeatures : Nat)
    (features : List ℚ) : ℚ :=
  let record := (loadBestTwoCosts tables template nfeatures).getD ⟨[],[],[]⟩
  predict2 arith nfeatures record.matrix record.bestEstCosts features 2

def planStored (tables : Tables) (context : QueryContext) (row : QueryRow) (inRecovery : Bool) :
    QueryContext × Tables :=
  let pushed := pushHistory row context.currentQueryHash
  let tables :=
    {tables with queries := Function.update tables.queries context.queryHash (some pushed)}
  let context := {context with
    addingQuery := false
    learnAqo := row.learnAqo
    useAqo := row.useAqo
    fspaceHash := row.fspaceHash
    autoTuning := row.autoTuning
    collectStat := row.autoTuning
    queryDistribution := loadQueryDistribution tables row.fspaceHash pushed.numHistory
    bestPredCost :=
      calculateCurrentBestEstimateCost arith tables context.currentQueryHash row.numFeature
        row.currentQuery
    nfeatures := row.numFeature
    currentQueryFeatures := row.currentQuery.take row.numFeature}
  let context :=
    if inRecovery then {context with learnAqo := false, autoTuning := false, collectStat := false}
    else context
  ({context with explainAqo := context.useAqo},tables)

def planNew (mode : AqoMode) (tables : Tables) (context : QueryContext) (inRecovery : Bool) :
    QueryContext × Tables :=
  let context := firstSettings mode context
  if inRecovery ∧ mode ≠ .forced then (disableAqoForQuery context,tables)
  else
    let context := if inRecovery then
      {context with
        addingQuery := false, learnAqo := false, autoTuning := false, collectStat := false}
      else context
    let tables := if context.addingQuery then
      {tables with
        queries := Function.update tables.queries context.queryHash (some (firstRow context))}
      else tables
    ({context with explainAqo := context.useAqo},tables)

def aqoPlanner (mode : AqoMode) (tables : Tables) (context : QueryContext) (query : QueryInfo) :
    QueryContext × Tables :=
  let context := {context with explainAqo := false}
  if query.excluded ∨ mode = .disabled then (disableAqoForQuery context,tables)
  else
    let context := {context with nfeatures := 0, currentQueryHash := templateOf query.hash}
    if context.currentQueryHash = 0 then (disableAqoForQuery context,tables)
    else
      let context := {context with queryHash := 1}
      match tables.queries context.queryHash with
      | none => planNew mode tables context query.inRecovery
      | some row => planStored arith tables context row query.inRecovery

end Planner

/-! Execution: the context is saved when the executor starts and restored when it ends. -/

def updateBestTwoCosts (tables : Tables) (template nfeatures : Nat)
    (record : CostRecord) : Tables :=
  let costs : TwoCosts := match tables.bestTwoCosts template with
    | none => ⟨nfeatures,record⟩
    | some old => {old with record := record}
  {tables with bestTwoCosts := Function.update tables.bestTwoCosts template (some costs)}

def updateTwoBestCostsRecord (arith : Arithmetic) (tables : Tables) (template nfeatures : Nat)
    (features : List ℚ) (bestEstCost totalTime : ℚ) : Tables :=
  let record := (loadBestTwoCosts tables template nfeatures).getD ⟨[],[],[]⟩
  updateBestTwoCosts tables template nfeatures
    (learn2 arith nfeatures record features bestEstCost totalTime numTwoCostsSave)

structure SessionState where
  mode : AqoMode
  context : QueryContext
  tables : Tables
  models : Models
  saved : Nat → Option QueryContext

inductive Event where
  | plan (query : QueryInfo) (bestPathCost : ℚ)
  | executorStart (queryDesc : Nat) (explainOnly : Bool)
  | executorEnd (queryDesc : Nat) (executionTime : ℚ) (learned : Models)
  | service (tables : Tables)

section Run

variable (arith : Arithmetic)

def learnQueryStat (session : SessionState) (queryDesc : Nat) (executionTime : ℚ)
    (learned : Models) :
    SessionState :=
  match session.saved queryDesc with
  | none => session
  | some restored =>
    let context :=
      if restored.explainOnly then {restored with learnAqo := false, collectStat := false}
      else restored
    {session with
      context := context
      models := if context.learnAqo then learned else session.models
      tables :=
        if context.collectStat ∧ session.mode = .learn ∧ context.nfeatures > 0 ∧
          context.currentQueryHash ≠ 0 then
          updateTwoBestCostsRecord arith session.tables context.currentQueryHash context.nfeatures
            context.currentQueryFeatures context.bestEstCost executionTime
        else session.tables
      saved := Function.update session.saved queryDesc none}

def step (session : SessionState) : Event → SessionState
  | .plan query bestPathCost =>
    let planned := aqoPlanner arith session.mode session.tables session.context query
    {session with context := {planned.1 with bestEstCost := bestPathCost}, tables := planned.2}
  | .executorStart queryDesc explainOnly =>
    let context := {session.context with explainOnly := explainOnly}
    {session with
      context := context, saved := Function.update session.saved queryDesc (some context)}
  | .executorEnd queryDesc executionTime learned =>
    learnQueryStat arith session queryDesc executionTime learned
  | .service tables => {session with tables := tables}

def run (session : SessionState) (history : List Event) : SessionState :=
  history.foldl (step arith) session

end Run

/-! The hooks through which the planner reads the context. -/

structure PlannerInfo where
  searchPlanMode : Nat
  rateToGenerateExplorePlan : ℚ
  rateToCompareBestEstCost : ℚ
  pruneRateForAddPathExplore : ℚ
  bestEstimateCostOfCurrentQuery : ℚ
  deriving DecidableEq

def aqoSetRelPathlist (mode : AqoMode) (root : PlannerInfo) : PlannerInfo :=
  if mode = .disabled then {root with searchPlanMode := 0}
  else {root with
    searchPlanMode := 2
    rateToGenerateExplorePlan := 1/100
    rateToCompareBestEstCost := 1
    pruneRateForAddPathExplore := 101/100}

def aqoJoinSearch (context : QueryContext) (levelsNeeded : Nat)
    (root : PlannerInfo) : PlannerInfo :=
  if levelsNeeded > 1 then {root with bestEstimateCostOfCurrentQuery := context.bestPredCost}
  else root

section Hooks

variable (mode : AqoMode) (models : Models) (context : QueryContext)

def combinedValue (ev : ExploreValue) : ℚ := ev.estUncof * ev.rate + ev.estFuture * (1 - ev.rate)

def setSizeEstimate (unmodelled : ℚ) (clauses : List ClauseRef) (defaultRows : ℚ)
    (rel : RelCore) : RelCore :=
  -- Common part of the two relation hooks: the value left in a relation without a usable model
  -- differs. Outside learn mode a relation that uses AQO is left as it is.
  if !context.useAqo then {rel with rows := defaultRows}
  else if mode = .learn then
    let ev := models clauses rel.relids
    if ev.rows ≥ 0 then {rel with rows := ev.rows, exploreValue := combinedValue ev}
    else {rel with rows := defaultRows, exploreValue := unmodelled}
  else rel

def aqoSetBaserelRowsEstimate (defaultRows : ℚ) (rel : RelCore) : RelCore :=
  setSizeEstimate mode models context (if rel.baserestrictinfo = [] then 0 else 1/2)
    rel.baserestrictinfo defaultRows rel

def aqoSetJoinrelSizeEstimates (allclauses : List ClauseRef) (defaultRows : ℚ)
    (rel : RelCore) : RelCore :=
  setSizeEstimate mode models context 1 allclauses defaultRows rel

def aqoGetParameterizedSize (allclauses : List ClauseRef) (relids : Relids) (defaultRows : ℚ) :
    Option (ℚ × ℚ) :=
  -- Outside learn mode a query that uses AQO falls off the end of the hook: no value is returned.
  if !context.useAqo then some (defaultRows,0)
  else if mode = .learn then
    let ev := models allclauses relids
    if ev.rows ≥ 0 then some (ev.rows,combinedValue ev) else some (defaultRows,1)
  else none

end Hooks

structure PlannerState where
  root : PlannerInfo
  baserel : ℚ → RelCore → RelCore
  joinrel : List ClauseRef → ℚ → RelCore → RelCore
  parameterized : List ClauseRef → Relids → ℚ → Option (ℚ × ℚ)

def plannerState (arith : Arithmetic) (session : SessionState) (query : QueryInfo) : PlannerState :=
  let context := (aqoPlanner arith session.mode session.tables session.context query).1
  { root := aqoJoinSearch context query.levelsNeeded (aqoSetRelPathlist session.mode ⟨0,0,0,0,0⟩)
    baserel := aqoSetBaserelRowsEstimate session.mode session.models context
    joinrel := aqoSetJoinrelSizeEstimates session.mode session.models context
    parameterized := aqoGetParameterizedSize session.mode session.models context }

/-! The prediction is the one field of the context that outlives the query it was made for. -/

section History

variable (arith : Arithmetic)

/-- The predicted best cost an event writes into the context, if it writes one: planning a stored
template predicts, the end of an execution restores the saved value. -/
def writtenPrediction (session : SessionState) : Event → Option ℚ
  | .plan query _ =>
    if query.excluded ∨ session.mode = .disabled ∨ templateOf query.hash = 0 then none
    else (session.tables.queries 1).map fun row =>
      calculateCurrentBestEstimateCost arith session.tables (templateOf query.hash) row.numFeature
        row.currentQuery
  | .executorEnd queryDesc _ _ => (session.saved queryDesc).map (·.bestPredCost)
  | .executorStart _ _ => none
  | .service _ => none

def lastPrediction (session : SessionState) : List Event → Option ℚ
  | [] => none
  | event :: history =>
    (lastPrediction (step arith session event) history).or (writtenPrediction arith session event)

theorem planNew_bestPredCost (mode : AqoMode) (tables : Tables) (context : QueryContext)
    (inRecovery : Bool) :
    (planNew mode tables context inRecovery).1.bestPredCost = context.bestPredCost := by
  have settings : (firstSettings mode context).bestPredCost = context.bestPredCost := by
    cases mode with
    | _ => rfl
  unfold planNew
  dsimp only
  split_ifs
  all_goals exact settings

theorem aqoPlanner_bestPredCost (mode : AqoMode) (tables : Tables) (context : QueryContext)
    (query : QueryInfo) :
    (aqoPlanner arith mode tables context query).1.bestPredCost =
      (if query.excluded ∨ mode = .disabled ∨ templateOf query.hash = 0 then none
        else (tables.queries 1).map fun row =>
          calculateCurrentBestEstimateCost arith tables (templateOf query.hash) row.numFeature
            row.currentQuery).getD context.bestPredCost := by
  unfold aqoPlanner
  dsimp only
  by_cases excluded : query.excluded ∨ mode = .disabled
  · rw [if_pos excluded,if_pos (excluded.imp id .inl)]
    rfl
  rw [if_neg excluded]
  by_cases other : templateOf query.hash = 0
  · rw [if_pos other,if_pos (.inr (.inr other))]
    rfl
  rw [if_neg other,if_neg fun some_reason =>
    excluded (some_reason.imp id fun rest => rest.resolve_right other)]
  cases tables.queries 1 with
  | none => exact planNew_bestPredCost mode tables _ query.inRecovery
  | some row =>
    unfold planStored
    dsimp only
    split_ifs
    · rfl
    · rfl

theorem step_bestPredCost (session : SessionState) (event : Event) :
    (step arith session event).context.bestPredCost =
      (writtenPrediction arith session event).getD session.context.bestPredCost := by
  cases event with
  | plan query bestPathCost =>
    exact aqoPlanner_bestPredCost arith session.mode session.tables session.context query
  | executorStart queryDesc explainOnly => rfl
  | executorEnd queryDesc executionTime learned =>
    simp only [step,learnQueryStat,writtenPrediction]
    cases session.saved queryDesc with
    | none => rfl
    | some restored =>
      dsimp only
      split_ifs
      · rfl
      · rfl
  | service tables => rfl

theorem run_bestPredCost (session : SessionState) (history : List Event) :
    (run arith session history).context.bestPredCost =
      (lastPrediction arith session history).getD session.context.bestPredCost := by
  induction history generalizing session with
  | nil => rfl
  | cons event history ih =>
    change (run arith (step arith session event) history).context.bestPredCost = _
    rw [ih,step_bestPredCost,lastPrediction]
    cases lastPrediction arith (step arith session event) history with
    | none => rfl
    | some prediction => rfl

theorem step_mode (session : SessionState) (event : Event) :
    (step arith session event).mode = session.mode := by
  cases event with
  | executorEnd queryDesc executionTime learned =>
    simp only [step,learnQueryStat]
    cases session.saved queryDesc with
    | none => rfl
    | some restored => rfl
  | _ => rfl

theorem run_mode (session : SessionState) (history : List Event) :
    (run arith session history).mode = session.mode := by
  induction history generalizing session with
  | nil => rfl
  | cons event history ih => exact (ih _).trans (step_mode arith session event)

theorem aqoPlanner_untemplated (mode : AqoMode) (tables : Tables) (context : QueryContext)
    (query : QueryInfo) (other : templateOf query.hash = 0) :
    (aqoPlanner arith mode tables context query).1.useAqo = false ∧
      (aqoPlanner arith mode tables context query).1.bestPredCost = context.bestPredCost := by
  refine ⟨?_,?_⟩
  · unfold aqoPlanner
    dsimp only
    split_ifs
    · rfl
    · rfl
  · rw [aqoPlanner_bestPredCost,if_pos (.inr (.inr other))]
    rfl

theorem plannerState_untemplated (session : SessionState) (query : QueryInfo)
    (other : templateOf query.hash = 0) (joins : 1 < query.levelsNeeded) :
    plannerState arith session query =
      { root := {aqoSetRelPathlist session.mode ⟨0,0,0,0,0⟩ with
          bestEstimateCostOfCurrentQuery := session.context.bestPredCost}
        baserel := fun defaultRows rel => {rel with rows := defaultRows}
        joinrel := fun _ defaultRows rel => {rel with rows := defaultRows}
        parameterized := fun _ _ defaultRows => some (defaultRows,0) } := by
  obtain ⟨off,leftover⟩ :=
    aqoPlanner_untemplated arith session.mode session.tables session.context query other
  rw [plannerState,PlannerState.mk.injEq]
  refine ⟨?_,?_,?_,?_⟩
  · simp [aqoJoinSearch,joins,leftover]
  · funext defaultRows rel
    simp [aqoSetBaserelRowsEstimate,setSizeEstimate,off]
  · funext clauses defaultRows rel
    simp [aqoSetJoinrelSizeEstimates,setSizeEstimate,off]
  · funext clauses relids defaultRows
    simp [aqoGetParameterizedSize,off]

end History

/-- Two sessions plan a query alike: the same planner state, and so the same pathlists from
whatever paths are offered. -/
structure SamePlanning (arith : Arithmetic) (first second : SessionState)
    (query : QueryInfo) : Prop where
  state : plannerState arith first query = plannerState arith second query
  pathlists : ∀ rel offers,
    Conservative.offerAllExplore rel offers
    (plannerState arith first query).root.bestEstimateCostOfCurrentQuery
        (plannerState arith first query).root.pruneRateForAddPathExplore =
      Conservative.offerAllExplore rel offers
      (plannerState arith second query).root.bestEstimateCostOfCurrentQuery
        (plannerState arith second query).root.pruneRateForAddPathExplore

/-- A join query outside the templates is planned alike after two histories exactly when they
leave the same predicted best cost of some earlier template query. -/
theorem untemplated_planning_iff (arith : Arithmetic) (start : SessionState)
    (history history' : List Event) (query : QueryInfo) (other : templateOf query.hash = 0)
    (joins : 1 < query.levelsNeeded) :
    SamePlanning arith (run arith start history) (run arith start history') query ↔
      (lastPrediction arith start history).getD start.context.bestPredCost =
        (lastPrediction arith start history').getD start.context.bestPredCost := by
  rw [← run_bestPredCost,← run_bestPredCost]
  have state := plannerState_untemplated arith (run arith start history) query other joins
  have state' := plannerState_untemplated arith (run arith start history') query other joins
  rw [run_mode] at state state'
  constructor
  · intro same
    have roots := congrArg (fun planner => planner.root.bestEstimateCostOfCurrentQuery) same.state
    rwa [state,state'] at roots
  · intro equal
    have same : plannerState arith (run arith start history) query = plannerState arith
      (run arith start history') query := by
      rw [state,state',equal]
    exact ⟨same,fun _ _ => by rw [same]⟩

/-! A session that finds the recorded best costs of the first template in its tables. -/

def storedRow : QueryRow := ⟨true,true,1,true,[1,0,0],1,1,[0,0],1⟩

def recordedTables : Tables where
  queries := fun hash => if hash = 1 then some storedRow else none
  bestTwoCosts := fun template => if template = 1 then some ⟨1,⟨[[0]],[100],[5]⟩⟩ else none
  markov := fun _ => none

def learnSession : SessionState :=
  ⟨.learn,QueryContext.zero,recordedTables,fun _ _ => ⟨-1,0,0,0⟩,fun _ => none⟩

def templateQuery : QueryInfo := ⟨false,1370653224,false,2⟩

def otherQuery : QueryInfo := ⟨false,42,false,2⟩

theorem untemplated_planning_iff_unplanned :
    SamePlanning (.exact Rat.sqrt) (run (.exact Rat.sqrt) learnSession [])
      (run (.exact Rat.sqrt) learnSession [.plan otherQuery 70]) otherQuery :=
  (untemplated_planning_iff (.exact Rat.sqrt) learnSession [] [.plan otherQuery 70] otherQuery
      (by decide) (by decide)).mpr
    (by decide +kernel)

/-- Planning a template query first leaves its predicted cost of 100 behind, and a path of cost
200 that explores more is pruned from another query's pathlist. -/
theorem template_history_prunes_path :
    (plannerState (.exact Rat.sqrt) (run (.exact Rat.sqrt) learnSession [])
        otherQuery).root.bestEstimateCostOfCurrentQuery = 0 ∧
      (plannerState (.exact Rat.sqrt) (run (.exact Rat.sqrt) learnSession [.plan templateQuery 70])
        otherQuery).root.bestEstimateCostOfCurrentQuery = 100 ∧
      (Conservative.offerAllExplore (RelOptInfo.ofPaths (baseRel 1 0) [])
        [seqScan (baseRel 1 0) 1 0 50 0,seqScan (baseRel 1 0) 2 0 200 1] 0 (101/100)).pathlist =
          [seqScan (baseRel 1 0) 1 0 50 0,seqScan (baseRel 1 0) 2 0 200 1] ∧
      (Conservative.offerAllExplore (RelOptInfo.ofPaths (baseRel 1 0) [])
        [seqScan (baseRel 1 0) 1 0 50 0,seqScan (baseRel 1 0) 2 0 200 1] 100 (101/100)).pathlist =
          [seqScan (baseRel 1 0) 1 0 50 0] := by
  decide +kernel

end ExploratoryOptimizer.Aqo.Session
