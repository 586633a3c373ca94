import ExploratoryOptimizer.Projection
import ExploratoryOptimizer.SetCheapest

/-! `create_ordered_paths` and `create_window_paths` of plan/planner.c. In exploration mode the
loops take a path that is a member of the explore list or already has the wanted order. Costs of
sorting, window functions and Gather Merge are given by the estimators. -/
namespace ExploratoryOptimizer.UpperPaths
open Library Projection AddPath SetCheapest

structure WindowClause where
  pathkeys : List PathKey
  windowFuncs : List Nat
  targetAddress : Nat

structure PlannerRoot where
  searchPlanMode : Nat
  tupleFraction : ℚ
  bestEstimateCostOfCurrentQuery : ℚ
  pruneRateForAddPathExplore : ℚ
  cpuTupleCost : ℚ
  costSort : Path → List PathKey → ℚ → ℚ × ℚ
  costWindowagg : Path → WindowClause → ℚ × ℚ
  costGatherMerge : Path → ℚ → ℚ × ℚ

section Constructors

variable (root : PlannerRoot) (rel : RelCore) (heap : PathHeap)

def createSortPath (subpath : Nat) (pathkeys : List PathKey) (limitTuples : ℚ) : Nat × PathHeap :=
  let sub := heap.read subpath
  let costs := root.costSort sub.path pathkeys limitTuples
  heap.alloc fun address =>
    { path :=
        { address := address
          type := .sortPath
          parent := rel
          paramInfo := none
          parallelSafe := rel.considerParallel && sub.path.parallelSafe
          parallelWorkers := sub.path.parallelWorkers
          rows := sub.path.rows
          startupCost := costs.1
          totalCost := costs.2
          exploreValue := sub.path.exploreValue
          pathkeys := pathkeys }
      pathtype := .sort
      pathtarget := sub.pathtarget
      subpaths := [subpath] }

def createWindowaggPath (subpath : Nat) (target : PathTarget) (winclause : WindowClause) :
    Nat × PathHeap :=
  let sub := heap.read subpath
  let costs := root.costWindowagg sub.path winclause
  heap.alloc fun address =>
    { path :=
        { address := address
          type := .windowAggPath
          parent := rel
          paramInfo := none
          parallelSafe := rel.considerParallel && sub.path.parallelSafe
          parallelWorkers := sub.path.parallelWorkers
          rows := sub.path.rows
          startupCost := costs.1 + target.startupCost
          totalCost := costs.2 + (target.startupCost + target.perTupleCost * sub.path.rows)
          exploreValue := sub.path.exploreValue
          pathkeys := sub.path.pathkeys }
      pathtype := .windowAgg
      pathtarget := target
      subpaths := [subpath] }

def createGatherMergePath (subpath : Nat) (target : PathTarget)
    (pathkeys : List PathKey) (rows : ℚ) :
    Nat × PathHeap :=
  -- The call of `create_gather_merge_path` with a row count, which leaves the explore value zero.
  let sub := heap.read subpath
  let costs := root.costGatherMerge sub.path rows
  heap.alloc fun address =>
    { path :=
        { address := address
          type := .gatherMergePath
          parent := rel
          paramInfo := none
          parallelSafe := false
          parallelWorkers := 0
          rows := rows
          startupCost := costs.1
          totalCost := costs.2
          exploreValue := 0
          pathkeys := pathkeys }
      pathtype := .gatherMerge
      pathtarget := target
      subpaths := [subpath] }

end Constructors

def fetchUpperRel (root : PlannerRoot) (considerParallel : Bool) : RelOptInfo :=
  RelOptInfo.ofPaths
    { relid := 0
      relids := ∅
      lateralRelids := ∅
      rows := 0
      exploreValue := 0
      considerStartup := root.tupleFraction > 0
      considerParamStartup := false
      considerParallel := considerParallel
      baserestrictinfo := [] } []

def offerPath (root : PlannerRoot) (rel : RelOptInfo) (path : Path) : RelOptInfo :=
  if root.searchPlanMode = 0 then addPath rel path
  else addPathExplore rel path root.bestEstimateCostOfCurrentQuery root.pruneRateForAddPathExplore

def takesPath (root : PlannerRoot) (inputRel : HeapRel) (path : Nat) : Bool :=
  if root.searchPlanMode = 0 then some path = inputRel.cheapestTotalPath
  else isIncludeInPathlist path inputRel.explorePathlist

section Ordered

variable (root : PlannerRoot) (target : PathTarget) (limitTuples : ℚ) (sortPathkeys : List PathKey)

def projectIfNeeded (rel : RelCore) (heap : PathHeap) (path : Nat) : Nat × PathHeap :=
  if (heap.read path).pathtarget ≠ target then applyProjectionToPath root.cpuTupleCost rel
    heap path target
  else (path,heap)

def orderedStep (inputRel : HeapRel) (state : RelOptInfo × PathHeap)
    (path : Nat) : RelOptInfo × PathHeap :=
  let isSorted := pathkeysContainedIn sortPathkeys (state.2.read path).path.pathkeys
  if takesPath root inputRel path || isSorted then
    let sorted := if isSorted then (path,state.2)
      else createSortPath root state.1.toRelCore state.2 path sortPathkeys limitTuples
    let projected := projectIfNeeded root target state.1.toRelCore sorted.2 sorted.1
    (offerPath root state.1 (projected.2.read projected.1).path,projected.2)
  else state

def orderedPartial (inputRel : HeapRel) (state : RelOptInfo × PathHeap) : RelOptInfo × PathHeap :=
  match inputRel.partialPathlist with
  | [] => state
  | cheapestPartialPath :: _ =>
    let best := (state.2.read cheapestPartialPath).path
    if state.1.considerParallel && sortPathkeys ≠ [] &&
      !pathkeysContainedIn sortPathkeys best.pathkeys then
      let sorted :=
        createSortPath root state.1.toRelCore state.2 cheapestPartialPath sortPathkeys (-1)
      let merged :=
        createGatherMergePath root state.1.toRelCore sorted.2 sorted.1 target sortPathkeys
          (best.rows * best.parallelWorkers)
      let projected := projectIfNeeded root target state.1.toRelCore merged.2 merged.1
      (addPath state.1 (projected.2.read projected.1).path,projected.2)
    else state

def createOrderedPaths (inputRel : HeapRel) (heap : PathHeap) : RelOptInfo × PathHeap :=
  orderedPartial root target sortPathkeys inputRel
    (inputRel.pathlist.foldl (orderedStep root target limitTuples sortPathkeys inputRel)
      (fetchUpperRel root (inputRel.core.considerParallel && target.parallelSafe),heap))

end Ordered

section Window

variable (root : PlannerRoot) (outputTarget : PathTarget)

def stackWindows (rel : RelCore) : List WindowClause → PathTarget → PathHeap → Nat → Nat × PathHeap
  | [],_,heap,path => (path,heap)
  | window :: windows,windowTarget,heap,path =>
    let sorted :=
      if pathkeysContainedIn window.pathkeys (heap.read path).path.pathkeys then (path,heap)
      else createSortPath root rel heap path window.pathkeys (-1)
    let windowTarget := if windows = [] then outputTarget
      else {windowTarget with
        address := window.targetAddress, exprs := windowTarget.exprs ++ window.windowFuncs}
    let agg := createWindowaggPath root rel sorted.2 sorted.1 windowTarget window
    stackWindows rel windows windowTarget agg.2 agg.1

def windowStep (inputTarget : PathTarget) (windowPathkeys : List PathKey)
    (activeWindows : List WindowClause) (inputRel : HeapRel) (state : RelOptInfo × PathHeap)
    (path : Nat) : RelOptInfo × PathHeap :=
  if takesPath root inputRel path ||
      pathkeysContainedIn windowPathkeys (state.2.read path).path.pathkeys then
    let stacked :=
      stackWindows root outputTarget state.1.toRelCore activeWindows inputTarget state.2 path
    (offerPath root state.1 (stacked.2.read stacked.1).path,stacked.2)
  else state

def createWindowPaths (inputTarget : PathTarget) (windowPathkeys : List PathKey)
    (activeWindows : List WindowClause) (windowsParallelSafe : Bool) (inputRel : HeapRel)
    (heap : PathHeap) :
    Except String RelOptInfo :=
  let final := inputRel.pathlist.foldl
    (windowStep root outputTarget inputTarget windowPathkeys activeWindows inputRel)
    (fetchUpperRel root (inputRel.core.considerParallel && outputTarget.parallelSafe &&
        windowsParallelSafe),heap)
  if root.searchPlanMode = 0 then setCheapest final.1 else setCheapestExplore final.1

end Window

/-! A path that the loops take leaves the upper relation with a plan. -/

theorem offerPath_ne_nil (root : PlannerRoot) (rel : RelOptInfo) (path : Path) :
    (offerPath root rel path).pathlist ≠ [] := by
  unfold offerPath
  split_ifs
  · exact addPath_ne_nil rel path
  · exact addPathExplore_ne_nil rel path _ _

theorem loop_ne_nil (step : RelOptInfo × PathHeap → Nat → RelOptInfo × PathHeap)
    (takes : Nat → Bool) (keeps : ∀ state path, step state path = state ∨
      (step state path).1.pathlist ≠ [])
    (taken : ∀ state path, takes path → (step state path).1.pathlist ≠ []) (paths : List Nat)
    (state : RelOptInfo × PathHeap)
    (some_taken : state.1.pathlist ≠ [] ∨ ∃ path ∈ paths, takes path) :
    (paths.foldl step state).1.pathlist ≠ [] := by
  induction paths generalizing state with
  | nil => simpa using some_taken
  | cons path paths ih =>
    apply ih
    rcases some_taken with filled | ⟨chosen,member,takes_chosen⟩
    · rcases keeps state path with same | more
      · exact .inl (same.symm ▸ filled)
      · exact .inl more
    · rcases List.mem_cons.mp member with rfl | later
      · exact .inl (taken state chosen takes_chosen)
      · exact .inr ⟨chosen,later,takes_chosen⟩

theorem createOrderedPaths_ne_nil (root : PlannerRoot) (target : PathTarget) (limitTuples : ℚ)
    (sortPathkeys : List PathKey) (inputRel : HeapRel) (heap : PathHeap) (path : Nat)
    (member : path ∈ inputRel.pathlist) (takes : takesPath root inputRel path) :
    (createOrderedPaths root target limitTuples sortPathkeys inputRel heap).1.pathlist ≠ [] := by
  have looped : (inputRel.pathlist.foldl (orderedStep root target limitTuples sortPathkeys inputRel)
      (fetchUpperRel root (inputRel.core.considerParallel && target.parallelSafe),
        heap)).1.pathlist ≠ [] := by
    apply loop_ne_nil _ (takesPath root inputRel) _ _ _ _ (.inr ⟨path,member,takes⟩)
    · intro state other
      unfold orderedStep
      dsimp only
      split_ifs
      · exact .inr (offerPath_ne_nil _ _ _)
      · exact .inr (offerPath_ne_nil _ _ _)
      · exact .inl rfl
    · intro state other takes_other
      simp only [orderedStep,takes_other,Bool.true_or,if_true]
      exact offerPath_ne_nil _ _ _
  unfold createOrderedPaths orderedPartial
  split
  · exact looped
  · dsimp only
    split_ifs
    · exact addPath_ne_nil _ _
    · exact looped

theorem createWindowPaths_ok (root : PlannerRoot) (outputTarget inputTarget : PathTarget)
    (windowPathkeys : List PathKey) (activeWindows : List WindowClause) (windowsParallelSafe : Bool)
    (inputRel : HeapRel) (heap : PathHeap) (path : Nat) (member : path ∈ inputRel.pathlist)
    (takes : takesPath root inputRel path) :
    ∃ windowRel, createWindowPaths root outputTarget inputTarget windowPathkeys activeWindows
      windowsParallelSafe inputRel heap = .ok windowRel := by
  have looped :
    (inputRel.pathlist.foldl (windowStep root outputTarget inputTarget windowPathkeys
          activeWindows inputRel)
      (fetchUpperRel root (inputRel.core.considerParallel && outputTarget.parallelSafe &&
            windowsParallelSafe),
        heap)).1.pathlist ≠ [] := by
    apply loop_ne_nil _ (takesPath root inputRel) _ _ _ _ (.inr ⟨path,member,takes⟩)
    · intro state other
      unfold windowStep
      dsimp only
      split_ifs
      · exact .inr (offerPath_ne_nil _ _ _)
      · exact .inl rfl
    · intro state other takes_other
      simp only [windowStep,takes_other,Bool.true_or,if_true]
      exact offerPath_ne_nil _ _ _
  unfold createWindowPaths
  dsimp only
  split_ifs
  · exact setCheapest_ok _ looped
  · exact setCheapestExplore_ok _ looped

/-- Ordering and window planning above the scan/join relation find a plan for every request. -/
structure FindsPlans (root : PlannerRoot) (planned : HeapRel × PathHeap) : Prop where
  ordered : ∀ target limitTuples sortPathkeys,
    (createOrderedPaths root target limitTuples sortPathkeys planned.1 planned.2).1.pathlist ≠ []
  window : ∀ outputTarget inputTarget windowPathkeys activeWindows windowsParallelSafe,
    ∃ windowRel, createWindowPaths root outputTarget inputTarget windowPathkeys activeWindows
    windowsParallelSafe
      planned.1 planned.2 = .ok windowRel

theorem findsPlans_of_shares (root : PlannerRoot) (exploring : root.searchPlanMode ≠ 0)
    (planned : HeapRel × PathHeap) (nonempty : planned.1.explorePathlist ≠ [])
    (shares : SharesPaths planned.1) : FindsPlans root planned := by
  obtain ⟨path,member⟩ := List.exists_mem_of_ne_nil _ nonempty
  have takes : takesPath root planned.1 path := by
    simpa [takesPath,exploring,isIncludeInPathlist] using member
  exact ⟨fun _ _ _ => createOrderedPaths_ne_nil root _ _ _ _ _ path (shares path member) takes,
    fun _ _ _ _ _ => createWindowPaths_ok root _ _ _ _ _ _ _ path (shares path member) takes⟩

/-- In exploration mode the explore list stays within the pathlist, so that a plan is found for
every order, exactly when each explored path can project and no set-returning level follows. -/
theorem exploration_keeps_plans_iff (root : PlannerRoot) (exploring : root.searchPlanMode ≠ 0)
    (rel result : RelOptInfo) (set : setCheapestExplore rel = .ok result)
    (plain : ∀ path ∈ rel.pathlist, path.paramInfo = none) (heap : PathHeap)
    (allocated : ∀ path ∈ rel.pathlist, path.address < heap.next) (targets : ScanJoinTargets) :
    SharesPaths (projectScanjoin root.cpuTupleCost root.searchPlanMode targets heap
        (HeapRel.ofRel result)).1 ∧
        FindsPlans root (projectScanjoin root.cpuTupleCost root.searchPlanMode targets heap
            (HeapRel.ofRel result)) ↔
      (∀ path ∈ result.cheapestCostExplorePathlist, isProjectionCapablePath
          (heap.read path.address)) ∧
        targets.noSrfs := by
  obtain ⟨some_explored,among⟩ := setCheapestExplore_explore rel result set plain
  have same := setCheapestExplore_pathlist rel result set
  have bounds : Allocated heap (HeapRel.ofRel result) := by
    constructor
    · simpa [HeapRel.ofRel,same] using allocated
    · simpa [HeapRel.ofRel] using fun path member => allocated path (among path member)
  have nonempty : (HeapRel.ofRel result).explorePathlist ≠ [] := by
    simpa [HeapRel.ofRel] using some_explored
  have shares : SharesPaths (HeapRel.ofRel result) := by
    intro address member
    obtain ⟨path,explored,rfl⟩ := List.mem_map.mp member
    exact List.mem_map.mpr ⟨path,same.symm ▸ among path explored,rfl⟩
  have kept :=
    projectScanjoin_shares root.cpuTupleCost root.searchPlanMode targets heap
      (HeapRel.ofRel result) bounds nonempty shares
  have capable :
    (∀ path ∈ (HeapRel.ofRel result).explorePathlist, isProjectionCapablePath (heap.read path)) ↔
      ∀ path ∈ result.cheapestCostExplorePathlist, isProjectionCapablePath
      (heap.read path.address) := by
    simp [HeapRel.ofRel]
  rw [capable] at kept
  constructor
  · exact fun both => kept.mp both.1
  · intro condition
    have after := kept.mpr condition
    refine ⟨after,findsPlans_of_shares root exploring _ ?_ after⟩
    exact projectScanjoin_explore_ne_nil root.cpuTupleCost root.searchPlanMode
      targets heap _ nonempty

/-! A relation with one path, a sequential scan or an Append over it. -/

def exploringRoot : PlannerRoot where
  searchPlanMode := 2
  tupleFraction := 0
  bestEstimateCostOfCurrentQuery := 0
  pruneRateForAddPathExplore := 101/100
  cpuTupleCost := 1/100
  costSort := fun path _ _ => (path.totalCost + 1,path.totalCost + 2)
  costWindowagg := fun path _ => (path.startupCost,path.totalCost + 1)
  costGatherMerge := fun path _ => (path.startupCost,path.totalCost + 1)

def columnTarget (address column : Nat) : PathTarget := ⟨address,[column],0,0,true,1⟩

def scanObject : PathObject := ⟨seqScan (baseRel 1 0) 0 0 100 0,.seqScan,columnTarget 50 1,[]⟩

def appendObject : PathObject :=
  ⟨{seqScan (baseRel 1 0) 1 0 100 0 with type := .appendPath},.append,columnTarget 50 1,[0]⟩

def sampleHeap : PathHeap := ⟨2,fun ref => if ref = 1 then appendObject else scanObject⟩

def singlePathRel (path : Path) : RelOptInfo :=
  {RelOptInfo.ofPaths (baseRel 1 0) [path] with
    cheapestCostExplorePathlist := [path]
    cheapestStartupPath := some path
    cheapestTotalPath := some path
    cheapestParameterizedPaths := [path]}

theorem exploration_keeps_plans_iff_scan :
    SharesPaths (projectScanjoin exploringRoot.cpuTupleCost exploringRoot.searchPlanMode
        ⟨columnTarget 51 2,none⟩ sampleHeap (HeapRel.ofRel (singlePathRel scanObject.path))).1 ∧
      FindsPlans exploringRoot (projectScanjoin exploringRoot.cpuTupleCost
        exploringRoot.searchPlanMode ⟨columnTarget 51 2,none⟩ sampleHeap
        (HeapRel.ofRel (singlePathRel scanObject.path))) :=
  (exploration_keeps_plans_iff exploringRoot (by decide)
      (RelOptInfo.ofPaths (baseRel 1 0) [scanObject.path])
    (singlePathRel scanObject.path) rfl (by simp [RelOptInfo.ofPaths,scanObject,seqScan]) sampleHeap
    (by simp [RelOptInfo.ofPaths,scanObject,seqScan,sampleHeap]) ⟨columnTarget 51 2,none⟩).mpr
    ⟨by simp [singlePathRel,scanObject,seqScan,sampleHeap,isProjectionCapablePath],rfl⟩

/-- Each list gets its own projection of the Append: no path is taken for an order the Append
does not have, and planning fails. -/
theorem exploration_loses_append_plan :
    setCheapestExplore (RelOptInfo.ofPaths (baseRel 1 0) [appendObject.path]) =
        .ok (singlePathRel appendObject.path) ∧
      (let planned := projectScanjoin exploringRoot.cpuTupleCost exploringRoot.searchPlanMode
        ⟨columnTarget 51 2,none⟩ sampleHeap (HeapRel.ofRel (singlePathRel appendObject.path))
      ¬SharesPaths planned.1 ∧
        (createOrderedPaths exploringRoot (columnTarget 51 2) (-1)
          [7] planned.1 planned.2).1.pathlist = [] ∧
        createWindowPaths exploringRoot (columnTarget 52 3) (columnTarget 51 2) [7]
        [⟨[7],[9],53⟩] true
          planned.1 planned.2 = .error noPlanError) := by
  refine ⟨rfl,?_,?_,?_⟩
  · unfold SharesPaths
    decide
  · decide
  · rfl

end ExploratoryOptimizer.UpperPaths
