import ExploratoryOptimizer.Library.Heap
import ExploratoryOptimizer.Path

/-! Target list projection of plan/planner.c and util/pathnode.c over path objects: a path that
can project is changed in place, any other is wrapped in a new node. The pathlist and the explore
list of a relation hold references to the same objects and are rewritten one after the other. -/
namespace ExploratoryOptimizer.Projection
open Library

inductive PathType where
  | result
  | projectSet
  | modifyTable
  | append
  | mergeAppend
  | recursiveUnion
  | bitmapAnd
  | bitmapOr
  | seqScan
  | sampleScan
  | indexScan
  | indexOnlyScan
  | bitmapHeapScan
  | tidScan
  | subqueryScan
  | functionScan
  | valuesScan
  | tableFuncScan
  | cteScan
  | namedTuplestoreScan
  | workTableScan
  | foreignScan
  | customScan
  | nestLoop
  | mergeJoin
  | hashJoin
  | material
  | sort
  | group
  | agg
  | windowAgg
  | unique
  | gather
  | gatherMerge
  | hash
  | setOp
  | lockRows
  | limit
  deriving DecidableEq

structure PathTarget where
  address : Nat
  exprs : List Nat
  startupCost : ℚ
  perTupleCost : ℚ
  parallelSafe : Bool
  setRows : ℚ
  deriving DecidableEq

structure PathObject where
  path : Path
  pathtype : PathType
  pathtarget : PathTarget
  subpaths : List Nat
  deriving DecidableEq

abbrev PathHeap := Heap PathObject

def isDummyPath (object : PathObject) : Bool :=
  object.path.type = .appendPath && object.subpaths = []

def isProjectionCapablePath (object : PathObject) : Bool :=
  match object.pathtype with
  | .hash => false
  | .material => false
  | .sort => false
  | .unique => false
  | .setOp => false
  | .lockRows => false
  | .limit => false
  | .modifyTable => false
  | .mergeAppend => false
  | .recursiveUnion => false
  | .append => isDummyPath object
  | .projectSet => false
  | _ => true

section Constructors

variable (cpuTupleCost : ℚ) (rel : RelCore) (heap : PathHeap)

def createProjectionPath (subpath : Nat) (target : PathTarget) : Nat × PathHeap :=
  let sub := heap.read subpath
  let oldtarget := sub.pathtarget
  heap.alloc fun address =>
    { path :=
        { address := address
          type := .projectionPath
          parent := rel
          paramInfo := none
          parallelSafe := rel.considerParallel && sub.path.parallelSafe && target.parallelSafe
          parallelWorkers := sub.path.parallelWorkers
          rows := sub.path.rows
          startupCost :=
            -- Without a separate Result node the old target's cost is taken out again.
            if isProjectionCapablePath sub || oldtarget.exprs = target.exprs then
              sub.path.startupCost + (target.startupCost - oldtarget.startupCost)
            else sub.path.startupCost + target.startupCost
          totalCost :=
            if isProjectionCapablePath sub || oldtarget.exprs = target.exprs then
              sub.path.totalCost + (target.startupCost - oldtarget.startupCost) +
                (target.perTupleCost - oldtarget.perTupleCost) * sub.path.rows
            else sub.path.totalCost + target.startupCost +
              (cpuTupleCost + target.perTupleCost) * sub.path.rows
          exploreValue := sub.path.exploreValue
          pathkeys := sub.path.pathkeys }
      pathtype := .result
      pathtarget := target
      subpaths := [subpath] }

def createSetProjectionPath (subpath : Nat) (target : PathTarget) : Nat × PathHeap :=
  let sub := heap.read subpath
  let rows := sub.path.rows * max 1 target.setRows
  heap.alloc fun address =>
    { path :=
        { address := address
          type := .projectSetPath
          parent := rel
          paramInfo := none
          parallelSafe := rel.considerParallel && sub.path.parallelSafe && target.parallelSafe
          parallelWorkers := sub.path.parallelWorkers
          rows := rows
          startupCost := sub.path.startupCost + target.startupCost
          totalCost := sub.path.totalCost + target.startupCost +
            (cpuTupleCost + target.perTupleCost) * sub.path.rows + (rows - sub.path.rows) *
            cpuTupleCost / 2
          exploreValue := sub.path.exploreValue
          pathkeys := sub.path.pathkeys }
      pathtype := .projectSet
      pathtarget := target
      subpaths := [subpath] }

def withTarget (object : PathObject) (target : PathTarget) : PathObject :=
  {object with
    pathtarget := target
    path := {object.path with
      startupCost := object.path.startupCost + (target.startupCost - object.pathtarget.startupCost)
      totalCost := object.path.totalCost + (target.startupCost - object.pathtarget.startupCost +
        (target.perTupleCost - object.pathtarget.perTupleCost) * object.path.rows)}}

def applyProjectionToPath (path : Nat) (target : PathTarget) : Nat × PathHeap :=
  let object := heap.read path
  if !isProjectionCapablePath object then createProjectionPath cpuTupleCost rel heap path target
  else match object.path.type,target.parallelSafe,object.subpaths with
  -- A Gather pushes a parallel-safe target below itself, always through a new node.
  | .gatherPath,true,subpath :: _ =>
    let pushed :=
      createProjectionPath cpuTupleCost (heap.read subpath).path.parent heap subpath target
    (path,pushed.2.write path {withTarget object target with subpaths := [pushed.1]})
  | _,_,_ =>
    (path,heap.write path {withTarget object target with
      path := {(withTarget object target).path with
        parallelSafe := object.path.parallelSafe && target.parallelSafe}})

end Constructors

/-- Target of the scan/join relation and, when the query has set-returning functions, the levels
stacked above it; each level says whether it contains such functions, the first one never does. -/
structure ScanJoinTargets where
  scanjoinTarget : PathTarget
  srfLevels : Option (List (PathTarget × Bool))

structure HeapRel where
  core : RelCore
  pathlist : List Nat
  partialPathlist : List Nat
  explorePathlist : List Nat
  cheapestStartupPath : Option Nat
  cheapestTotalPath : Option Nat

def HeapRel.ofRel (rel : RelOptInfo) : HeapRel where
  core := rel.toRelCore
  pathlist := rel.pathlist.map (·.address)
  partialPathlist := rel.partialPathlist.map (·.address)
  explorePathlist := rel.cheapestCostExplorePathlist.map (·.address)
  cheapestStartupPath := rel.cheapestStartupPath.map (·.address)
  cheapestTotalPath := rel.cheapestTotalPath.map (·.address)

def redirect (paths paths' : List Nat) (slot : Option Nat) : Option Nat :=
  (paths.zip paths').foldl (fun slot cell => if slot = some cell.1 then some cell.2 else slot) slot

def rewriteRel (rewrite : PathHeap → Nat → Nat × PathHeap) (searchPlanMode : Nat) (heap : PathHeap)
    (rel : HeapRel) : HeapRel × PathHeap :=
  let lists := heap.rewriteBoth rewrite (searchPlanMode > 1) rel.pathlist rel.explorePathlist
  ({rel with
    pathlist := lists.1
    explorePathlist := lists.2.1
    cheapestStartupPath := redirect rel.pathlist lists.1 rel.cheapestStartupPath
    cheapestTotalPath := redirect rel.pathlist lists.1 rel.cheapestTotalPath},lists.2.2)

def rewritePartial (rewrite : PathHeap → Nat → Nat × PathHeap) (heap : PathHeap) (rel : HeapRel) :
    HeapRel × PathHeap :=
  let paths := heap.rewriteAll rewrite rel.partialPathlist
  ({rel with partialPathlist := paths.1},paths.2)

section Passes

variable (cpuTupleCost : ℚ) (searchPlanMode : Nat)

def applyScanjoinTarget (target : PathTarget) (heap : PathHeap) (rel : HeapRel) :
    HeapRel × PathHeap :=
  let full :=
    rewriteRel (fun heap path => applyProjectionToPath cpuTupleCost rel.core heap path target)
      searchPlanMode heap rel
  if rel.partialPathlist ≠ [] ∧ target.parallelSafe then
    rewritePartial (fun heap path => createProjectionPath cpuTupleCost rel.core heap path target)
      full.2 full.1
  else ({full.1 with partialPathlist := []},full.2)

def stackTargets (project : PathHeap → Nat → PathTarget → Nat × PathHeap) (rel : RelCore)
    (targets : List (PathTarget × Bool)) (heap : PathHeap) (path : Nat) : Nat × PathHeap :=
  targets.foldl (fun current target =>
    if target.2 then createSetProjectionPath cpuTupleCost rel current.2 current.1 target.1
    else project current.2 current.1 target.1) (path,heap)

def adjustPathsForSrfs (targets : List (PathTarget × Bool)) (heap : PathHeap) (rel : HeapRel) :
    HeapRel × PathHeap :=
  if targets.length = 1 then (rel,heap)
  else
    let full :=
      rewriteRel (stackTargets cpuTupleCost (applyProjectionToPath cpuTupleCost rel.core)
          rel.core targets)
      searchPlanMode heap rel
    rewritePartial (stackTargets cpuTupleCost (createProjectionPath cpuTupleCost rel.core)
        rel.core targets)
      full.2 full.1

def projectScanjoin (targets : ScanJoinTargets) (heap : PathHeap) (rel : HeapRel) :
    HeapRel × PathHeap :=
  let applied := applyScanjoinTarget cpuTupleCost searchPlanMode targets.scanjoinTarget heap rel
  match targets.srfLevels with
  | none => applied
  | some levels =>
    adjustPathsForSrfs cpuTupleCost searchPlanMode ((targets.scanjoinTarget,false) :: levels)
      applied.2 applied.1

end Passes

/-! Which references a pass keeps. -/

theorem isProjectionCapablePath_congr (object object' : PathObject)
    (type : object'.path.type = object.path.type) (pathtype : object'.pathtype = object.pathtype)
    (subpaths : object.path.type = .appendPath → object'.subpaths = object.subpaths) :
    isProjectionCapablePath object' = isProjectionCapablePath object := by
  have dummy : isDummyPath object' = isDummyPath object := by
    unfold isDummyPath
    rw [type]
    by_cases append : object.path.type = .appendPath
    · rw [subpaths append]
    · simp [append]
  unfold isProjectionCapablePath
  rw [pathtype,dummy]

section Kept

variable (cpuTupleCost : ℚ) (rel : RelCore)

theorem applyProjectionToPath_incapable (heap : PathHeap) (path : Nat) (target : PathTarget)
    (incapable : ¬isProjectionCapablePath (heap.read path)) :
    applyProjectionToPath cpuTupleCost rel heap path target = createProjectionPath cpuTupleCost rel
      heap path target := by
  simp [applyProjectionToPath,incapable]

theorem applyProjectionToPath_capable (heap : PathHeap) (path : Nat) (target : PathTarget)
    (old : path < heap.next) (capable : isProjectionCapablePath (heap.read path)) :
    (applyProjectionToPath cpuTupleCost rel heap path target).1 = path ∧
      Heap.Extends isProjectionCapablePath heap
      (applyProjectionToPath cpuTupleCost rel heap path target).2 := by
  unfold applyProjectionToPath
  simp only [capable,Bool.not_true,Bool.false_eq_true,if_false]
  split
  next type _ _ =>
    refine ⟨rfl,?_⟩
    have pushed := Heap.alloc_extends isProjectionCapablePath heap
    refine (pushed _).trans (Heap.write_extends _ _ _ _ ?_)
    rw [createProjectionPath,Heap.alloc_read heap _ path old]
    exact isProjectionCapablePath_congr _ _ rfl rfl fun append => by simp [type] at append
  next =>
    exact ⟨rfl,Heap.write_extends _ _ _ _ (isProjectionCapablePath_congr _ _ rfl rfl fun _ => rfl)⟩

theorem applyProjectionToPath_rewrites (target : PathTarget) :
    Heap.Rewrites isProjectionCapablePath fun heap path =>
      applyProjectionToPath cpuTupleCost rel heap path target := by
  constructor
  · intro heap path old
    by_cases capable : isProjectionCapablePath (heap.read path)
    · exact (applyProjectionToPath_capable cpuTupleCost rel heap path target old capable).2
    · rw [applyProjectionToPath_incapable cpuTupleCost rel heap path target capable]
      exact Heap.alloc_extends _ _ _
  · intro heap path old
    by_cases capable : isProjectionCapablePath (heap.read path)
    · obtain ⟨same,extend⟩ :=
        applyProjectionToPath_capable cpuTupleCost rel heap path target old capable
      rw [same]
      exact Nat.lt_of_lt_of_le old extend.grows
    · rw [applyProjectionToPath_incapable cpuTupleCost rel heap path target capable]
      exact Nat.lt_succ_self _
  · intro heap path old capable
    exact (applyProjectionToPath_capable cpuTupleCost rel heap path target old capable).1
  · intro heap path _ incapable
    rw [applyProjectionToPath_incapable cpuTupleCost rel heap path target incapable]
    exact Nat.le_refl _

theorem stackTargets_cons (project : PathHeap → Nat → PathTarget → Nat × PathHeap)
    (target : PathTarget × Bool) (targets : List (PathTarget × Bool))
    (heap : PathHeap) (path : Nat) :
    stackTargets cpuTupleCost project rel (target :: targets) heap path =
      stackTargets cpuTupleCost project rel targets
        (if target.2 then createSetProjectionPath cpuTupleCost rel heap path target.1
          else project heap path target.1).2
        (if target.2 then createSetProjectionPath cpuTupleCost rel heap path target.1
          else project heap path target.1).1 := rfl

def srfFree (targets : List (PathTarget × Bool)) : Bool := targets.all fun target => !target.2

/-- A stack of levels keeps a path that can project unless a level has set-returning functions;
it never returns an old path other than the one it was given. -/
structure Stacked (heap : PathHeap) (path : Nat) (targets : List (PathTarget × Bool))
    (after : Nat × PathHeap) :
    Prop where
  extend : Heap.Extends isProjectionCapablePath heap after.2
  bound : after.1 < after.2.next
  origin : after.1 = path ∨ heap.next ≤ after.1
  fresh : ¬srfFree targets → heap.next ≤ after.1
  keeps : isProjectionCapablePath (heap.read path) → srfFree targets → after.1 = path

theorem stackTargets_stacked (targets : List (PathTarget × Bool)) (heap : PathHeap) (path : Nat)
    (old : path < heap.next) :
    Stacked heap path targets
      (stackTargets cpuTupleCost (applyProjectionToPath cpuTupleCost rel) rel targets
        heap path) := by
  induction targets generalizing heap path with
  | nil => exact ⟨Heap.Extends.refl _ _,old,.inl rfl,fun absent => absurd rfl absent,fun _ _ => rfl⟩
  | cons target targets ih =>
    rw [stackTargets_cons]
    cases contains : target.2 with
    | true =>
      have first := Heap.alloc_extends isProjectionCapablePath heap
      have rest := ih (createSetProjectionPath cpuTupleCost rel heap path target.1).2
        (createSetProjectionPath cpuTupleCost rel heap path target.1).1 (Nat.lt_succ_self _)
      have new :
        heap.next ≤ (stackTargets cpuTupleCost (applyProjectionToPath cpuTupleCost rel) rel targets
          (createSetProjectionPath cpuTupleCost rel heap path target.1).2
          (createSetProjectionPath cpuTupleCost rel heap path target.1).1).1 :=
        rest.origin.elim (fun same => Nat.le_of_eq same.symm)
          (fun later => Nat.le_trans (first _).grows later)
      exact ⟨(first _).trans rest.extend,rest.bound,.inr new,fun _ => new,
        fun _ free => by simp [srfFree,contains] at free⟩
    | false =>
      have rewrites := applyProjectionToPath_rewrites cpuTupleCost rel target.1
      have first := rewrites.extend heap path old
      have rest := ih (applyProjectionToPath cpuTupleCost rel heap path target.1).2
        (applyProjectionToPath cpuTupleCost rel heap path target.1).1 (rewrites.bound heap path old)
      have same : srfFree (target :: targets) = srfFree targets := by simp [srfFree,contains]
      refine ⟨first.trans rest.extend,rest.bound,?_,?_,?_⟩
      · rcases rest.origin with kept | new
        · by_cases capable : isProjectionCapablePath (heap.read path)
          · exact .inl (kept.trans (rewrites.keeps heap path old capable))
          · exact .inr (le_of_le_of_eq (rewrites.fresh heap path old capable) kept.symm)
        · exact .inr (Nat.le_trans first.grows new)
      · rw [same]
        exact fun absent => Nat.le_trans first.grows (rest.fresh absent)
      · rw [same]
        intro capable free
        have kept := rewrites.keeps heap path old capable
        refine (rest.keeps ?_ free).trans kept
        rw [kept,first.frame path old]
        exact capable

def stackKeeps (levels : List (PathTarget × Bool)) (object : PathObject) : Bool :=
  isProjectionCapablePath object && srfFree levels

theorem stackTargets_rewrites (target : PathTarget) (levels : List (PathTarget × Bool)) :
    Heap.Rewrites (stackKeeps levels)
      (stackTargets cpuTupleCost (applyProjectionToPath cpuTupleCost rel) rel
        ((target,false) :: levels)) := by
  have free : srfFree ((target,false) :: levels) = srfFree levels := by simp [srfFree]
  constructor
  · intro heap path old
    have stacked :=
      (stackTargets_stacked cpuTupleCost rel ((target,false) :: levels) heap path old).extend
    exact ⟨stacked.grows,fun ref before => by rw [stackKeeps,stackKeeps,stacked.frame ref before]⟩
  · exact fun heap path old => (stackTargets_stacked cpuTupleCost rel _ heap path old).bound
  · intro heap path old kept
    obtain ⟨capable,absent⟩ := Bool.and_eq_true_iff.mp kept
    exact (stackTargets_stacked cpuTupleCost rel _ heap path old).keeps capable (free.trans absent)
  · intro heap path old lost
    by_cases absent : srfFree levels
    · have incapable : ¬isProjectionCapablePath (heap.read path) := by
        simpa [stackKeeps,absent] using lost
      have rewrites := applyProjectionToPath_rewrites cpuTupleCost rel target
      have rest := stackTargets_stacked cpuTupleCost rel levels
        (applyProjectionToPath cpuTupleCost rel heap path target).2
        (applyProjectionToPath cpuTupleCost rel heap path target).1 (rewrites.bound heap path old)
      have new := rewrites.fresh heap path old incapable
      rw [stackTargets_cons]
      exact rest.origin.elim (fun same => le_of_le_of_eq new same.symm)
        (fun later => Nat.le_trans (rewrites.extend heap path old).grows later)
    · exact (stackTargets_stacked cpuTupleCost rel _ heap path old).fresh (by rwa [free])

end Kept

/-! Sharing between the pathlist and the explore list. -/

def SharesPaths (rel : HeapRel) : Prop := ∀ path ∈ rel.explorePathlist, path ∈ rel.pathlist

structure Allocated (heap : PathHeap) (rel : HeapRel) : Prop where
  pathlist : ∀ path ∈ rel.pathlist, path < heap.next
  explore : ∀ path ∈ rel.explorePathlist, path < heap.next

theorem Allocated.extend {heap heap' : PathHeap} {rel : HeapRel} {kept : PathObject → Bool}
    (allocated : Allocated heap rel) (extend : Heap.Extends kept heap heap') :
    Allocated heap' rel :=
  ⟨fun path member => Nat.lt_of_lt_of_le (allocated.pathlist path member) extend.grows,
    fun path member => Nat.lt_of_lt_of_le (allocated.explore path member) extend.grows⟩

theorem rewriteRel_explore_ne_nil (rewrite : PathHeap → Nat → Nat × PathHeap) (searchPlanMode : Nat)
    (heap : PathHeap) (rel : HeapRel) (nonempty : rel.explorePathlist ≠ []) :
    (rewriteRel rewrite searchPlanMode heap rel).1.explorePathlist ≠ [] := by
  apply List.ne_nil_of_length_pos
  rw [rewriteRel,Heap.rewriteBoth_length]
  exact List.length_pos_of_ne_nil nonempty

section Sharing

variable (kept : PathObject → Bool) (rewrite : PathHeap → Nat → Nat × PathHeap)
  (rewrites : Heap.Rewrites kept rewrite) (searchPlanMode : Nat) (heap : PathHeap) (rel : HeapRel)
  (allocated : Allocated heap rel)

include rewrites allocated

theorem rewriteRel_allocated : Allocated (rewriteRel rewrite searchPlanMode heap rel).2
    (rewriteRel rewrite searchPlanMode heap rel).1 ∧
      Heap.Extends kept heap (rewriteRel rewrite searchPlanMode heap rel).2 := by
  obtain ⟨paths,explore,extend⟩ :=
    Heap.rewriteBoth_bound kept rewrite rewrites (searchPlanMode > 1) heap rel.pathlist
      rel.explorePathlist allocated.pathlist allocated.explore
  exact ⟨⟨paths,explore⟩,extend⟩

theorem rewriteRel_shares (shares : SharesPaths rel)
    (all : ∀ path ∈ rel.explorePathlist, kept (heap.read path)) :
    SharesPaths (rewriteRel rewrite searchPlanMode heap rel).1 ∧
      ∀ path, path ∈ (rewriteRel rewrite searchPlanMode heap rel).1.explorePathlist ↔
      path ∈ rel.explorePathlist := by
  obtain ⟨same,stays⟩ := Heap.rewriteBoth_shared kept rewrite rewrites (searchPlanMode > 1) heap
    rel.pathlist rel.explorePathlist allocated.pathlist allocated.explore all shares
  exact ⟨fun path member => stays path ((same path).mp member),same⟩

theorem rewriteRel_loses (path : Nat) (member : path ∈ rel.explorePathlist)
    (lost : ¬kept (heap.read path) ∨ path ∉ rel.pathlist) :
    ¬SharesPaths (rewriteRel rewrite searchPlanMode heap rel).1 := by
  obtain ⟨path',found,outside⟩ :=
    Heap.rewriteBoth_lost kept rewrite rewrites (searchPlanMode > 1) heap rel.pathlist
      rel.explorePathlist allocated.pathlist allocated.explore path member lost
  exact fun shares => outside (shares path' found)

end Sharing

section Scanjoin

variable (cpuTupleCost : ℚ) (searchPlanMode : Nat)

theorem applyScanjoinTarget_full (target : PathTarget) (heap : PathHeap) (rel : HeapRel) :
    let full :=
      rewriteRel (fun heap path => applyProjectionToPath cpuTupleCost rel.core heap path target)
        searchPlanMode heap rel
    let after := applyScanjoinTarget cpuTupleCost searchPlanMode target heap rel
    after.1.core = rel.core ∧ after.1.pathlist = full.1.pathlist ∧
      after.1.explorePathlist = full.1.explorePathlist ∧
      Heap.Extends isProjectionCapablePath full.2 after.2 := by
  dsimp only
  unfold applyScanjoinTarget
  dsimp only
  split
  · refine ⟨rfl,rfl,rfl,?_⟩
    apply Heap.rewriteAll_extends
    exact fun heap path => Heap.alloc_extends _ _ _
  · exact ⟨rfl,rfl,rfl,Heap.Extends.refl _ _⟩

def ScanJoinTargets.noSrfs (targets : ScanJoinTargets) : Bool := targets.srfLevels.all srfFree

theorem adjustPathsForSrfs_shares (target : PathTarget) (levels : List (PathTarget × Bool))
    (heap : PathHeap) (rel : HeapRel) (allocated : Allocated heap rel)
    (nonempty : rel.explorePathlist ≠ [])
    (capable : SharesPaths rel → ∀ path ∈ rel.explorePathlist, isProjectionCapablePath
      (heap.read path)) :
    SharesPaths (adjustPathsForSrfs cpuTupleCost searchPlanMode
        ((target,false) :: levels) heap rel).1 ↔
      SharesPaths rel ∧ srfFree levels := by
  cases levels with
  | nil => simp [adjustPathsForSrfs,srfFree]
  | cons level levels =>
    have rewrites := stackTargets_rewrites cpuTupleCost rel.core target (level :: levels)
    have unfolded : SharesPaths (adjustPathsForSrfs cpuTupleCost searchPlanMode
        ((target,false) :: level :: levels) heap rel).1 ↔
          SharesPaths (rewriteRel (stackTargets cpuTupleCost
              (applyProjectionToPath cpuTupleCost rel.core) rel.core
            ((target,false) :: level :: levels)) searchPlanMode heap rel).1 := by
      simp [adjustPathsForSrfs,rewritePartial,SharesPaths]
    rw [unfolded]
    constructor
    · intro after
      by_contra failed
      by_cases shares : SharesPaths rel
      · -- A level with set-returning functions replaces every path, in each list anew.
        obtain ⟨path,member⟩ := List.exists_mem_of_ne_nil _ nonempty
        have lost : ¬stackKeeps (level :: levels) (heap.read path) := by
          have some_srf : srfFree (level :: levels) = false := by
            simpa [shares] using failed
          simp [stackKeeps,some_srf]
        exact rewriteRel_loses _ _ rewrites searchPlanMode heap rel allocated path member
          (.inl lost) after
      · obtain ⟨path,member,outside⟩ : ∃ path ∈ rel.explorePathlist, path ∉ rel.pathlist := by
          simpa [SharesPaths] using shares
        exact rewriteRel_loses _ _ rewrites searchPlanMode heap rel allocated path member
          (.inr outside) after
    · rintro ⟨shares,free⟩
      refine (rewriteRel_shares _ _ rewrites searchPlanMode heap rel allocated shares ?_).1
      intro path member
      simp [stackKeeps,free,capable shares path member]

theorem projectScanjoin_explore_ne_nil (targets : ScanJoinTargets) (heap : PathHeap) (rel : HeapRel)
    (nonempty : rel.explorePathlist ≠ []) :
    (projectScanjoin cpuTupleCost searchPlanMode targets heap rel).1.explorePathlist ≠ [] := by
  have first :
    (applyScanjoinTarget cpuTupleCost searchPlanMode targets.scanjoinTarget heap
        rel).1.explorePathlist ≠ [] := by
    rw [(applyScanjoinTarget_full cpuTupleCost searchPlanMode targets.scanjoinTarget
        heap rel).2.2.1]
    exact rewriteRel_explore_ne_nil _ _ heap rel nonempty
  unfold projectScanjoin
  cases targets.srfLevels with
  | none => exact first
  | some levels =>
    dsimp only
    unfold adjustPathsForSrfs
    split_ifs
    · exact first
    · exact rewriteRel_explore_ne_nil _ _ _ _ first

/-- Sharing survives the scan/join target exactly when every explored path can project and no
level above it has set-returning functions. -/
theorem projectScanjoin_shares (targets : ScanJoinTargets) (heap : PathHeap) (rel : HeapRel)
    (allocated : Allocated heap rel) (nonempty : rel.explorePathlist ≠ [])
    (shares : SharesPaths rel) :
    SharesPaths (projectScanjoin cpuTupleCost searchPlanMode targets heap rel).1 ↔
      (∀ path ∈ rel.explorePathlist, isProjectionCapablePath (heap.read path)) ∧
      targets.noSrfs := by
  have rewrites := applyProjectionToPath_rewrites cpuTupleCost rel.core targets.scanjoinTarget
  obtain ⟨_,paths,explore,extend⟩ :=
    applyScanjoinTarget_full cpuTupleCost searchPlanMode targets.scanjoinTarget heap rel
  obtain ⟨bounds,grown⟩ := rewriteRel_allocated _ _ rewrites searchPlanMode heap rel allocated
  have applied :
    SharesPaths (applyScanjoinTarget cpuTupleCost searchPlanMode
        targets.scanjoinTarget heap rel).1 ↔
      ∀ path ∈ rel.explorePathlist, isProjectionCapablePath (heap.read path) := by
    unfold SharesPaths
    rw [paths,explore]
    constructor
    · intro after path member
      by_contra incapable
      exact rewriteRel_loses _ _ rewrites searchPlanMode heap rel allocated path member
        (.inl incapable) after
    · exact fun all => (rewriteRel_shares _ _ rewrites searchPlanMode heap rel
          allocated shares all).1
  unfold projectScanjoin ScanJoinTargets.noSrfs
  cases targets.srfLevels with
  | none => simpa using applied
  | some levels =>
    dsimp only
    rw [adjustPathsForSrfs_shares,applied]
    · rfl
    · refine Allocated.extend ?_ extend
      exact ⟨by rw [paths]; exact bounds.pathlist,by rw [explore]; exact bounds.explore⟩
    · rw [explore]
      exact rewriteRel_explore_ne_nil _ _ heap rel nonempty
    · intro after path member
      have all := applied.mp after
      have same := (rewriteRel_shares _ _ rewrites searchPlanMode heap rel allocated shares all).2
      rw [explore] at member
      have before := (same path).mp member
      have old := allocated.explore path before
      rw [extend.frame path (Nat.lt_of_lt_of_le old grown.grows),grown.frame path old]
      exact all path before

end Scanjoin

end ExploratoryOptimizer.Projection
