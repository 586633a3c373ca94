import ExploratoryOptimizer.Path
import Mathlib.Algebra.BigOperators.Group.List.Basic
import Mathlib.Tactic.Ring

/-! Path trees and the constructors of util/pathnode.c, with the explore value each of them sets
directly or through its cost function in path/costsize.c. Node data that the explore value does
not depend on (identity, order, row and cost estimates) is passed in. The bitmap quals of a bitmap
heap scan belong to the scan. -/
namespace ExploratoryOptimizer.PathTree

inductive ScanKind where
  | seqScan
  | sampleScan
  | indexScan
  | bitmapHeapScan
  | tidScan
  | functionScan
  | tableFuncScan
  | valuesScan
  | cteScan
  | namedTuplestoreScan
  | workTableScan
  | foreignScan
  deriving DecidableEq

inductive WrapperKind where
  | material
  | unique (umethod : UniqueMethod)
  | subqueryScan
  | projection
  | projectSet
  | sort
  | group
  | upperUnique
  | agg
  | groupingSets
  | windowAgg
  | setOp
  | lockRows
  | limit
  deriving DecidableEq

inductive JoinKind where
  | nestLoop
  | mergeJoin
  | hashJoin
  deriving DecidableEq

structure JoinInfo where
  kind : JoinKind
  joinrestrictinfo : List ClauseRef
  outersort : Bool
  innersort : Bool
  materializeInner : Bool
  deriving DecidableEq

inductive PathNode where
  | scan (kind : ScanKind) (path : Path)
  | result (path : Path)
  | wrapper (kind : WrapperKind) (path : Path) (subpath : PathNode)
  | gather (path : Path) (subpath : PathNode)
  | gatherMerge (rowsGiven : Bool) (path : Path) (subpath : PathNode)
  | join (info : JoinInfo) (path : Path) (outer inner : PathNode)
  | recursiveUnion (path : Path) (left right : PathNode)
  | append (path : Path) (subpaths : List PathNode)
  | mergeAppend (path : Path) (subpaths : List PathNode)
  | modifyTable (path : Path) (subpaths : List PathNode)
  | minMaxAgg (path : Path) (subpaths : List PathNode)

def PathNode.path : PathNode → Path
  | .scan _ path => path
  | .result path => path
  | .wrapper _ path _ => path
  | .gather path _ => path
  | .gatherMerge _ path _ => path
  | .join _ path _ _ => path
  | .recursiveUnion path _ _ => path
  | .append path _ => path
  | .mergeAppend path _ => path
  | .modifyTable path _ => path
  | .minMaxAgg path _ => path

def PathNode.exploreValue (node : PathNode) : ℚ := node.path.exploreValue

structure PathData where
  address : Nat
  parallelSafe : Bool
  parallelWorkers : Nat
  rows : ℚ
  startupCost : ℚ
  totalCost : ℚ
  pathkeys : List PathKey

def pathHeader (type : PathTag) (rel : RelCore) (paramInfo : Option ParamPathInfo)
    (exploreValue : ℚ) (data : PathData) : Path where
  address := data.address
  type := type
  parent := rel
  paramInfo := paramInfo
  parallelSafe := data.parallelSafe
  parallelWorkers := data.parallelWorkers
  rows := data.rows
  startupCost := data.startupCost
  totalCost := data.totalCost
  exploreValue := exploreValue
  pathkeys := data.pathkeys

def ScanKind.tag : ScanKind → PathTag
  | .indexScan => .indexPath
  | .bitmapHeapScan => .bitmapHeapPath
  | .tidScan => .tidPath
  | .foreignScan => .foreignPath
  | _ => .path

def ScanKind.marksExploreValue : ScanKind → Bool
  | .seqScan => true
  | .sampleScan => true
  | .indexScan => true
  | .bitmapHeapScan => true
  | .tidScan => true
  | _ => false

def WrapperKind.tag : WrapperKind → PathTag
  | .material => .materialPath
  | .unique _ => .uniquePath
  | .subqueryScan => .subqueryScanPath
  | .projection => .projectionPath
  | .projectSet => .projectSetPath
  | .sort => .sortPath
  | .group => .groupPath
  | .upperUnique => .upperUniquePath
  | .agg => .aggPath
  | .groupingSets => .groupingSetsPath
  | .windowAgg => .windowAggPath
  | .setOp => .setOpPath
  | .lockRows => .lockRowsPath
  | .limit => .limitPath

def JoinKind.tag : JoinKind → PathTag
  | .nestLoop => .nestPath
  | .mergeJoin => .mergePath
  | .hashJoin => .hashPath

section Constructors

variable (rel : RelCore) (paramInfo : Option ParamPathInfo) (data : PathData)

def createScanPath (kind : ScanKind) : PathNode :=
  .scan kind (pathHeader kind.tag rel paramInfo
    (if kind.marksExploreValue then ownExploreValue rel paramInfo else 0) data)

def createSeqscanPath : PathNode := createScanPath rel paramInfo data .seqScan

def createSamplescanPath : PathNode := createScanPath rel paramInfo data .sampleScan

def createIndexPath : PathNode := createScanPath rel paramInfo data .indexScan

def createBitmapHeapPath : PathNode := createScanPath rel paramInfo data .bitmapHeapScan

def createTidscanPath : PathNode := createScanPath rel paramInfo data .tidScan

def createFunctionscanPath : PathNode := createScanPath rel paramInfo data .functionScan

def createTablefuncscanPath : PathNode := createScanPath rel paramInfo data .tableFuncScan

def createValuesscanPath : PathNode := createScanPath rel paramInfo data .valuesScan

def createCtescanPath : PathNode := createScanPath rel paramInfo data .cteScan

def createNamedtuplestorescanPath : PathNode :=
  createScanPath rel paramInfo data .namedTuplestoreScan

def createWorktablescanPath : PathNode := createScanPath rel paramInfo data .workTableScan

def createForeignscanPath : PathNode := createScanPath rel paramInfo data .foreignScan

def createResultPath : PathNode := .result (pathHeader .resultPath rel none 0 data)

def createWrapperPath (kind : WrapperKind) (subpath : PathNode) : PathNode :=
  .wrapper kind (pathHeader kind.tag rel paramInfo subpath.exploreValue data) subpath

def createMaterialPath (subpath : PathNode) : PathNode :=
  createWrapperPath rel subpath.path.paramInfo data .material subpath

def createUniquePath (umethod : UniqueMethod) (subpath : PathNode) : PathNode :=
  createWrapperPath rel subpath.path.paramInfo data (.unique umethod) subpath

def createSubqueryscanPath (subpath : PathNode) : PathNode :=
  createWrapperPath rel paramInfo data .subqueryScan subpath

def createProjectionPath (subpath : PathNode) : PathNode :=
  createWrapperPath rel none data .projection subpath

def createSetProjectionPath (subpath : PathNode) : PathNode :=
  createWrapperPath rel none data .projectSet subpath

def createSortPath (subpath : PathNode) : PathNode := createWrapperPath rel none data .sort subpath

def createGroupPath (subpath : PathNode) : PathNode :=
  createWrapperPath rel none data .group subpath

def createUpperUniquePath (subpath : PathNode) : PathNode :=
  createWrapperPath rel none data .upperUnique subpath

def createAggPath (subpath : PathNode) : PathNode := createWrapperPath rel none data .agg subpath

def createGroupingsetsPath (subpath : PathNode) : PathNode :=
  createWrapperPath rel subpath.path.paramInfo data .groupingSets subpath

def createWindowaggPath (subpath : PathNode) : PathNode :=
  createWrapperPath rel none data .windowAgg subpath

def createSetopPath (subpath : PathNode) : PathNode :=
  createWrapperPath rel none data .setOp subpath

def createLockrowsPath (subpath : PathNode) : PathNode :=
  createWrapperPath rel none data .lockRows subpath

def createLimitPath (subpath : PathNode) : PathNode :=
  createWrapperPath rel none data .limit subpath

-- `cost_gather` leaves the explore value of the new node at zero.
def createGatherPath (subpath : PathNode) : PathNode :=
  .gather (pathHeader .gatherPath rel paramInfo 0 data) subpath

def createGatherMergePath (rowsGiven : Bool) (subpath : PathNode) : PathNode :=
  -- `cost_gather_merge` marks the node with the relation's own value, and only without a row count.
  .gatherMerge rowsGiven (pathHeader .gatherMergePath rel paramInfo
    (if rowsGiven then 0 else ownExploreValue rel paramInfo) data) subpath

def createJoinPath (info : JoinInfo) (outer inner : PathNode) : PathNode :=
  .join info (pathHeader info.kind.tag rel paramInfo
    (ownExploreValue rel paramInfo + (outer.exploreValue + inner.exploreValue)) data) outer inner

def createNestloopPath (joinrestrictinfo : List ClauseRef) (outer inner : PathNode) : PathNode :=
  createJoinPath rel paramInfo data ⟨.nestLoop,joinrestrictinfo,false,false,false⟩ outer inner

def createMergejoinPath (joinrestrictinfo : List ClauseRef)
    (outersort innersort materializeInner : Bool) (outer inner : PathNode) : PathNode :=
  createJoinPath rel paramInfo data ⟨.mergeJoin,joinrestrictinfo,outersort,innersort,
    materializeInner⟩ outer inner

def createHashjoinPath (joinrestrictinfo : List ClauseRef) (outer inner : PathNode) : PathNode :=
  createJoinPath rel paramInfo data ⟨.hashJoin,joinrestrictinfo,false,false,false⟩ outer inner

def createRecursiveunionPath (left right : PathNode) : PathNode :=
  .recursiveUnion (pathHeader .recursiveUnionPath rel none (left.exploreValue + right.exploreValue)
      data) left right

def createAppendPath (subpaths : List PathNode) : PathNode :=
  .append (pathHeader .appendPath rel paramInfo
      (subpaths.foldl (fun sum sub => sum + sub.exploreValue) 0) data)
    subpaths

def createMergeAppendPath (subpaths : List PathNode) : PathNode :=
  .mergeAppend (pathHeader .mergeAppendPath rel paramInfo 0 data) subpaths

def createModifytablePath (subpaths : List PathNode) : PathNode :=
  -- Only the first target relation's path counts.
  .modifyTable (pathHeader .modifyTablePath rel none
      ((subpaths.head?.map PathNode.exploreValue).getD 0) data) subpaths

def createMinmaxaggPath (subpaths : List PathNode) : PathNode :=
  .minMaxAgg (pathHeader .minMaxAggPath rel none 0 data) subpaths

end Constructors

inductive Built : PathNode → Prop where
  | scan (kind : ScanKind) (rel : RelCore) (paramInfo : Option ParamPathInfo) (data : PathData) :
      Built (createScanPath rel paramInfo data kind)
  | result (rel : RelCore) (data : PathData) : Built (createResultPath rel data)
  | wrapper (kind : WrapperKind) (rel : RelCore) (paramInfo : Option ParamPathInfo)
      (data : PathData) (subpath : PathNode) (sub : Built subpath) :
        Built (createWrapperPath rel paramInfo data kind subpath)
  | gather (rel : RelCore) (paramInfo : Option ParamPathInfo) (data : PathData) (subpath : PathNode)
      (sub : Built subpath) : Built (createGatherPath rel paramInfo data subpath)
  | gatherMerge (rowsGiven : Bool) (rel : RelCore) (paramInfo : Option ParamPathInfo)
      (data : PathData) (subpath : PathNode) (sub : Built subpath) :
      Built (createGatherMergePath rel paramInfo data rowsGiven subpath)
  | join (info : JoinInfo) (rel : RelCore) (paramInfo : Option ParamPathInfo) (data : PathData)
      (outer inner : PathNode) (outerBuilt : Built outer) (innerBuilt : Built inner) :
      Built (createJoinPath rel paramInfo data info outer inner)
  | recursiveUnion (rel : RelCore) (data : PathData) (left right : PathNode)
      (leftBuilt : Built left) (rightBuilt : Built right) :
        Built (createRecursiveunionPath rel data left right)
  | append (rel : RelCore) (paramInfo : Option ParamPathInfo) (data : PathData)
      (subpaths : List PathNode) (subs : ∀ subpath ∈ subpaths, Built subpath) :
        Built (createAppendPath rel paramInfo data subpaths)
  | mergeAppend (rel : RelCore) (paramInfo : Option ParamPathInfo) (data : PathData)
      (subpaths : List PathNode) (subs : ∀ subpath ∈ subpaths, Built subpath) :
        Built (createMergeAppendPath rel paramInfo data subpaths)
  | modifyTable (rel : RelCore) (data : PathData) (subpaths : List PathNode)
      (subs : ∀ subpath ∈ subpaths, Built subpath) : Built (createModifytablePath rel data subpaths)
  | minMaxAgg (rel : RelCore) (data : PathData) (subpaths : List PathNode)
      (subs : ∀ subpath ∈ subpaths, Built subpath) : Built (createMinmaxaggPath rel data subpaths)

/-! The constructors of the source build such trees. -/

theorem scans_built (rel : RelCore) (paramInfo : Option ParamPathInfo) (data : PathData) :
    ∀ node ∈ [createSeqscanPath rel paramInfo data,createSamplescanPath rel paramInfo data,
      createIndexPath rel paramInfo data,createBitmapHeapPath rel paramInfo data,
      createTidscanPath rel paramInfo data,createFunctionscanPath rel paramInfo data,
      createTablefuncscanPath rel paramInfo data,createValuesscanPath rel paramInfo data,
      createCtescanPath rel paramInfo data,createNamedtuplestorescanPath rel paramInfo data,
      createWorktablescanPath rel paramInfo data,createForeignscanPath rel paramInfo data],
      Built node := by
  intro node member
  simp only [List.mem_cons,List.not_mem_nil,or_false] at member
  rcases member with rfl | rfl | rfl | rfl | rfl | rfl | rfl | rfl | rfl | rfl | rfl | rfl
  all_goals exact .scan _ _ _ _

theorem wrappers_built (rel : RelCore) (paramInfo : Option ParamPathInfo) (data : PathData)
    (umethod : UniqueMethod) (subpath : PathNode) (sub : Built subpath) :
    ∀ node ∈ [createMaterialPath rel data subpath,createUniquePath rel data umethod subpath,
      createSubqueryscanPath rel paramInfo data subpath,createProjectionPath rel data subpath,
      createSetProjectionPath rel data subpath,createSortPath rel data subpath,
      createGroupPath rel data subpath,createUpperUniquePath rel data subpath,
      createAggPath rel data subpath,createGroupingsetsPath rel data subpath,
      createWindowaggPath rel data subpath,createSetopPath rel data subpath,
      createLockrowsPath rel data subpath,createLimitPath rel data subpath], Built node := by
  intro node member
  simp only [List.mem_cons,List.not_mem_nil,or_false] at member
  rcases member with rfl | rfl | rfl | rfl | rfl | rfl | rfl | rfl | rfl | rfl | rfl | rfl | rfl |
    rfl
  all_goals exact .wrapper _ _ _ _ _ sub

theorem joins_built (rel : RelCore) (paramInfo : Option ParamPathInfo) (data : PathData)
    (joinrestrictinfo : List ClauseRef) (outersort innersort materializeInner : Bool)
    (outer inner : PathNode) (outerBuilt : Built outer) (innerBuilt : Built inner) :
    ∀ node ∈ [createNestloopPath rel paramInfo data joinrestrictinfo outer inner,
      createMergejoinPath rel paramInfo data joinrestrictinfo outersort innersort materializeInner
        outer inner,
      createHashjoinPath rel paramInfo data joinrestrictinfo outer inner], Built node := by
  intro node member
  simp only [List.mem_cons,List.not_mem_nil,or_false] at member
  rcases member with rfl | rfl | rfl
  all_goals exact .join _ _ _ _ _ _ outerBuilt innerBuilt

def ownValue (path : Path) : ℚ := ownExploreValue path.parent path.paramInfo

/-! What the tree's scan and join nodes are worth, what of it never reaches the root, and what
the root has that no scan or join contributed. -/

mutual

def total : PathNode → ℚ
  | .scan _ path => ownValue path
  | .result _ => 0
  | .wrapper _ _ subpath => total subpath
  | .gather _ subpath => total subpath
  | .gatherMerge _ _ subpath => total subpath
  | .join _ path outer inner => ownValue path + (total outer + total inner)
  | .recursiveUnion _ left right => total left + total right
  | .append _ subpaths => totalAll subpaths
  | .mergeAppend _ subpaths => totalAll subpaths
  | .modifyTable _ subpaths => totalAll subpaths
  | .minMaxAgg _ subpaths => totalAll subpaths

def totalAll : List PathNode → ℚ
  | [] => 0
  | subpath :: subpaths => total subpath + totalAll subpaths

end

mutual

/-- Scans that are not marked, and everything below a node that ignores its input. -/
def hidden : PathNode → ℚ
  | .scan kind path => if kind.marksExploreValue then 0 else ownValue path
  | .result _ => 0
  | .wrapper _ _ subpath => hidden subpath
  | .gather _ subpath => total subpath
  | .gatherMerge _ _ subpath => total subpath
  | .join _ _ outer inner => hidden outer + hidden inner
  | .recursiveUnion _ left right => hidden left + hidden right
  | .append _ subpaths => hiddenAll subpaths
  | .mergeAppend _ subpaths => totalAll subpaths
  | .modifyTable _ [] => 0
  | .modifyTable _ (first :: rest) => hidden first + totalAll rest
  | .minMaxAgg _ subpaths => totalAll subpaths

def hiddenAll : List PathNode → ℚ
  | [] => 0
  | subpath :: subpaths => hidden subpath + hiddenAll subpaths

end

mutual

def invented : PathNode → ℚ
  | .scan _ _ => 0
  | .result _ => 0
  | .wrapper _ _ subpath => invented subpath
  | .gather _ _ => 0
  | .gatherMerge rowsGiven path _ => if rowsGiven then 0 else ownValue path
  | .join _ _ outer inner => invented outer + invented inner
  | .recursiveUnion _ left right => invented left + invented right
  | .append _ subpaths => inventedAll subpaths
  | .mergeAppend _ _ => 0
  | .modifyTable _ [] => 0
  | .modifyTable _ (first :: _) => invented first
  | .minMaxAgg _ _ => 0

def inventedAll : List PathNode → ℚ
  | [] => 0
  | subpath :: subpaths => invented subpath + inventedAll subpaths

end

theorem append_exploreValue (subpaths : List PathNode) (start : ℚ) :
    subpaths.foldl (fun sum subpath => sum + subpath.exploreValue) start =
      start + (subpaths.map PathNode.exploreValue).sum := by
  induction subpaths generalizing start with
  | nil => simp
  | cons subpath subpaths ih =>
    rw [List.foldl_cons,ih,List.map_cons,List.sum_cons]
    ring

theorem accounting_all (subpaths : List PathNode)
    (each : ∀ subpath ∈ subpaths, subpath.exploreValue + hidden subpath = total subpath +
      invented subpath) :
    (subpaths.map PathNode.exploreValue).sum + hiddenAll subpaths = totalAll subpaths +
      inventedAll subpaths := by
  induction subpaths with
  | nil => rfl
  | cons subpath subpaths ih =>
    have first := each subpath (by simp)
    have rest := ih fun other member => each other (by simp [member])
    simp only [List.map_cons,List.sum_cons,hiddenAll,totalAll,inventedAll]
    linarith

/-- Every node keeps the books: nothing else enters or leaves the root's explore value. -/
theorem accounting (node : PathNode) (built : Built node) :
    node.exploreValue + hidden node = total node + invented node := by
  induction built with
  | scan kind rel paramInfo data =>
    simp only [createScanPath,PathNode.exploreValue,PathNode.path,pathHeader,hidden,total,
      invented,ownValue]
    cases kind.marksExploreValue with
    | false => simp
    | true => simp
  | result rel data => rfl
  | wrapper kind rel paramInfo data subpath sub ih => exact ih
  | gather rel paramInfo data subpath sub ih =>
    simp [createGatherPath,PathNode.exploreValue,PathNode.path,pathHeader,hidden,total,invented]
  | gatherMerge rowsGiven rel paramInfo data subpath sub ih =>
    simp only [createGatherMergePath,PathNode.exploreValue,PathNode.path,pathHeader,hidden,total,
      invented,ownValue]
    ring
  | join info rel paramInfo data outer inner outerBuilt innerBuilt ihOuter ihInner =>
    simp only [createJoinPath,PathNode.exploreValue,PathNode.path,pathHeader,hidden,total,
      invented,ownValue] at ihOuter ihInner ⊢
    linarith
  | recursiveUnion rel data left right leftBuilt rightBuilt ihLeft ihRight =>
    simp only [createRecursiveunionPath,PathNode.exploreValue,PathNode.path,pathHeader,
      hidden,total,invented] at ihLeft ihRight ⊢
    linarith
  | append rel paramInfo data subpaths subs ih =>
    have all := accounting_all subpaths ih
    have sum := append_exploreValue subpaths 0
    simp only [createAppendPath,PathNode.exploreValue,PathNode.path,pathHeader,hidden,total,
      invented] at all sum ⊢
    linarith
  | mergeAppend rel paramInfo data subpaths subs ih =>
    simp [createMergeAppendPath,PathNode.exploreValue,PathNode.path,pathHeader,
      hidden,total,invented]
  | modifyTable rel data subpaths subs ih =>
    cases subpaths with
    | nil => rfl
    | cons first rest =>
      have kept := ih first (by simp)
      simp only [createModifytablePath,PathNode.exploreValue,PathNode.path,pathHeader,hidden,total,
        totalAll,invented,List.head?_cons,Option.map_some,Option.getD_some] at kept ⊢
      linarith
  | minMaxAgg rel data subpaths subs ih =>
    simp [createMinmaxaggPath,PathNode.exploreValue,PathNode.path,pathHeader,hidden,total,invented]

/-- The root is worth the sum over its scans and joins exactly when the hidden values add up to
the invented ones. -/
theorem exploreValue_conserved_iff (node : PathNode) (built : Built node) :
    node.exploreValue = total node ↔ hidden node = invented node := by
  have books := accounting node built
  constructor
  · intro conserved
    linarith
  · intro balanced
    linarith

def plainData : PathData := ⟨0,true,0,1,0,10,[]⟩

def scanTree : PathNode := createSeqscanPath (baseRel 1 (1/2)) none plainData

theorem exploreValue_conserved_iff_join :
    (createHashjoinPath (baseRel 0 1) none plainData [3] scanTree scanTree).exploreValue =
      total (createHashjoinPath (baseRel 0 1) none plainData [3] scanTree scanTree) :=
  (exploreValue_conserved_iff _ (.join _ _ _ _ _ _ (.scan _ _ _ _) (.scan _ _ _ _))).mpr
    (by decide +kernel)

/-- A Gather over a sequential scan is worth nothing. -/
theorem gather_loses_exploreValue :
    Built (createGatherPath (baseRel 1 (1/2)) none plainData scanTree) ∧
      (createGatherPath (baseRel 1 (1/2)) none plainData scanTree).exploreValue = 0 ∧
      total (createGatherPath (baseRel 1 (1/2)) none plainData scanTree) = 1/2 :=
  ⟨.gather _ _ _ _ (.scan _ _ _ _),rfl,rfl⟩

end ExploratoryOptimizer.PathTree
