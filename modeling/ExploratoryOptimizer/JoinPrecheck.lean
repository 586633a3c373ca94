import ExploratoryOptimizer.AddPath

/-! Join candidates of path/joinpath.c with the two cost phases of path/costsize.c.
The initial phase gives lower bounds of the costs and the sum of the input explore values; the
final phase adds the explore value of the join relation itself. Cost figures are data: only that
the final ones are no smaller than the initial ones is used. -/
namespace ExploratoryOptimizer.JoinPrecheck
open AddPath Library.Tournament

inductive JoinMethod where
  | nestloop
  | mergejoin
  | hashjoin
  deriving DecidableEq

structure JoinCostWorkspace where
  startupCost : ℚ
  totalCost : ℚ
  exploreValue : ℚ

def initialCost (outerPath innerPath : Path) (startupCost totalCost : ℚ) : JoinCostWorkspace where
  startupCost := startupCost
  totalCost := totalCost
  exploreValue := outerPath.exploreValue + innerPath.exploreValue

def parallelDivisor (parallelWorkers : Nat) : ℚ :=
  let leaderContribution : ℚ := 1 - 0.3 * parallelWorkers
  if leaderContribution > 0 then parallelWorkers + leaderContribution else parallelWorkers

def rint (x : ℚ) : ℚ :=
  -- Round to the nearest integer, ties to even.
  let below := x.floor
  if x - below < 1 / 2 then below
  else if x - below > 1 / 2 then below + 1
  else if below % 2 = 0 then below else below + 1

def clampRowEst (nrows : ℚ) : ℚ :=
  if nrows ≤ 1 then 1 else rint nrows

def JoinMethod.tag : JoinMethod → PathTag
  | .nestloop => .nestPath
  | .mergejoin => .mergePath
  | .hashjoin => .hashPath

def ownRows (parent : RelCore) (paramInfo : Option ParamPathInfo) : ℚ :=
  match paramInfo with
  | some info => info.rows
  | none => parent.rows

structure JoinCandidate where
  method : JoinMethod
  outerPath : Path
  innerPath : Path
  pathkeys : List PathKey
  paramInfo : Option ParamPathInfo
  -- A parameterization always names an outer relation.
  required : ∀ info ∈ paramInfo, info.reqOuter ≠ ∅
  startupCost : ℚ
  totalCost : ℚ

namespace JoinCandidate

def workspace (candidate : JoinCandidate) : JoinCostWorkspace :=
  initialCost candidate.outerPath candidate.innerPath candidate.startupCost candidate.totalCost

def requiredOuter (candidate : JoinCandidate) : Relids :=
  match candidate.paramInfo with
  | none => ∅
  | some info => info.reqOuter

def outputPathkeys (candidate : JoinCandidate) : List PathKey :=
  match candidate.method with
  | .hashjoin => []
  | _ => candidate.pathkeys

/-- The path node with its final cost: `create_nestloop_path`, `create_mergejoin_path` and
`create_hashjoin_path` ending in their `final_cost` function. -/
def finish (candidate : JoinCandidate) (joinrel : RelCore) (address : Nat)
    (startupCost totalCost : ℚ) : Path where
  address := address
  type := candidate.method.tag
  parent := joinrel
  paramInfo := candidate.paramInfo
  parallelSafe :=
    joinrel.considerParallel && candidate.outerPath.parallelSafe && candidate.innerPath.parallelSafe
  parallelWorkers := candidate.outerPath.parallelWorkers
  rows :=
    if candidate.outerPath.parallelWorkers > 0 then
      clampRowEst (ownRows joinrel candidate.paramInfo /
          parallelDivisor candidate.outerPath.parallelWorkers)
    else ownRows joinrel candidate.paramInfo
  startupCost := startupCost
  totalCost := totalCost
  exploreValue := ownExploreValue joinrel candidate.paramInfo + candidate.workspace.exploreValue
  pathkeys := candidate.outputPathkeys

def precheck (candidate : JoinCandidate) (joinrel : RelOptInfo) : Bool :=
  addPathPrecheckExplore joinrel candidate.workspace.startupCost candidate.workspace.totalCost
    candidate.outputPathkeys candidate.requiredOuter candidate.workspace.exploreValue

def precheckedBy (candidate : JoinCandidate) (joinrel : RelOptInfo) (oldPath : Path) : Bool :=
  precheckDominates
    (if candidate.requiredOuter = ∅ then joinrel.considerStartup else joinrel.considerParamStartup)
    candidate.workspace.startupCost candidate.workspace.totalCost candidate.workspace.exploreValue
    (if candidate.requiredOuter = ∅ then candidate.outputPathkeys else [])
    candidate.requiredOuter oldPath

theorem precheck_refuses (candidate : JoinCandidate) (joinrel : RelOptInfo)
    (sorted : joinrel.pathlist.Pairwise fun earlier later => earlier.totalCost ≤ later.totalCost) :
    candidate.precheck joinrel = false ↔ ∃ oldPath ∈ joinrel.pathlist,
      candidate.precheckedBy joinrel oldPath :=
  precheckLoop_refuses _ _ _ _ _ _ joinrel.pathlist sorted

theorem finish_reqOuter (candidate : JoinCandidate) (joinrel : RelCore) (address : Nat)
    (startupCost totalCost : ℚ) :
    (candidate.finish joinrel address startupCost totalCost).reqOuter = candidate.requiredOuter :=
      rfl

theorem requiredOuter_eq_empty (candidate : JoinCandidate) :
    candidate.requiredOuter = ∅ ↔ candidate.paramInfo = none := by
  cases parameters : candidate.paramInfo with
  | none => simp [requiredOuter,parameters]
  | some info => simpa [requiredOuter,parameters] using candidate.required info parameters

theorem finish_usefulPathkeys (candidate : JoinCandidate) (joinrel : RelCore) (address : Nat)
    (startupCost totalCost : ℚ) :
    (candidate.finish joinrel address startupCost totalCost).usefulPathkeys =
      if candidate.requiredOuter = ∅ then candidate.outputPathkeys else [] := by
  simp only [requiredOuter_eq_empty]
  cases parameters : candidate.paramInfo with
  | none => simp [Path.usefulPathkeys,finish,parameters]
  | some info => simp [Path.usefulPathkeys,finish,parameters]

theorem finish_considerStartupCost (candidate : JoinCandidate) (joinrel : RelCore) (address : Nat)
    (startupCost totalCost : ℚ) :
    (candidate.finish joinrel address startupCost totalCost).considerStartupCost =
      if candidate.requiredOuter = ∅ then joinrel.considerStartup
      else joinrel.considerParamStartup := by
  simp only [requiredOuter_eq_empty]
  cases parameters : candidate.paramInfo with
  | none => simp [Path.considerStartupCost,finish,parameters]
  | some info => simp [Path.considerStartupCost,finish,parameters]

theorem precheckedBy_costs (candidate : JoinCandidate) (joinrel : RelOptInfo)
    (oldPath : Path) (address : Nat) (startupCost totalCost : ℚ)
    (startup_bound : candidate.startupCost ≤ startupCost)
    (total_bound : candidate.totalCost ≤ totalCost) (nonneg : 0 ≤ oldPath.startupCost)
    (dominated : candidate.precheckedBy joinrel oldPath) :
    comparePathCostsFuzzily (candidate.finish joinrel.toRelCore address startupCost totalCost)
      oldPath stdFuzzFactor = .costsBetter2 := by
  simp only [precheckedBy,precheckDominates,Bool.and_eq_true,decide_eq_true_eq,Bool.or_eq_true,
    Bool.not_eq_true'] at dominated
  obtain ⟨⟨⟨⟨dearer,startup⟩,_⟩,_⟩,_⟩ := dominated
  have total : totalCost > oldPath.totalCost * stdFuzzFactor := lt_of_lt_of_le dearer total_bound
  have considered :=
    finish_considerStartupCost candidate joinrel.toRelCore address startupCost totalCost
  have no_rescue :
    ((candidate.finish joinrel.toRelCore address startupCost totalCost).considerStartupCost &&
      decide (oldPath.startupCost > startupCost * stdFuzzFactor)) = false := by
    rcases startup with later | unconsidered
    · -- The old path also starts fuzzily earlier, so it cannot start fuzzily later.
      have bound : oldPath.startupCost * stdFuzzFactor < startupCost :=
        lt_of_lt_of_le later startup_bound
      have : ¬oldPath.startupCost > startupCost * stdFuzzFactor := by
        norm_num [stdFuzzFactor] at bound ⊢
        linarith
      simp [this]
    · rw [considered,unconsidered]
      rfl
  unfold comparePathCostsFuzzily
  rw [if_pos (show (candidate.finish joinrel.toRelCore address startupCost totalCost).totalCost >
    oldPath.totalCost * stdFuzzFactor from total)]
  exact if_neg (by simpa [finish] using no_rescue)

/-- It rejects the finished path exactly when the explore value added by the final cost phase
does not lift the path fuzzily above it. -/
theorem precheckedBy_rejects (candidate : JoinCandidate) (joinrel : RelOptInfo)
    (oldPath : Path) (address : Nat) (startupCost totalCost : ℚ)
    (startup_bound : candidate.startupCost ≤ startupCost)
    (total_bound : candidate.totalCost ≤ totalCost) (nonneg : 0 ≤ oldPath.startupCost)
    (rows : oldPath.rows = (candidate.finish joinrel.toRelCore address startupCost totalCost).rows)
    (safe : oldPath.parallelSafe =
      (candidate.finish joinrel.toRelCore address startupCost totalCost).parallelSafe)
    (dominated : candidate.precheckedBy joinrel oldPath) :
    Rejects (candidate.finish joinrel.toRelCore address startupCost totalCost) oldPath ↔
      (candidate.finish joinrel.toRelCore address startupCost totalCost).exploreValue ≤
        oldPath.exploreValue * evFuzzyR := by
  have better2 :=
    precheckedBy_costs candidate joinrel oldPath address startupCost totalCost startup_bound
      total_bound nonneg dominated
  simp only [precheckedBy,precheckDominates,Bool.and_eq_true,decide_eq_true_eq] at dominated
  obtain ⟨⟨_,keys⟩,outer⟩ := dominated
  rw [← finish_usefulPathkeys candidate joinrel.toRelCore address startupCost totalCost] at keys
  rw [← finish_reqOuter candidate joinrel.toRelCore address startupCost totalCost] at outer
  generalize candidate.finish joinrel.toRelCore address startupCost totalCost = finished at *
  constructor
  · intro rejects
    cases rejects with
    | dearer _ _ values _ => exact values
    | lessExplored _ costs _ _ _ => simp [better2] at costs
    | worseSorted _ costs _ _ => simp [better2] at costs
    | tied _ costs _ _ => simp [better2] at costs
  · intro values
    apply Rejects.dearer keys better2 values
    simp [oldCoversNew,bmsSubsetCompare,outer,rows,safe]

end JoinCandidate

/-- If any path fails the candidate in the precheck, then one of them is within the fuzz of the
explore value that the candidate has after the final cost phase. -/
def StaysRefused (joinrel : RelOptInfo) (candidate : JoinCandidate) : Prop :=
  (∃ oldPath ∈ joinrel.pathlist, candidate.precheckedBy joinrel oldPath) →
    ∃ oldPath ∈ joinrel.pathlist, candidate.precheckedBy joinrel oldPath ∧
      ownExploreValue joinrel.toRelCore candidate.paramInfo +
        (candidate.outerPath.exploreValue + candidate.innerPath.exploreValue) ≤
          oldPath.exploreValue * evFuzzyR

/-- A candidate that fails the precheck is also refused in full if the explore value of the join
relation does not lift it above the paths that failed it. Where each kept path fails it and the loop
runs, that is the only way: a path that the candidate passes may reject it for other reasons. -/
theorem precheck_sound_when (joinrel : RelOptInfo) (candidate : JoinCandidate) (address : Nat)
    (startupCost totalCost bestPredCost pruneRate : ℚ)
    (sorted : joinrel.pathlist.Pairwise fun earlier later => earlier.totalCost ≤ later.totalCost)
    (startup_bound : candidate.startupCost ≤ startupCost)
    (total_bound : candidate.totalCost ≤ totalCost)
    (nonneg : ∀ oldPath ∈ joinrel.pathlist, 0 ≤ oldPath.startupCost)
    (fresh : candidate.finish joinrel.toRelCore address startupCost totalCost ∉ joinrel.pathlist)
    (alike : ∀ oldPath ∈ joinrel.pathlist, oldPath.reqOuter = candidate.requiredOuter →
      oldPath.rows = (candidate.finish joinrel.toRelCore address startupCost totalCost).rows ∧
      oldPath.parallelSafe =
        (candidate.finish joinrel.toRelCore address startupCost totalCost).parallelSafe)
    (predicted : 0 ≤ bestPredCost) :
    let finished := candidate.finish joinrel.toRelCore address startupCost totalCost
    (StaysRefused joinrel candidate → candidate.precheck joinrel = false →
      finished ∉ (addPathExplore joinrel finished bestPredCost pruneRate).pathlist) ∧
    (needContinue joinrel finished bestPredCost pruneRate →
      (∀ oldPath ∈ joinrel.pathlist, candidate.precheckedBy joinrel oldPath) →
      (candidate.precheck joinrel = false →
        finished ∉ (addPathExplore joinrel finished bestPredCost pruneRate).pathlist) →
      StaysRefused joinrel candidate) := by
  intro finished
  have within : ∀ oldPath ∈ joinrel.pathlist, candidate.precheckedBy joinrel oldPath →
      (Rejects finished oldPath ↔ ownExploreValue joinrel.toRelCore candidate.paramInfo +
        (candidate.outerPath.exploreValue + candidate.innerPath.exploreValue) ≤
          oldPath.exploreValue * evFuzzyR) := by
    intro oldPath member dominated
    have outer : oldPath.reqOuter = candidate.requiredOuter := by
      simp only [JoinCandidate.precheckedBy,precheckDominates,Bool.and_eq_true,
        decide_eq_true_eq] at dominated
      exact dominated.2.symm
    obtain ⟨rows,safe⟩ := alike oldPath member outer
    exact candidate.precheckedBy_rejects joinrel oldPath address startupCost totalCost startup_bound
      total_bound (nonneg oldPath member) rows safe dominated
  rw [candidate.precheck_refuses joinrel sorted,
    addPathExplore_rejects joinrel finished bestPredCost pruneRate fresh]
  constructor
  · intro refused failed
    obtain ⟨oldPath,member,dominated,small⟩ := refused failed
    have rejects := (within oldPath member dominated).mpr small
    rcases needContinue_or_pruned joinrel finished bestPredCost pruneRate predicted with
      continues | exceeds
    · exact .inr ⟨continues,oldPath,member,rejects⟩
    · exact .inl exceeds
  · intro continues each sound failed
    have compared := not_pruned_of_needContinue joinrel finished bestPredCost pruneRate continues
    obtain ⟨_,oldPath,member,rejects⟩ := (sound failed).resolve_left compared
    exact ⟨oldPath,member,each oldPath member,
      (within oldPath member (each oldPath member)).mp rejects⟩

def joinedRel (exploreValue : ℚ) : RelOptInfo :=
  .ofPaths {baseRel 0 exploreValue with relids := {1,2}}
    [seqScan (baseRel 0 exploreValue) 3 0 100 0]

def dearNestloop : JoinCandidate where
  method := .nestloop
  outerPath := seqScan (baseRel 1 0) 1 0 10 0
  innerPath := seqScan (baseRel 2 0) 2 0 10 0
  pathkeys := []
  paramInfo := none
  required := by simp
  startupCost := 0
  totalCost := 200

theorem precheck_sound_when_unexplored :
    dearNestloop.precheck (joinedRel 0) = false ∧
      dearNestloop.finish (joinedRel 0).toRelCore 4 0 210 ∉ (addPathExplore (joinedRel 0)
        (dearNestloop.finish (joinedRel 0).toRelCore 4 0 210) 0 1).pathlist := by
  have refused : dearNestloop.precheck (joinedRel 0) = false := by decide +kernel
  have sound := precheck_sound_when (joinedRel 0) dearNestloop 4 0 210 0 1 (by decide +kernel)
    (by decide +kernel) (by decide +kernel) (by decide +kernel) (by decide +kernel)
    (by decide +kernel) le_rfl
  exact ⟨refused,sound.1 (fun _ => by decide +kernel) refused⟩

/-- The finished nestloop gains the explore value 1/2 of its join relation after the precheck has
already refused it; offered in full it enters the pathlist. -/
theorem precheck_discards_explored :
    dearNestloop.precheck (joinedRel (1/2)) = false ∧
      dearNestloop.finish (joinedRel (1/2)).toRelCore 4 0 210 ∈
        (addPathExplore (joinedRel (1/2)) (dearNestloop.finish (joinedRel (1/2)).toRelCore 4 0 210)
          0 1).pathlist := by
  decide +kernel

end ExploratoryOptimizer.JoinPrecheck
