import ExploratoryOptimizer.Library.Tournament
import ExploratoryOptimizer.Path

/-! The pathlist tournaments of util/pathnode.c: `add_path`, its exploratory sibling and the
precheck of a join candidate. One loop iteration is a verdict on the newcomer and one old path;
the loop itself is the library's dominance list. -/
namespace ExploratoryOptimizer.AddPath
open Library.Tournament

def stdFuzzFactor : ℚ := 1.01

def evFuzzyR : ℚ := 1.1

def evFuzzyR2 : ℚ := 1.01

def newCoversOld (newPath oldPath : Path) : Bool :=
  (bmsSubsetCompare newPath.reqOuter oldPath.reqOuter = .bmsEqual ||
    bmsSubsetCompare newPath.reqOuter oldPath.reqOuter = .bmsSubset1) &&
  newPath.rows ≤ oldPath.rows && newPath.parallelSafe ≥ oldPath.parallelSafe

def oldCoversNew (newPath oldPath : Path) : Bool :=
  (bmsSubsetCompare newPath.reqOuter oldPath.reqOuter = .bmsEqual ||
    bmsSubsetCompare newPath.reqOuter oldPath.reqOuter = .bmsSubset2) &&
  newPath.rows ≥ oldPath.rows && newPath.parallelSafe ≤ oldPath.parallelSafe

def tieVerdict (newPath oldPath : Path) : Verdict :=
  match bmsSubsetCompare newPath.reqOuter oldPath.reqOuter with
  | .bmsEqual =>
    if newPath.parallelSafe > oldPath.parallelSafe then .removeOld
    else if newPath.parallelSafe < oldPath.parallelSafe then .rejectNew
    else if newPath.rows < oldPath.rows then .removeOld
    else if newPath.rows > oldPath.rows then .rejectNew
    else if comparePathCostsFuzzily newPath oldPath 1.0000000001 = .costsBetter1 then .removeOld
    else .rejectNew
  | .bmsSubset1 =>
    if newPath.rows ≤ oldPath.rows ∧ newPath.parallelSafe ≥ oldPath.parallelSafe then .removeOld
    else .keepBoth
  | .bmsSubset2 =>
    if newPath.rows ≥ oldPath.rows ∧ newPath.parallelSafe ≤ oldPath.parallelSafe then .rejectNew
    else .keepBoth
  | .bmsDifferent => .keepBoth

def addPathVerdict (newPath oldPath : Path) : Verdict :=
  let keyscmp := comparePathkeys newPath.usefulPathkeys oldPath.usefulPathkeys
  if keyscmp = .pathkeysDifferent then .keepBoth
  else match comparePathCostsFuzzily newPath oldPath stdFuzzFactor with
  | .costsEqual =>
    if keyscmp = .pathkeysBetter1 then
      if newCoversOld newPath oldPath then .removeOld else .keepBoth
    else if keyscmp = .pathkeysBetter2 then
      if oldCoversNew newPath oldPath then .rejectNew else .keepBoth
    else tieVerdict newPath oldPath
  | .costsBetter1 =>
    if keyscmp ≠ .pathkeysBetter2 ∧ newCoversOld newPath oldPath then .removeOld else .keepBoth
  | .costsBetter2 =>
    if keyscmp ≠ .pathkeysBetter1 ∧ oldCoversNew newPath oldPath then .rejectNew else .keepBoth
  | .costsDifferent => .keepBoth

def addPath (parentRel : RelOptInfo) (newPath : Path) : RelOptInfo :=
  {parentRel with
    pathlist :=
      offer (addPathVerdict newPath) (fun oldPath => newPath.totalCost ≥ oldPath.totalCost) newPath
        parentRel.pathlist}

def tieVerdictExplore (newPath oldPath : Path) : Verdict :=
  match bmsSubsetCompare newPath.reqOuter oldPath.reqOuter with
  | .bmsEqual =>
    if newPath.parallelSafe > oldPath.parallelSafe then .removeOld
    else if newPath.parallelSafe < oldPath.parallelSafe then .rejectNew
    else if newPath.rows < oldPath.rows then .removeOld
    else if newPath.rows > oldPath.rows then .rejectNew
    else if comparePathCostsFuzzily newPath oldPath 1.0000000001 = .costsBetter1 then .removeOld
    else if comparePathCostsFuzzily newPath oldPath 1.0000000001 = .costsBetter2 then .rejectNew
    else if comparePathExploreValueFuzzily newPath oldPath evFuzzyR2 = .gt then .removeOld
    else .rejectNew
  | .bmsSubset1 =>
    if newPath.rows ≤ oldPath.rows ∧ newPath.parallelSafe ≥ oldPath.parallelSafe then .removeOld
    else .keepBoth
  | .bmsSubset2 =>
    if newPath.rows ≥ oldPath.rows ∧ newPath.parallelSafe ≤ oldPath.parallelSafe then .rejectNew
    else .keepBoth
  | .bmsDifferent => .keepBoth

def addPathExploreVerdict (newPath oldPath : Path) : Verdict :=
  let evcmp := comparePathExploreValueFuzzily newPath oldPath evFuzzyR
  let keyscmp := comparePathkeys newPath.usefulPathkeys oldPath.usefulPathkeys
  if keyscmp = .pathkeysDifferent then .keepBoth
  else match comparePathCostsFuzzily newPath oldPath stdFuzzFactor with
  | .costsEqual =>
    match evcmp with
    | .eq =>
      if keyscmp = .pathkeysBetter1 then
        if newCoversOld newPath oldPath then .removeOld else .keepBoth
      else if keyscmp = .pathkeysBetter2 then
        if oldCoversNew newPath oldPath then .rejectNew else .keepBoth
      else tieVerdictExplore newPath oldPath
    | .gt =>
      if keyscmp ≠ .pathkeysBetter2 ∧ newCoversOld newPath oldPath ∧
          comparePathCostsFuzzily newPath oldPath 1.00009 ≠ .costsBetter2 then .removeOld
      else .keepBoth
    | .lt =>
      if keyscmp ≠ .pathkeysBetter1 ∧ oldCoversNew newPath oldPath ∧
          comparePathCostsFuzzily newPath oldPath 1.00009 ≠ .costsBetter1 then .rejectNew
      else .keepBoth
  | .costsBetter1 =>
    if evcmp ≠ .lt ∧ keyscmp ≠ .pathkeysBetter2 ∧ newCoversOld newPath oldPath then .removeOld
    else .keepBoth
  | .costsBetter2 =>
    if evcmp ≠ .gt ∧ keyscmp ≠ .pathkeysBetter1 ∧ oldCoversNew newPath oldPath then .rejectNew
    else .keepBoth
  | .costsDifferent => .keepBoth

def exploreLoop (newPath : Path) (pathlist : List Path) : List Path :=
  offer (addPathExploreVerdict newPath) (fun oldPath => newPath.totalCost ≥ oldPath.totalCost)
    newPath pathlist

def unbudgeted (parentRel : RelOptInfo) (newPath : Path) (bestPredCost : ℚ) : Bool :=
  bestPredCost = 0 || parentRel.pathlist = [] || newPath.totalCost < parentRel.bestCost

def pruned (parentRel : RelOptInfo) (newPath : Path) (bestPredCost pruneRate : ℚ) : Bool :=
  -- Beyond the predicted best cost of the query: dropped without a comparison.
  !unbudgeted parentRel newPath bestPredCost && bestPredCost > 0 &&
    newPath.totalCost > bestPredCost * pruneRate

def needContinue (parentRel : RelOptInfo) (newPath : Path) (bestPredCost pruneRate : ℚ) : Bool :=
  unbudgeted parentRel newPath bestPredCost ||
    (bestPredCost > 0 && newPath.totalCost ≤ bestPredCost * pruneRate)

def addPathExplore (parentRel : RelOptInfo) (newPath : Path)
    (bestPredCost pruneRate : ℚ) : RelOptInfo :=
  {parentRel with
    pathlist :=
      if needContinue parentRel newPath bestPredCost pruneRate then
        exploreLoop newPath parentRel.pathlist
      else if pruned parentRel newPath bestPredCost pruneRate then parentRel.pathlist
      -- A negative prediction skips the loop with the path still accepted: it goes to the head.
      else newPath :: parentRel.pathlist
    bestCost := if parentRel.pathlist = [] ∨ newPath.totalCost < parentRel.bestCost
      then newPath.totalCost else parentRel.bestCost}

/-- Without a negative prediction the path is compared or dropped. -/
theorem needContinue_or_pruned (parentRel : RelOptInfo) (newPath : Path)
    (bestPredCost pruneRate : ℚ) (predicted : 0 ≤ bestPredCost) :
    needContinue parentRel newPath bestPredCost pruneRate ∨
      pruned parentRel newPath bestPredCost pruneRate := by
  cases budgeted : unbudgeted parentRel newPath bestPredCost with
  | true => exact .inl (by simp [needContinue,budgeted])
  | false =>
    have nonzero : bestPredCost ≠ 0 := by
      intro zero
      simp [unbudgeted,zero] at budgeted
    have positive : 0 < bestPredCost := lt_of_le_of_ne predicted nonzero.symm
    rcases le_or_gt newPath.totalCost (bestPredCost * pruneRate) with within | exceeds
    · exact .inl (by simp [needContinue,positive,within])
    · exact .inr (by simp [pruned,budgeted,positive,exceeds])

/-- A path that is compared is not over budget. -/
theorem not_pruned_of_needContinue (parentRel : RelOptInfo) (newPath : Path)
    (bestPredCost pruneRate : ℚ)
    (continues : needContinue parentRel newPath bestPredCost pruneRate) :
    ¬pruned parentRel newPath bestPredCost pruneRate := by
  intro exceeds
  simp only [pruned,needContinue,Bool.and_eq_true,Bool.or_eq_true,Bool.not_eq_true',
    decide_eq_true_eq] at exceeds continues
  rcases continues with free | ⟨_,below⟩
  · exact absurd free (by simp [exceeds.1.1])
  · exact absurd exceeds.2 (not_lt.mpr below)

def precheckDominates (considerStartup : Bool) (startupCost totalCost exploreValue : ℚ)
    (newPathkeys : List PathKey) (requiredOuter : Relids) (oldPath : Path) : Bool :=
  totalCost > oldPath.totalCost * stdFuzzFactor &&
  (startupCost > oldPath.startupCost * stdFuzzFactor || !considerStartup) &&
  exploreValue ≤ oldPath.exploreValue &&
  pathkeysContainedIn newPathkeys oldPath.usefulPathkeys &&
  requiredOuter = oldPath.reqOuter

def precheckLoop (considerStartup : Bool) (startupCost totalCost exploreValue : ℚ)
    (newPathkeys : List PathKey) (requiredOuter : Relids) : List Path → Bool
  | [] => true
  | oldPath :: rest =>
    if totalCost > oldPath.totalCost * stdFuzzFactor then
      if precheckDominates considerStartup startupCost totalCost exploreValue newPathkeys
          requiredOuter oldPath then false
      else precheckLoop considerStartup startupCost totalCost exploreValue newPathkeys
        requiredOuter rest
    else true

def addPathPrecheckExplore (parentRel : RelOptInfo) (startupCost totalCost : ℚ)
    (pathkeys : List PathKey) (requiredOuter : Relids) (exploreValue : ℚ) : Bool :=
  precheckLoop (if requiredOuter = ∅ then parentRel.considerStartup
      else parentRel.considerParamStartup)
    startupCost totalCost exploreValue (if requiredOuter = ∅ then pathkeys else []) requiredOuter
    parentRel.pathlist

theorem addPath_ne_nil (parentRel : RelOptInfo) (newPath : Path) :
    (addPath parentRel newPath).pathlist ≠ [] :=
  offer_ne_nil _ _ _ _

theorem addPathExplore_ne_nil (parentRel : RelOptInfo) (newPath : Path)
    (bestPredCost pruneRate : ℚ) :
    (addPathExplore parentRel newPath bestPredCost pruneRate).pathlist ≠ [] := by
  unfold addPathExplore
  dsimp only
  split_ifs with continues exceeds
  · exact offer_ne_nil _ _ _ _
  · intro empty
    simp [pruned,unbudgeted,empty] at exceeds
  · simp

def isIncludeInPathlist {α : Type} [DecidableEq α] (trypath : α) (pathlist : List α) : Bool :=
  pathlist.any fun currentPath => trypath = currentPath

/-- On a list sorted by total cost the early exit of the precheck misses nothing. -/
theorem precheckLoop_refuses (considerStartup : Bool) (startupCost totalCost exploreValue : ℚ)
    (newPathkeys : List PathKey) (requiredOuter : Relids) (pathlist : List Path)
    (sorted : pathlist.Pairwise fun earlier later => earlier.totalCost ≤ later.totalCost) :
    precheckLoop considerStartup startupCost totalCost exploreValue newPathkeys requiredOuter
      pathlist = false ↔
      ∃ oldPath ∈ pathlist, precheckDominates considerStartup startupCost totalCost
        exploreValue newPathkeys requiredOuter oldPath := by
  induction pathlist with
  | nil => simp [precheckLoop]
  | cons first rest ih =>
    obtain ⟨below,sorted'⟩ := List.pairwise_cons.mp sorted
    unfold precheckLoop
    split
    next dearer =>
      split
      next dominated => simp [dominated]
      next undominated =>
        rw [ih sorted']
        simp [undominated]
    next exits =>
      -- Every later path is at least as dear as the one that ended the loop.
      have none :
        ∀ oldPath ∈ first :: rest, ¬precheckDominates considerStartup startupCost totalCost
          exploreValue newPathkeys requiredOuter oldPath := by
        intro oldPath member dominated
        have above : first.totalCost ≤ oldPath.totalCost := by
          rcases List.mem_cons.mp member with rfl | later
          · exact le_rfl
          · exact below oldPath later
        simp only [precheckDominates,Bool.and_eq_true,decide_eq_true_eq] at dominated
        have : (0 : ℚ) ≤ stdFuzzFactor := by norm_num [stdFuzzFactor]
        exact exits (lt_of_le_of_lt (mul_le_mul_of_nonneg_right above this) dominated.1.1.1.1)
      simpa using none

/-- The ways in which one old path makes `add_path_explore` drop the newcomer. -/
inductive Rejects (newPath oldPath : Path) : Prop
  | dearer (keys : pathkeysContainedIn newPath.usefulPathkeys oldPath.usefulPathkeys)
      (costs : comparePathCostsFuzzily newPath oldPath stdFuzzFactor = .costsBetter2)
      (values : newPath.exploreValue ≤ oldPath.exploreValue * evFuzzyR)
      (covers : oldCoversNew newPath oldPath)
  | lessExplored (keys : pathkeysContainedIn newPath.usefulPathkeys oldPath.usefulPathkeys)
      (costs : comparePathCostsFuzzily newPath oldPath stdFuzzFactor = .costsEqual)
      (values : comparePathExploreValueFuzzily newPath oldPath evFuzzyR = .lt)
      (covers : oldCoversNew newPath oldPath)
      (notCheaper : comparePathCostsFuzzily newPath oldPath 1.00009 ≠ .costsBetter1)
  | worseSorted (keys : comparePathkeys newPath.usefulPathkeys oldPath.usefulPathkeys =
        .pathkeysBetter2)
      (costs : comparePathCostsFuzzily newPath oldPath stdFuzzFactor = .costsEqual)
      (values : comparePathExploreValueFuzzily newPath oldPath evFuzzyR = .eq)
      (covers : oldCoversNew newPath oldPath)
  | tied (keys : comparePathkeys newPath.usefulPathkeys oldPath.usefulPathkeys = .pathkeysEqual)
      (costs : comparePathCostsFuzzily newPath oldPath stdFuzzFactor = .costsEqual)
      (values : comparePathExploreValueFuzzily newPath oldPath evFuzzyR = .eq)
      (loses : tieVerdictExplore newPath oldPath = .rejectNew)

theorem pathkeysContainedIn_iff (keys1 keys2 : List PathKey) : pathkeysContainedIn keys1 keys2 ↔
    comparePathkeys keys1 keys2 ≠ .pathkeysDifferent ∧
    comparePathkeys keys1 keys2 ≠ .pathkeysBetter1 := by
  unfold pathkeysContainedIn
  cases comparePathkeys keys1 keys2 with
  | pathkeysEqual => simp
  | pathkeysBetter1 => simp
  | pathkeysBetter2 => simp
  | pathkeysDifferent => simp

theorem comparePathExploreValueFuzzily_ne_gt (newPath oldPath : Path) (fuzzFactor : ℚ) :
    comparePathExploreValueFuzzily newPath oldPath fuzzFactor ≠ .gt ↔
      newPath.exploreValue ≤ oldPath.exploreValue * fuzzFactor := by
  unfold comparePathExploreValueFuzzily
  split_ifs with more less
  · simp [more]
  · simpa using not_lt.mp more
  · simpa using not_lt.mp more

theorem addPathExploreVerdict_rejects (newPath oldPath : Path) :
    addPathExploreVerdict newPath oldPath = .rejectNew ↔ Rejects newPath oldPath := by
  constructor
  · intro rejected
    unfold addPathExploreVerdict at rejected
    by_cases different :
      comparePathkeys newPath.usefulPathkeys oldPath.usefulPathkeys = .pathkeysDifferent
    · simp [different] at rejected
    simp only [if_neg different] at rejected
    cases costs : comparePathCostsFuzzily newPath oldPath stdFuzzFactor with
    | costsEqual =>
      simp only [costs] at rejected
      cases values : comparePathExploreValueFuzzily newPath oldPath evFuzzyR with
      | lt =>
        simp only [values] at rejected
        split_ifs at rejected with loses
        exact .lessExplored ((pathkeysContainedIn_iff _ _).mpr ⟨different,loses.1⟩) costs values
          loses.2.1 loses.2.2
      | eq =>
        simp only [values] at rejected
        split_ifs at rejected with better1 covers better2 covers'
        · exact .worseSorted better2 costs values covers'
        · cases keys : comparePathkeys newPath.usefulPathkeys oldPath.usefulPathkeys with
          | pathkeysEqual => exact .tied keys costs values rejected
          | pathkeysBetter1 => exact absurd keys better1
          | pathkeysBetter2 => exact absurd keys better2
          | pathkeysDifferent => exact absurd keys different
      | gt =>
        simp only [values] at rejected
        split_ifs at rejected
    | costsBetter1 =>
      simp only [costs] at rejected
      split_ifs at rejected
    | costsBetter2 =>
      simp only [costs] at rejected
      split_ifs at rejected with loses
      exact .dearer ((pathkeysContainedIn_iff _ _).mpr ⟨different,loses.2.1⟩) costs
        ((comparePathExploreValueFuzzily_ne_gt _ _ _).mp loses.1) loses.2.2
    | costsDifferent =>
      simp only [costs] at rejected
      cases rejected
  · intro rejects
    unfold addPathExploreVerdict
    cases rejects with
    | dearer keys costs values covers =>
      obtain ⟨different,better1⟩ := (pathkeysContainedIn_iff _ _).mp keys
      have small := (comparePathExploreValueFuzzily_ne_gt newPath oldPath evFuzzyR).mpr values
      simp [different,better1,costs,small,covers]
    | lessExplored keys costs values covers notCheaper =>
      obtain ⟨different,better1⟩ := (pathkeysContainedIn_iff _ _).mp keys
      simp [different,better1,costs,values,covers,notCheaper]
    | worseSorted keys costs values covers => simp [keys,costs,values,covers]
    | tied keys costs values loses => simp [keys,costs,values,loses]

theorem newCoversOld_swap (newPath oldPath : Path) :
    newCoversOld oldPath newPath = oldCoversNew newPath oldPath := by
  unfold newCoversOld oldCoversNew
  rw [bmsSubsetCompare_swap newPath.reqOuter oldPath.reqOuter]
  cases bmsSubsetCompare newPath.reqOuter oldPath.reqOuter with
  | bmsEqual => simp [BMSComparison.swap]
  | bmsSubset1 => simp [BMSComparison.swap]
  | bmsSubset2 => simp [BMSComparison.swap]
  | bmsDifferent => simp [BMSComparison.swap]

theorem tieVerdictExplore_keeps (newPath oldPath : Path) :
    tieVerdictExplore newPath oldPath = .keepBoth ↔
      bmsSubsetCompare newPath.reqOuter oldPath.reqOuter ≠ .bmsEqual ∧
        ¬newCoversOld newPath oldPath ∧ ¬oldCoversNew newPath oldPath := by
  unfold tieVerdictExplore newCoversOld oldCoversNew
  cases bmsSubsetCompare newPath.reqOuter oldPath.reqOuter with
  | bmsEqual => simp; split_ifs <;> simp
  | bmsSubset1 => simp
  | bmsSubset2 => simp
  | bmsDifferent => simp

theorem addPathExploreVerdict_keeps_symm (newPath oldPath : Path) (nonneg : oldPath.Nonneg)
    (keeps : addPathExploreVerdict newPath oldPath = .keepBoth) :
    addPathExploreVerdict oldPath newPath = .keepBoth := by
  have standard :=
    comparePathCostsFuzzily_swap newPath oldPath stdFuzzFactor nonneg (by norm_num [stdFuzzFactor])
  have narrow := comparePathCostsFuzzily_swap newPath oldPath 1.00009 nonneg (by norm_num)
  have values :=
    comparePathExploreValueFuzzily_swap newPath oldPath evFuzzyR nonneg (by norm_num [evFuzzyR])
  have keys := comparePathkeys_swap newPath.usefulPathkeys oldPath.usefulPathkeys
  have outer := bmsSubsetCompare_swap newPath.reqOuter oldPath.reqOuter
  have covered := newCoversOld_swap oldPath newPath
  have covers := newCoversOld_swap newPath oldPath
  have tie : tieVerdictExplore newPath oldPath = .keepBoth →
    tieVerdictExplore oldPath newPath = .keepBoth := by
    rw [tieVerdictExplore_keeps,tieVerdictExplore_keeps,outer,covers,← covered]
    rintro ⟨different,first,second⟩
    refine ⟨?_,second,first⟩
    cases outcome : bmsSubsetCompare newPath.reqOuter oldPath.reqOuter with
    | bmsEqual => exact absurd outcome different
    | bmsSubset1 => simp [BMSComparison.swap]
    | bmsSubset2 => simp [BMSComparison.swap]
    | bmsDifferent => simp [BMSComparison.swap]
  unfold addPathExploreVerdict at keeps ⊢
  rw [standard,narrow,values,keys,covers,← covered]
  generalize comparePathkeys newPath.usefulPathkeys oldPath.usefulPathkeys = keyscmp at keeps ⊢
  generalize comparePathCostsFuzzily newPath oldPath stdFuzzFactor = costcmp at keeps ⊢
  generalize comparePathExploreValueFuzzily newPath oldPath evFuzzyR = evcmp at keeps ⊢
  generalize comparePathCostsFuzzily newPath oldPath 1.00009 = finecmp at keeps ⊢
  generalize newCoversOld newPath oldPath = newCovers at keeps ⊢
  generalize newCoversOld oldPath newPath = oldCovers at keeps ⊢
  generalize tieVerdictExplore newPath oldPath = tied at keeps tie
  generalize tieVerdictExplore oldPath newPath = tied' at tie ⊢
  clear standard narrow values keys outer covered covers
  cases costcmp with
  | costsEqual =>
    cases evcmp with
    | lt =>
      cases keyscmp <;> cases finecmp <;> cases newCovers <;> cases oldCovers <;>
        simp_all [PathKeysComparison.swap,PathCostComparison.swap]
    | eq =>
      cases keyscmp <;> cases newCovers <;> cases oldCovers <;>
        simp_all [PathKeysComparison.swap,PathCostComparison.swap]
    | gt =>
      cases keyscmp <;> cases finecmp <;> cases newCovers <;> cases oldCovers <;>
        simp_all [PathKeysComparison.swap,PathCostComparison.swap]
  | costsBetter1 =>
    cases evcmp <;> cases keyscmp <;> cases newCovers <;>
      simp_all [PathKeysComparison.swap,PathCostComparison.swap]
  | costsBetter2 =>
    cases evcmp <;> cases keyscmp <;> cases oldCovers <;>
      simp_all [PathKeysComparison.swap,PathCostComparison.swap]
  | costsDifferent =>
    cases keyscmp <;>
      simp [PathKeysComparison.swap,PathCostComparison.swap]

theorem bmsSubsetCompare_self (a : Relids) : bmsSubsetCompare a a = .bmsEqual := by
  simp [bmsSubsetCompare]

theorem comparePathkeys_self (keys : List PathKey) :
    comparePathkeys keys keys = .pathkeysEqual := by
  induction keys with
  | nil => rfl
  | cons key keys ih => simpa [comparePathkeys] using ih

theorem comparePathCostsFuzzily_self (path : Path) (fuzzFactor : ℚ) (nonneg : path.Nonneg)
    (widening : 1 ≤ fuzzFactor) : comparePathCostsFuzzily path path fuzzFactor = .costsEqual := by
  have total : ¬path.totalCost * fuzzFactor < path.totalCost :=
    not_lt.mpr (le_mul_of_one_le_right nonneg.totalCost widening)
  have startup : ¬path.startupCost * fuzzFactor < path.startupCost :=
    not_lt.mpr (le_mul_of_one_le_right nonneg.startupCost widening)
  simp [comparePathCostsFuzzily,total,startup]

theorem addPathExploreVerdict_self (path : Path) (nonneg : path.Nonneg) :
    addPathExploreVerdict path path = .rejectNew := by
  have standard :=
    comparePathCostsFuzzily_self path stdFuzzFactor nonneg (by norm_num [stdFuzzFactor])
  have fine := comparePathCostsFuzzily_self path 1.0000000001 nonneg (by norm_num)
  have values (fuzzFactor : ℚ) (widening : 1 ≤ fuzzFactor) :=
    comparePathExploreValueFuzzily_same path path fuzzFactor rfl nonneg.exploreValue widening
  have wide := values evFuzzyR (by norm_num [evFuzzyR])
  have narrow := values evFuzzyR2 (by norm_num [evFuzzyR2])
  simp [addPathExploreVerdict,tieVerdictExplore,comparePathkeys_self,bmsSubsetCompare_self,standard,
    fine,wide,narrow]

theorem mem_offer_fresh (verdict : Path → Verdict) (follows : Path → Bool) (newPath : Path)
    (pathlist : List Path) (fresh : newPath ∉ pathlist) :
    newPath ∈ offer verdict follows newPath pathlist ↔ ∀ oldPath ∈ pathlist,
      verdict oldPath ≠ .rejectNew := by
  rw [← contest_accepted]
  unfold offer
  split
  next accepted => simp [accepted,mem_placeAfterLast]
  next rejected =>
    constructor
    · intro member
      exact absurd ((contest_sublist verdict pathlist).subset member) fresh
    · intro accepted
      exact absurd accepted rejected

/-- A newly built path is refused exactly when it is over budget, or the loop runs and some old
path rejects it. -/
theorem addPathExplore_rejects (parentRel : RelOptInfo) (newPath : Path)
    (bestPredCost pruneRate : ℚ) (fresh : newPath ∉ parentRel.pathlist) :
    newPath ∉ (addPathExplore parentRel newPath bestPredCost pruneRate).pathlist ↔
      pruned parentRel newPath bestPredCost pruneRate ∨
        needContinue parentRel newPath bestPredCost pruneRate ∧
          ∃ oldPath ∈ parentRel.pathlist, Rejects newPath oldPath := by
  have exclusive : needContinue parentRel newPath bestPredCost pruneRate →
      ¬pruned parentRel newPath bestPredCost pruneRate := by
    simp only [needContinue,pruned,Bool.or_eq_true,Bool.and_eq_true,decide_eq_true_eq,
      Bool.not_eq_true',not_and,not_lt]
    rintro (passed | ⟨_,within⟩) ⟨failed,_⟩
    · exact absurd passed (by simp [failed])
    · exact within
  simp only [← addPathExploreVerdict_rejects]
  unfold addPathExplore
  dsimp only
  split
  next continues =>
    rw [exploreLoop,mem_offer_fresh _ _ _ _ fresh]
    simp [continues,exclusive continues]
  next stops =>
    split
    next exceeds => simp [exceeds,fresh]
    next within => simp [within,stops]

end ExploratoryOptimizer.AddPath
