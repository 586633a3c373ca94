import ExploratoryOptimizer.AddPath
import ExploratoryOptimizer.Library.Scan

/-! The cheapest-path fields of a relation: `set_cheapest` and `set_cheapest_explore` of
util/pathnode.c. Both walk the pathlist once; the startup and total slots are always filled
together, so they are one optional pair. -/
namespace ExploratoryOptimizer.SetCheapest
open Library.Scan Library.Tournament

structure Cheapest where
  startupAndTotal : Option (Path × Path)
  bestParamPath : Option Path
  parameterizedPaths : List Path

def trackBestParam (bestParamPath : Option Path) (path : Path) : Option Path :=
  match bestParamPath with
  | none => some path
  | some best =>
    match bmsSubsetCompare path.reqOuter best.reqOuter with
    | .bmsEqual => if comparePathCosts path best .totalCost = .lt then some path else some best
    | .bmsSubset1 => some path
    | .bmsSubset2 => some best
    | .bmsDifferent => some best

def replaces (criterion : CostSelector) (path current : Path) : Bool :=
  comparePathCosts current path criterion = .gt ||
  (comparePathCosts current path criterion = .eq &&
    comparePathkeys current.pathkeys path.pathkeys = .pathkeysBetter2)

def setCheapestStep (state : Cheapest) (path : Path) : Cheapest :=
  if path.paramInfo.isSome then
    {state with
      parameterizedPaths := state.parameterizedPaths ++ [path]
      bestParamPath := if state.startupAndTotal.isSome then state.bestParamPath
        else trackBestParam state.bestParamPath path}
  else
    match state.startupAndTotal with
    | none => {state with startupAndTotal := some (path,path)}
    | some (startup,total) =>
      {state with startupAndTotal := some (pick (replaces .startupCost) startup path,
        pick (replaces .totalCost) total path)}

def noPlanError : String := "could not devise a query plan for the given query"

def setCheapest (parentRel : RelOptInfo) : Except String RelOptInfo :=
  if parentRel.pathlist = [] then .error noPlanError
  else
    let final := parentRel.pathlist.foldl setCheapestStep ⟨none,none,[]⟩
    let cheapestTotalPath := final.startupAndTotal.map (·.2)
    .ok {parentRel with
      cheapestStartupPath := final.startupAndTotal.map (·.1)
      cheapestTotalPath := cheapestTotalPath.or final.bestParamPath
      cheapestUniquePath := none
      cheapestParameterizedPaths := cheapestTotalPath.toList ++ final.parameterizedPaths}

structure CheapestExplore extends Cheapest where
  costExplorePaths : List Path

def frontVerdict (path oldpath : Path) : Verdict :=
  match comparePathCosts path oldpath .totalCost with
  | .gt => if path.exploreValue ≤ oldpath.exploreValue then .rejectNew else .keepBoth
  | .eq =>
    if path.exploreValue < oldpath.exploreValue then .rejectNew
    else if path.exploreValue > oldpath.exploreValue then .removeOld
    else .keepBoth
  | .lt => if path.exploreValue ≥ oldpath.exploreValue then .removeOld else .keepBoth

def addToFront (front : List Path) (path : Path) : List Path :=
  if front = [] then [path]
  else if (contest (frontVerdict path) front).2 then (contest (frontVerdict path) front).1 ++ [path]
  else (contest (frontVerdict path) front).1

def setCheapestExploreStep (state : CheapestExplore) (path : Path) : CheapestExplore :=
  if path.paramInfo.isSome then
    {state with
      parameterizedPaths := state.parameterizedPaths ++ [path]
      bestParamPath := if state.startupAndTotal.isSome then state.bestParamPath
        else trackBestParam state.bestParamPath path}
  else
    match state.startupAndTotal with
    | none => {state with
        startupAndTotal := some (path,path)
        costExplorePaths := state.costExplorePaths ++ [path]}
    | some (startup,total) =>
      {state with
        startupAndTotal := some (pick (replaces .startupCost) startup path,
          pick (replaces .totalCost) total path)
        costExplorePaths := addToFront state.costExplorePaths path}

def setCheapestExplore (parentRel : RelOptInfo) : Except String RelOptInfo :=
  if parentRel.pathlist = [] then .error noPlanError
  else
    let final := parentRel.pathlist.foldl setCheapestExploreStep ⟨⟨none,none,[]⟩,[]⟩
    let cheapestTotalPath := final.startupAndTotal.map (·.2)
    .ok {parentRel with
      cheapestStartupPath := final.startupAndTotal.map (·.1)
      cheapestTotalPath := cheapestTotalPath.or final.bestParamPath
      cheapestUniquePath := none
      cheapestParameterizedPaths := cheapestTotalPath.toList ++ final.parameterizedPaths
      cheapestCostExplorePathlist := if final.costExplorePaths = [] then final.bestParamPath.toList
        else final.costExplorePaths}

def unparameterized (pathlist : List Path) : List Path :=
  pathlist.filter fun path => path.paramInfo.isNone

/-! The exploratory walk simulates the original one on the shared slots. -/

theorem setCheapestExploreStep_toCheapest (state : CheapestExplore) (path : Path) :
    (setCheapestExploreStep state path).toCheapest = setCheapestStep state.toCheapest path := by
  unfold setCheapestExploreStep setCheapestStep
  split
  · rfl
  · cases filled : state.startupAndTotal with
    | none => rfl
    | some slots => rfl

theorem setCheapestExplore_walk (pathlist : List Path) (state : CheapestExplore) :
    (pathlist.foldl setCheapestExploreStep state).toCheapest =
      pathlist.foldl setCheapestStep state.toCheapest := by
  induction pathlist generalizing state with
  | nil => rfl
  | cons path rest ih =>
    rw [List.foldl_cons,List.foldl_cons,ih,setCheapestExploreStep_toCheapest]

theorem setCheapest_walk_slots (pathlist : List Path) (state : Cheapest) (startup total : Path)
    (filled : state.startupAndTotal = some (startup,total)) :
    (pathlist.foldl setCheapestStep state).startupAndTotal =
      some (scan (replaces .startupCost) startup (unparameterized pathlist),
        scan (replaces .totalCost) total (unparameterized pathlist)) := by
  induction pathlist generalizing state startup total with
  | nil => exact filled
  | cons path rest ih =>
    rw [List.foldl_cons]
    cases parameters : path.paramInfo with
    | some info =>
      have unchanged : (setCheapestStep state path).startupAndTotal = some (startup,total) := by
        simp [setCheapestStep,parameters,filled]
      rw [ih _ _ _ unchanged]
      simp [unparameterized,parameters]
    | none =>
      have picked : (setCheapestStep state path).startupAndTotal =
          some (pick (replaces .startupCost) startup path,
            pick (replaces .totalCost) total path) := by
        simp [setCheapestStep,parameters,filled]
      rw [ih _ _ _ picked]
      simp [unparameterized,parameters]

theorem setCheapest_walk_empty (pathlist : List Path) (state : Cheapest)
    (empty : state.startupAndTotal = none) :
    (pathlist.foldl setCheapestStep state).startupAndTotal =
      match unparameterized pathlist with
      | [] => none
      | first :: rest =>
        some (scan (replaces .startupCost) first rest,scan (replaces .totalCost) first rest) := by
  induction pathlist generalizing state with
  | nil => exact empty
  | cons path rest ih =>
    rw [List.foldl_cons]
    cases parameters : path.paramInfo with
    | some info =>
      rw [ih _ (by simp [setCheapestStep,parameters,empty])]
      simp [unparameterized,parameters]
    | none =>
      rw [setCheapest_walk_slots rest _ path path (by simp [setCheapestStep,parameters,empty])]
      simp [unparameterized,parameters]

theorem setCheapest_walk_filled (pathlist : List Path)
    (some_plain : unparameterized pathlist ≠ []) :
    ∃ startup total,
      (pathlist.foldl setCheapestStep ⟨none,none,[]⟩).startupAndTotal = some (startup,total) := by
  rw [setCheapest_walk_empty pathlist _ rfl]
  obtain ⟨first,rest,shape⟩ := List.exists_cons_of_ne_nil some_plain
  exact ⟨_,_,by rw [shape]⟩

theorem replaces_total_sound (path current : Path) (taken : replaces .totalCost path current) :
    path.totalKey ≤ current.totalKey := by
  simp only [replaces,Bool.or_eq_true,decide_eq_true_eq,Bool.and_eq_true,comparePathCosts_total_gt,
    comparePathCosts_total_eq] at taken
  rcases taken with cheaper | ⟨equal,_⟩
  · exact cheaper.le
  · exact equal.ge

theorem replaces_total_complete (path current : Path) (cheaper : path.totalKey < current.totalKey) :
    replaces .totalCost path current := by
  simp [replaces,comparePathCosts_total_gt,cheaper]

/-- The total slot of the walk holds an unparameterized path that no unparameterized path
undercuts. -/
theorem setCheapest_walk_total (pathlist : List Path) (startup total : Path)
    (filled : (pathlist.foldl setCheapestStep ⟨none,none,[]⟩).startupAndTotal =
      some (startup,total)) :
    total ∈ unparameterized pathlist ∧ ∀ path ∈ unparameterized pathlist, total.totalKey ≤
      path.totalKey := by
  rw [setCheapest_walk_empty pathlist _ rfl] at filled
  cases candidates : unparameterized pathlist with
  | nil => simp [candidates] at filled
  | cons first rest =>
    simp only [candidates,Option.some.injEq,Prod.mk.injEq] at filled
    obtain ⟨_,rfl⟩ := filled
    refine ⟨scan_mem _ _ _,?_⟩
    intro path member
    rcases List.mem_cons.mp member with rfl | later
    · exact scan_key_le_start Path.totalKey replaces_total_sound path rest
    · exact scan_key_le Path.totalKey (fun _ => True) replaces_total_sound
        (fun x current _ => replaces_total_complete x current) first rest path later trivial

theorem trackBestParam_isSome (bestParamPath : Option Path) (path : Path) :
    (trackBestParam bestParamPath path).isSome := by
  cases bestParamPath with
  | none => rfl
  | some best =>
    unfold trackBestParam
    dsimp only
    split
    · split_ifs
      · rfl
      · rfl
    · rfl
    · rfl
    · rfl

theorem setCheapestStep_total (state : Cheapest) (path : Path) :
    (((setCheapestStep state path).startupAndTotal.map (·.2)).or
      (setCheapestStep state path).bestParamPath).isSome := by
  unfold setCheapestStep
  split
  · cases filled : state.startupAndTotal with
    | none => simpa using trackBestParam_isSome state.bestParamPath path
    | some slots => simp
  · cases filled : state.startupAndTotal with
    | none => simp
    | some slots => simp

theorem setCheapest_total_isSome (parentRel result : RelOptInfo)
    (set : setCheapest parentRel = .ok result) :
    ∃ total, result.cheapestTotalPath = some total := by
  unfold setCheapest at set
  split at set
  · cases set
  next nonempty =>
    rw [Except.ok.injEq] at set
    subst set
    obtain ⟨initial,last,shape⟩ := List.eq_nil_or_concat parentRel.pathlist |>.resolve_left nonempty
    simp only [shape,List.concat_eq_append,List.foldl_append,List.foldl_cons,List.foldl_nil]
    exact Option.isSome_iff_exists.mp (setCheapestStep_total _ last)

structure Holds (pathlist : List Path) (state : Cheapest) : Prop where
  slots : ∀ startup total, state.startupAndTotal = some (startup,total) → startup ∈ pathlist ∧
    total ∈ pathlist
  bestParam : ∀ best, state.bestParamPath = some best → best ∈ pathlist

theorem trackBestParam_mem (bestParamPath : Option Path) (path best : Path)
    (tracked : trackBestParam bestParamPath path = some best) :
    best = path ∨ bestParamPath = some best := by
  cases bestParamPath with
  | none => exact .inl (Option.some.inj tracked).symm
  | some current =>
    unfold trackBestParam at tracked
    dsimp only at tracked
    split at tracked
    · split_ifs at tracked
      · exact .inl (Option.some.inj tracked).symm
      · exact .inr tracked
    · exact .inl (Option.some.inj tracked).symm
    · exact .inr tracked
    · exact .inr tracked

theorem pick_mem (takes : Path → Path → Bool) (pathlist : List Path) (current path : Path)
    (old : current ∈ pathlist) (new : path ∈ pathlist) : pick takes current path ∈ pathlist := by
  unfold pick
  split
  · exact new
  · exact old

theorem setCheapestStep_holds (pathlist : List Path) (state : Cheapest) (path : Path)
    (member : path ∈ pathlist) (holds : Holds pathlist state) :
    Holds pathlist (setCheapestStep state path) := by
  unfold setCheapestStep
  split
  · refine ⟨holds.slots,?_⟩
    intro best tracked
    dsimp only at tracked
    split_ifs at tracked
    · exact holds.bestParam best tracked
    · rcases trackBestParam_mem _ _ _ tracked with rfl | older
      · exact member
      · exact holds.bestParam best older
  · cases filled : state.startupAndTotal with
    | none =>
      refine ⟨?_,holds.bestParam⟩
      intro startup total equal
      cases equal
      exact ⟨member,member⟩
    | some slots =>
      obtain ⟨old,old'⟩ := holds.slots slots.1 slots.2 filled
      refine ⟨?_,holds.bestParam⟩
      intro startup total equal
      cases equal
      exact ⟨pick_mem _ _ _ _ old member,pick_mem _ _ _ _ old' member⟩

theorem setCheapest_walk_holds (pathlist walked : List Path) (state : Cheapest)
    (subset : ∀ path ∈ walked, path ∈ pathlist) (holds : Holds pathlist state) :
    Holds pathlist (walked.foldl setCheapestStep state) := by
  induction walked generalizing state with
  | nil => exact holds
  | cons path rest ih =>
    apply ih
    · exact fun x later => subset x (by simp [later])
    · exact setCheapestStep_holds pathlist state path (subset path (by simp)) holds

theorem setCheapest_total_mem (parentRel result : RelOptInfo)
    (set : setCheapest parentRel = .ok result) (total : Path)
    (found : result.cheapestTotalPath = some total) : total ∈ parentRel.pathlist := by
  have holds :
    Holds parentRel.pathlist (parentRel.pathlist.foldl setCheapestStep ⟨none,none,[]⟩) := by
    apply setCheapest_walk_holds parentRel.pathlist parentRel.pathlist _ fun path member => member
    constructor
    · intro startup total impossible
      cases impossible
    · intro best impossible
      cases impossible
  unfold setCheapest at set
  split at set
  · cases set
  · rw [Except.ok.injEq] at set
    subst set
    rcases Option.or_eq_some_iff.mp found with slot | ⟨_,best⟩
    · obtain ⟨⟨startup,total'⟩,filled,rfl⟩ := Option.map_eq_some_iff.mp slot
      exact (holds.slots startup total' filled).2
    · exact holds.bestParam total best

theorem setCheapest_pathlist (parentRel result : RelOptInfo)
    (set : setCheapest parentRel = .ok result) : result.pathlist = parentRel.pathlist := by
  unfold setCheapest at set
  split at set
  · cases set
  · cases set
    rfl

theorem setCheapestExplore_pathlist (parentRel result : RelOptInfo)
    (set : setCheapestExplore parentRel = .ok result) : result.pathlist = parentRel.pathlist := by
  unfold setCheapestExplore at set
  split at set
  · cases set
  · cases set
    rfl

theorem setCheapest_ok (parentRel : RelOptInfo) (nonempty : parentRel.pathlist ≠ []) :
    ∃ result, setCheapest parentRel = .ok result := by
  unfold setCheapest
  rw [if_neg nonempty]
  exact ⟨_,rfl⟩

theorem setCheapestExplore_ok (parentRel : RelOptInfo) (nonempty : parentRel.pathlist ≠ []) :
    ∃ result, setCheapestExplore parentRel = .ok result := by
  unfold setCheapestExplore
  rw [if_neg nonempty]
  exact ⟨_,rfl⟩

theorem setCheapestExplore_nonempty (parentRel result : RelOptInfo)
    (set : setCheapestExplore parentRel = .ok result) : parentRel.pathlist ≠ [] := by
  intro empty
  simp [setCheapestExplore,empty] at set

theorem unparameterized_eq_self (pathlist : List Path)
    (plain : ∀ path ∈ pathlist, path.paramInfo = none) :
    unparameterized pathlist = pathlist := by
  apply List.filter_eq_self.mpr
  intro path member
  simp [plain path member]

/-- On a relation without parameterized paths the cheapest total path is a member of the
pathlist that no member undercuts on total cost, ties by startup cost. -/
theorem setCheapestExplore_total (parentRel result : RelOptInfo)
    (set : setCheapestExplore parentRel = .ok result)
    (plain : ∀ path ∈ parentRel.pathlist, path.paramInfo = none) :
    ∃ total, result.cheapestTotalPath = some total ∧ total ∈ parentRel.pathlist ∧
      ∀ path ∈ parentRel.pathlist, total.totalKey ≤ path.totalKey := by
  have all := unparameterized_eq_self parentRel.pathlist plain
  have nonempty := setCheapestExplore_nonempty parentRel result set
  obtain ⟨startup,total,filled⟩ := setCheapest_walk_filled parentRel.pathlist (all.symm ▸ nonempty)
  have least := setCheapest_walk_total parentRel.pathlist startup total filled
  rw [all] at least
  refine ⟨total,?_,least⟩
  simp only [setCheapestExplore,nonempty,if_false,Except.ok.injEq] at set
  subst set
  simp [setCheapestExplore_walk,filled]

theorem addToFront_mem (front : List Path) (path member : Path)
    (among : member ∈ addToFront front path) :
    member = path ∨ member ∈ front := by
  unfold addToFront at among
  split_ifs at among
  · exact .inl (List.mem_singleton.mp among)
  · rcases List.mem_append.mp among with survived | new
    · exact .inr ((contest_sublist _ front).subset survived)
    · exact .inl (List.mem_singleton.mp new)
  · exact .inr ((contest_sublist _ front).subset among)

theorem addToFront_ne_nil (front : List Path) (path : Path) : addToFront front path ≠ [] := by
  unfold addToFront
  split_ifs with _ accepted
  · simp
  · simp
  · exact contest_rejected_ne_nil _ front (by simpa using accepted)

structure FrontHolds (pathlist : List Path) (state : CheapestExplore) : Prop where
  members : ∀ path ∈ state.costExplorePaths, path ∈ pathlist
  filled : state.startupAndTotal.isSome → state.costExplorePaths ≠ []

theorem setCheapestExploreStep_front (pathlist : List Path) (state : CheapestExplore) (path : Path)
    (member : path ∈ pathlist) (holds : FrontHolds pathlist state) :
    FrontHolds pathlist (setCheapestExploreStep state path) := by
  unfold setCheapestExploreStep
  split
  · exact ⟨holds.members,holds.filled⟩
  · cases state.startupAndTotal with
    | none =>
      refine ⟨?_,by simp⟩
      intro other among
      rcases List.mem_append.mp among with old | new
      · exact holds.members other old
      · exact List.mem_singleton.mp new ▸ member
    | some slots =>
      refine ⟨?_,fun _ => addToFront_ne_nil _ _⟩
      intro other among
      rcases addToFront_mem _ path other among with rfl | old
      · exact member
      · exact holds.members other old

theorem setCheapestExplore_front (pathlist walked : List Path) (state : CheapestExplore)
    (subset : ∀ path ∈ walked, path ∈ pathlist) (holds : FrontHolds pathlist state) :
    FrontHolds pathlist (walked.foldl setCheapestExploreStep state) := by
  induction walked generalizing state with
  | nil => exact holds
  | cons path rest ih =>
    apply ih
    · exact fun other later => subset other (by simp [later])
    · exact setCheapestExploreStep_front pathlist state path (subset path (by simp)) holds

/-- On a relation without parameterized paths the explore list is a non-empty selection of the
pathlist. -/
theorem setCheapestExplore_explore (parentRel result : RelOptInfo)
    (set : setCheapestExplore parentRel = .ok result)
    (plain : ∀ path ∈ parentRel.pathlist, path.paramInfo = none) :
    result.cheapestCostExplorePathlist ≠ [] ∧
      ∀ path ∈ result.cheapestCostExplorePathlist, path ∈ parentRel.pathlist := by
  have nonempty := setCheapestExplore_nonempty parentRel result set
  have front := setCheapestExplore_front parentRel.pathlist parentRel.pathlist ⟨⟨none,none,[]⟩,[]⟩
    (fun _ member => member) ⟨by simp,by simp⟩
  obtain ⟨startup,total,filled⟩ := setCheapest_walk_filled parentRel.pathlist
    ((unparameterized_eq_self parentRel.pathlist plain).symm ▸ nonempty)
  have some_explored := front.filled (by rw [setCheapestExplore_walk,filled]; rfl)
  simp only [setCheapestExplore,nonempty,if_false,Except.ok.injEq] at set
  subst set
  simp only [some_explored,if_false]
  exact ⟨some_explored,front.members⟩

end ExploratoryOptimizer.SetCheapest
