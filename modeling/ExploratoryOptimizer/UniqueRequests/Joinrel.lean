import ExploratoryOptimizer.HashParameters
import ExploratoryOptimizer.Library.Fallible
import ExploratoryOptimizer.SortMergePath
import ExploratoryOptimizer.UnsortedOuter

/-! `add_paths_to_joinrel` with the exploratory functions, as far as it calls `create_unique_path`,
and what `match_unsorted_outer` keeps. -/
namespace ExploratoryOptimizer.UniqueRequests
open JoinPath HashJoinPath HashPairing SortMergePath UnsortedOuter Pathkeys Library.Fallible

/-- What planning a join reads besides its two relations: the orderings of
`select_outer_pathkeys_for_merge`, the canonical path keys that `sort_inner_and_outer` leaves, the
clauses and the settings. -/
structure JoinSetting where
  root : PlannerInfo
  joinrel : JoinRel
  allPathkeys : List PathKey
  canonPathkeys : List PathKeyFields
  mergeclauseList : List RestrictInfo
  restrictlist : List JoinClause
  enableMergejoin : Bool
  enableHashjoin : Bool
  haveNonmergeableJoinclause : Bool

def mergejoinAllowed (setting : JoinSetting) (jointype : JoinType) : Bool :=
  if setting.enableMergejoin || jointype = .full then
    match jointype with
    | .right => !setting.haveNonmergeableJoinclause
    | .full => !setting.haveNonmergeableJoinclause
    | _ => true
  else true

def sortPhase (setting : JoinSetting) (outerrel innerrel : RelOptInfo) (sjinfo : SpecialJoinInfo)
    (jointype : JoinType) : Option JoinState :=
  if mergejoinAllowed setting jointype then
    sortInnerAndOuter setting.joinrel.toRelCore setting.root.uniqueEstimates setting.allPathkeys
      outerrel innerrel sjinfo jointype
  else some ⟨outerrel,innerrel,sjinfo,jointype,none,[],[]⟩

def matchPhase (setting : JoinSetting) (jointype : JoinType) (sorted : JoinState) :
    Except JoinFailure Unit × JoinRun :=
  let run : JoinRun :=
    ⟨sorted.outerrel,sorted.innerrel,sorted.sjinfo,setting.canonPathkeys,[],sorted.uniqueCalls⟩
  if mergejoinAllowed setting jointype then
    (matchUnsortedOuter setting.root setting.joinrel sorted.outerrel sorted.innerrel jointype
      setting.mergeclauseList).run.run run
  else (.ok (),run)

def hashPhase (setting : JoinSetting) (jointype : JoinType) (matched : JoinRun) : Option
    (List UniqueCall) :=
  if setting.enableHashjoin || jointype = .full then
    (hashInnerAndOuter setting.joinrel.toRelCore setting.root.uniqueEstimates setting.restrictlist
        matched.outerrel
      matched.innerrel matched.sjinfo jointype).map fun hashed =>
        matched.uniqueCalls ++ hashed.uniqueCalls
  else some matched.uniqueCalls

/-- The calls that `add_paths_to_joinrel` makes, up to the failure if `match_unsorted_outer`
fails. -/
def addPathsToJoinrel (setting : JoinSetting) (outerrel innerrel : RelOptInfo)
    (sjinfo : SpecialJoinInfo) (jointype : JoinType) : Option (List UniqueCall) :=
  (sortPhase setting outerrel innerrel sjinfo jointype).bind fun sorted =>
    match matchPhase setting jointype sorted with
    | (.error _,matched) => some matched.uniqueCalls
    | (.ok _,matched) => hashPhase setting jointype matched

/-! What `match_unsorted_outer` keeps, if its requests keep it. -/

section Keeps

variable {P : JoinRun → Prop}
  (insensitive : ∀ run calls canonPathkeys, P run → P {run with calls, canonPathkeys})
include insensitive

theorem keeps_issue (call : JoinCall) : Keeps P (issue call) :=
  ⟨fun run holds => insensitive run (run.calls ++ [call]) run.canonPathkeys holds⟩

theorem keeps_tryMergejoin (target : MergeTarget) (innerpath : Path)
    (mergeclauses : List RestrictInfo) (innersortkeys : List PathKey) :
    Keeps P (tryMergejoin target innerpath mergeclauses innersortkeys) :=
  keeps_issue insensitive _

omit insensitive in
theorem keeps_joinPathkeys (root : PlannerInfo) (joinrel : JoinRel) (jointype : JoinType)
    (outerpath : Path) :
    Keeps P (joinPathkeys root joinrel jointype outerpath) :=
  Keeps.get.bind fun _ => Keeps.pure _

omit insensitive in
theorem keeps_trialClauses (mergeclauses : List RestrictInfo) (trialsortkeys : List PathKey)
    (sortkeycnt numSortkeys : Nat) :
    Keeps P (trialClauses mergeclauses trialsortkeys sortkeycnt numSortkeys) := by
  unfold trialClauses
  split
  · refine Keeps.get.bind fun run => ?_
    split
    · exact Keeps.throw _
    · exact Keeps.pure _
  · exact Keeps.pure _

theorem keeps_tryPresorted (target : MergeTarget) (innerrel : RelOptInfo) (useallclauses : Bool)
    (mergeclauses : List RestrictInfo) (numSortkeys sortkeycnt : Nat) (trialsortkeys : List PathKey)
    (cheapestStartupInner cheapestTotalInner : Option Path) :
    Keeps P (tryPresorted target innerrel useallclauses mergeclauses numSortkeys
        sortkeycnt trialsortkeys
      cheapestStartupInner cheapestTotalInner) := by
  induction sortkeycnt generalizing trialsortkeys cheapestStartupInner cheapestTotalInner with
  | zero => exact Keeps.pure ()
  | succ sortkeycnt ih =>
    unfold tryPresorted
    dsimp only
    -- Every branch is a sequence of clause selections and tries that ends in the loop.
    repeat' first
      | with_reducible exact Keeps.pure ()
      | with_reducible exact ih _ _ _
      | with_reducible refine (keeps_tryMergejoin insensitive _ _ _ _).bind fun _ => ?_
      | with_reducible refine (keeps_trialClauses _ _ _ _).bind fun _ => ?_
      | split

theorem keeps_mergeOrdering (root : PlannerInfo) (outerpath : Path) (jointype : JoinType)
    (mergeclauseList : List RestrictInfo) (useallclauses : Bool) :
    Keeps P (mergeOrdering root outerpath jointype mergeclauseList useallclauses) := by
  unfold mergeOrdering
  refine Keeps.read fun run holds => ?_
  dsimp only
  repeat' split
  · exact holds
  · exact holds
  · exact holds
  · exact insensitive run run.calls _ holds

theorem keeps_generateMergejoinPaths (root : PlannerInfo) (innerrel : RelOptInfo) (outerpath : Path)
    (jointype : JoinType) (mergeclauseList : List RestrictInfo) (useallclauses : Bool)
    (innerCheapestTotal : Path) (mergePathkeys : List PathKey) (isPartial : Bool) :
    Keeps P (generateMergejoinPaths root innerrel outerpath jointype mergeclauseList useallclauses
        innerCheapestTotal
      mergePathkeys isPartial) := by
  unfold generateMergejoinPaths
  refine (keeps_mergeOrdering insensitive ..).bind fun ordering => ?_
  split
  · exact Keeps.pure ()
  · refine (keeps_tryMergejoin insensitive ..).bind fun _ => ?_
    split
    · exact Keeps.pure ()
    · exact keeps_tryPresorted insensitive ..

theorem keeps_generateMergejoinPathsExplore (root : PlannerInfo) (innerrel : RelOptInfo)
    (outerpath : Path) (jointype : JoinType) (mergeclauseList : List RestrictInfo)
    (useallclauses : Bool) (innerCheapestTotals : List Path) (mergePathkeys : List PathKey)
    (isPartial : Bool) :
    Keeps P (generateMergejoinPathsExplore root innerrel outerpath jointype
        mergeclauseList useallclauses
      innerCheapestTotals mergePathkeys isPartial) := by
  unfold generateMergejoinPathsExplore
  refine (keeps_mergeOrdering insensitive ..).bind fun ordering => ?_
  split
  · exact Keeps.pure ()
  · refine (Keeps.forM _ _ fun inner _ => keeps_tryMergejoin insensitive ..).bind fun _ => ?_
    split
    · exact Keeps.pure ()
    · exact keeps_tryPresorted insensitive ..

theorem keeps_considerParallelNestloop (root : PlannerInfo) (joinrel : JoinRel)
    (outerrel innerrel : RelOptInfo) (jointype : JoinType)
    (ask : jointype = .uniqueInner → ∀ path, some path = innerrel.cheapestTotalPath →
      Keeps P (createUniqueInner root path)) :
    Keeps P (considerParallelNestloop root joinrel outerrel innerrel jointype) := by
  unfold considerParallelNestloop
  refine Keeps.forM _ _ fun outerpath _ => (keeps_joinPathkeys ..).bind fun pathkeys => ?_
  refine Keeps.forM _ _ fun innerpath _ => ?_
  split
  · exact Keeps.pure ()
  split
  next kind =>
    split
    · exact Keeps.pure ()
    next cheapest =>
      refine (ask kind innerpath (not_not.mp cheapest)).bind fun unique => ?_
      exact keeps_issue insensitive _
  next => exact keeps_issue insensitive _

theorem keeps_considerParallelMergejoin (root : PlannerInfo) (joinrel : JoinRel)
    (outerrel innerrel : RelOptInfo) (jointype : JoinType) (mergeclauseList : List RestrictInfo)
    (innerCheapestTotal : Path) :
    Keeps P (considerParallelMergejoin root joinrel outerrel innerrel jointype mergeclauseList
        innerCheapestTotal) := by
  refine Keeps.forM _ _ fun outerpath _ => (keeps_joinPathkeys ..).bind fun pathkeys => ?_
  exact keeps_generateMergejoinPaths insensitive ..

theorem keeps_considerPartialJoins (root : PlannerInfo) (joinrel : JoinRel)
    (outerrel innerrel : RelOptInfo) (saveJointype : JoinType) (mergeclauseList : List RestrictInfo)
    (innerCheapestTotal : Option Path)
    (ask : saveJointype = .uniqueInner → ∀ path, some path = innerrel.cheapestTotalPath →
      Keeps P (createUniqueInner root path)) :
    Keeps P (considerPartialJoins root joinrel outerrel innerrel saveJointype mergeclauseList
        innerCheapestTotal) := by
  have parallel (inner : Option Path) : Keeps P
      (considerPartialJoins.tryParallelMergejoin root joinrel outerrel innerrel saveJointype
        mergeclauseList inner) := by
    cases inner with
    | none => exact Keeps.pure ()
    | some inner => exact keeps_considerParallelMergejoin insensitive ..
  have nestloops :=
    keeps_considerParallelNestloop insensitive root joinrel outerrel innerrel saveJointype ask
  unfold considerPartialJoins
  repeat' first
    | with_reducible exact Keeps.pure ()
    | with_reducible exact parallel _
    | with_reducible refine nestloops.bind fun _ => ?_
    | split

omit insensitive in
theorem keeps_considerInner (root : PlannerInfo) (outerrel innerrel : RelOptInfo)
    (saveJointype : JoinType) (choices : InnerChoices) (inner : Path)
    (ask : saveJointype = .uniqueInner → Keeps P (createUniqueInner root inner)) :
    Keeps P (considerInner root outerrel innerrel saveJointype choices inner) := by
  unfold considerInner
  split
  · exact Keeps.pure _
  split
  next kind => exact (ask kind).bind fun _ => Keeps.pure _
  next => exact Keeps.pure _

theorem keeps_joinUnsortedPath (root : PlannerInfo) (joinrel : JoinRel) (innerrel : RelOptInfo)
    (saveJointype : JoinType) (mergeclauseList : List RestrictInfo) (choices : InnerChoices)
    (outerpath : Path) :
    Keeps P (joinUnsortedPath root joinrel innerrel saveJointype mergeclauseList choices
        outerpath) := by
  have nestloops (inners : List Path) (mergePathkeys : List PathKey) (jointype : JoinType) : Keeps P
      (inners.forM fun innerpath => issue (.nestloop outerpath innerpath mergePathkeys jointype)) :=
    Keeps.forM _ _ fun _ _ => keeps_issue insensitive _
  unfold joinUnsortedPath
  refine (keeps_joinPathkeys ..).bind fun mergePathkeys => ?_
  repeat' first
    | with_reducible exact Keeps.pure ()
    | with_reducible exact keeps_generateMergejoinPathsExplore insensitive ..
    | with_reducible refine (nestloops _ _ _).bind fun _ => ?_
    | split

theorem keeps_joinUnsorted (root : PlannerInfo) (joinrel : JoinRel) (outerrel innerrel : RelOptInfo)
    (saveJointype : JoinType) (mergeclauseList : List RestrictInfo) (choices : InnerChoices)
    (askOuter : saveJointype = .uniqueOuter → ∀ path ∈ outerrel.cheapestCostExplorePathlist,
      Keeps P (createUniqueOuter root path))
    (askInner : saveJointype = .uniqueInner → ∀ path, some path = innerrel.cheapestTotalPath →
      Keeps P (createUniqueInner root path)) :
    Keeps P (joinUnsorted root joinrel outerrel innerrel saveJointype mergeclauseList choices) := by
  unfold joinUnsorted
  refine Keeps.bind (Keeps.forM _ _ fun outerpath _ => ?_) fun _ =>
    keeps_considerPartialJoins insensitive root joinrel outerrel innerrel saveJointype
      mergeclauseList _ askInner
  split
  · exact Keeps.pure ()
  split
  next kind =>
    split
    · exact Keeps.pure ()
    next listed =>
      have member : outerpath ∈ outerrel.cheapestCostExplorePathlist := by
        simpa [AddPath.isIncludeInPathlist] using listed
      exact (askOuter kind outerpath member).bind fun unique =>
        keeps_joinUnsortedPath insensitive ..
  next => exact keeps_joinUnsortedPath insensitive ..

theorem keeps_matchUnsortedOuter (root : PlannerInfo) (joinrel : JoinRel)
    (outerrel innerrel : RelOptInfo) (saveJointype : JoinType) (mergeclauseList : List RestrictInfo)
    (askOuter : saveJointype = .uniqueOuter → ∀ path ∈ outerrel.cheapestCostExplorePathlist,
      Keeps P (createUniqueOuter root path))
    (askInner : saveJointype = .uniqueInner → ∀ path, path ∈ innerrel.cheapestCostExplorePathlist ∨
      some path = innerrel.cheapestTotalPath → Keeps P (createUniqueInner root path)) :
    Keeps P (matchUnsortedOuter root joinrel outerrel innerrel saveJointype mergeclauseList) := by
  unfold matchUnsortedOuter
  refine Keeps.bind (Keeps.foldlM _ _ _ fun inner member choices => ?_) fun choices => ?_
  · exact keeps_considerInner _ _ _ _ _ _ fun kind => askInner kind inner (.inl member)
  · split
    · exact Keeps.pure ()
    · exact keeps_joinUnsorted insensitive _ _ _ _ _ _ _ askOuter fun kind path total =>
        askInner kind path (.inr total)

end Keeps

section Create

variable {P : JoinRun → Prop} (root : PlannerInfo) (subpath : Path)

theorem keeps_createUniqueOuter
    (supplied : ∀ run unique sjinfo, P run → Supplied run.outerrel subpath unique →
      P {run with
        outerrel := {run.outerrel with cheapestUniquePath := some unique}
        sjinfo
        uniqueCalls :=
          run.uniqueCalls ++ [⟨subpath,unique⟩]}) : Keeps P (createUniqueOuter root subpath) := by
  refine Keeps.read fun run holds => ?_
  split
  · exact holds
  next unique outerrel sjinfo created =>
    obtain ⟨rfl,made⟩ := createUniquePath_supplied _ _ _ _ _ _ _ created
    exact supplied run unique sjinfo holds made

theorem keeps_createUniqueInner
    (supplied : ∀ run unique sjinfo, P run → Supplied run.innerrel subpath unique →
      P {run with
        innerrel := {run.innerrel with cheapestUniquePath := some unique}
        sjinfo
        uniqueCalls :=
          run.uniqueCalls ++ [⟨subpath,unique⟩]}) : Keeps P (createUniqueInner root subpath) := by
  refine Keeps.read fun run holds => ?_
  split
  · exact holds
  next unique innerrel sjinfo created =>
    obtain ⟨rfl,made⟩ := createUniquePath_supplied _ _ _ _ _ _ _ created
    exact supplied run unique sjinfo holds made

theorem createUniqueOuter_run (run : JoinRun) (unique : UniquePath)
    (cached : run.outerrel.cheapestUniquePath = some unique) :
    (createUniqueOuter root subpath).run.run run =
      (.ok unique.path,{run with uniqueCalls := run.uniqueCalls ++ [⟨subpath,unique⟩]}) := by
  have created :=
    createUniquePath_cached run.outerrel subpath run.sjinfo
      (root.uniqueEstimates subpath) unique cached
  rw [createUniqueOuter,run_bind_ok get _ run run rfl,created]
  rfl

theorem createUniqueInner_run (run : JoinRun) (unique : UniquePath)
    (cached : run.innerrel.cheapestUniquePath = some unique) :
    (createUniqueInner root subpath).run.run run =
      (.ok unique.path,{run with uniqueCalls := run.uniqueCalls ++ [⟨subpath,unique⟩]}) := by
  have created :=
    createUniquePath_cached run.innerrel subpath run.sjinfo
      (root.uniqueEstimates subpath) unique cached
  rw [createUniqueInner,run_bind_ok get _ run run rfl,created]
  rfl

end Create

end ExploratoryOptimizer.UniqueRequests
