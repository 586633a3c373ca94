import ExploratoryOptimizer.JoinLoops

/-! `hash_inner_and_outer` of path/joinpath.c: the explore-list pairs, the cheapest-startup outer
path, the parameterized leftovers and one partial join, in that order and all under the join
type the previous phase left behind. -/
namespace ExploratoryOptimizer.HashJoinPath
open JoinPath AddPath

structure JoinClause where
  isPushedDown : Bool
  canJoin : Bool
  hashjoinoperator : Nat
  leftRelids : Relids
  rightRelids : Relids
  deriving DecidableEq

def clauseSidesMatchJoin (clause : JoinClause) (outerrel innerrel : RelCore) : Bool :=
  (clause.leftRelids ⊆ outerrel.relids && clause.rightRelids ⊆ innerrel.relids) ||
    (clause.leftRelids ⊆ innerrel.relids && clause.rightRelids ⊆ outerrel.relids)

def hashClauses (jointype : JoinType) (restrictlist : List JoinClause)
    (outerrel innerrel : RelCore) :
    List JoinClause :=
  restrictlist.filter fun clause =>
    !(isOuterJoin jointype && clause.isPushedDown) && clause.canJoin &&
      clause.hashjoinoperator ≠ 0 && clauseSidesMatchJoin clause outerrel innerrel

def startupTried (outerrel : RelOptInfo) : Bool :=
  outerrel.cheapestCostExplorePathlist.any fun path => some path = outerrel.cheapestStartupPath

def uniqueStartupPair (estimates : Path → UniqueEstimates) (startup : Path) (state : JoinState)
    (innerPath : Path) : Option JoinState := do
  let (unique,next) ← state.uniqueInner estimates innerPath
  return {next with jointype := .inner, innerPath := some unique}.tryPair [] startup unique

def hashStartup (estimates : Path → UniqueEstimates) (state : JoinState) : Option JoinState :=
  match state.outerrel.cheapestStartupPath with
  | none => some state
  | some startup =>
    if startupTried state.outerrel then some state
    else match state.jointype with
    | .uniqueOuter => some state
    -- The join type is not tested again inside this loop, so every inner path is made unique.
    | .uniqueInner =>
      state.innerrel.cheapestCostExplorePathlist.foldlM (uniqueStartupPair estimates startup) state
    | _ => some (state.innerrel.cheapestCostExplorePathlist.foldl
        (fun state innerPath => {state with innerPath := some innerPath}.tryPair
          [] startup innerPath) state)

def alreadyTried (outerrel innerrel : RelOptInfo) (outerpath innerpath : Path) : Bool :=
  (isIncludeInPathlist outerpath outerrel.cheapestCostExplorePathlist &&
    isIncludeInPathlist innerpath innerrel.cheapestCostExplorePathlist) ||
  (some outerpath = outerrel.cheapestStartupPath &&
    isIncludeInPathlist innerpath innerrel.cheapestCostExplorePathlist)

def leftoverPairs (outerrel innerrel : RelOptInfo) : List (Path × Path) :=
  (outerrel.cheapestParameterizedPaths.filter (usableOuter innerrel.toRelCore)).flatMap
    fun outerpath =>
    ((innerrel.cheapestParameterizedPaths.filter (usableInner outerrel.toRelCore)).filter
        fun innerpath =>
      !alreadyTried outerrel innerrel outerpath innerpath).map fun innerpath =>
        (outerpath,innerpath)

def hashParameterized (state : JoinState) : JoinState :=
  match state.jointype with
  | .uniqueOuter => state
  | .uniqueInner => state
  | _ =>
    (leftoverPairs state.outerrel state.innerrel).foldl
      (fun state pair => state.tryPair [] pair.1 pair.2) state

def hashPartial (joinrel : RelCore) (saveJointype : JoinType) (state : JoinState) : JoinState :=
  if partialAllowed joinrel state.outerrel saveJointype then
    match state.outerrel.partialPathlist,state.innerPath with
    | cheapestPartialOuter :: _,some cheapestTotalInner =>
      if cheapestTotalInner.parallelSafe then state.tryPartial
        [] cheapestPartialOuter cheapestTotalInner
      else if saveJointype ≠ .uniqueInner then
        match getCheapestParallelSafeTotalInner state.innerrel.pathlist with
        | some cheapestSafeInner => state.tryPartial [] cheapestPartialOuter cheapestSafeInner
        | none => state
      else state
    | _,_ => state
  else state

def hashRest (joinrel : RelCore) (estimates : Path → UniqueEstimates) (jointype : JoinType)
    (explored : JoinState) : Option JoinState :=
  (hashStartup estimates explored).map fun started => hashPartial joinrel jointype
    (hashParameterized started)

def hashInnerAndOuter (joinrel : RelCore) (estimates : Path → UniqueEstimates)
    (restrictlist : List JoinClause) (outerrel innerrel : RelOptInfo) (sjinfo : SpecialJoinInfo)
    (jointype : JoinType) : Option JoinState :=
  let start : JoinState := ⟨outerrel,innerrel,sjinfo,jointype,none,[],[]⟩
  if hashClauses jointype restrictlist outerrel.toRelCore innerrel.toRelCore = [] then some start
  else (exploreOuter estimates [] outerrel.cheapestCostExplorePathlist
    innerrel.cheapestCostExplorePathlist start).bind (hashRest joinrel estimates jointype)

def StartupCovered (outerrel : RelOptInfo) : Prop :=
  ∀ startup ∈ outerrel.cheapestStartupPath, startup ∈ outerrel.cheapestCostExplorePathlist

instance (outerrel : RelOptInfo) : Decidable (StartupCovered outerrel) :=
  inferInstanceAs (Decidable (∀ startup ∈ outerrel.cheapestStartupPath, _))

theorem startupTried_iff (outerrel : RelOptInfo) (startup : Path)
    (found : outerrel.cheapestStartupPath = some startup) :
    startupTried outerrel ↔ startup ∈ outerrel.cheapestCostExplorePathlist := by
  simp [startupTried,found]

theorem hashStartup_covered (estimates : Path → UniqueEstimates) (state : JoinState)
    (covered : StartupCovered state.outerrel) : hashStartup estimates state = some state := by
  unfold hashStartup
  cases found : state.outerrel.cheapestStartupPath with
  | none => rfl
  | some startup =>
    have tried := (startupTried_iff state.outerrel startup found).mpr (covered startup found)
    simp [tried]

theorem uncovered_startup (outerrel : RelOptInfo) (uncovered : ¬StartupCovered outerrel) :
    ∃ startup, outerrel.cheapestStartupPath = some startup ∧ startupTried outerrel = false := by
  unfold StartupCovered at uncovered
  push Not at uncovered
  obtain ⟨startup,found,absent⟩ := uncovered
  refine ⟨startup,found,?_⟩
  rw [← Bool.not_eq_true,startupTried_iff outerrel startup found]
  exact absent

theorem hashStartup_uniqueOuter (estimates : Path → UniqueEstimates) (state : JoinState)
    (kind : state.jointype = .uniqueOuter) : hashStartup estimates state = some state := by
  unfold hashStartup
  split
  · rfl
  · split
    · rfl
    · rw [kind]

private theorem startupLoop_plain (startup : Path) (inners : List Path) (state : JoinState) :
    Advances state (inners.foldl
        (fun state innerPath => {state with innerPath := some innerPath}.tryPair
          [] startup innerPath) state)
      state.jointype (inners.getLast?.or state.innerPath)
      (inners.map fun innerPath => ⟨false,startup,innerPath,[],state.jointype⟩) := by
  induction inners generalizing state with
  | nil => exact Advances.refl state
  | cons innerPath inners ih =>
    have first :
      Advances state ({state with innerPath := some innerPath}.tryPair [] startup innerPath)
        state.jointype (some innerPath) [⟨false,startup,innerPath,[],state.jointype⟩] :=
          ⟨rfl,rfl,rfl,rfl,rfl⟩
    rw [getLast?_cons_or]
    exact first.trans (ih _)

theorem hashStartup_plain (estimates : Path → UniqueEstimates) (state : JoinState) (startup : Path)
    (plain : state.jointype ≠ .uniqueOuter ∧ state.jointype ≠ .uniqueInner)
    (found : state.outerrel.cheapestStartupPath = some startup)
    (untried : startupTried state.outerrel = false) :
    ∃ after, hashStartup estimates state = some after ∧
      Advances state after state.jointype
      (state.innerrel.cheapestCostExplorePathlist.getLast?.or state.innerPath)
        (state.innerrel.cheapestCostExplorePathlist.map
          fun innerPath => ⟨false,startup,innerPath,[],state.jointype⟩) := by
  refine ⟨_,?_,startupLoop_plain startup state.innerrel.cheapestCostExplorePathlist state⟩
  unfold hashStartup
  simp only [found,untried,Bool.false_eq_true,if_false]
  cases kind : state.jointype with
  | uniqueOuter => exact absurd kind plain.1
  | uniqueInner => exact absurd kind plain.2
  | _ => rfl

private theorem startupLoop_unique (estimates : Path → UniqueEstimates) (startup : Path)
    (inners : List Path) (state : JoinState) (unique : UniquePath)
    (cached : state.innerrel.cheapestUniquePath = some unique) :
    ∃ after, inners.foldlM (uniqueStartupPair estimates startup) state = some after ∧
      Advances state after (if inners = [] then state.jointype else .inner)
        (if inners = [] then state.innerPath else some unique.path)
        (inners.map fun _ => ⟨false,startup,unique.path,[],.inner⟩) := by
  induction inners generalizing state with
  | nil => exact ⟨state,rfl,by simpa using Advances.refl state⟩
  | cons innerPath inners ih =>
    have step : ∃ middle, uniqueStartupPair estimates startup state innerPath = some middle ∧
        Advances state middle .inner (some unique.path)
        [⟨false,startup,unique.path,[],.inner⟩] := by
      simp only [uniqueStartupPair,JoinState.uniqueInner,
        createUniquePath_cached state.innerrel innerPath state.sjinfo
        (estimates innerPath) unique cached]
      exact ⟨_,rfl,⟨rfl,rfl,rfl,rfl,rfl⟩⟩
    obtain ⟨middle,stepped,first⟩ := step
    obtain ⟨after,ran,rest⟩ := ih middle (first.innerrel ▸ cached)
    refine ⟨after,by simp [List.foldlM_cons,stepped,ran],?_⟩
    rw [first.jointype,first.innerPath] at rest
    simpa using first.trans rest

theorem hashStartup_uniqueInner (estimates : Path → UniqueEstimates) (state : JoinState)
    (startup : Path) (unique : UniquePath)
    (cached : state.innerrel.cheapestUniquePath = some unique)
    (kind : state.jointype = .uniqueInner)
    (found : state.outerrel.cheapestStartupPath = some startup)
    (untried : startupTried state.outerrel = false) :
    ∃ after, hashStartup estimates state = some after ∧
      Advances state after
        (if state.innerrel.cheapestCostExplorePathlist = [] then .uniqueInner else .inner)
        (if state.innerrel.cheapestCostExplorePathlist = [] then state.innerPath
          else some unique.path)
        (state.innerrel.cheapestCostExplorePathlist.map fun _ =>
          ⟨false,startup,unique.path,[],.inner⟩) := by
  obtain ⟨after,ran,advances⟩ :=
    startupLoop_unique estimates startup state.innerrel.cheapestCostExplorePathlist
      state unique cached
  rw [kind] at advances
  refine ⟨after,?_,advances⟩
  simp [hashStartup,found,untried,kind,ran]

theorem hashParameterized_unique (state : JoinState)
    (kind : state.jointype = .uniqueOuter ∨ state.jointype = .uniqueInner) :
    hashParameterized state = state := by
  rcases kind with kind | kind
  · simp [hashParameterized,kind]
  · simp [hashParameterized,kind]

private theorem leftoverLoop (pairs : List (Path × Path)) (state : JoinState) :
    Advances state (pairs.foldl (fun state pair => state.tryPair [] pair.1 pair.2) state)
      state.jointype state.innerPath
      (pairs.map fun pair => ⟨false,pair.1,pair.2,[],state.jointype⟩) := by
  induction pairs generalizing state with
  | nil => exact Advances.refl state
  | cons pair pairs ih =>
    have first : Advances state (state.tryPair [] pair.1 pair.2) state.jointype state.innerPath
        [⟨false,pair.1,pair.2,[],state.jointype⟩] := ⟨rfl,rfl,rfl,rfl,rfl⟩
    exact first.trans (ih _)

theorem hashParameterized_plain (state : JoinState)
    (plain : state.jointype ≠ .uniqueOuter ∧ state.jointype ≠ .uniqueInner) :
    Advances state (hashParameterized state) state.jointype state.innerPath
      ((leftoverPairs state.outerrel state.innerrel).map fun pair =>
        ⟨false,pair.1,pair.2,[],state.jointype⟩) := by
  have looped : hashParameterized state = (leftoverPairs state.outerrel state.innerrel).foldl
      (fun state pair => state.tryPair [] pair.1 pair.2) state := by
    unfold hashParameterized
    cases kind : state.jointype with
    | uniqueOuter => exact absurd kind plain.1
    | uniqueInner => exact absurd kind plain.2
    | _ => rfl
  rw [looped]
  exact leftoverLoop (leftoverPairs state.outerrel state.innerrel) state

theorem hashParameterized_inner (state : JoinState) (kind : state.jointype = .inner) :
    Advances state (hashParameterized state) .inner state.innerPath
      ((leftoverPairs state.outerrel state.innerrel).map fun pair =>
        ⟨false,pair.1,pair.2,[],.inner⟩) := by
  have plain := hashParameterized_plain state (by simp [kind])
  rwa [kind] at plain

theorem hashStartup_inner (estimates : Path → UniqueEstimates) (state : JoinState) (startup : Path)
    (kind : state.jointype = .inner) (found : state.outerrel.cheapestStartupPath = some startup)
    (untried : startupTried state.outerrel = false) :
    ∃ after, hashStartup estimates state = some after ∧
      Advances state after .inner
      (state.innerrel.cheapestCostExplorePathlist.getLast?.or state.innerPath)
        (state.innerrel.cheapestCostExplorePathlist.map fun innerPath =>
          ⟨false,startup,innerPath,[],.inner⟩) := by
  have plain := hashStartup_plain estimates state startup (by simp [kind]) found untried
  rwa [kind] at plain

theorem hashPartial_uniqueOuter (joinrel : RelCore) (state : JoinState) :
    hashPartial joinrel .uniqueOuter state = state := by
  simp [hashPartial,partialAllowed]

theorem hashPartial_uniqueInner (joinrel : RelCore) (state : JoinState) :
    ∃ tries, (hashPartial joinrel .uniqueInner state).tries = state.tries ++ tries ∧
      (tries = [] ↔ ¬(partialAllowed joinrel state.outerrel .uniqueInner ∧
        ∃ path ∈ state.innerPath, path.parallelSafe)) ∧
      ∀ pair ∈ tries, some pair.inner = state.innerPath := by
  -- The partial join of a unique inner join type takes whatever the inner path variable holds.
  unfold hashPartial
  split
  next allowed =>
    have some_partial : state.outerrel.partialPathlist ≠ [] := by
      simp only [partialAllowed,Bool.and_eq_true,decide_eq_true_eq] at allowed
      exact allowed.1.2
    obtain ⟨partialOuter,others,shape⟩ := List.exists_cons_of_ne_nil some_partial
    rw [shape]
    cases held : state.innerPath with
    | none => exact ⟨[],by simp,by simp,by simp⟩
    | some inner =>
      by_cases safe : inner.parallelSafe
      · refine ⟨[⟨true,partialOuter,inner,[],state.jointype⟩],?_,by simp [allowed,safe],by simp⟩
        simp [safe,JoinState.tryPartial]
      · exact ⟨[],by simp [safe],by simp [safe],by simp⟩
  next refused => exact ⟨[],by simp,by simp [refused],by simp⟩

/-- No usable pair; or a single usable outer path that also covers the cheapest-startup path,
and no parameterized pair left over. -/
def UniqueOuterKept (outerrel innerrel : RelOptInfo) : Prop :=
  outerrel.cheapestCostExplorePathlist.filter (usableOuter innerrel.toRelCore) = [] ∨
  innerrel.cheapestCostExplorePathlist.filter (usableInner outerrel.toRelCore) = [] ∨
  (outerrel.cheapestCostExplorePathlist.filter (usableOuter innerrel.toRelCore)).length = 1 ∧
    StartupCovered outerrel ∧ leftoverPairs outerrel innerrel = []

def partialTakesLast (joinrel : RelCore) (outerrel innerrel : RelOptInfo) : Prop :=
  partialAllowed joinrel outerrel .uniqueInner ∧
    ∃ path ∈ innerrel.cheapestCostExplorePathlist.getLast?, path.parallelSafe

/-- Without a usable pair either the startup phase makes every inner path unique and no
parameterized pair may follow, or no phase does and no partial join may follow. With usable pairs
there is exactly one, nothing follows it, and the partial join sees its unique path if any. -/
def UniqueInnerKept (joinrel : RelCore) (outerrel innerrel : RelOptInfo) : Prop :=
  if outerrel.cheapestCostExplorePathlist.filter (usableOuter innerrel.toRelCore) = [] ∨
      innerrel.cheapestCostExplorePathlist.filter (usableInner outerrel.toRelCore) = [] then
    if StartupCovered outerrel ∨ innerrel.cheapestCostExplorePathlist = [] then
      outerrel.cheapestCostExplorePathlist = [] ∨ ¬partialTakesLast joinrel outerrel innerrel
    else leftoverPairs outerrel innerrel = []
  else
    (outerrel.cheapestCostExplorePathlist.filter (usableOuter innerrel.toRelCore)).length = 1 ∧
    (innerrel.cheapestCostExplorePathlist.filter (usableInner outerrel.toRelCore)).length = 1 ∧
    StartupCovered outerrel ∧ leftoverPairs outerrel innerrel = [] ∧
    (EndsWithOnly (usableOuter innerrel.toRelCore) outerrel.cheapestCostExplorePathlist ∧
        EndsWithOnly (usableInner outerrel.toRelCore) innerrel.cheapestCostExplorePathlist ∨
      ¬partialTakesLast joinrel outerrel innerrel)

theorem leftoverPairs_mem (outerrel innerrel : RelOptInfo) (pair : Path × Path)
    (member : pair ∈ leftoverPairs outerrel innerrel) :
    pair.1 ∈ outerrel.cheapestParameterizedPaths ∧
      pair.2 ∈ innerrel.cheapestParameterizedPaths := by
  obtain ⟨outer,among,source⟩ := List.mem_flatMap.mp member
  obtain ⟨inner,among',rfl⟩ := List.mem_map.mp source
  exact ⟨(List.mem_filter.mp among).1,(List.mem_filter.mp (List.mem_filter.mp among').1).1⟩

section UniqueOuter

variable (joinrel : RelCore) (estimates : Path → UniqueEstimates) (outerrel innerrel : RelOptInfo)
  (explored : JoinState)

theorem hashRest_uniqueOuter_plain (kind : explored.jointype = .inner)
    (ordinary : Ordinary explored.outerrel)
    (some_inner : explored.innerrel.cheapestCostExplorePathlist ≠ []) :
    ∃ final tries, hashRest joinrel estimates .uniqueOuter explored = some final ∧
      final.tries = explored.tries ++ tries ∧
      (StaysSemijoin .uniqueOuter tries ↔
        StartupCovered explored.outerrel ∧
        leftoverPairs explored.outerrel explored.innerrel = []) := by
  have leftover :
    StaysSemijoin .uniqueOuter ((leftoverPairs explored.outerrel explored.innerrel).map
      fun pair => ⟨false,pair.1,pair.2,[],.inner⟩) ↔
      leftoverPairs explored.outerrel explored.innerrel = [] :=
    staysSemijoin_map .uniqueOuter _ _ fun pair among =>
      ordinary.parameterized pair.1 (leftoverPairs_mem _ _ _ among).1
  by_cases covered : StartupCovered explored.outerrel
  · have started := hashStartup_covered estimates explored covered
    have parameterized := hashParameterized_inner explored kind
    refine ⟨hashParameterized explored,_,?_,parameterized.tries,?_⟩
    · simp only [hashRest,started,Option.map_some,hashPartial_uniqueOuter]
    · rw [leftover]
      simp [covered]
  · obtain ⟨startup,found,untried⟩ := uncovered_startup explored.outerrel covered
    obtain ⟨after,started,advances⟩ :=
      hashStartup_inner estimates explored startup kind found untried
    have parameterized := hashParameterized_inner after advances.jointype
    refine ⟨hashParameterized after,_,?_,(advances.trans parameterized).tries,?_⟩
    · simp only [hashRest,started,Option.map_some,hashPartial_uniqueOuter]
    · have raw : ¬StaysSemijoin .uniqueOuter (explored.innerrel.cheapestCostExplorePathlist.map
          fun innerPath => ⟨false,startup,innerPath,[],.inner⟩) := by
        rw [staysSemijoin_map]
        · exact some_inner
        · exact fun _ _ => ordinary.startup startup found
      rw [staysSemijoin_append]
      simp [raw,covered]

theorem hash_uniqueOuter (sjinfo : SpecialJoinInfo) (unique : UniquePath)
    (made : isUniquePath unique.path) (cached : outerrel.cheapestUniquePath = some unique)
    (ordinary : Ordinary outerrel) :
    ∃ final, (exploreOuter estimates [] outerrel.cheapestCostExplorePathlist
        innerrel.cheapestCostExplorePathlist ⟨outerrel,innerrel,sjinfo,.uniqueOuter,none,[],
        []⟩).bind (hashRest joinrel estimates .uniqueOuter) =
          some final ∧
      (StaysSemijoin .uniqueOuter final.tries ↔ UniqueOuterKept outerrel innerrel) := by
  by_cases unusable :
    outerrel.cheapestCostExplorePathlist.filter (usableOuter innerrel.toRelCore) = [] ∨
      innerrel.cheapestCostExplorePathlist.filter (usableInner outerrel.toRelCore) = []
  · obtain ⟨explored,ran,advances⟩ :=
      exploreOuter_unusable estimates [] outerrel.cheapestCostExplorePathlist
        innerrel.cheapestCostExplorePathlist ⟨outerrel,innerrel,sjinfo,.uniqueOuter,
        none,[],[]⟩ unusable
    refine ⟨explored,?_,?_⟩
    · simp only [ran,Option.bind_some,hashRest,
        hashStartup_uniqueOuter estimates explored advances.jointype,Option.map_some,
        hashParameterized_unique explored (.inl advances.jointype),hashPartial_uniqueOuter]
    · have kept : UniqueOuterKept outerrel innerrel := by
        rcases unusable with none | none
        · exact .inl none
        · exact .inr (.inl none)
      rw [advances.tries]
      simp [StaysSemijoin,kept]
  · push Not at unusable
    obtain ⟨chosen,others,shape⟩ := List.exists_cons_of_ne_nil unusable.1
    obtain ⟨explored,innerPath,first,ran,advances,all⟩ := exploreOuter_uniqueOuter estimates []
      outerrel.cheapestCostExplorePathlist innerrel.cheapestCostExplorePathlist
      ⟨outerrel,innerrel,sjinfo,.uniqueOuter,none,[],[]⟩ chosen others shape unusable.2
      rfl unique cached
    have same : explored.outerrel = outerrel := advances.outerrel
    have same' : explored.innerrel = innerrel := advances.innerrel
    have some_inner : explored.innerrel.cheapestCostExplorePathlist ≠ [] := by
      rw [same']
      intro empty
      simp [empty] at unusable
    obtain ⟨final,rest,rested,tries,stays⟩ := hashRest_uniqueOuter_plain joinrel estimates explored
      advances.jointype (same.symm ▸ ordinary) some_inner
    refine ⟨final,by rw [ran]; exact rested,?_⟩
    have unique_first : StaysSemijoin .uniqueOuter first := by
      rw [staysSemijoin_iff]
      intro pair member
      rw [show uniqueSide .uniqueOuter pair = unique.path from all pair member]
      exact made
    have raw :
      StaysSemijoin .uniqueOuter (plainTries outerrel.toRelCore innerrel.toRelCore [] .inner others
        innerrel.cheapestCostExplorePathlist) ↔ others = [] :=
      laterTries_stay .uniqueOuter outerrel innerrel [] _ _ chosen others shape unusable.2
        fun pair outer _ => ordinary.explore pair.outer outer
    rw [tries,advances.tries,List.nil_append,staysSemijoin_append,staysSemijoin_append,
      stays,same,same']
    simp [unique_first,raw,UniqueOuterKept,shape,unusable.2]

end UniqueOuter

section UniqueInner

variable (joinrel : RelCore) (estimates : Path → UniqueEstimates) (outerrel innerrel : RelOptInfo)
  (explored : JoinState)

def PartialKept (joinrel : RelCore) (outerrel : RelOptInfo) (innerPath : Option Path) : Prop :=
  partialAllowed joinrel outerrel .uniqueInner → ∀ path ∈ innerPath, path.parallelSafe →
    isUniquePath path

theorem hashPartial_uniqueInner_stays (state : JoinState) :
    ∃ tries, (hashPartial joinrel .uniqueInner state).tries = state.tries ++ tries ∧
      (StaysSemijoin .uniqueInner tries ↔ PartialKept joinrel state.outerrel state.innerPath) := by
  obtain ⟨tries,appended,empty,source⟩ := hashPartial_uniqueInner joinrel state
  refine ⟨tries,appended,?_⟩
  rw [staysSemijoin_iff]
  constructor
  · intro unique allowed path held safe
    by_contra ordinary
    have nonempty : tries ≠ [] := fun none => empty.mp none ⟨allowed,path,held,safe⟩
    obtain ⟨pair,rest,rfl⟩ := List.exists_cons_of_ne_nil nonempty
    have same : pair.inner = path := Option.some.inj ((source pair (by simp)).trans held)
    exact ordinary (same ▸ unique pair (by simp))
  · intro kept pair member
    have held := source pair member
    have tried : partialAllowed joinrel state.outerrel .uniqueInner ∧ ∃ path ∈ state.innerPath,
      path.parallelSafe := by
      by_contra none
      rw [empty.mpr none] at member
      simp at member
    obtain ⟨allowed,path,held',safe⟩ := tried
    have same : path = pair.inner := Option.some.inj (held'.symm.trans held.symm)
    exact kept allowed pair.inner held.symm (same ▸ safe)

theorem leftover_uniqueInner (ordinary : Ordinary innerrel) :
    StaysSemijoin .uniqueInner ((leftoverPairs outerrel innerrel).map
      fun pair => ⟨false,pair.1,pair.2,[],.inner⟩) ↔ leftoverPairs outerrel innerrel = [] :=
  staysSemijoin_map .uniqueInner _ _ fun pair among => ordinary.parameterized pair.2
    (leftoverPairs_mem _ _ _ among).2

theorem hashRest_uniqueInner_plain (kind : explored.jointype = .inner)
    (ordinary : Ordinary explored.innerrel)
    (some_inner : explored.innerrel.cheapestCostExplorePathlist ≠ []) :
    ∃ final tries, hashRest joinrel estimates .uniqueInner explored = some final ∧
      final.tries = explored.tries ++ tries ∧
      (StaysSemijoin .uniqueInner tries ↔ StartupCovered explored.outerrel ∧
        leftoverPairs explored.outerrel explored.innerrel = [] ∧
        PartialKept joinrel explored.outerrel explored.innerPath) := by
  by_cases covered : StartupCovered explored.outerrel
  · have started := hashStartup_covered estimates explored covered
    have parameterized := hashParameterized_inner explored kind
    obtain ⟨tries,appended,stays⟩ :=
      hashPartial_uniqueInner_stays joinrel (hashParameterized explored)
    rw [parameterized.tries,List.append_assoc] at appended
    refine ⟨hashPartial joinrel .uniqueInner (hashParameterized explored),_,?_,appended,?_⟩
    · simp only [hashRest,started,Option.map_some]
    · rw [staysSemijoin_append,stays,leftover_uniqueInner _ _ ordinary,parameterized.outerrel,
        parameterized.innerPath]
      simp [covered]
  · obtain ⟨startup,found,untried⟩ := uncovered_startup explored.outerrel covered
    obtain ⟨after,started,advances⟩ :=
      hashStartup_inner estimates explored startup kind found untried
    have parameterized := hashParameterized_inner after advances.jointype
    obtain ⟨tries,appended,_⟩ := hashPartial_uniqueInner_stays joinrel (hashParameterized after)
    rw [(advances.trans parameterized).tries,List.append_assoc,List.append_assoc] at appended
    refine ⟨hashPartial joinrel .uniqueInner (hashParameterized after),_,?_,appended,?_⟩
    · simp only [hashRest,started,Option.map_some]
    · have raw : ¬StaysSemijoin .uniqueInner (explored.innerrel.cheapestCostExplorePathlist.map
          fun innerPath => ⟨false,startup,innerPath,[],.inner⟩) := by
        rw [staysSemijoin_map]
        · exact some_inner
        · exact ordinary.explore
      rw [staysSemijoin_append]
      simp [raw,covered]

theorem hashRest_uniqueInner_pending (kind : explored.jointype = .uniqueInner)
    (ordinary : Ordinary explored.innerrel) (unique : UniquePath) (made : isUniquePath unique.path)
    (cached : explored.innerrel.cheapestUniquePath = some unique) :
    ∃ final tries, hashRest joinrel estimates .uniqueInner explored = some final ∧
      final.tries = explored.tries ++ tries ∧
      (StaysSemijoin .uniqueInner tries ↔
        if StartupCovered explored.outerrel ∨
          explored.innerrel.cheapestCostExplorePathlist = [] then
          PartialKept joinrel explored.outerrel explored.innerPath
        else leftoverPairs explored.outerrel explored.innerrel = []) := by
  by_cases idle :
    StartupCovered explored.outerrel ∨ explored.innerrel.cheapestCostExplorePathlist = []
  · have started : ∃ after, hashStartup estimates explored = some after ∧
        Advances explored after .uniqueInner explored.innerPath [] := by
      by_cases covered : StartupCovered explored.outerrel
      · exact ⟨explored,hashStartup_covered estimates explored covered,
          kind ▸ Advances.refl explored⟩
      · have empty := idle.resolve_left covered
        obtain ⟨startup,found,untried⟩ := uncovered_startup explored.outerrel covered
        obtain ⟨after,ran,advances⟩ :=
          hashStartup_uniqueInner estimates explored startup unique cached kind found untried
        rw [empty] at advances
        exact ⟨after,ran,by simpa using advances⟩
    obtain ⟨after,ran,advances⟩ := started
    obtain ⟨tries,appended,stays⟩ := hashPartial_uniqueInner_stays joinrel after
    rw [advances.tries,List.append_nil] at appended
    refine ⟨hashPartial joinrel .uniqueInner after,tries,?_,appended,?_⟩
    · simp only [hashRest,ran,Option.map_some,
        hashParameterized_unique after (.inr advances.jointype)]
    · rw [stays,if_pos idle,advances.outerrel,advances.innerPath]
  · obtain ⟨uncovered,some_inner⟩ := not_or.mp idle
    obtain ⟨startup,found,untried⟩ := uncovered_startup explored.outerrel uncovered
    obtain ⟨after,ran,advances⟩ :=
      hashStartup_uniqueInner estimates explored startup unique cached kind found untried
    rw [if_neg some_inner,if_neg some_inner] at advances
    have parameterized := hashParameterized_inner after advances.jointype
    obtain ⟨tries,appended,stays⟩ := hashPartial_uniqueInner_stays joinrel (hashParameterized after)
    rw [(advances.trans parameterized).tries,List.append_assoc,List.append_assoc] at appended
    refine ⟨hashPartial joinrel .uniqueInner (hashParameterized after),_,?_,appended,?_⟩
    · simp only [hashRest,ran,Option.map_some]
    · have all_unique :
        StaysSemijoin .uniqueInner (explored.innerrel.cheapestCostExplorePathlist.map
          fun _ => ⟨false,startup,unique.path,[],.inner⟩) := by
        rw [staysSemijoin_iff]
        intro pair member
        obtain ⟨_,_,rfl⟩ := List.mem_map.mp member
        exact made
      have held :
        PartialKept joinrel (hashParameterized after).outerrel
          (hashParameterized after).innerPath := by
        rw [parameterized.innerPath,advances.innerPath]
        intro _ path same _
        exact Option.some.inj same ▸ made
      rw [staysSemijoin_append,staysSemijoin_append,stays,advances.outerrel,advances.innerrel,
        leftover_uniqueInner _ _ ordinary,if_neg idle]
      exact ⟨fun all => all.2.1,fun none => ⟨all_unique,none,held⟩⟩

theorem partialKept_last (ordinary : Ordinary innerrel) :
    PartialKept joinrel outerrel innerrel.cheapestCostExplorePathlist.getLast? ↔
      ¬partialTakesLast joinrel outerrel innerrel := by
  unfold PartialKept partialTakesLast
  constructor
  · rintro kept ⟨allowed,path,last,safe⟩
    exact ordinary.explore path (List.mem_of_getLast? last) (kept allowed path last safe)
  · intro refused allowed path last safe
    exact absurd ⟨allowed,path,last,safe⟩ refused

theorem uniqueFirst_stays (chosen : Path) (unique : UniquePath) (made : isUniquePath unique.path)
    (others : List Path) (ordinary : ∀ path ∈ others, ¬isUniquePath path) :
    StaysSemijoin .uniqueInner (⟨false,chosen,unique.path,[],.inner⟩ ::
      others.map fun innerPath => ⟨false,chosen,innerPath,[],.inner⟩) ↔ others = [] := by
  have head : StaysSemijoin .uniqueInner [⟨false,chosen,unique.path,[],.inner⟩] := by
    rw [staysSemijoin_iff]
    intro pair member
    rw [List.mem_singleton.mp member]
    exact made
  rw [← List.singleton_append,staysSemijoin_append,staysSemijoin_map]
  · exact and_iff_right head
  · exact ordinary

theorem partialKept_explored (ordinary : Ordinary innerrel) (unique : UniquePath)
    (made : isUniquePath unique.path) (both : Prop) [Decidable both] :
    PartialKept joinrel outerrel
        (if both then some unique.path else innerrel.cheapestCostExplorePathlist.getLast?) ↔
      both ∨ ¬partialTakesLast joinrel outerrel innerrel := by
  split
  next only =>
    have kept : PartialKept joinrel outerrel (some unique.path) :=
      fun _ path same _ => Option.some.inj same ▸ made
    simp only [kept,only,true_or]
  next more =>
    rw [partialKept_last _ _ _ ordinary]
    exact ⟨.inr,fun either => either.resolve_left more⟩

theorem hash_uniqueInner (sjinfo : SpecialJoinInfo) (unique : UniquePath)
    (made : isUniquePath unique.path) (cached : innerrel.cheapestUniquePath = some unique)
    (ordinary : Ordinary innerrel) :
    ∃ final, (exploreOuter estimates [] outerrel.cheapestCostExplorePathlist
        innerrel.cheapestCostExplorePathlist ⟨outerrel,innerrel,sjinfo,.uniqueInner,none,[],
        []⟩).bind (hashRest joinrel estimates .uniqueInner) =
          some final ∧
      (StaysSemijoin .uniqueInner final.tries ↔ UniqueInnerKept joinrel outerrel innerrel) := by
  by_cases unusable :
    outerrel.cheapestCostExplorePathlist.filter (usableOuter innerrel.toRelCore) = [] ∨
      innerrel.cheapestCostExplorePathlist.filter (usableInner outerrel.toRelCore) = []
  · obtain ⟨explored,ran,advances⟩ :=
      exploreOuter_unusable estimates [] outerrel.cheapestCostExplorePathlist
        innerrel.cheapestCostExplorePathlist ⟨outerrel,innerrel,sjinfo,.uniqueInner,
        none,[],[]⟩ unusable
    have same : explored.outerrel = outerrel := advances.outerrel
    have same' : explored.innerrel = innerrel := advances.innerrel
    obtain ⟨final,tries,rested,appended,stays⟩ :=
      hashRest_uniqueInner_pending joinrel estimates explored advances.jointype
        (same'.symm ▸ ordinary) unique made (same'.symm ▸ cached)
    refine ⟨final,by rw [ran]; exact rested,?_⟩
    rw [appended,advances.tries,List.nil_append,List.nil_append,stays,same,same',UniqueInnerKept,
      if_pos unusable,advances.innerPath]
    unfold lastInner
    by_cases empty : outerrel.cheapestCostExplorePathlist = []
    · simp [empty,PartialKept]
    · simp [empty,partialKept_last _ _ _ ordinary]
  · obtain ⟨some_outer,some_inner⟩ := not_or.mp unusable
    obtain ⟨chosen,others,shape⟩ := List.exists_cons_of_ne_nil some_outer
    obtain ⟨chosen',others',shape'⟩ := List.exists_cons_of_ne_nil some_inner
    obtain ⟨explored,ran,advances⟩ := exploreOuter_uniqueInner estimates []
      outerrel.cheapestCostExplorePathlist innerrel.cheapestCostExplorePathlist
      ⟨outerrel,innerrel,sjinfo,.uniqueInner,none,[],[]⟩ chosen chosen' others others' shape shape'
      rfl unique cached
    have same : explored.outerrel = outerrel := advances.outerrel
    have same' : explored.innerrel = innerrel := advances.innerrel
    have nonempty : explored.innerrel.cheapestCostExplorePathlist ≠ [] := by
      rw [same']
      intro empty
      simp [empty] at some_inner
    obtain ⟨final,rest,rested,appended,stays⟩ :=
      hashRest_uniqueInner_plain joinrel estimates explored advances.jointype
        (same'.symm ▸ ordinary) nonempty
    refine ⟨final,by rw [ran]; exact rested,?_⟩
    have first := uniqueFirst_stays chosen unique made others' fun path among =>
      ordinary.explore path ((filter_tail _ _ _ _ shape').2 path among)
    have raw :
      StaysSemijoin .uniqueInner (plainTries outerrel.toRelCore innerrel.toRelCore [] .inner others
        innerrel.cheapestCostExplorePathlist) ↔ others = [] :=
      laterTries_stay .uniqueInner outerrel innerrel [] _ _ chosen others shape some_inner
        fun pair _ inner => ordinary.explore pair.inner inner
    have held := partialKept_explored joinrel outerrel innerrel ordinary unique made
      (EndsWithOnly (usableOuter innerrel.toRelCore) outerrel.cheapestCostExplorePathlist ∧
        EndsWithOnly (usableInner outerrel.toRelCore) innerrel.cheapestCostExplorePathlist)
    rw [← advances.innerPath] at held
    rw [appended,advances.tries,List.nil_append,staysSemijoin_append,staysSemijoin_append,first,raw,
      stays,same,same',held,UniqueInnerKept,if_neg unusable,shape,shape']
    simp only [List.length_cons,Nat.add_eq_right,List.length_eq_zero_iff]
    exact ⟨fun ⟨⟨inner,outer⟩,rest⟩ => ⟨outer,inner,rest⟩,fun ⟨outer,inner,rest⟩ =>
      ⟨⟨inner,outer⟩,rest⟩⟩

end UniqueInner

/-- A unique-ified join type keeps its meaning through `hash_inner_and_outer` exactly when there
is no hash clause or no phase after the first unique-ified pair tries another one. -/
theorem hashInnerAndOuter_semijoin_iff (joinrel : RelCore) (estimates : Path → UniqueEstimates)
    (restrictlist : List JoinClause) (outerrel innerrel : RelOptInfo) (sjinfo : SpecialJoinInfo)
    (jointype : JoinType) (unique : UniquePath) (made : isUniquePath unique.path)
    (kind : jointype = .uniqueOuter ∧ outerrel.cheapestUniquePath = some unique ∨
      jointype = .uniqueInner ∧ innerrel.cheapestUniquePath = some unique)
    (ordinary : Ordinary outerrel) (ordinary' : Ordinary innerrel) :
    ∃ final, hashInnerAndOuter joinrel estimates restrictlist outerrel innerrel sjinfo
      jointype = some final ∧ (StaysSemijoin jointype final.tries ↔
        hashClauses jointype restrictlist outerrel.toRelCore innerrel.toRelCore = [] ∨
        jointype = .uniqueOuter ∧ UniqueOuterKept outerrel innerrel ∨
        jointype = .uniqueInner ∧ UniqueInnerKept joinrel outerrel innerrel) := by
  unfold hashInnerAndOuter
  by_cases none : hashClauses jointype restrictlist outerrel.toRelCore innerrel.toRelCore = []
  · simp only [none,if_true]
    exact ⟨_,rfl,by simp [StaysSemijoin]⟩
  · simp only [none,if_false,false_or]
    rcases kind with ⟨rfl,cached⟩ | ⟨rfl,cached⟩
    · obtain ⟨final,ran,stays⟩ :=
        hash_uniqueOuter joinrel estimates outerrel innerrel sjinfo unique made cached ordinary
      exact ⟨final,ran,by simpa using stays⟩
    · obtain ⟨final,ran,stays⟩ :=
        hash_uniqueInner joinrel estimates outerrel innerrel sjinfo unique made cached ordinary'
      exact ⟨final,ran,by simpa using stays⟩

def equalityClause : JoinClause := ⟨false,true,96,{1},{2}⟩

theorem hashInnerAndOuter_semijoin_iff_single :
    ∃ final, hashInnerAndOuter joinedCore noEstimates [equalityClause]
      (rightRel [rightPath]) leftRel
        ⟨true,true⟩ .uniqueOuter = some final ∧ StaysSemijoin .uniqueOuter final.tries := by
  obtain ⟨final,ran,stays⟩ := hashInnerAndOuter_semijoin_iff joinedCore noEstimates [equalityClause]
    (rightRel [rightPath]) leftRel ⟨true,true⟩ .uniqueOuter cachedUnique rfl (.inl ⟨rfl,rfl⟩)
    (rightRel_ordinary _ (by simp)) leftRel_ordinary
  exact ⟨final,ran,stays.mpr (.inr (.inl ⟨rfl,.inr (.inr (by decide))⟩))⟩

/-- With a second explorable path the second pair is an ordinary inner join, which repeats the left
row. -/
theorem hashInnerAndOuter_repeats_rows :
    ∃ final, hashInnerAndOuter joinedCore noEstimates [equalityClause]
        (rightRel [rightPath,explorablePath]) leftRel ⟨true,true⟩ .uniqueOuter = some final ∧
      ∃ pair ∈ final.tries, ¬isUniquePath (uniqueSide .uniqueOuter pair) ∧
        duplicateRows.joined .uniqueOuter pair ≠ duplicateRows.expected := by
  have tries : (hashInnerAndOuter joinedCore noEstimates [equalityClause]
      (rightRel [rightPath,explorablePath]) leftRel ⟨true,true⟩ .uniqueOuter).map JoinState.tries =
        some [⟨false,cachedUnique.path,leftPath,[],.inner⟩,
        ⟨false,explorablePath,leftPath,[],.inner⟩] := by
    decide +kernel
  obtain ⟨final,ran,shape⟩ := Option.map_eq_some_iff.mp tries
  refine ⟨final,ran,⟨false,explorablePath,leftPath,[],.inner⟩,?_,?_,?_⟩
  · rw [shape]
    simp
  · decide
  · decide +kernel

end ExploratoryOptimizer.HashJoinPath
