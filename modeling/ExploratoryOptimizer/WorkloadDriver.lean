import ExploratoryOptimizer.Library.Window

/-! The history list of run_workloads_runtime_experiments.py. An index outside a list raises an
`IndexError` and ends the run with `none`. The SQL calls are recorded with their arguments. -/
namespace ExploratoryOptimizer.WorkloadDriver
open Library.Window

/-- A call of `imdb_get_queries_distribution_k`, whose first argument is a constant of the
configuration. -/
structure DistributionCall where
  historyNum : Nat
  markovM : Nat
  histQueries : List Nat
  deriving DecidableEq

structure Driver where
  numQueries : Nat
  histQueries : List Nat
  sqlCalls : List DistributionCall
  deriving DecidableEq

def assign (items : List Nat) (index value : Nat) : Option (List Nat) :=
  if index < items.length then some (items.set index value) else none

/-- Body of the shift loop: the new pattern is written in every iteration. -/
def shiftStep (historyNum queryPattern : Nat) (histQueries : List Nat) (histIter : Nat) : Option
    (List Nat) := do
  let next ← histQueries[histIter + 1]?
  let histQueries ← assign histQueries histIter next
  assign histQueries (historyNum - 1) queryPattern

def updateMarkovTable (historyNum markovM queryPattern : Nat) (driver : Driver) : Option Driver :=
  if driver.numQueries < historyNum + 1 then
    some {driver with histQueries := driver.histQueries ++ [queryPattern]}
  else do
    let histQueries ← (List.range (historyNum - 1)).foldlM (shiftStep historyNum queryPattern)
      driver.histQueries
    return {driver with
      histQueries := histQueries
      sqlCalls := driver.sqlCalls ++ [⟨historyNum,markovM,driver.histQueries⟩]}

def executeCurrentQuery (queryMode historyNum markovM : Nat) (driver : Driver)
    (queryPattern : Nat) :
    Option Driver :=
  let driver := {driver with numQueries := driver.numQueries + 1}
  if queryMode > 0 then updateMarkovTable historyNum markovM queryPattern driver else some driver

def runWorkloads (queryMode historyNum markovM : Nat) (queryPatterns : List Nat) : Option Driver :=
  queryPatterns.foldlM (executeCurrentQuery queryMode historyNum markovM) ⟨0,[],[]⟩

/-- The list after the shift loop when it is full: the newest pattern but one is lost, unless there
are just two. -/
def shifted (historyNum queryPattern : Nat) (histQueries : List Nat) : List Nat :=
  if historyNum = 1 then histQueries
  else if historyNum = 2 then histQueries.tail ++ [queryPattern]
  else histQueries.tail.dropLast ++ [queryPattern,queryPattern]

theorem shiftStep_at (historyNum queryPattern : Nat) (done rest : List Nat) (first second : Nat)
    (size : historyNum = done.length + rest.length + 2) :
    shiftStep historyNum queryPattern (done ++ first :: second :: rest) done.length =
      some ((done ++ second :: second :: rest).dropLast ++ [queryPattern]) := by
  have next : (done ++ first :: second :: rest)[done.length + 1]? = some second := by
    rw [List.getElem?_append_right (by omega),Nat.add_sub_cancel_left]
    rfl
  have moved : assign (done ++ first :: second :: rest) done.length second =
    some (done ++ second :: second :: rest) := by
    rw [assign,if_pos (by simp),List.set_append_right _ _ (Nat.le_refl _),Nat.sub_self]
    rfl
  have whole : historyNum = (done ++ second :: second :: rest).length := by
    rw [List.length_append,List.length_cons,List.length_cons]
    omega
  have written : assign (done ++ second :: second :: rest) (historyNum - 1) queryPattern =
      some ((done ++ second :: second :: rest).dropLast ++ [queryPattern]) := by
    rw [assign,if_pos (by omega),whole,set_last _ _ (by simp)]
  rw [shiftStep,next,Option.bind_eq_bind,Option.bind_some,moved,Option.bind_eq_bind,
    Option.bind_some,written]

/-- The loop from any place on, once the last place holds the new pattern. -/
theorem shiftLoop_ending (historyNum queryPattern : Nat) (done rest : List Nat) (first : Nat)
    (size : historyNum = done.length + rest.length + 1)
    (ends : (first :: rest).getLast? = some queryPattern) :
    (List.range' done.length rest.length).foldlM (shiftStep historyNum queryPattern)
      (done ++ first :: rest) = some (done ++ rest ++ [queryPattern]) := by
  induction rest generalizing done first with
  | nil => simpa using ends
  | cons second rest ih =>
    have ends' : (second :: rest).getLast? = some queryPattern := by simpa using ends
    have last : (done ++ second :: second :: rest).getLast? = some queryPattern := by
      rw [List.getLast?_append,List.getLast?_cons_cons,ends',Option.some_or]
    have kept : (done ++ second :: second :: rest).dropLast ++ [queryPattern] =
      (done ++ [second]) ++ second :: rest := by
      rw [List.dropLast_append_getLast? queryPattern last,List.append_cons]
    have place : done.length + 1 = (done ++ [second]).length := by simp
    rw [List.length_cons,List.range'_succ,List.foldlM_cons,
      shiftStep_at historyNum queryPattern done rest first second size,kept,Option.bind_eq_bind,
      Option.bind_some,place,ih (done ++ [second]) second
      (by rw [← place]; simp at size; omega) ends']
    simp

theorem shiftLoop_full (historyNum queryPattern : Nat) (histQueries : List Nat)
    (positive : 1 ≤ historyNum) (full : histQueries.length = historyNum) :
    (List.range (historyNum - 1)).foldlM (shiftStep historyNum queryPattern) histQueries =
      some (shifted historyNum queryPattern histQueries) := by
  unfold shifted
  split_ifs with single double
  · subst single
    rfl
  · subst double
    obtain ⟨first,second,rfl⟩ := List.length_eq_two.mp full
    exact congrArg (· >>= some) (shiftStep_at 2 queryPattern [] [] first second rfl)
  · obtain ⟨first,second,rest,rfl⟩ :
      ∃ first second rest, histQueries = first :: second :: rest := by
      match histQueries,full with
      | [],full => simp at full; omega
      | [first],full => simp at full; omega
      | first :: second :: rest,_ => exact ⟨first,second,rest,rfl⟩
    have nonempty : rest ≠ [] := by
      rintro rfl
      exact double full.symm
    have count : historyNum - 1 = rest.length + 1 := by simp at full; omega
    have firstStep :=
      shiftStep_at historyNum queryPattern [] rest first second (by simp at full ⊢; omega)
    have size : (rest.dropLast ++ [queryPattern]).length = rest.length := by
      have := List.length_pos_iff.mpr nonempty
      simp
      omega
    have others :=
      shiftLoop_ending historyNum queryPattern [second] (rest.dropLast ++ [queryPattern]) second
        (by rw [size,List.length_singleton]; omega)
        (by rw [← List.cons_append,List.getLast?_concat])
    have moved : ([] ++ second :: second :: rest).dropLast ++ [queryPattern] =
        [second] ++ second :: (rest.dropLast ++ [queryPattern]) := by
      rw [List.nil_append,List.dropLast_cons_of_ne_nil (List.cons_ne_nil _ _),
        List.dropLast_cons_of_ne_nil nonempty]
      rfl
    rw [size] at others
    rw [count,List.range_eq_range',List.range'_succ,List.foldlM_cons]
    change (shiftStep historyNum queryPattern ([] ++ first :: second :: rest)
        ([] : List Nat).length >>= _) = _
    rw [firstStep,moved,Option.bind_eq_bind,Option.bind_some]
    refine others.trans ?_
    simp [List.dropLast_cons_of_ne_nil nonempty]

/-- The step of a run whose list is as long as it should be. -/
theorem executeCurrentQuery_step (queryMode historyNum markovM queryPattern : Nat) (driver : Driver)
    (exploring : 0 < queryMode) (positive : 1 ≤ historyNum)
    (size : driver.histQueries.length = min driver.numQueries historyNum) :
    ∃ driver', executeCurrentQuery queryMode historyNum markovM driver queryPattern = some driver' ∧
      driver'.numQueries = driver.numQueries + 1 ∧
      driver'.histQueries = if driver.numQueries < historyNum then
      driver.histQueries ++ [queryPattern]
        else shifted historyNum queryPattern driver.histQueries := by
  unfold executeCurrentQuery updateMarkovTable
  rw [if_pos exploring]
  dsimp only
  by_cases room : driver.numQueries < historyNum
  · rw [if_pos (by omega),if_pos room]
    exact ⟨_,rfl,rfl,rfl⟩
  · rw [if_neg (by omega),if_neg room,shiftLoop_full historyNum queryPattern driver.histQueries
      positive (by omega)]
    exact ⟨_,rfl,rfl,rfl⟩

theorem shifted_length (historyNum queryPattern : Nat) (histQueries : List Nat)
    (positive : 1 ≤ historyNum) (full : histQueries.length = historyNum) :
    (shifted historyNum queryPattern histQueries).length = historyNum := by
  unfold shifted
  split_ifs with single double
  · exact full
  · simp
    omega
  · simp
    omega

/-- A full list moves on as a window exactly when it has two places or nothing new comes in. -/
theorem shifted_eq_iff (historyNum queryPattern : Nat) (histQueries : List Nat)
    (positive : 1 ≤ historyNum) (full : histQueries.length = historyNum) :
    shifted historyNum queryPattern histQueries = histQueries.tail ++ [queryPattern] ↔
      historyNum = 2 ∨ histQueries.getLast? = some queryPattern := by
  unfold shifted
  split_ifs with single double
  · subst single
    obtain ⟨only,rfl⟩ := List.length_eq_one_iff.mp full
    simp
  · simp [double]
  · obtain ⟨front,last,rfl⟩ :=
      (List.eq_nil_or_concat' histQueries).resolve_left (by rintro rfl; simp at full; omega)
    have nonempty : front ≠ [] := by
      rintro rfl
      exact single full.symm
    rw [List.tail_append_of_ne_nil nonempty,List.dropLast_concat,List.getLast?_concat,
      List.append_assoc,List.append_cancel_left_eq]
    simp [double,eq_comm]

section Run

variable (queryMode historyNum markovM : Nat) (exploring : 0 < queryMode)
  (positive : 1 ≤ historyNum)

include exploring positive

theorem runWorkloads_size (queryPatterns : List Nat) :
    ∃ driver, runWorkloads queryMode historyNum markovM queryPatterns = some driver ∧
      driver.numQueries = queryPatterns.length ∧ driver.histQueries.length =
      min queryPatterns.length historyNum := by
  induction queryPatterns using List.reverseRecOn with
  | nil => exact ⟨_,rfl,rfl,by simp⟩
  | append_singleton queryPatterns queryPattern ih =>
    obtain ⟨driver,ran,number,size⟩ := ih
    rw [← number] at size
    obtain ⟨driver',stepped,number',hist⟩ :=
      executeCurrentQuery_step queryMode historyNum markovM queryPattern driver
        exploring positive size
    refine ⟨driver',?_,by rw [number',number]; simp,?_⟩
    · rw [runWorkloads,List.foldlM_append,← runWorkloads,ran]
      simpa using stepped
    · rw [hist]
      split_ifs with room
      · rw [List.length_append,List.length_append,size,number]
        simp only [List.length_singleton]
        omega
      · rw [shifted_length historyNum queryPattern driver.histQueries positive (by omega),
          List.length_append,List.length_singleton]
        omega

/-- The list holds the last patterns. -/
def HoldsLast (queryPatterns : List Nat) : Prop :=
  ∃ driver, runWorkloads queryMode historyNum markovM queryPatterns = some driver ∧
    driver.histQueries = queryPatterns.rtake historyNum

theorem holdsLast_push (queryPatterns : List Nat) (queryPattern : Nat)
    (holds : HoldsLast queryMode historyNum markovM queryPatterns) :
    HoldsLast queryMode historyNum markovM (queryPatterns ++ [queryPattern]) ↔
      historyNum = 2 ∨ (historyNum ≤ queryPatterns.length →
        queryPatterns.getLast? = some queryPattern) := by
  obtain ⟨driver,ran,window⟩ := holds
  obtain ⟨same,ran',number,size⟩ :=
    runWorkloads_size queryMode historyNum markovM exploring positive queryPatterns
  obtain rfl := Option.some.inj (ran.symm.trans ran')
  rw [← number] at size
  obtain ⟨driver',stepped,_,hist⟩ :=
    executeCurrentQuery_step queryMode historyNum markovM queryPattern driver
      exploring positive size
  have ranNext : runWorkloads queryMode historyNum markovM (queryPatterns ++ [queryPattern]) =
    some driver' := by
    rw [runWorkloads,List.foldlM_append,← runWorkloads,ran]
    simpa using stepped
  have meaning : HoldsLast queryMode historyNum markovM (queryPatterns ++ [queryPattern]) ↔
      driver'.histQueries = (queryPatterns ++ [queryPattern]).rtake historyNum := by
    rw [HoldsLast,ranNext]
    simp
  rw [meaning,hist,number]
  by_cases room : queryPatterns.length < historyNum
  · rw [if_pos room,window,rtake_of_le _ _ room.le,
      rtake_of_le _ _ (by rw [List.length_append]; exact room)]
    exact iff_of_true rfl (.inr fun full => absurd room (not_lt.mpr full))
  · have full : historyNum ≤ queryPatterns.length := by omega
    have last : driver.histQueries.getLast? = queryPatterns.getLast? := by
      rw [window,List.rtake,List.getLast?_drop,if_neg (by omega)]
    rw [if_neg room,rtake_push_full queryPatterns queryPattern historyNum positive full,← window,
      shifted_eq_iff historyNum queryPattern driver.histQueries positive (by omega),last]
    simp [full]

/-- After every call the list holds the last patterns exactly when it has two places or, once it is
full, no pattern differs from the one before. -/
theorem histQueries_window_iff (queryPatterns : List Nat) :
    (∀ n ≤ queryPatterns.length, ∃ driver,
      runWorkloads queryMode historyNum markovM (queryPatterns.take n) = some driver ∧
        driver.histQueries = (queryPatterns.take n).rtake historyNum) ↔
      historyNum = 2 ∨ ∀ n, historyNum ≤ n → n < queryPatterns.length →
      queryPatterns[n - 1]? = queryPatterns[n]? := by
  change (∀ n ≤ queryPatterns.length, HoldsLast queryMode historyNum markovM
      (queryPatterns.take n)) ↔ _
  have nextPrefix (n : Nat) (below : n < queryPatterns.length) :
      queryPatterns.take (n + 1) = queryPatterns.take n ++ [queryPatterns[n]] := by
    rw [List.take_add_one,List.getElem?_eq_getElem below,Option.toList_some]
  have lastPattern (n : Nat) (below : n < queryPatterns.length) (reached : historyNum ≤ n) :
      (queryPatterns.take n).getLast? = queryPatterns[n - 1]? := by
    rw [List.getLast?_eq_getElem?,List.length_take,Nat.min_eq_left below.le,
      List.getElem?_take_of_lt (by omega)]
  constructor
  · intro holds
    refine or_iff_not_imp_left.mpr fun other n reached below => ?_
    have next := holds (n + 1) below
    rw [nextPrefix n below,holdsLast_push queryMode historyNum markovM exploring positive _ _
      (holds n below.le)] at next
    have equal := next.resolve_left other (by rw [List.length_take]; omega)
    rw [lastPattern n below reached] at equal
    rw [equal,List.getElem?_eq_getElem below]
  · intro condition n bounded
    induction n with
    | zero => exact ⟨_,rfl,by simp⟩
    | succ n ih =>
      rw [nextPrefix n bounded,holdsLast_push queryMode historyNum markovM exploring positive _ _
        (ih (by omega))]
      refine condition.imp_right fun steady full => ?_
      have reached : historyNum ≤ n := by rw [List.length_take] at full; omega
      rw [lastPattern n bounded reached,steady n reached bounded,List.getElem?_eq_getElem bounded]

end Run

/-- Seven places, filled by the first seven queries: the eighth pattern is stored twice and the
seventh is lost. -/
theorem histQueries_loses_pattern :
    (runWorkloads 1 7 3 [1,2,3,4,5,6,7,1]).map (·.histQueries) = some [2,3,4,5,6,1,1] ∧
      [1,2,3,4,5,6,7,1].rtake 7 = [2,3,4,5,6,7,1] := by
  decide

theorem histQueries_window_iff_two :
    ∃ driver, runWorkloads 1 2 1 [1,2,3] = some driver ∧ driver.histQueries = [2,3] := by
  obtain ⟨driver,ran,window⟩ :=
    (histQueries_window_iff 1 2 1 (by decide) (by decide) [1,2,3]).mpr (.inl rfl) 3 (by decide)
  exact ⟨driver,ran,window⟩

end ExploratoryOptimizer.WorkloadDriver
