import ExploratoryOptimizer.Aqo.MarkovStore

/-! Sequences of `imdb_get_queries_distribution_k` calls on an empty `aqo_markov_table`: the rows
hold the counts of the calls and the shares that follow from them. -/
namespace ExploratoryOptimizer.Aqo.MarkovStore
open MarkovTable Library Library.OneBased Library.FirstWrite

/-- The table, and the calls that did not fail. -/
structure Progress (settings : Settings) where
  table : List MarkovTuple
  completed : List (StoreCall settings)

section Runs

variable {settings : Settings} (text : NumberText) (hash : List ℚ → Int)

def performCall (progress : Progress settings) (call : StoreCall settings) : Progress settings :=
  match imdbGetQueriesDistributionK text hash progress.table call with
  | some table => ⟨table,progress.completed ++ [call]⟩
  | none => progress

def performCalls (calls : List (StoreCall settings)) : Progress settings :=
  calls.foldl (performCall text hash) ⟨[],[]⟩

def callsOf (calls : List (StoreCall settings)) (key : Int) : List (StoreCall settings) :=
  calls.filter fun call => hash call.firstQueries = key

/-- How often the pattern came after a state with the given hash. -/
def occurrences (calls : List (StoreCall settings)) (key : Int) (pattern : Nat) : Nat :=
  ((callsOf hash calls key).map fun call => call.laterQueries.count pattern).sum

theorem performCalls_concat (calls : List (StoreCall settings)) (call : StoreCall settings) :
    performCalls text hash (calls ++ [call]) = performCall text hash
      (performCalls text hash calls) call := by
  rw [performCalls,List.foldl_append]
  rfl

theorem followers_toDistributionCall (calls : List (StoreCall settings)) (key : Int) :
    followers hash (calls.map StoreCall.toDistributionCall) key =
      (callsOf hash calls key).flatMap StoreCall.laterQueries := by
  rw [followers,List.filter_map,List.flatMap_map,callsOf]
  simp only [Function.comp_def,StoreCall.currentQueries_eq]
  rfl

theorem performCalls_table (calls : List (StoreCall settings)) :
    (performCalls text hash calls).table =
      storedRows text hash ((performCalls text hash calls).completed.map
        StoreCall.toDistributionCall) := by
  induction calls using List.reverseRecOn with
  | nil => rfl
  | append_singleton calls call ih =>
    rw [performCalls_concat,performCall,ih,imdbGetQueriesDistributionK_storedRows]
    split_ifs with succeeds
    · rw [List.map_append]
      rfl
    -- a call that fails is rolled back
    · exact ih

theorem performCalls_sublist (calls : List (StoreCall settings)) :
    (performCalls text hash calls).completed.Sublist calls := by
  induction calls using List.reverseRecOn with
  | nil => exact List.Sublist.refl _
  | append_singleton calls call ih =>
    rw [performCalls_concat,performCall]
    split
    · exact ih.append (List.Sublist.refl _)
    · exact ih.trans (List.sublist_append_left _ _)

theorem StoreCall.length_laterQueries (call : StoreCall settings) :
    call.laterQueries.length = call.histNum - settings.markovM := by
  rw [StoreCall.laterQueries,List.length_drop,List.length_take,Nat.min_eq_left call.given]

theorem length_followers (calls : List (StoreCall settings)) (key : Int) :
    (followers hash (calls.map StoreCall.toDistributionCall) key).length =
      ((callsOf hash calls key).map fun call => call.histNum - settings.markovM).sum := by
  rw [followers_toDistributionCall,List.length_flatMap]
  simp only [StoreCall.length_laterQueries]

theorem callsOf_sublist (calls : List (StoreCall settings))
    (call : StoreCall settings) (key : Int) :
    (callsOf hash calls key).Sublist (callsOf hash (calls ++ [call]) key) :=
  (List.sublist_append_left calls [call]).filter _

/-- No call fails as long as the state is not empty and no count outgrows an `int`. -/
theorem performCalls_completed (calls : List (StoreCall settings)) (positive : 0 < settings.markovM)
    (fits : ∀ key, ((callsOf hash calls key).map fun call => call.histNum - settings.markovM).sum ≤
      int4Max) :
    (performCalls text hash calls).completed = calls := by
  induction calls using List.reverseRecOn with
  | nil => rfl
  | append_singleton calls call ih =>
    have earlier : (performCalls text hash calls).completed = calls := by
      apply ih
      intro key
      exact ((callsOf_sublist hash calls call key).map _).sum_le_sum (fun _ _ => Nat.zero_le _)
        |>.trans (fits key)
    have short :
      (followers hash (calls.map StoreCall.toDistributionCall ++ [call.toDistributionCall])
        (hash call.toDistributionCall.currentQueries)).length ≤ int4Max := by
      have length :=
        length_followers hash (calls ++ [call]) (hash call.toDistributionCall.currentQueries)
      rw [List.map_append,List.map_singleton] at length
      rw [length]
      exact fits _
    rw [performCalls_concat,performCall,performCalls_table,
      imdbGetQueriesDistributionK_storedRows,earlier,if_pos ⟨positive,short⟩]

/-- The row of a state: the counts of the calls with that state, and their shares up to an error in
each. -/
structure RowOf (error : ℚ) (calls : List (StoreCall settings)) (row : MarkovTuple) : Prop where
  counts : row.frequentQuery = (List.range' 1 settings.patternNum).map fun pattern =>
    (occurrences hash calls row.histQueryHash pattern : ℚ)
  shares : List.Forall₂ (fun share frequency => |share - frequency / row.frequentQuery.sum| ≤ error)
    row.distributionQuery row.frequentQuery
  nonneg : ∀ share ∈ row.distributionQuery, 0 ≤ share
  nearOne : |row.distributionQuery.sum - 1| ≤ settings.patternNum * error

end Runs

section Shares

variable (text : NumberText)

theorem NumberText.sum_stored (numbers : List ℚ) (inUnit : ∀ q ∈ numbers, 0 ≤ q ∧ q ≤ 1) :
    |(numbers.map text.stored).sum - numbers.sum| ≤ numbers.length * text.error := by
  induction numbers with
  | nil => simp
  | cons q numbers ih =>
    have rest := ih fun q member => inUnit q (by simp [member])
    have first := text.close q (inUnit q (by simp)).1 (inUnit q (by simp)).2
    rw [List.map_cons,List.sum_cons,List.sum_cons,List.length_cons,Nat.cast_add_one,
      add_sub_add_comm]
    calc |text.stored q - q + ((numbers.map text.stored).sum - numbers.sum)|
      _ ≤ |text.stored q - q| + |(numbers.map text.stored).sum - numbers.sum| := abs_add_le _ _
      _ ≤ text.error + numbers.length * text.error := add_le_add first rest
      _ = (numbers.length + 1) * text.error := by ring

theorem sum_shares (frequencyArray : List ℚ) (nonzero : frequencyArray.sum ≠ 0) :
    (frequencyArray.map (· / frequencyArray.sum)).sum = 1 := by
  simp only [div_eq_mul_inv,List.sum_map_mul_right,List.map_id']
  exact mul_inv_cancel₀ nonzero

theorem shares_inUnit (frequencyArray : List ℚ)
    (nonneg : ∀ frequency ∈ frequencyArray, 0 ≤ frequency) (share : ℚ)
    (member : share ∈ frequencyArray.map (· / frequencyArray.sum)) : 0 ≤ share ∧ share ≤ 1 := by
  obtain ⟨frequency,counted,rfl⟩ := List.mem_map.mp member
  have sum := List.sum_nonneg nonneg
  exact ⟨div_nonneg (nonneg frequency counted) sum,
    div_le_one_of_le₀ (List.single_le_sum nonneg frequency counted) sum⟩

end Shares

section Invariant

variable {settings : Settings} (text : NumberText) (hash : List ℚ → Int)

theorem frequencies_occurrences (calls : List (StoreCall settings)) (key : Int) :
    frequencies settings.patternNum (followers hash (calls.map StoreCall.toDistributionCall) key) =
      (List.range' 1 settings.patternNum).map fun pattern =>
      (occurrences hash calls key pattern : ℚ) := by
  rw [frequencies,followers_toDistributionCall,List.range'_eq_map_range,List.map_map]
  apply List.map_congr_left
  intro place _
  rw [List.count_flatMap,Function.comp_apply,Nat.add_comm]
  rfl

/-- A call counts at least one query. -/
theorem frequencies_sum_pos (calls : List (StoreCall settings)) (call : StoreCall settings)
    (member : call ∈ calls) :
    0 < (frequencies settings.patternNum (followers hash (calls.map StoreCall.toDistributionCall)
      (hash call.firstQueries))).sum := by
  rw [frequencies_sum _ _ (followers_inRange hash _ _),Nat.cast_pos,length_followers]
  have beyondState := call.beyondState
  have counted : call ∈ callsOf hash calls (hash call.firstQueries) :=
    List.mem_filter.mpr ⟨member,decide_eq_true rfl⟩
  calc 0
    _ < call.histNum - settings.markovM := by omega
    _ ≤ _ := List.single_le_sum (fun _ _ => Nat.zero_le _) _ (List.mem_map.mpr ⟨call,counted,rfl⟩)

theorem tupleOf_rowOf (calls : List (StoreCall settings)) (call : StoreCall settings)
    (member : call ∈ calls) :
    RowOf hash text.error calls
      (tupleOf text hash (calls.map StoreCall.toDistributionCall) (hash call.firstQueries)) := by
  have positive := frequencies_sum_pos hash calls call member
  have length := length_frequencies settings.patternNum
    (followers hash (calls.map StoreCall.toDistributionCall) (hash call.firstQueries))
  have counts := frequencies_occurrences hash calls (hash call.firstQueries)
  have nonneg := frequencies_nonneg settings.patternNum
    (followers hash (calls.map StoreCall.toDistributionCall) (hash call.firstQueries))
  -- what follows holds for any counts that are not all zero
  unfold tupleOf
  generalize frequencies settings.patternNum
    (followers hash (calls.map StoreCall.toDistributionCall) (hash call.firstQueries)) =
      frequencyArray at *
  have inUnit := shares_inUnit frequencyArray nonneg
  have distribution : distributionOf frequencyArray = frequencyArray.map (· / frequencyArray.sum) :=
    if_pos positive.ne'
  constructor
  · exact counts
  · dsimp only
    rw [distribution,List.map_map,List.forall₂_map_left_iff,List.forall₂_same]
    intro frequency counted
    obtain ⟨low,high⟩ := inUnit _ (List.mem_map_of_mem counted)
    exact text.close _ low high
  · intro share stored
    obtain ⟨quotient,computed,rfl⟩ := List.mem_map.mp stored
    rw [distribution] at computed
    exact text.stored_nonneg quotient (inUnit quotient computed).1
  · have near := text.sum_stored _ inUnit
    rw [sum_shares frequencyArray positive.ne',List.length_map,length,← distribution] at near
    exact near

theorem mem_stateHashes_calls (calls : List (StoreCall settings)) (key : Int) :
    key ∈ stateHashes hash (calls.map StoreCall.toDistributionCall) ↔ ∃ call ∈ calls,
      hash call.firstQueries = key := by
  simp [mem_stateHashes,StoreCall.currentQueries_eq]

theorem performCalls_rowOf (calls : List (StoreCall settings)) (row : MarkovTuple)
    (stored : row ∈ (performCalls text hash calls).table) :
    RowOf hash text.error (performCalls text hash calls).completed row := by
  rw [performCalls_table] at stored
  obtain ⟨key,seen,rfl⟩ := List.mem_map.mp stored
  obtain ⟨call,member,rfl⟩ := (mem_stateHashes_calls hash _ key).mp seen
  exact tupleOf_rowOf text hash _ call member

theorem performCalls_hashes (calls : List (StoreCall settings)) :
    (performCalls text hash calls).table.map (·.histQueryHash) =
      stateHashes hash
        ((performCalls text hash calls).completed.map StoreCall.toDistributionCall) := by
  rw [performCalls_table,storedRows,List.map_map]
  exact List.map_id _

/-- After any sequence of calls on an empty table there is one row for each state hash of the calls
that did not fail, with their counts and, up to one digit in the fifteenth place, their shares. -/
theorem performCalls_distributions (calls : List (StoreCall settings)) :
    let progress := performCalls .fifteenDigits hash calls
    (progress.table.map (·.histQueryHash)).Nodup ∧
      (∀ row ∈ progress.table, RowOf hash (1 / 10 ^ 15) progress.completed row) ∧
      (∀ key, (∃ row ∈ progress.table, row.histQueryHash = key) ↔
        ∃ call ∈ progress.completed, hash call.firstQueries = key) ∧
      progress.completed.Sublist calls ∧
      (0 < settings.markovM →
        (∀ key, ((callsOf hash calls key).map fun call =>
          call.histNum - settings.markovM).sum ≤ int4Max) → progress.completed = calls) := by
  intro progress
  have keys := performCalls_hashes .fifteenDigits hash calls
  refine ⟨?_,performCalls_rowOf .fifteenDigits hash calls,?_,
    performCalls_sublist .fifteenDigits hash calls,performCalls_completed .fifteenDigits hash calls⟩
  · rw [keys]
    exact nodup_distinct _
  · intro key
    rw [← mem_stateHashes_calls,← keys,List.mem_map]

end Invariant

/-! Three templates and states of one query. -/

def threeTemplates : Settings := ⟨3,1,by decide⟩

def afterOne : StoreCall threeTemplates := ⟨4,[1,2,2,3],by decide,by decide,by decide⟩

def afterOneAgain : StoreCall threeTemplates := ⟨2,[1,3,2],by decide,by decide,by decide⟩

def afterTwo : StoreCall threeTemplates := ⟨3,[2,1,1],by decide,by decide,by decide⟩

theorem performCalls_distributions_three :
    (performCalls .fifteenDigits HashAny.getIntArrayHash2
        [afterOne,afterTwo,afterOneAgain]).table =
      [⟨HashAny.getIntArrayHash2 [1],[0,1/2,1/2],[0,2,2]⟩,
        ⟨HashAny.getIntArrayHash2 [2],[1,0,0],[2,0,0]⟩] ∧
      ∀ row ∈ (performCalls .fifteenDigits HashAny.getIntArrayHash2
          [afterOne,afterTwo,afterOneAgain]).table,
        |row.distributionQuery.sum - 1| ≤ 3 * (1 / 10 ^ 15) := by
  obtain ⟨_,rows,_⟩ := performCalls_distributions HashAny.getIntArrayHash2
    [afterOne,afterTwo,afterOneAgain]
  exact ⟨by decide +kernel,fun row stored => (rows row stored).nearOne⟩

def thirds : StoreCall threeTemplates := ⟨4,[1,1,2,3],by decide,by decide,by decide⟩

/-- Each of three patterns gets 0.333333333333333, and the shares do not add up to one. -/
theorem thirds_below_one :
    (performCalls .fifteenDigits HashAny.getIntArrayHash2 [thirds]).table =
        [⟨HashAny.getIntArrayHash2 [1],
          List.replicate 3 (Binary.double.round (333333333333333 / 10 ^ 15)),[1,1,1]⟩] ∧
      (List.replicate 3 (Binary.double.round (333333333333333 / 10 ^ 15))).sum < 1 := by
  decide +kernel

end ExploratoryOptimizer.Aqo.MarkovStore
