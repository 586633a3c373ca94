import ExploratoryOptimizer.Library.Binary
import ExploratoryOptimizer.Library.Decimal
import ExploratoryOptimizer.Library.OneBased
import ExploratoryOptimizer.Library.FirstWrite
import ExploratoryOptimizer.JoinPrecheck
import ExploratoryOptimizer.Aqo.MarkovTable

/-! `imdb_get_queries_distribution_k` as it is written: PL/pgSQL loops and dynamic statements over
the rows of `aqo_markov_table`. A call that raises an error is rolled back. -/
namespace ExploratoryOptimizer.Aqo.MarkovStore
open MarkovTable Library Library.OneBased Library.Decimal Library.FirstWrite

/-- A row of the table. -/
structure MarkovTuple where
  histQueryHash : Int
  distributionQuery : List ℚ
  frequentQuery : List ℚ
  deriving DecidableEq

def int4Max : Nat := 2147483647

/-- Assignment of a double to an `int` variable, an error outside the range. -/
def dtoi4 (num : ℚ) : Option Int :=
  if num < -2147483648 ∨ num > int4Max then none else some (JoinPrecheck.rint num).num

/-- The rounding of quotients, and the numbers that arrive when an array is printed into the text of
a statement. Whole numbers arrive unchanged. -/
structure NumberText where
  rounding : Rounding ℚ
  readBack : ℚ → ℚ
  whole : ∀ n : Nat, n < 10 ^ 15 → readBack n = n
  nonneg : ∀ q, 0 ≤ q → 0 ≤ readBack q
  error : ℚ
  close : ∀ q, 0 ≤ q → q ≤ 1 → |readBack (rounding.round q) - q| ≤ error

namespace NumberText

/-- A quotient after it has been computed, printed and read. -/
def stored (text : NumberText) (quotient : ℚ) : ℚ := text.readBack (text.rounding.round quotient)

theorem stored_nonneg (text : NumberText) (quotient : ℚ) (nonneg : 0 ≤ quotient) :
    0 ≤ text.stored quotient :=
  text.nonneg _ (text.rounding.round_nonneg _ nonneg)

/-- One digit in the fifteenth place is more than the two roundings to doubles and the printing. -/
theorem double_significant_close (q : ℚ) (nonneg : 0 ≤ q) (most : q ≤ 1) :
    |Binary.double.round (significant 15 (Binary.double.round q)) - q| ≤ 1 / 10 ^ 15 := by
  have unit : Binary.double.unit ≤ 1 / (9 * 10 ^ 15) := by decide +kernel
  have positive := Binary.double.unit_nonneg
  have low := Binary.double.round_nonneg q nonneg
  have high : Binary.double.round q ≤ 1 := Binary.double.round_le q 1 most
    (by exact_mod_cast Binary.representable_natCast 52 1 (by decide))
  have computed := Binary.double.near q
  have printed := significant_close 15 (by decide) _ low high
  have read := Binary.double.near (significant 15 (Binary.double.round q))
  have nonneg' := significant_nonneg 15 _ low
  rw [abs_of_nonneg nonneg] at computed
  rw [abs_of_nonneg nonneg'] at read
  have small : significant 15 (Binary.double.round q) ≤ 2 := by
    have above := (abs_le.mp printed).2
    norm_num at above
    linarith
  have first := computed.trans (mul_le_mul unit most nonneg (by norm_num))
  have last := read.trans (mul_le_mul unit small nonneg' (by norm_num))
  rw [abs_le] at first printed last ⊢
  norm_num at first printed last ⊢
  constructor
  · linarith
  · linarith

/-- `float8out` with `extra_float_digits` at its default, and `float8in`. -/
def fifteenDigits : NumberText where
  rounding := Binary.double
  readBack := fun q => Binary.double.round (significant 15 q)
  whole := fun n small => by
    rw [significant_whole 15 n small]
    exact Binary.representable_natCast 52 n (small.trans (by decide))
  nonneg := fun q nonneg => Binary.double.round_nonneg _ (significant_nonneg 15 q nonneg)
  error := 1 / 10 ^ 15
  close := double_significant_close

end NumberText

/-- Arguments that all calls share; `pattern_num` is an `int4`. -/
structure Settings where
  patternNum : Nat
  markovM : Nat
  isInt4 : patternNum ≤ int4Max

/-- The other arguments of a call: the state and at least one later query, all of them templates. -/
structure StoreCall (settings : Settings) where
  histNum : Nat
  histQueries : List Nat
  beyondState : settings.markovM < histNum
  given : histNum ≤ histQueries.length
  inRange : ∀ pattern ∈ histQueries, 1 ≤ pattern ∧ pattern ≤ settings.patternNum

section Call

variable {settings : Settings} (text : NumberText) (hash : List ℚ → Int)

/-- `array[…]` with the printed elements. The type of an empty array cannot be determined. -/
def statementArray (array : List ℚ) : Option (List ℚ) :=
  if array = [] then none else some (array.map text.readBack)

def StoreCall.array (call : StoreCall settings) : List ℚ := call.histQueries.map (↑)

def getCurrentQueries (call : StoreCall settings) : Option (List ℚ) :=
  forLoop 1 settings.markovM (List.replicate settings.markovM 0) fun currentQueries ii =>
    some (assign currentQueries ii (subscript call.array ii))

def countQueries (call : StoreCall settings) (frequencyArray : List ℚ) : Option (List ℚ) :=
  forLoop (settings.markovM + 1) call.histNum frequencyArray fun frequencyArray ii2 => do
    let queryPattern ← dtoi4 (subscript call.array ii2)
    some (assign frequencyArray queryPattern.toNat
        (subscript frequencyArray queryPattern.toNat + 1))

def sumFrequencies (patternNum : Nat) (frequencyArray : List ℚ) : Option Int :=
  forLoop 1 patternNum 0 fun currentSumFreq ii3 =>
    dtoi4 (currentSumFreq + subscript frequencyArray ii3)

def computeDistribution (patternNum : Nat) (frequencyArray : List ℚ) (currentSumFreq : Int) :
    Option (List ℚ) :=
  if currentSumFreq ≠ 0 then
    forLoop 1 patternNum (List.replicate patternNum 0) fun distributionArray ii3 =>
      some (assign distributionArray ii3
        (text.rounding.round (subscript frequencyArray ii3 / currentSumFreq)))
  else some (List.replicate patternNum 0)

def hashNum (table : List MarkovTuple) (currentHash : Int) : Nat :=
  table.countP (·.histQueryHash = currentHash)

/-- What is stored for the state, if anything is. -/
def selectFrequency (patternNum : Nat) (table : List MarkovTuple) (currentHash : Int) : List ℚ :=
  if hashNum table currentHash > 0 then
    match table.find? (·.histQueryHash = currentHash) with
    | some row => row.frequentQuery
    | none => []
  else List.replicate patternNum 0

def insertOrUpdate (table : List MarkovTuple) (row : MarkovTuple) : List MarkovTuple :=
  if hashNum table row.histQueryHash = 0 then table ++ [row]
  else table.map fun tuple =>
    if tuple.histQueryHash = row.histQueryHash then
      {tuple with distributionQuery := row.distributionQuery,frequentQuery := row.frequentQuery}
    else tuple

def imdbGetQueriesDistributionK (table : List MarkovTuple) (call : StoreCall settings) : Option
    (List MarkovTuple) := do
  let currentQueries ← getCurrentQueries call
  let currentHash := hash (← statementArray text currentQueries)
  let frequencyArray ← countQueries call (selectFrequency settings.patternNum table currentHash)
  let currentSumFreq ← sumFrequencies settings.patternNum frequencyArray
  let distributionArray ← computeDistribution text settings.patternNum frequencyArray currentSumFreq
  let distributionQuery ← statementArray text distributionArray
  let frequentQuery ← statementArray text frequencyArray
  some (insertOrUpdate table ⟨currentHash,distributionQuery,frequentQuery⟩)

def StoreCall.firstQueries (call : StoreCall settings) : List ℚ :=
  (call.histQueries.take settings.markovM).map Nat.cast

def StoreCall.laterQueries (call : StoreCall settings) : List Nat :=
  (call.histQueries.take call.histNum).drop settings.markovM

/-- The call as the table of distributions sees it. -/
def StoreCall.toDistributionCall (call : StoreCall settings) :
    DistributionCall settings.patternNum where
  markovM := settings.markovM
  histQueries := call.histQueries.take call.histNum
  coversState := by
    have beyondState := call.beyondState
    rw [List.length_take,Nat.min_eq_left call.given]
    omega
  inRange := fun pattern member => call.inRange pattern (List.mem_of_mem_take member)

end Call

/-! What the parts of a call compute. -/

theorem rint_natCast (n : Nat) : JoinPrecheck.rint n = n := by
  have below : (n : ℚ).floor = n := by exact_mod_cast Rat.floor_intCast (n : Int)
  rw [JoinPrecheck.rint]
  simp [below]

theorem dtoi4_natCast (n : Nat) : dtoi4 n = if n ≤ int4Max then some (n : Int) else none := by
  have nonneg : ¬(n : ℚ) < -2147483648 := by
    have positive : (0 : ℚ) ≤ n := Nat.cast_nonneg n
    linarith
  rw [dtoi4,rint_natCast,Rat.num_natCast]
  by_cases fits : n ≤ int4Max
  · have fits' : ¬(n : ℚ) > int4Max := by exact_mod_cast fits.not_gt
    rw [if_neg (by tauto),if_pos fits]
  · have exceeds : (n : ℚ) > int4Max := by exact_mod_cast Nat.lt_of_not_le fits
    rw [if_pos (.inr exceeds),if_neg fits]

section Parts

variable {settings : Settings} (call : StoreCall settings)

theorem StoreCall.length_array : call.array.length = call.histQueries.length := List.length_map ..

theorem StoreCall.inRange_nextQueries (pattern : Nat)
    (member : pattern ∈ call.toDistributionCall.nextQueries) :
    1 ≤ pattern ∧ pattern ≤ settings.patternNum :=
  call.toDistributionCall.inRange pattern (List.mem_of_mem_drop member)

theorem StoreCall.currentQueries_eq :
    call.toDistributionCall.currentQueries = call.firstQueries := by
  change ((call.histQueries.take call.histNum).take settings.markovM).map Nat.cast = _
  rw [List.take_take,Nat.min_eq_left call.beyondState.le]
  rfl

theorem getCurrentQueries_eq :
    getCurrentQueries call = some call.toDistributionCall.currentQueries := by
  have within : settings.markovM ≤ call.array.length := by
    have beyondState := call.beyondState
    have given := call.given
    rw [call.length_array]
    omega
  have state := map_subscript call.array 0 settings.markovM within
  rw [Nat.zero_add,Nat.sub_zero,List.drop_zero] at state
  rw [getCurrentQueries,forLoop_assign,state,call.currentQueries_eq,StoreCall.array,← List.map_take]
  rfl

theorem countQueries_eq (frequencyArray : List ℚ) :
    countQueries call frequencyArray =
      some (call.toDistributionCall.nextQueries.foldl countQuery frequencyArray) := by
  have loop :=
    forLoop_subscript call.array settings.markovM call.histNum
      (call.length_array ▸ call.given) frequencyArray
    fun frequencyArray query => do
      let queryPattern ← dtoi4 query
      some (assign frequencyArray queryPattern.toNat
          (subscript frequencyArray queryPattern.toNat + 1))
  have later : (call.array.take call.histNum).drop settings.markovM =
    call.toDistributionCall.nextQueries.map (↑) := by
    rw [StoreCall.array,← List.map_take,← List.map_drop]
    rfl
  rw [later,List.foldlM_map] at loop
  refine loop.trans (foldlM_some _ _ countQuery ?_ frequencyArray)
  intro counted pattern member
  have small : pattern ≤ int4Max :=
    (call.inRange_nextQueries pattern member).2.trans settings.isInt4
  rw [dtoi4_natCast,if_pos small]
  rfl

/-- The sum loop over counts fails exactly when the total is no `int`. -/
theorem foldlM_dtoi4 (counts : List Nat) (start : Nat) (fits : start ≤ int4Max) :
    counts.foldlM (fun (total : Int) (count : Nat) => dtoi4 (total + count)) (start : Int) =
      if start + counts.sum ≤ int4Max then some ((start + counts.sum : Nat) : Int) else none := by
  induction counts generalizing start with
  | nil => simp [fits]
  | cons count counts ih =>
    have next : ((start : Int) : ℚ) + count = (start + count : Nat) := by push_cast; rfl
    rw [List.foldlM_cons,next,dtoi4_natCast,List.sum_cons,← Nat.add_assoc]
    by_cases within : start + count ≤ int4Max
    · rw [if_pos within]
      exact ih _ within
    · rw [if_neg within,if_neg (by omega)]
      rfl

end Parts

theorem sumFrequencies_frequencies (patternNum : Nat) (patterns : List Nat)
    (inRange : ∀ pattern ∈ patterns, 1 ≤ pattern ∧ pattern ≤ patternNum) :
    sumFrequencies patternNum (frequencies patternNum patterns) =
      if patterns.length ≤ int4Max then some (patterns.length : Int) else none := by
  have length := length_frequencies patternNum patterns
  have loop := forLoop_subscript (frequencies patternNum patterns) 0 patternNum length.ge (0 : Int)
    fun currentSumFreq frequency => dtoi4 (currentSumFreq + frequency)
  have total :=
    foldlM_dtoi4 ((List.range patternNum).map fun place => patterns.count (place + 1))
      0 (Nat.zero_le _)
  rw [sum_counts patternNum patterns inRange,Nat.zero_add] at total
  rw [List.take_of_length_le length.le,List.drop_zero,frequencies_eq_map,List.foldlM_map] at loop
  rw [frequencies_eq_map]
  exact loop.trans total

theorem computeDistribution_eq (text : NumberText) (frequencyArray : List ℚ) (currentSumFreq : Int)
    (sum : (currentSumFreq : ℚ) = frequencyArray.sum) :
    computeDistribution text frequencyArray.length frequencyArray currentSumFreq =
      some ((distributionOf frequencyArray).map text.rounding.round) := by
  rw [computeDistribution,distributionOf,forLoop_assign,← sum]
  have shares : (List.range' 1 frequencyArray.length).map (fun ii3 =>
      text.rounding.round (subscript frequencyArray ii3 / (currentSumFreq : ℚ))) =
      (frequencyArray.map (· / (currentSumFreq : ℚ))).map text.rounding.round := by
    have elements := congrArg (List.map fun frequency =>
      text.rounding.round (frequency / (currentSumFreq : ℚ))) (map_subscript_all frequencyArray)
    rw [List.map_map] at elements
    rw [List.map_map]
    exact elements
  rw [shares]
  by_cases empty : currentSumFreq = 0
  · rw [if_neg (not_not.mpr empty),if_neg (by simp [empty]),List.map_replicate,
      text.rounding.representable_zero]
  · rw [if_pos empty,if_pos (by exact_mod_cast empty)]

/-! The rows against the calls that filled them. -/

section Rows

variable {patternNum : Nat} (text : NumberText) (hash : List ℚ → Int)

/-- Hashes of the states of the calls, in the order in which they first occur. -/
def stateHashes (calls : List (DistributionCall patternNum)) : List Int :=
  distinct (calls.map fun call => hash call.currentQueries)

def tupleOf (calls : List (DistributionCall patternNum)) (key : Int) : MarkovTuple where
  histQueryHash := key
  distributionQuery :=
    (distributionOf (frequencies patternNum (followers hash calls key))).map text.stored
  frequentQuery := frequencies patternNum (followers hash calls key)

/-- One row for each state hash of the calls, with what they have taught. -/
def storedRows (calls : List (DistributionCall patternNum)) : List MarkovTuple :=
  (stateHashes hash calls).map (tupleOf text hash calls)

theorem mem_stateHashes (calls : List (DistributionCall patternNum)) (key : Int) :
    key ∈ stateHashes hash calls ↔ ∃ call ∈ calls, hash call.currentQueries = key := by
  rw [stateHashes,mem_distinct,List.mem_map]

theorem hashNum_storedRows (calls : List (DistributionCall patternNum)) (key : Int) :
    hashNum (storedRows text hash calls) key = 0 ↔ key ∉ stateHashes hash calls := by
  rw [hashNum,storedRows,List.countP_map,List.countP_eq_zero]
  constructor
  · intro absent member
    exact absent key member (decide_eq_true rfl)
  · intro unseen other member same
    exact unseen (of_decide_eq_true same ▸ member)

theorem find?_storedRows (calls : List (DistributionCall patternNum)) (key : Int) :
    (storedRows text hash calls).find? (·.histQueryHash = key) =
      if key ∈ stateHashes hash calls then some (tupleOf text hash calls key) else none := by
  rw [storedRows,List.find?_map]
  change Option.map _ ((stateHashes hash calls).find? fun other => decide (other = key)) = _
  cases found : (stateHashes hash calls).find? fun other => decide (other = key) with
  | none =>
    have unseen : key ∉ stateHashes hash calls :=
      fun member => List.find?_eq_none.mp found key member (decide_eq_true rfl)
    rw [if_neg unseen]
    rfl
  | some other =>
    have matched := List.find?_some found
    obtain rfl := of_decide_eq_true matched
    rw [if_pos (List.mem_of_find?_eq_some found)]
    rfl

theorem selectFrequency_storedRows (calls : List (DistributionCall patternNum)) (key : Int) :
    selectFrequency patternNum (storedRows text hash calls) key = frequencies patternNum
      (followers hash calls key) := by
  unfold selectFrequency
  split_ifs with stored
  · have member : key ∈ stateHashes hash calls := by
      by_contra unseen
      exact stored.ne' ((hashNum_storedRows text hash calls key).mpr unseen)
    rw [find?_storedRows,if_pos member]
    rfl
  · have unseen := (hashNum_storedRows text hash calls key).mp (Nat.eq_zero_of_not_pos stored)
    rw [followers_unseen hash calls key,frequencies_nil]
    simpa [mem_stateHashes] using unseen

theorem tupleOf_other (calls : List (DistributionCall patternNum))
    (call : DistributionCall patternNum) (key : Int) (other : hash call.currentQueries ≠ key) :
    tupleOf text hash (calls ++ [call]) key = tupleOf text hash calls key := by
  rw [tupleOf,followers_append,if_neg other,List.append_nil]
  rfl

theorem insertOrUpdate_storedRows (calls : List (DistributionCall patternNum))
    (call : DistributionCall patternNum) :
    insertOrUpdate (storedRows text hash calls)
      (tupleOf text hash (calls ++ [call]) (hash call.currentQueries)) = storedRows text hash
      (calls ++ [call]) := by
  have keys :
    stateHashes hash (calls ++ [call]) = if hash call.currentQueries ∈ stateHashes hash calls then
      stateHashes hash calls else stateHashes hash calls ++ [hash call.currentQueries] := by
    rw [stateHashes,List.map_append]
    exact distinct_concat _ _
  have stored : hashNum (storedRows text hash calls)
      (tupleOf text hash (calls ++ [call]) (hash call.currentQueries)).histQueryHash = 0 ↔
      hash call.currentQueries ∉ stateHashes hash calls := hashNum_storedRows text hash calls _
  unfold insertOrUpdate
  by_cases seen : hash call.currentQueries ∈ stateHashes hash calls
  · rw [if_neg fun unseen => stored.mp unseen seen,storedRows,storedRows,keys,if_pos seen,
      List.map_map]
    apply List.map_congr_left
    intro key member
    by_cases same : key = hash call.currentQueries
    · subst same
      exact if_pos rfl
    · rw [tupleOf_other text hash calls call key fun equal => same equal.symm]
      exact if_neg same
  · rw [if_pos (stored.mpr seen),storedRows,storedRows,keys,if_neg seen,
      List.map_append]
    congr 1
    apply List.map_congr_left
    intro key member
    rw [tupleOf_other text hash calls call key fun equal => seen (equal ▸ member)]

end Rows

section Step

variable {settings : Settings} (text : NumberText) (hash : List ℚ → Int)

/-- Whole numbers are not changed by the text. -/
theorem statementArray_whole (numbers : List Nat) (small : ∀ number ∈ numbers, number ≤ int4Max) :
    statementArray text (numbers.map Nat.cast) = if numbers = [] then none
      else some (numbers.map Nat.cast) := by
  have same : (numbers.map Nat.cast).map text.readBack = numbers.map Nat.cast := by
    rw [List.map_map]
    apply List.map_congr_left
    intro number member
    exact text.whole number ((small number member).trans_lt (by decide))
  rw [statementArray,same]
  simp only [List.map_eq_nil_iff]

theorem StoreCall.patternNum_pos (call : StoreCall settings) : 0 < settings.patternNum := by
  have beyondState := call.beyondState
  have given := call.given
  obtain ⟨positive,bounded⟩ := call.inRange (call.histQueries.get ⟨0,by omega⟩) (List.get_mem ..)
  omega

theorem statementArray_state (call : StoreCall settings) :
    statementArray text call.toDistributionCall.currentQueries =
      if 0 < settings.markovM then some call.toDistributionCall.currentQueries else none := by
  have beyondState := call.beyondState
  have given := call.given
  have small : ∀ pattern ∈ call.histQueries.take settings.markovM, pattern ≤ int4Max := by
    intro pattern member
    exact (call.inRange pattern (List.mem_of_mem_take member)).2.trans settings.isInt4
  have length : (call.histQueries.take settings.markovM).length = settings.markovM := by
    rw [List.length_take]
    omega
  rw [call.currentQueries_eq]
  refine (statementArray_whole text _ small).trans ?_
  by_cases positive : 0 < settings.markovM
  · rw [if_neg (List.ne_nil_of_length_pos (by omega)),if_pos positive]
    rfl
  · rw [if_pos (List.eq_nil_of_length_eq_zero (by omega)),if_neg positive]

theorem statementArray_frequencies (positive : 0 < settings.patternNum) (patterns : List Nat)
    (fits : patterns.length ≤ int4Max) :
    statementArray text (frequencies settings.patternNum patterns) =
      some (frequencies settings.patternNum patterns) := by
  rw [frequencies_eq_map,statementArray_whole,if_neg]
  · apply List.ne_nil_of_length_pos
    rwa [List.length_map,List.length_range]
  · intro count member
    obtain ⟨place,_,rfl⟩ := List.mem_map.mp member
    exact List.count_le_length.trans fits

theorem statementArray_distribution (positive : 0 < settings.patternNum) (patterns : List Nat) :
    statementArray text ((distributionOf (frequencies settings.patternNum patterns)).map
        text.rounding.round) =
      some ((distributionOf (frequencies settings.patternNum patterns)).map text.stored) := by
  rw [statementArray,if_neg,List.map_map]
  · rfl
  · apply List.ne_nil_of_length_pos
    rwa [List.length_map,length_distributionOf,length_frequencies]

theorem computeDistribution_frequencies (patternNum : Nat) (patterns : List Nat)
    (inRange : ∀ pattern ∈ patterns, 1 ≤ pattern ∧ pattern ≤ patternNum) :
    computeDistribution text patternNum (frequencies patternNum patterns) patterns.length =
      some ((distributionOf (frequencies patternNum patterns)).map text.rounding.round) := by
  have computed := computeDistribution_eq text (frequencies patternNum patterns) patterns.length
    (by rw [frequencies_sum patternNum patterns inRange,Int.cast_natCast])
  rwa [length_frequencies] at computed

/-- A call on the rows of earlier calls leaves the rows of all of them. It fails on an empty state
and when the queries counted for its state are too many for an `int`. -/
theorem imdbGetQueriesDistributionK_storedRows (calls : List (DistributionCall settings.patternNum))
    (call : StoreCall settings) :
    imdbGetQueriesDistributionK text hash (storedRows text hash calls) call =
      if 0 < settings.markovM ∧ (followers hash (calls ++ [call.toDistributionCall])
          (hash call.toDistributionCall.currentQueries)).length ≤ int4Max then
        some (storedRows text hash (calls ++ [call.toDistributionCall]))
      else none := by
  have counted : countQueries call (frequencies settings.patternNum
      (followers hash calls (hash call.toDistributionCall.currentQueries))) =
      some (frequencies settings.patternNum (followers hash (calls ++ [call.toDistributionCall])
        (hash call.toDistributionCall.currentQueries))) := by
    rw [countQueries_eq,foldl_countQuery _ _ call.inRange_nextQueries,followers_append,if_pos rfl]
  have inRange :=
    followers_inRange hash (calls ++ [call.toDistributionCall])
      (hash call.toDistributionCall.currentQueries)
  simp only [imdbGetQueriesDistributionK,getCurrentQueries_eq,Option.bind_eq_bind,Option.bind_some,
    statementArray_state]
  by_cases positive : 0 < settings.markovM
  · simp only [if_pos positive,Option.bind_some]
    rw [selectFrequency_storedRows,counted,Option.bind_some,sumFrequencies_frequencies _ _ inRange]
    by_cases fits : (followers hash (calls ++ [call.toDistributionCall])
        (hash call.toDistributionCall.currentQueries)).length ≤ int4Max
    · rw [if_pos fits,if_pos ⟨positive,fits⟩,Option.bind_some,
        computeDistribution_frequencies text _ _ inRange,Option.bind_some,
        statementArray_distribution text call.patternNum_pos,Option.bind_some,
        statementArray_frequencies text call.patternNum_pos _ fits,Option.bind_some]
      exact congrArg some (insertOrUpdate_storedRows text hash calls call.toDistributionCall)
    · rw [if_neg fits,if_neg fun both => fits both.2]
      rfl
  · rw [if_neg positive,if_neg fun both => positive both.1]
    rfl

end Step

end ExploratoryOptimizer.Aqo.MarkovStore
