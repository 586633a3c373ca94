import ExploratoryOptimizer.Aqo.QueryHistory
import ExploratoryOptimizer.Aqo.HashAny
import Mathlib.Algebra.BigOperators.Ring.Finset

/-! `aqo_markov_table`: written by the SQL function `imdb_get_queries_distribution_k`, read by
`load_query_distribution` of storage.c when a template query is planned. Both sides hash a sequence
of templates with the same function, a parameter here. -/
namespace ExploratoryOptimizer.Aqo.MarkovTable
open OkNNr Session QueryHistory Library.Window

structure MarkovRow where
  distributionQuery : List ℚ
  frequentQuery : List ℚ
  deriving DecidableEq

/-- `hist_num` is the length of `hist_queries`, which covers the state and holds templates only. -/
structure DistributionCall (patternNum : Nat) where
  markovM : Nat
  histQueries : List Nat
  coversState : markovM ≤ histQueries.length
  inRange : ∀ pattern ∈ histQueries, 1 ≤ pattern ∧ pattern ≤ patternNum

namespace DistributionCall

variable {patternNum : Nat}

def currentQueries (call : DistributionCall patternNum) : List ℚ :=
  (call.histQueries.take call.markovM).map (↑)

def nextQueries (call : DistributionCall patternNum) : List Nat :=
  call.histQueries.drop call.markovM

end DistributionCall

def countQuery (frequencyArray : List ℚ) (queryPattern : Nat) : List ℚ :=
  -- SQL arrays are indexed from 1.
  frequencyArray.set (queryPattern - 1) (frequencyArray.getD (queryPattern - 1) 0 + 1)

def distributionOf (frequencyArray : List ℚ) : List ℚ :=
  if frequencyArray.sum ≠ 0 then frequencyArray.map (· / frequencyArray.sum)
  else List.replicate frequencyArray.length 0

theorem length_distributionOf (frequencyArray : List ℚ) :
    (distributionOf frequencyArray).length = frequencyArray.length := by
  unfold distributionOf
  split_ifs
  · exact List.length_map ..
  · exact List.length_replicate

section Table

variable {patternNum : Nat} (hash : List ℚ → Int)

def imdbGetQueriesDistributionK (table : Int → Option MarkovRow)
    (call : DistributionCall patternNum) :
    Int → Option MarkovRow :=
  let currentHash := hash call.currentQueries
  let stored := match table currentHash with
    | some row => row.frequentQuery
    | none => List.replicate patternNum 0
  let frequencyArray := call.nextQueries.foldl countQuery stored
  Function.update table currentHash (some ⟨distributionOf frequencyArray,frequencyArray⟩)

def markovTable (calls : List (DistributionCall patternNum)) : Int → Option MarkovRow :=
  calls.foldl (imdbGetQueriesDistributionK hash) fun _ => none

/-- What the planner sees of the table. -/
def distributions (table : Int → Option MarkovRow) (key : Int) : Option (List ℚ) :=
  (table key).map (·.distributionQuery)

/-! What a table holds, as a function of the calls that filled it. -/

/-- Queries seen after the states with the given hash. -/
def followers (calls : List (DistributionCall patternNum)) (key : Int) : List Nat :=
  (calls.filter fun call => hash call.currentQueries = key).flatMap (·.nextQueries)

def frequencies (patternNum : Nat) (patterns : List Nat) : List ℚ :=
  (List.range patternNum).map fun place => (patterns.count (place + 1) : ℚ)

/-- The estimate for the state hash: uniform until a call has had a state with this hash. -/
def learnedDistribution (calls : List (DistributionCall patternNum)) (key : Int) : List ℚ :=
  if calls.any fun call => hash call.currentQueries = key then
    distributionOf (frequencies patternNum (followers hash calls key))
  else List.replicate numQueryPattern (1 / (numQueryPattern : ℚ))

theorem frequencies_nil (patternNum : Nat) :
    frequencies patternNum [] = List.replicate patternNum 0 := by
  simp [frequencies]

/-- Every pattern is counted at its own place. -/
theorem sum_counts (patternNum : Nat) (patterns : List Nat)
    (inRange : ∀ pattern ∈ patterns, 1 ≤ pattern ∧ pattern ≤ patternNum) :
    ((List.range patternNum).map fun place => patterns.count (place + 1)).sum =
      patterns.length := by
  have counted :=
    Multiset.sum_count_eq_card (s := (Finset.range patternNum).map ⟨(· + 1),add_left_injective 1⟩)
      (m := (patterns : Multiset Nat)) ?_
  · simp only [Finset.sum_map,Multiset.coe_count,Multiset.coe_card] at counted
    exact counted
  · intro pattern member
    obtain ⟨positive,bounded⟩ := inRange pattern (Multiset.mem_coe.mp member)
    rw [Finset.mem_map]
    exact ⟨pattern - 1,Finset.mem_range.mpr (by omega),Nat.sub_add_cancel positive⟩

theorem frequencies_eq_map (patternNum : Nat) (patterns : List Nat) :
    frequencies patternNum patterns =
      ((List.range patternNum).map fun place => patterns.count (place + 1)).map Nat.cast := by
  rw [List.map_map]
  rfl

theorem length_frequencies (patternNum : Nat) (patterns : List Nat) :
    (frequencies patternNum patterns).length = patternNum := by
  rw [frequencies,List.length_map,List.length_range]

theorem frequencies_sum (patternNum : Nat) (patterns : List Nat)
    (inRange : ∀ pattern ∈ patterns, 1 ≤ pattern ∧ pattern ≤ patternNum) :
    (frequencies patternNum patterns).sum = patterns.length := by
  rw [frequencies_eq_map,← Nat.cast_list_sum,sum_counts patternNum patterns inRange]

theorem frequencies_nonneg (patternNum : Nat) (patterns : List Nat) (frequency : ℚ)
    (member : frequency ∈ frequencies patternNum patterns) : 0 ≤ frequency := by
  obtain ⟨place,_,rfl⟩ := List.mem_map.mp member
  exact Nat.cast_nonneg _

theorem countQuery_frequencies (patterns : List Nat) (pattern : Nat) (positive : 1 ≤ pattern)
    (bounded : pattern ≤ patternNum) :
    countQuery (frequencies patternNum patterns) pattern = frequencies patternNum
      (patterns ++ [pattern]) := by
  apply List.ext_getElem
  · simp [countQuery,frequencies]
  · intro place inside inside'
    have below : place < patternNum := by simpa [frequencies] using inside'
    have entry :
      (frequencies patternNum patterns).getD (pattern - 1) 0 = (patterns.count pattern : ℚ) := by
      have inRange : pattern - 1 < patternNum := by omega
      simp [frequencies,List.getD_eq_getElem?_getD,inRange,Nat.sub_add_cancel positive]
    simp only [countQuery,entry]
    by_cases here : pattern - 1 = place
    · subst here
      simp [frequencies,Nat.sub_add_cancel positive]
    · have other : pattern ≠ place + 1 := by omega
      simp [here,frequencies,List.count_singleton,other]

theorem foldl_countQuery (before patterns : List Nat)
    (inRange : ∀ pattern ∈ patterns, 1 ≤ pattern ∧ pattern ≤ patternNum) :
    patterns.foldl countQuery (frequencies patternNum before) = frequencies patternNum
      (before ++ patterns) := by
  induction patterns generalizing before with
  | nil => simp
  | cons pattern patterns ih =>
    obtain ⟨positive,bounded⟩ := inRange pattern (by simp)
    rw [List.foldl_cons,countQuery_frequencies before pattern positive bounded,
      ih _ fun other member => inRange other (by simp [member]),List.append_assoc]
    rfl

theorem followers_append (calls : List (DistributionCall patternNum))
    (call : DistributionCall patternNum) (key : Int) :
    followers hash (calls ++ [call]) key =
      followers hash calls key ++ if hash call.currentQueries = key then call.nextQueries
      else [] := by
  rw [followers,List.filter_append,List.flatMap_append]
  by_cases same : hash call.currentQueries = key
  · simp [same,followers]
  · simp [same,followers]

theorem followers_inRange (calls : List (DistributionCall patternNum)) (key : Int) (pattern : Nat)
    (member : pattern ∈ followers hash calls key) : 1 ≤ pattern ∧ pattern ≤ patternNum := by
  obtain ⟨call,_,next⟩ := List.mem_flatMap.mp member
  exact call.inRange pattern (List.mem_of_mem_drop next)

theorem followers_unseen (calls : List (DistributionCall patternNum)) (key : Int)
    (unseen : ¬calls.any fun call => hash call.currentQueries = key) :
    followers hash calls key = [] := by
  have none_left : calls.filter (fun call => hash call.currentQueries = key) = [] := by
    apply List.filter_eq_nil_iff.mpr
    intro call member same
    exact unseen (List.any_eq_true.mpr ⟨call,member,same⟩)
  rw [followers,none_left]
  rfl

theorem markovTable_row (calls : List (DistributionCall patternNum)) (key : Int) :
    markovTable hash calls key =
      if calls.any fun call => hash call.currentQueries = key then
        some ⟨distributionOf (frequencies patternNum (followers hash calls key)),
          frequencies patternNum (followers hash calls key)⟩
      else none := by
  induction calls using List.reverseRecOn generalizing key with
  | nil => rfl
  | append_singleton calls call ih =>
    have stored : (match markovTable hash calls (hash call.currentQueries) with
        | some row => row.frequentQuery
        | none => List.replicate patternNum 0) =
        frequencies patternNum (followers hash calls (hash call.currentQueries)) := by
      rw [ih]
      split_ifs with seen
      · rfl
      · rw [followers_unseen hash calls _ seen,frequencies_nil]
    have counted :=
      foldl_countQuery (followers hash calls (hash call.currentQueries)) call.nextQueries
        fun pattern member => call.inRange pattern (List.mem_of_mem_drop member)
    rw [markovTable,List.foldl_append,List.foldl_cons,List.foldl_nil,← markovTable,
      imdbGetQueriesDistributionK]
    rw [stored,counted,followers_append,List.any_append]
    by_cases same : key = hash call.currentQueries
    · subst same
      simp
    · have other : hash call.currentQueries ≠ key := fun equal => same equal.symm
      rw [Function.update_of_ne same,ih]
      simp [other]

theorem distributions_learned (calls : List (DistributionCall patternNum)) (key : Int) :
    (distributions (markovTable hash calls) key).getD
      (List.replicate numQueryPattern (1 / (numQueryPattern : ℚ))) =
      learnedDistribution hash calls key := by
  rw [distributions,markovTable_row,learnedDistribution]
  split_ifs
  · rfl
  · rfl

end Table

section Lookup

variable (arith : Arithmetic)

theorem undisturbed_append (session : SessionState) (history later : List Event)
    (undisturbed : Undisturbed arith session (history ++ later)) :
    Undisturbed arith session history := by
  induction history generalizing session with
  | nil => trivial
  | cons event history ih => exact ⟨undisturbed.1,ih (step arith session event) undisturbed.2⟩

theorem loadQueryDistribution_full (tables : Tables) (fspaceHash : Int) :
    loadQueryDistribution tables fspaceHash numHistoryDataComputeProbabilityFs =
      (tables.markov fspaceHash).getD
      (List.replicate numQueryPattern (1 / (numQueryPattern : ℚ))) := by
  rw [loadQueryDistribution,if_neg (Nat.lt_irrefl _)]

theorem aqoPlanner_queryDistribution (tables : Tables) (context : QueryContext) (query : QueryInfo)
    (template : Nat) (taken : plannedTemplate query = some template) (row : QueryRow)
    (stored : tables.queries 1 = some row) :
    (aqoPlanner arith .learn tables context query).1.queryDistribution =
      loadQueryDistribution tables row.fspaceHash (pushHistory row template).numHistory := by
  unfold plannedTemplate at taken
  split_ifs at taken with untaken
  obtain rfl := Option.some.inj taken
  rw [not_or] at untaken
  unfold aqoPlanner
  dsimp only
  rw [if_neg (by simpa using untaken.1),if_neg untaken.2,stored]
  cases query.inRecovery with
  | false => rfl
  | true => rfl

/-- The last templates, as the doubles that are hashed. -/
def lastTemplates (templates : List Nat) : List ℚ :=
  (templates.rtake numHistoryDataComputeProbabilityFs).map (↑)

end Lookup

/-! One call that saw template 4 follow 1, 2, 3 four times, and a session about to plan template 3
after 1 and 2. -/

def followedByFour : DistributionCall numQueryPattern := ⟨3,[1,2,3,4,4,4,4],by decide,by decide⟩

def taughtSession (calls : List (DistributionCall numQueryPattern)) : SessionState :=
  {emptySession with tables :=
    ⟨fun _ => none,fun _ => none,distributions (markovTable HashAny.getIntArrayHash2 calls)⟩}

def twoTemplates : List Event := [templatePlan 1370653224,templatePlan 164935887]

end ExploratoryOptimizer.Aqo.MarkovTable
