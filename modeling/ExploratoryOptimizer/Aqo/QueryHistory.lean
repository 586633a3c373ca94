import ExploratoryOptimizer.Aqo.Session
import ExploratoryOptimizer.Library.Window

/-! The query history of `aqo_planner` over a session in learn mode. All templates share one row of
`aqo_queries`, which is inserted by the first of them and rewritten by every later one. The column
`total_num` is an `int4` and wraps. -/
namespace ExploratoryOptimizer.Aqo.QueryHistory
open OkNNr Session Library.Window

def plannedTemplate (query : QueryInfo) : Option Nat :=
  if query.excluded ∨ templateOf query.hash = 0 then none else some (templateOf query.hash)

/-- Template ids in planning order. -/
def plannedTemplates (history : List Event) : List Nat :=
  history.filterMap fun
    | .plan query _ => plannedTemplate query
    | _ => none

/-- Columns of the row that only the planner writes. -/
def bookkeeping (row : QueryRow) : List ℚ × Nat × Int32 × Int :=
  (row.queryHistory,row.numHistory,row.totalNum,row.fspaceHash)

/-- No other writer changes those columns, and no query is planned on a standby, which cannot
write the table. -/
def Undisturbed (arith : Arithmetic) (session : SessionState) : List Event → Prop
  | [] => True
  | event :: history => (match event with
      | .plan query _ => query.inRecovery = false
      | .service tables =>
        (tables.queries 1).map bookkeeping = (session.tables.queries 1).map bookkeeping
      | _ => True) ∧ Undisturbed arith (step arith session event) history

structure HoldsWindow (templates : List Nat) (row : QueryRow) : Prop where
  length : row.queryHistory.length = numHistoryDataComputeProbabilityFs
  numHistory : row.numHistory = min templates.length numHistoryDataComputeProbabilityFs
  totalNum : row.totalNum = Int32.ofNat templates.length
  window : row.queryHistory.take row.numHistory = (templates.rtake row.numHistory).map (↑)
  fspaceHash : row.fspaceHash = 1

def Tracks (templates : List Nat) (stored : Option QueryRow) : Prop :=
  match stored with
  | none => templates = []
  | some row => templates ≠ [] ∧ HoldsWindow templates row

theorem firstRow_holdsWindow (context : QueryContext) (space : context.fspaceHash = 1) :
    HoldsWindow [context.currentQueryHash] (firstRow context) :=
  ⟨rfl,rfl,rfl,rfl,space⟩

theorem pushHistory_holdsWindow (templates : List Nat) (row : QueryRow) (template : Nat)
    (holds : HoldsWindow templates row) :
    HoldsWindow (templates ++ [template]) (pushHistory row template) := by
  have size : (templates ++ [template]).length = templates.length + 1 := by simp
  unfold pushHistory
  by_cases room : row.numHistory < numHistoryDataComputeProbabilityFs
  · have used : row.numHistory = templates.length := by rw [holds.numHistory] at room ⊢; omega
    rw [if_pos room]
    refine ⟨?_,?_,?_,?_,holds.fspaceHash⟩
    · rw [List.length_set,holds.length]
    · rw [size,← used]
      exact (Nat.min_eq_left room).symm
    · rw [size,holds.totalNum,Int32.ofNat_add]
      rfl
    · rw [take_set_next _ _ _ (by rw [holds.length]; exact room),holds.window,used,
        rtake_of_le _ _ (Nat.le_refl _),← size,rtake_of_le _ _ (Nat.le_refl _),List.map_append]
      rfl
  · have used : row.numHistory = numHistoryDataComputeProbabilityFs := by
      rw [holds.numHistory] at room ⊢; omega
    have full : numHistoryDataComputeProbabilityFs ≤ templates.length := by
      rw [holds.numHistory] at room; omega
    have whole : row.queryHistory.take numHistoryDataComputeProbabilityFs = row.queryHistory := by
      rw [← holds.length,List.take_length]
    have nonempty : row.queryHistory ≠ [] := by
      rw [← List.length_pos_iff,holds.length]
      decide
    have shifted := shift_set_last row.queryHistory (template : ℚ) nonempty
    have window := holds.window
    rw [used,whole] at window
    rw [holds.length] at shifted
    rw [if_neg room]
    refine ⟨?_,?_,?_,?_,holds.fspaceHash⟩
    · rw [used,whole,shifted,List.length_append,List.length_tail,holds.length]
      rfl
    · rw [size,used]
      omega
    · rw [size,holds.totalNum,Int32.ofNat_add]
      rfl
    · rw [used,whole,shifted,window,rtake_push_full templates template _ (by decide) full,
        List.map_append,List.map_tail]
      apply List.take_of_length_le
      rw [List.length_append,List.length_tail,List.length_map,length_rtake,Nat.min_eq_right full]
      rfl

theorem bookkeeping_holdsWindow (templates : List Nat) (row row' : QueryRow)
    (same : bookkeeping row' = bookkeeping row) (holds : HoldsWindow templates row) :
    HoldsWindow templates row' := by
  simp only [bookkeeping,Prod.mk.injEq] at same
  obtain ⟨history,number,total,space⟩ := same
  constructor
  · rw [history,holds.length]
  · rw [number,holds.numHistory]
  · rw [total,holds.totalNum]
  · rw [history,number,holds.window]
  · rw [space,holds.fspaceHash]

theorem tracks_of_bookkeeping (templates : List Nat) (stored stored' : Option QueryRow)
    (same : stored'.map bookkeeping = stored.map bookkeeping) (tracks : Tracks templates stored) :
    Tracks templates stored' := by
  cases stored with
  | none =>
    cases stored' with
    | none => exact tracks
    | some row' => simp at same
  | some row =>
    cases stored' with
    | none => simp at same
    | some row' =>
      exact ⟨tracks.1,bookkeeping_holdsWindow templates row row' (Option.some.inj same) tracks.2⟩

section Planner

variable (arith : Arithmetic)

theorem aqoPlanner_other_tables (mode : AqoMode) (tables : Tables) (context : QueryContext)
    (query : QueryInfo) (other : plannedTemplate query = none) :
    (aqoPlanner arith mode tables context query).2 = tables := by
  have untaken : query.excluded ∨ templateOf query.hash = 0 := by
    by_contra taken
    simp [plannedTemplate,taken] at other
  unfold aqoPlanner
  dsimp only
  split_ifs with excluded unknown
  · rfl
  · rfl
  · exact absurd (untaken.resolve_left fun reason => excluded (.inl reason)) unknown

theorem planNew_learn_tables (tables : Tables) (context : QueryContext)
    (hash : context.queryHash = 1) :
    ∃ row, (planNew .learn tables context false).2.queries 1 = some row ∧
      HoldsWindow [context.currentQueryHash] row := by
  refine ⟨firstRow (firstSettings .learn context),?_,
    firstRow_holdsWindow (firstSettings .learn context) hash⟩
  simp [planNew,firstSettings,hash]

theorem planStored_tables (tables : Tables) (context : QueryContext) (row : QueryRow)
    (hash : context.queryHash = 1) :
    (planStored arith tables context row false).2.queries 1 =
      some (pushHistory row context.currentQueryHash) := by
  simp [planStored,hash]

theorem aqoPlanner_tracks (tables : Tables) (context : QueryContext) (query : QueryInfo)
    (template : Nat) (taken : plannedTemplate query = some template)
    (primary : query.inRecovery = false) (templates : List Nat)
    (tracks : Tracks templates (tables.queries 1)) :
    Tracks (templates ++ [template])
      ((aqoPlanner arith .learn tables context query).2.queries 1) := by
  unfold plannedTemplate at taken
  split_ifs at taken with untaken
  obtain rfl := Option.some.inj taken
  rw [not_or] at untaken
  unfold aqoPlanner
  dsimp only
  rw [if_neg (by simpa using untaken.1),if_neg untaken.2,primary]
  cases stored : tables.queries 1 with
  | none =>
    rw [stored] at tracks
    obtain rfl : templates = [] := tracks
    obtain ⟨row,inserted,holds⟩ := planNew_learn_tables tables
      {context with
      explainAqo := false, nfeatures := 0, currentQueryHash :=
        templateOf query.hash, queryHash := 1} rfl
    dsimp only
    rw [inserted]
    exact ⟨by simp,holds⟩
  | some row =>
    rw [stored] at tracks
    dsimp only
    rw [planStored_tables arith tables _ row rfl]
    exact ⟨by simp,pushHistory_holdsWindow templates row _ tracks.2⟩

theorem learnQueryStat_queries (session : SessionState) (queryDesc : Nat) (executionTime : ℚ)
    (learned : Models) :
    (learnQueryStat arith session queryDesc executionTime learned).tables.queries =
      session.tables.queries := by
  unfold learnQueryStat
  cases session.saved queryDesc with
  | none => rfl
  | some restored =>
    dsimp only
    split_ifs
    all_goals rfl

theorem step_tracks (session : SessionState) (learn : session.mode = .learn) (event : Event)
    (undisturbed : Undisturbed arith session [event]) (templates : List Nat)
    (tracks : Tracks templates (session.tables.queries 1)) :
    Tracks (templates ++ plannedTemplates [event])
      ((step arith session event).tables.queries 1) := by
  cases event with
  | plan query bestPathCost =>
    change Tracks _ ((aqoPlanner arith session.mode session.tables session.context query).2.queries
        1)
    rw [learn]
    cases taken : plannedTemplate query with
    | none =>
      rw [aqoPlanner_other_tables arith .learn session.tables session.context query taken]
      simpa [plannedTemplates,taken] using tracks
    | some template =>
      simpa [plannedTemplates,taken] using
        aqoPlanner_tracks arith session.tables session.context query template taken undisturbed.1
        templates tracks
  | executorStart queryDesc explainOnly => simpa [plannedTemplates,step] using tracks
  | executorEnd queryDesc executionTime learned =>
    simpa [plannedTemplates,step,learnQueryStat_queries] using tracks
  | service tables =>
    simpa [plannedTemplates,step] using tracks_of_bookkeeping templates _ _ undisturbed.1 tracks

theorem run_tracks (session : SessionState) (learn : session.mode = .learn) (history : List Event)
    (undisturbed : Undisturbed arith session history) (templates : List Nat)
    (tracks : Tracks templates (session.tables.queries 1)) :
    Tracks (templates ++ plannedTemplates history)
      ((run arith session history).tables.queries 1) := by
  induction history generalizing session templates with
  | nil => simpa [plannedTemplates,run] using tracks
  | cons event history ih =>
    have stepped := step_tracks arith session learn event ⟨undisturbed.1,trivial⟩ templates tracks
    have split : plannedTemplates (event :: history) = plannedTemplates [event] ++
      plannedTemplates history := by
      rw [plannedTemplates,← List.singleton_append,List.filterMap_append]
      rfl
    rw [split,← List.append_assoc]
    exact ih (step arith session event) ((step_mode arith session event).trans learn)
      undisturbed.2 _ stepped

/-- After every prefix of a session the row holds the window over the templates planned so far, and
their number as long as an `int4` can hold it; queries outside the templates leave every table as it
is. -/
theorem queryHistory_window (start : SessionState) (learn : start.mode = .learn)
    (empty : start.tables.queries 1 = none) (history : List Event)
    (undisturbed : Undisturbed arith start history) (planned : plannedTemplates history ≠ []) :
    (∃ row, (run arith start history).tables.queries 1 = some row ∧
      row.numHistory = min (plannedTemplates history).length numHistoryDataComputeProbabilityFs ∧
      row.totalNum = Int32.ofNat (plannedTemplates history).length ∧
      ((plannedTemplates history).length < 2 ^ 31 →
        row.totalNum.toInt = (plannedTemplates history).length) ∧
      row.queryHistory.take row.numHistory =
        ((plannedTemplates history).rtake row.numHistory).map (↑)) ∧
    ∀ session query bestPathCost, plannedTemplate query = none →
      (step arith session (.plan query bestPathCost)).tables = session.tables := by
  have tracks := run_tracks arith start learn history undisturbed [] (by rw [empty]; rfl)
  rw [List.nil_append] at tracks
  constructor
  · cases stored : (run arith start history).tables.queries 1 with
    | none =>
      rw [stored] at tracks
      exact absurd tracks planned
    | some row =>
      rw [stored] at tracks
      refine ⟨row,rfl,tracks.2.numHistory,tracks.2.totalNum,?_,tracks.2.window⟩
      intro few
      rw [tracks.2.totalNum,Int32.toInt_ofNat_of_lt few]
  · intro session query bestPathCost other
    exact aqoPlanner_other_tables arith session.mode session.tables session.context query other

end Planner

/-! Templates 1, 2, 3, 4 with another query among them: the window has moved on by one. -/

def emptySession : SessionState :=
  {learnSession with tables := ⟨fun _ => none,fun _ => none,fun _ => none⟩}

def templatePlan (hash : Int) : Event := .plan ⟨false,hash,false,2⟩ 70

def fourTemplates : List Event :=
  [templatePlan 1370653224,templatePlan 164935887,templatePlan 42,templatePlan (-1029517898),
    templatePlan 1392879147]

theorem queryHistory_window_four :
    ((run (.exact Rat.sqrt) emptySession fourTemplates).tables.queries 1).map bookkeeping =
      some ([2,3,4],3,4,1) ∧
      ∃ row, (run (.exact Rat.sqrt) emptySession fourTemplates).tables.queries 1 = some row ∧
        row.totalNum.toInt = 4 ∧
        row.queryHistory.take row.numHistory =
          ([1,2,3,4].rtake row.numHistory).map (Nat.cast : Nat → ℚ) := by
  obtain ⟨⟨row,stored,_,_,total,window⟩,_⟩ :=
    queryHistory_window (.exact Rat.sqrt) emptySession rfl rfl fourTemplates
      ⟨rfl,rfl,rfl,rfl,rfl,trivial⟩ (by decide)
  exact ⟨by decide +kernel,row,stored,total (by decide),window⟩

/-! One template planned again and again. -/

theorem undisturbed_replicate (arith : Arithmetic) (session : SessionState) (hash : Int) (n : Nat) :
    Undisturbed arith session (List.replicate n (templatePlan hash)) := by
  induction n generalizing session with
  | zero => trivial
  | succ n ih => exact ⟨rfl,ih _⟩

theorem plannedTemplates_replicate (hash : Int) (template : Nat)
    (taken : plannedTemplate ⟨false,hash,false,2⟩ = some template) (n : Nat) :
    plannedTemplates (List.replicate n (templatePlan hash)) = List.replicate n template := by
  induction n with
  | zero => rfl
  | succ n ih =>
    rw [List.replicate_succ,List.replicate_succ,← ih]
    exact List.filterMap_cons_some taken

theorem replicate_totalNum (n : Nat) (positive : 0 < n) :
    ∃ row, (run (.exact Rat.sqrt) emptySession
        (List.replicate n (templatePlan 1370653224))).tables.queries 1 = some row ∧
      (plannedTemplates (List.replicate n (templatePlan 1370653224))).length = n ∧
      row.totalNum = Int32.ofNat n := by
  have planned := plannedTemplates_replicate 1370653224 1 (by decide) n
  have tracks := run_tracks (.exact Rat.sqrt) emptySession rfl _
    (undisturbed_replicate (.exact Rat.sqrt) emptySession 1370653224 n) [] rfl
  rw [List.nil_append,planned] at tracks
  rw [planned,List.length_replicate]
  cases stored : (run (.exact Rat.sqrt) emptySession
      (List.replicate n (templatePlan 1370653224))).tables.queries 1 with
  | none =>
    rw [stored] at tracks
    have empty := congrArg List.length (tracks : List.replicate n 1 = [])
    rw [List.length_replicate] at empty
    exact absurd empty positive.ne'
  | some row =>
    rw [stored] at tracks
    have total := tracks.2.totalNum
    rw [List.length_replicate] at total
    exact ⟨row,rfl,rfl,total⟩

/-- After 2147483648 template queries the count is the least `int4`. -/
theorem total_num_wraps :
    ∃ row, (run (.exact Rat.sqrt) emptySession
        (List.replicate (2 ^ 31) (templatePlan 1370653224))).tables.queries 1 = some row ∧
      (plannedTemplates (List.replicate (2 ^ 31) (templatePlan 1370653224))).length = 2 ^ 31 ∧
      row.totalNum.toInt = -2 ^ 31 := by
  obtain ⟨row,stored,planned,total⟩ := replicate_totalNum (2 ^ 31) (by decide)
  refine ⟨row,stored,planned,?_⟩
  rw [total,Int32.toInt_ofNat']
  decide

end ExploratoryOptimizer.Aqo.QueryHistory
