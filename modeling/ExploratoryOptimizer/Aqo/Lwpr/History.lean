import ExploratoryOptimizer.Aqo.Lwpr.Reachable
import ExploratoryOptimizer.Library.Window

/-! The inputs that each template has asked for last, as rows of `history_data_matrix`. -/
namespace ExploratoryOptimizer.Aqo.Lwpr
open Library.FixedArray Library.Machine Library.Window OkNNr Session

/-! The loops over a row. -/

section Loops

variable {nIn : Nat}

/-- Moves the first points to the front, over the oldest one. -/
def shiftHistory (row : HistoryRow nIn) (points : Nat) : HistoryRow nIn :=
  (List.range' 1 (points - 1)).foldl
    (fun row i => row.copyBlock ((i - 1) * nIn + 1) (i * nIn + 1) nIn) row

def writePoint (row : HistoryRow nIn) (place : Nat) (xn : Cells ℚ nIn) : HistoryRow nIn :=
  row.writeBlock (place * nIn + 1) nIn xn.get

/-- The row of a template after one more input, and how many it holds. -/
def pushRow (row : HistoryRow nIn) (num : Nat) (xn : Cells ℚ nIn) : HistoryRow nIn × Nat :=
  if num < numHistoryDataComputeProbabilityRf then (writePoint row num xn,num + 1)
  else (writePoint (shiftHistory row numHistoryDataComputeProbabilityRf)
      (numHistoryDataComputeProbabilityRf - 1) xn,num)

theorem get_shiftHistory (row : HistoryRow nIn) (points : Nat) (i : Nat)
    (bound : i < 1 + nIn * numHistoryDataComputeProbabilityRf) :
    (shiftHistory row (points + 1)).get i = if 1 ≤ i ∧ i < points * nIn + 1 then row.get (i + nIn)
      else row.get i := by
  induction points generalizing i with
  | zero =>
    rw [if_neg (by omega)]
    rfl
  | succ points ih =>
    have last : shiftHistory row (points + 1 + 1) =
        (shiftHistory row (points + 1)).copyBlock (points * nIn + 1)
        ((points + 1) * nIn + 1) nIn := by
      simp only [shiftHistory,Nat.add_sub_cancel,List.range'_concat,List.foldl_append,
        List.foldl_cons,List.foldl_nil,Nat.one_mul,Nat.add_comm 1 points]
    have next : (points + 1) * nIn = points * nIn + nIn := Nat.succ_mul points nIn
    rw [last,Cells.copyBlock_eq _ _ _ _ (by omega),Cells.get_writeBlock _ _ _ _ i bound]
    by_cases block : points * nIn + 1 ≤ i ∧ i < points * nIn + 1 + nIn
    · have place : (points + 1) * nIn + 1 + (i - (points * nIn + 1)) = i + nIn := by omega
      rw [if_pos block,if_pos (by omega),place]
      by_cases within : i + nIn < 1 + nIn * numHistoryDataComputeProbabilityRf
      · rw [ih _ within,if_neg (by omega)]
      · rw [Cells.get_of_le _ _ (not_lt.mp within),Cells.get_of_le _ _ (not_lt.mp within)]
    · rw [if_neg block,ih i bound]
      exact if_congr (by omega) rfl rfl

theorem get_writePoint (row : HistoryRow nIn) (place : Nat) (xn : Cells ℚ nIn) (i : Nat)
    (bound : i < 1 + nIn * numHistoryDataComputeProbabilityRf) :
    (writePoint row place xn).get i =
      if place * nIn + 1 ≤ i ∧ i < place * nIn + 1 + nIn then xn.get (i - (place * nIn + 1))
      else row.get i :=
  Cells.get_writeBlock row _ _ _ i bound

theorem writePoint_eq (row : HistoryRow nIn) (num : Nat) (xn : Cells ℚ nIn) :
    writePoint row num xn = Cells.fill fun i =>
      if num * nIn + 1 ≤ i ∧ i < (num + 1) * nIn + 1 then xn.get (i - num * nIn - 1)
      else row.get i := by
  apply Cells.ext_get
  intro i bound
  have next : (num + 1) * nIn = num * nIn + nIn := Nat.succ_mul num nIn
  rw [get_writePoint row num xn i bound,Cells.get_fill _ i bound,Nat.sub_sub]
  exact if_congr (by omega) rfl rfl

theorem writePoint_shiftHistory (row : HistoryRow nIn) (points : Nat) (xn : Cells ℚ nIn)
    (size : 1 + nIn * numHistoryDataComputeProbabilityRf = points * nIn + nIn + 1) :
    writePoint (shiftHistory row (points + 1)) points xn = Cells.fill fun i =>
      if i = 0 then row.get 0 else if i < points * nIn + 1 then row.get (i + nIn)
      else xn.get (i - points * nIn - 1) := by
  apply Cells.ext_get
  intro i bound
  rw [get_writePoint _ points xn i bound,Cells.get_fill _ i bound,
    get_shiftHistory row points i bound]
  rcases Nat.eq_zero_or_pos i with rfl | positive
  · rw [if_neg (by omega),if_neg (by omega),if_pos rfl]
  · by_cases kept : i < points * nIn + 1
    · rw [if_neg (by omega),if_pos ⟨positive,kept⟩,if_neg positive.ne',if_pos kept]
    · rw [if_pos (by omega),if_neg positive.ne',if_neg kept,Nat.sub_sub]

/-- The loops write what the model of the calls says. -/
theorem pushHistory_pushRow (model : Model nIn) (context : CallContext)
    (some : context.currentQueryHash ≠ 0) :
    let index := context.currentQueryHash - 1
    let pushed :=
      pushRow (model.historyDataMatrix.get index) (model.numHistoryData.get index) model.xn
    model.pushHistory context = {model with
      historyDataMatrix := model.historyDataMatrix.set index pushed.1
      numHistoryData := model.numHistoryData.set index pushed.2} := by
  intro index pushed
  simp only [Model.pushHistory,if_neg some]
  by_cases room : model.numHistoryData.get index < numHistoryDataComputeProbabilityRf
  · have row :
      pushed = (writePoint (model.historyDataMatrix.get index)
          (model.numHistoryData.get index) model.xn,
        model.numHistoryData.get index + 1) := if_pos room
    rw [if_pos room,row,writePoint_eq]
  · have row :
      pushed = (writePoint (shiftHistory (model.historyDataMatrix.get index)
            numHistoryDataComputeProbabilityRf)
        (numHistoryDataComputeProbabilityRf - 1) model.xn,model.numHistoryData.get index) :=
          if_neg room
    have shifted := writePoint_shiftHistory (model.historyDataMatrix.get index) 9 model.xn
      (by unfold numHistoryDataComputeProbabilityRf; omega)
    rw [if_neg room,row,Cells.set_get]
    exact congrArg (fun row =>
        {model with historyDataMatrix := model.historyDataMatrix.set index row}) shifted.symm

/-! The points that a row holds. -/

def points (row : HistoryRow nIn) (num : Nat) : List (Cells ℚ nIn) :=
  (List.range num).map fun k => Cells.fill fun i => row.get (k * nIn + 1 + i)

theorem length_points (row : HistoryRow nIn) (num : Nat) : (points row num).length = num := by
  rw [points,List.length_map,List.length_range]

theorem points_succ (row : HistoryRow nIn) (num : Nat) :
    points row (num + 1) = points row num ++ [Cells.fill fun i => row.get (num * nIn + 1 + i)] := by
  rw [points,List.range_succ,List.map_append,List.map_singleton,points]

theorem points_congr (first second : HistoryRow nIn) (num : Nat)
    (same : ∀ k < num, ∀ i < nIn, first.get (k * nIn + 1 + i) = second.get (k * nIn + 1 + i)) :
    points first num = points second num := by
  refine List.map_congr_left fun k member => Cells.ext_get fun i bound => ?_
  rw [Cells.get_fill _ i bound,Cells.get_fill _ i bound,same k (List.mem_range.mp member) i bound]

theorem place_lt (num k i : Nat) (before : k < num) (within : i < nIn) :
    k * nIn + 1 + i < num * nIn + 1 := by
  have below : (k + 1) * nIn ≤ num * nIn := Nat.mul_le_mul_right nIn before
  rw [Nat.succ_mul] at below
  omega

/-- The point that is written is behind those that are kept. -/
theorem points_writePoint (row : HistoryRow nIn) (num : Nat) (xn : Cells ℚ nIn)
    (room : num < numHistoryDataComputeProbabilityRf) :
    points (writePoint row num xn) (num + 1) = points row num ++ [xn] := by
  have size (k i : Nat) (before : k ≤ num) (within : i < nIn) :
      k * nIn + 1 + i < 1 + nIn * numHistoryDataComputeProbabilityRf := by
    have bound := place_lt numHistoryDataComputeProbabilityRf k i (before.trans_lt room) within
    rw [Nat.mul_comm nIn,Nat.add_comm 1]
    exact bound
  rw [points_succ,points_congr (writePoint row num xn) row num fun k before i within => ?_]
  · congr 2
    apply Cells.ext_get
    intro i within
    rw [Cells.get_fill _ i within,get_writePoint row num xn _ (size num i le_rfl within),
      if_pos (by omega),Nat.add_sub_cancel_left]
  · rw [get_writePoint row num xn _ (size k i before.le within),
      if_neg (by have := place_lt num k i before within; omega)]

theorem points_shiftHistory (row : HistoryRow nIn) (num : Nat)
    (room : num < numHistoryDataComputeProbabilityRf) :
    points (shiftHistory row (num + 1)) num = (points row (num + 1)).tail := by
  rw [points,points,List.range_succ_eq_map,List.map_cons,List.tail_cons,List.map_map]
  refine List.map_congr_left fun k member => Cells.ext_get fun i within => ?_
  have before := place_lt num k i (List.mem_range.mp member) within
  have bound : k * nIn + 1 + i < 1 + nIn * numHistoryDataComputeProbabilityRf := by
    have later := Nat.mul_le_mul_right nIn room.le
    rw [Nat.mul_comm nIn]
    omega
  rw [Cells.get_fill _ i within,get_shiftHistory row num _ bound,if_pos ⟨by omega,before⟩]
  refine Eq.trans ?_ (Cells.get_fill _ i within).symm
  rw [Nat.succ_mul]
  congr 1
  omega

/-- Pushing into a row that holds the last ten points. -/
theorem points_pushRow (row : HistoryRow nIn) (num : Nat) (xn : Cells ℚ nIn)
    (items : List (Cells ℚ nIn))
    (held : points row num = items.rtake numHistoryDataComputeProbabilityRf) :
    points (pushRow row num xn).1 (pushRow row num xn).2 =
      (items ++ [xn]).rtake numHistoryDataComputeProbabilityRf := by
  have count := congrArg List.length held
  rw [length_points,length_rtake] at count
  unfold pushRow
  split_ifs with room
  · have short : items.length < numHistoryDataComputeProbabilityRf := by omega
    rw [points_writePoint row num xn room,held,rtake_of_le _ _ short.le,rtake_of_le]
    rw [List.length_append,List.length_singleton]
    exact short
  · have full : num = numHistoryDataComputeProbabilityRf := by omega
    subst full
    have shifted : points (shiftHistory row numHistoryDataComputeProbabilityRf) 9 =
        (points row numHistoryDataComputeProbabilityRf).tail :=
          points_shiftHistory row 9 (Nat.lt_succ_self 9)
    rw [rtake_push_full items xn numHistoryDataComputeProbabilityRf (Nat.zero_lt_succ 9) (by omega),
      ← held,← shifted]
    exact points_writePoint _ 9 xn (Nat.lt_succ_self 9)

theorem head_pushRow (row : HistoryRow nIn) (num : Nat) (xn : Cells ℚ nIn) :
    (pushRow row num xn).1.get 0 = row.get 0 := by
  have bound : 0 < 1 + nIn * numHistoryDataComputeProbabilityRf := by omega
  unfold pushRow
  split_ifs
  · rw [get_writePoint row num xn 0 bound,if_neg (by omega)]
  · have shifted := get_shiftHistory row 9 0 bound
    rw [if_neg (by omega)] at shifted
    rw [get_writePoint _ _ xn 0 bound,if_neg (by omega)]
    exact shifted

end Loops

/-! What a call does to the history. -/

section Calls

variable {nIn : Nat}

def Model.history (model : Model nIn) :
    Cells (HistoryRow nIn) numQueryPattern × Cells Nat numQueryPattern :=
  (model.historyDataMatrix,model.numHistoryData)

/-- A prediction, and an update of a model that has no fields yet, are noted with their template and
input. -/
def historyEvent (model : Model nIn) : Call nIn → Option (Nat × Cells ℚ nIn)
  | .update context x _ => if model.rf = [] then some (context.currentQueryHash,x) else none
  | .predictExplore context x _ => some (context.currentQueryHash,x)

theorem history_pushHistory (first second : Model nIn) (context : CallContext)
    (same : first.history = second.history) (input : first.xn = second.xn) :
    (first.pushHistory context).history = (second.pushHistory context).history := by
  obtain ⟨matrix,counts⟩ := Prod.mk.inj same
  simp only [Model.pushHistory,matrix,counts,input]
  split_ifs
  · exact same
  · rfl
  · rfl

variable (lib : CLibrary) (context : CallContext) (house : Datahouse)

theorem history_addPrune (model : Model nIn) (maxima : Maxima) :
    (lwprAuxUpdateOneAddPrune lib context house model maxima).1.history = model.history := by
  unfold lwprAuxUpdateOneAddPrune
  split_ifs
  · rfl
  · unfold pruned
    split
    · rfl
    · rfl
  · rfl

theorem lwprAuxUpdateOneT_history (model : Model nIn) :
    (lwprAuxUpdateOneT lib context house model).1.history =
      if model.rf = [] then (model.pushHistory context).history else model.history := by
  unfold lwprAuxUpdateOneT
  split_ifs
  · rfl
  · rfl

theorem lwprUpdate_history (model : Model nIn) (x : Cells ℚ nIn) (y : ℚ) :
    (lwprUpdate lib context house model x y).1.history =
      if model.rf = [] then ((model.sampled x y).pushHistory context).history else model.history :=
  (history_addPrune lib context _ _ _).trans
    (lwprAuxUpdateOneT_history lib context house (model.sampled x y))

theorem answer_history (model : Model nIn) (call : Call nIn) :
    (historyEvent model call = none ∧ (answer lib ⟨house,model⟩ call).1.model.history =
        model.history) ∨
      ∃ x, historyEvent model call = some (call.context.currentQueryHash,x) ∧
        (answer lib ⟨house,model⟩ call).1.model.history =
        ((model.asked x).pushHistory call.context).history := by
  cases call with
  | update context x y =>
    have after := lwprUpdate_history lib context house model x y
    by_cases empty : model.rf = []
    · rw [if_pos empty] at after
      exact .inr ⟨x,if_pos empty,after.trans (history_pushHistory _ _ context rfl rfl)⟩
    · rw [if_neg empty] at after
      exact .inl ⟨if_neg empty,after⟩
  | predictExplore context x cutoff => exact .inr ⟨x,rfl,rfl⟩

theorem asked_xn (model : Model nIn) (parameters : model.toParameters = initParameters nIn)
    (x : Cells ℚ nIn) :
    (model.asked x).xn = x := by
  have scale : model.normIn = (initParameters nIn).normIn := congrArg Parameters.normIn parameters
  apply Cells.ext_get
  intro i bound
  have one : model.normIn.get i = 1 := by
    rw [scale]
    exact (Cells.get_fill _ i (lt_nInStore bound)).trans (if_pos bound)
  refine (Cells.get_fill _ i bound).trans ?_
  rw [one,div_one]

/-- The rows of other templates stay as they are. -/
theorem pushHistory_other (model : Model nIn) (m : Nat) (template : m < numQueryPattern)
    (other : context.currentQueryHash ≠ m + 1) :
    (model.pushHistory context).historyDataMatrix.get m = model.historyDataMatrix.get m ∧
      (model.pushHistory context).numHistoryData.get m = model.numHistoryData.get m := by
  by_cases none : context.currentQueryHash = 0
  · rw [Model.pushHistory,if_pos none]
    exact ⟨rfl,rfl⟩
  · have elsewhere : m ≠ context.currentQueryHash - 1 := by omega
    rw [pushHistory_pushRow model context none]
    exact ⟨(Cells.get_set _ _ _ m template).trans (if_neg elsewhere),
      (Cells.get_set _ _ _ m template).trans (if_neg elsewhere)⟩

end Calls

section Runs

variable {nIn : Nat}

/-- The inputs that a template has asked for. -/
def eventsOf (events : List (Nat × Cells ℚ nIn)) (template : Nat) : List (Cells ℚ nIn) :=
  (events.filter fun event => event.1 = template).map Prod.snd

theorem eventsOf_concat (events : List (Nat × Cells ℚ nIn)) (hash template : Nat)
    (x : Cells ℚ nIn) :
    eventsOf (events ++ [(hash,x)]) template =
      if hash = template then eventsOf events template ++ [x] else eventsOf events template := by
  rw [eventsOf,List.filter_append,List.map_append,eventsOf]
  split_ifs with same
  · simp only [List.filter_singleton,same,decide_true,cond_true,List.map_singleton]
  · simp only [List.filter_singleton,same,decide_false,cond_false,List.map_nil,List.append_nil]

/-- Every row holds its template, and the last inputs of it. -/
structure Windowed (events : List (Nat × Cells ℚ nIn)) (model : Model nIn) : Prop where
  head : ∀ m < numQueryPattern, (model.historyDataMatrix.get m).get 0 = (m + 1 : Nat)
  window :
    ∀ m < numQueryPattern, points (model.historyDataMatrix.get m) (model.numHistoryData.get m) =
    (eventsOf events (m + 1)).rtake numHistoryDataComputeProbabilityRf

theorem Windowed.of_same {events : List (Nat × Cells ℚ nIn)} {model model' : Model nIn}
    (windowed : Windowed events model) (same : model'.history = model.history) :
    Windowed events model' := by
  obtain ⟨matrix,counts⟩ := Prod.mk.inj same
  refine ⟨?_,?_⟩
  · rw [matrix]
    exact windowed.head
  · rw [matrix,counts]
    exact windowed.window

theorem Windowed.pushHistory {events : List (Nat × Cells ℚ nIn)} {model : Model nIn}
    (windowed : Windowed events model) (context : CallContext) :
    Windowed (events ++ [(context.currentQueryHash,model.xn)]) (model.pushHistory context) := by
  have rows (m : Nat) (template : m < numQueryPattern) :
      (((model.pushHistory context).historyDataMatrix.get m).get 0 = (m + 1 : Nat)) ∧
        points ((model.pushHistory context).historyDataMatrix.get m)
        ((model.pushHistory context).numHistoryData.get m) =
          (eventsOf (events ++ [(context.currentQueryHash,model.xn)]) (m + 1)).rtake
            numHistoryDataComputeProbabilityRf := by
    rw [eventsOf_concat]
    by_cases mine : context.currentQueryHash = m + 1
    · have index : context.currentQueryHash - 1 = m := by omega
      rw [if_pos mine,pushHistory_pushRow model context (by omega),index]
      dsimp only
      rw [Cells.get_set _ _ _ m template,if_pos rfl,Cells.get_set _ _ _ m template,if_pos rfl]
      exact ⟨(head_pushRow _ _ _).trans (windowed.head m template),
        points_pushRow _ _ _ _ (windowed.window m template)⟩
    · obtain ⟨row,count⟩ := pushHistory_other context model m template mine
      rw [if_neg mine,row,count]
      exact ⟨windowed.head m template,windowed.window m template⟩
  exact ⟨fun m template => (rows m template).1,fun m template => (rows m template).2⟩

variable (lib : CLibrary)

/-- A model of a feature subspace, and what its history has been given so far. -/
inductive Recorded (fssHash : Int) : List (Nat × Cells ℚ nIn) → Model nIn → Prop where
  | fresh : Recorded fssHash [] (unlearned nIn fssHash)
  | called (events : List (Nat × Cells ℚ nIn)) (house : Datahouse) (model : Model nIn)
      (call : Call nIn) (before : Recorded fssHash events model) :
      Recorded fssHash (events ++ (historyEvent model call).toList)
        (answer lib ⟨house,model⟩ call).1.model
  | reloaded (events : List (Nat × Cells ℚ nIn)) (house : Datahouse) (model : Model nIn)
      (before : Recorded fssHash events model) :
        Recorded fssHash events (reload fssHash ⟨house,model⟩).model

theorem Recorded.grown {fssHash : Int} {events : List (Nat × Cells ℚ nIn)} {model : Model nIn}
    (recorded : Recorded lib fssHash events model) : Grown lib fssHash model := by
  induction recorded with
  | fresh => exact .fresh
  | called events house model call _ ih => exact .called house model call ih
  | reloaded events house model _ ih => exact .reloaded house model ih

theorem unlearned_windowed (fssHash : Int) : Windowed [] (unlearned nIn fssHash) := by
  refine ⟨fun m template => ?_,fun m template => ?_⟩
  · have row : (unlearned nIn fssHash).historyDataMatrix.get m =
        Cells.fill fun k => if k = 0 then ((m + 1 : Nat) : ℚ) else 0 :=
      Cells.get_fill _ m template
    rw [row]
    exact (Cells.get_fill _ 0 (by omega)).trans (if_pos rfl)
  · have count : (unlearned nIn fssHash).numHistoryData.get m = 0 := Cells.get_zero m
    rw [count]
    rfl

theorem Recorded.windowed {fssHash : Int} {events : List (Nat × Cells ℚ nIn)} {model : Model nIn}
    (recorded : Recorded lib fssHash events model) : Windowed events model := by
  induction recorded with
  | fresh => exact unlearned_windowed fssHash
  | called events house model call before ih =>
    rcases answer_history lib house model call with ⟨quiet,same⟩ | ⟨x,noted,pushed⟩
    · rw [quiet,Option.toList_none,List.append_nil]
      exact ih.of_same same
    · have asked : Windowed events (model.asked x) := ih.of_same rfl
      have next := asked.pushHistory call.context
      rw [asked_xn model (before.grown lib).storable.parameters x] at next
      rw [noted,Option.toList_some]
      exact next.of_same pushed
  | reloaded events house model before ih =>
    rw [reload_model fssHash ⟨house,model⟩ (before.grown lib).storable]
    exact ih.of_same rfl

/-- The row of a template holds the last ten of its inputs in order, whatever other templates have
done meanwhile. -/
theorem history_window (fssHash : Int) (events : List (Nat × Cells ℚ nIn)) (model : Model nIn)
    (recorded : Recorded lib fssHash events model) (m : Nat) (template : m < numQueryPattern) :
    model.numHistoryData.get m = min numHistoryDataComputeProbabilityRf
      (eventsOf events (m + 1)).length ∧ (model.historyDataMatrix.get m).get 0 = (m + 1 : Nat) ∧
      (List.range (model.numHistoryData.get m)).map (historyPoint model m) =
        (eventsOf events (m + 1)).rtake (model.numHistoryData.get m) ∧
      ∀ (house : Datahouse) (call : Call nIn), call.context.currentQueryHash ≠ m + 1 →
        (answer lib ⟨house,model⟩ call).1.model.historyDataMatrix.get m =
        model.historyDataMatrix.get m ∧
          (answer lib ⟨house,model⟩ call).1.model.numHistoryData.get m =
          model.numHistoryData.get m := by
  have windowed := recorded.windowed lib
  have window := windowed.window m template
  have count := congrArg List.length window
  rw [length_points,length_rtake,Nat.min_comm] at count
  refine ⟨count,windowed.head m template,window.trans ?_,fun house call other => ?_⟩
  · rw [count,List.rtake,List.rtake]
    congr 1
    omega
  · rcases answer_history lib house model call with ⟨_,same⟩ | ⟨x,_,pushed⟩
    · obtain ⟨matrix,counts⟩ := Prod.mk.inj same
      exact ⟨congrArg (Cells.get · m) matrix,congrArg (Cells.get · m) counts⟩
    · obtain ⟨matrix,counts⟩ := Prod.mk.inj pushed
      obtain ⟨row,num⟩ := pushHistory_other call.context (model.asked x) m template other
      exact ⟨(congrArg (Cells.get · m) matrix).trans row,
        (congrArg (Cells.get · m) counts).trans num⟩

end Runs

/-- The first update of a model, and then a prediction for the same template. -/
theorem history_window_twice :
    (answer rationalLibrary ⟨fun _ _ _ => none,
        (answer rationalLibrary ⟨fun _ _ _ => none,unlearned 1 7⟩
      (.update uniformContext (Cells.fill fun _ => 0) 2)).1.model⟩
      (.predictExplore uniformContext (Cells.fill fun _ => 1/10)
          (1/1000))).1.model.numHistoryData.get 0 = 2 :=
  (history_window rationalLibrary 7 _ _
      (.called _ (fun _ _ _ => none) _ _ (.called [] (fun _ _ _ => none) _ _ .fresh)) 0
    (Nat.zero_lt_succ 6)).1

end ExploratoryOptimizer.Aqo.Lwpr
