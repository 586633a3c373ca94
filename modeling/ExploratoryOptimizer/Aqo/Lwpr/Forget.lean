import ExploratoryOptimizer.Aqo.Lwpr.Update

/-! What a model holds only from one call to the next: no call of `lwpr_update` or
`lwpr_predict_explore` reads it before it has written it. -/
namespace ExploratoryOptimizer.Aqo.Lwpr
open Library.FixedArray OkNNr Session

namespace ReceptiveField

variable {nIn : Nat} (rf : ReceptiveField nIn) (model : Model nIn)

def forget : ReceptiveField nIn := {rf with w := 0, b := 0, confRf := 0, probRf := 0}

theorem forget_pushError (error : ℚ) : (rf.pushError error).forget = rf.forget.pushError error := by
  unfold pushError
  exact apply_ite forget _ _ _

theorem forget_withRoom : rf.withRoom.forget = rf.forget.withRoom := by
  unfold withRoom
  exact apply_ite forget _ _ _

theorem forget_lwprAuxCheckAddProjection :
    (rf.lwprAuxCheckAddProjection model).forget = rf.forget.lwprAuxCheckAddProjection model := by
  have added : (rf.withRoom.addAxis model).forget = rf.forget.withRoom.addAxis model :=
    congrArg (addAxis · model) rf.forget_withRoom
  unfold lwprAuxCheckAddProjection
  simp only [apply_ite forget,added]
  rfl

theorem forget_finish (regression : Regression nIn) (w dwdq : ℚ) :
    (regression.finish model w dwdq).forget =
      {regression with rf := regression.rf.forget}.finish model w dwdq := by
  have counted :
    ∀ field : ReceptiveField nIn, ((field.lwprAuxCheckAddProjection model).countData model).forget =
      ((field.forget.lwprAuxCheckAddProjection model).countData model) := by
    intro field
    rw [← forget_lwprAuxCheckAddProjection]
    rfl
  unfold Regression.finish
  simp only [counted,apply_ite forget,← forget_pushError]
  rfl

theorem map_forget_map_forget (fields : List (ReceptiveField nIn)) :
    (fields.map forget).map forget = fields.map forget := List.map_map

end ReceptiveField

namespace Model

variable {nIn : Nat} (model : Model nIn)

/-- The model without what lasts for one call, but with the sample of the call. -/
def quiet : Model nIn :=
  {model with
    nData := 0, rf := model.rf.map ReceptiveField.forget, nPruned :=
    0, exploreValues := lwprMenAllocEv}

/-- Likewise with the input of the call but without its output. -/
def still : Model nIn := {model.quiet with yn := 1}

def forget : Model nIn := {model.still with xn := 0}

theorem quiet_quiet : model.quiet.quiet = model.quiet := by
  unfold quiet
  simp only [ReceptiveField.map_forget_map_forget]

theorem forget_forget : model.forget.forget = model.forget :=
  congrArg (fun quiet => {quiet with xn := 0, yn := 1}) model.quiet_quiet

theorem quiet_pushHistory (context : CallContext) :
    (model.pushHistory context).quiet = model.quiet.pushHistory context := by
  unfold pushHistory
  simp only [apply_ite quiet]
  rfl

theorem still_pushHistory (context : CallContext) :
    (model.pushHistory context).still = model.still.pushHistory context := by
  unfold pushHistory
  simp only [apply_ite still]
  rfl

/-- Two results that differ only in what lasts for one call. -/
def Alike {α : Type} (first second : Model nIn × α) : Prop :=
  first.1.quiet = second.1.quiet ∧ first.2 = second.2

theorem Alike.of_quiet {α : Type} (operation : Model nIn → Model nIn × α)
    (unread : ∀ model, Alike (operation model.quiet) (operation model)) {first second : Model nIn}
    (same : first.quiet = second.quiet) : Alike (operation first) (operation second) := by
  have before := unread first
  rw [same] at before
  exact ⟨before.1.symm.trans (unread second).1,before.2.symm.trans (unread second).2⟩

end Model

section Update

variable {nIn : Nat} (lib : CLibrary) (context : CallContext)

theorem finish_quiet (model : Model nIn) (regression : ReceptiveField.Regression nIn) (w dwdq : ℚ) :
    regression.finish model.quiet w dwdq = regression.finish model w dwdq := rfl

theorem learnActive_quiet (house : Datahouse) (model : Model nIn) (rf : ReceptiveField nIn) :
    (learnActive lib context house model.quiet rf.forget).1.forget =
      (learnActive lib context house model rf).1.forget := by
  unfold learnActive
  simp only [ReceptiveField.forget_finish,finish_quiet]
  rfl

theorem learnField_quiet (house : Datahouse) (model : Model nIn) (rf : ReceptiveField nIn) :
    (learnField lib context house model.quiet rf.forget).1.forget =
      (learnField lib context house model rf).1.forget ∧
    (learnField lib context house model.quiet rf.forget).2 =
      (learnField lib context house model rf).2 := by
  have same : activation lib model.quiet rf.forget = activation lib model rf := rfl
  unfold learnField
  rw [same]
  split
  · exact ⟨learnActive_quiet lib context house model rf,rfl⟩
  · exact ⟨rfl,rfl⟩

theorem learnFields_quiet (model : Model nIn) (house : Datahouse)
    (fields : List (ReceptiveField nIn)) :
    (learnFields lib context model.quiet house (fields.map ReceptiveField.forget)).1.map
      ReceptiveField.forget = (learnFields lib context model house fields).1.map
      ReceptiveField.forget ∧
    (learnFields lib context model.quiet house (fields.map ReceptiveField.forget)).2 =
      (learnFields lib context model house fields).2 := by
  induction fields generalizing house with
  | nil => exact ⟨rfl,rfl⟩
  | cons rf rest ih =>
    obtain ⟨field,learned⟩ := learnField_quiet lib context house model rf
    simp only [List.map_cons,learnFields,learned,field]
    exact ⟨congrArg _ (ih _).1,(ih _).2⟩

theorem findMaxima_quiet (model : Model nIn) (n : Nat) (maxima : Maxima)
    (fields : List (ReceptiveField nIn)) :
    findMaxima lib model.quiet n maxima (fields.map ReceptiveField.forget) =
      findMaxima lib model n maxima fields := by
  induction fields generalizing n maxima with
  | nil => rfl
  | cons rf rest ih => exact ih (n + 1) (maxima.add n (activation lib model rf))

theorem lwprAuxUpdateOneT_quiet (house : Datahouse) (model : Model nIn) :
    Model.Alike (lwprAuxUpdateOneT lib context house model.quiet)
      (lwprAuxUpdateOneT lib context house model) := by
  have empty : model.quiet.rf = [] ↔ model.rf = [] := List.map_eq_nil_iff
  unfold lwprAuxUpdateOneT
  simp only [empty]
  split
  · refine ⟨?_,rfl⟩
    simp only [Model.quiet_pushHistory,Model.quiet_quiet]
  · obtain ⟨fields,house⟩ := learnFields_quiet lib context model house model.rf
    refine ⟨?_,Prod.ext (findMaxima_quiet lib model 0 _ model.rf) house⟩
    exact congrArg (fun fields => {model.quiet with rf := fields}) fields

theorem lwprAuxInitRf_quiet (model : Model nIn) (template : Option (ReceptiveField nIn)) :
    lwprAuxInitRf lib model.quiet (template.map ReceptiveField.forget) =
      lwprAuxInitRf lib model template := by
  cases template with
  | none => rfl
  | some rf => rfl

theorem neighbour_quiet (model : Model nIn) (maxima : Maxima) :
    neighbour model.quiet maxima = (neighbour model maxima).map ReceptiveField.forget := by
  have found : (maxima.indMax.bind fun place => model.quiet.rf[place]?) =
      (maxima.indMax.bind fun place => model.rf[place]?).map ReceptiveField.forget := by
    rw [Option.map_bind]
    congr 1
    funext place
    exact List.getElem?_map
  unfold neighbour
  rw [found,apply_ite (Option.map ReceptiveField.forget),Option.filter_map]
  rfl

theorem prune_forget (fields : List (ReceptiveField nIn)) (place : Nat) :
    prune (fields.map ReceptiveField.forget) place =
      (prune fields place).map ReceptiveField.forget := by
  unfold prune
  rw [List.getLast?_map]
  cases fields.getLast? with
  | none => rfl
  | some last => simp only [Option.map_some,List.map_dropLast,List.map_set]

theorem pruned_quiet (model : Model nIn) (maxima : Maxima) :
    (pruned model.quiet maxima).quiet = (pruned model maxima).quiet := by
  have trace :
    ∀ place : Nat, (model.quiet.rf[place]?).elim 0 traceOf = (model.rf[place]?).elim 0 traceOf := by
    intro place
    rw [Model.quiet,List.getElem?_map]
    cases model.rf[place]? with
    | none => rfl
    | some rf => rfl
  unfold pruned
  split
  · simp only [trace]
    simp only [Model.quiet,prune_forget,ReceptiveField.map_forget_map_forget]
  · exact model.quiet_quiet

theorem lwprAuxUpdateOneAddPrune_quiet (house : Datahouse) (maxima : Maxima) (model : Model nIn) :
    Model.Alike (lwprAuxUpdateOneAddPrune lib context house model.quiet maxima)
      (lwprAuxUpdateOneAddPrune lib context house model maxima) := by
  have bounds : model.quiet.wGen = model.wGen ∧ model.quiet.wPrune = model.wPrune := ⟨rfl,rfl⟩
  unfold lwprAuxUpdateOneAddPrune
  rw [bounds.1,bounds.2,neighbour_quiet,lwprAuxInitRf_quiet]
  split_ifs
  · refine ⟨?_,rfl⟩
    simp only [Model.quiet,List.map_append,ReceptiveField.map_forget_map_forget]
  · exact ⟨pruned_quiet model maxima,rfl⟩
  · exact ⟨model.quiet_quiet,rfl⟩

theorem forget_eq_of_quiet_eq {first second : Model nIn} (same : first.quiet = second.quiet) :
    first.forget = second.forget := by
  unfold Model.forget Model.still
  rw [same]

theorem quiet_sampled (model : Model nIn) (x : Cells ℚ nIn) (y : ℚ) :
    (model.forget.sampled x y).quiet = (model.sampled x y).quiet :=
  congrArg (fun quiet => {quiet with xn := model.normalised x, yn := y / model.normOut})
    model.quiet_quiet

theorem lwprUpdate_forget (house : Datahouse) (model : Model nIn) (x : Cells ℚ nIn) (y : ℚ) :
    (lwprUpdate lib context house model.forget x y).1.forget =
      (lwprUpdate lib context house model x y).1.forget ∧
    (lwprUpdate lib context house model.forget x y).2 =
      (lwprUpdate lib context house model x y).2 := by
  obtain ⟨learned,rest⟩ := Model.Alike.of_quiet (lwprAuxUpdateOneT lib context house)
    (lwprAuxUpdateOneT_quiet lib context house) (quiet_sampled model x y)
  unfold lwprUpdate
  simp only [rest]
  obtain ⟨added,house⟩ := Model.Alike.of_quiet (lwprAuxUpdateOneAddPrune lib context _ · _)
    (lwprAuxUpdateOneAddPrune_quiet lib context _ _) learned
  exact ⟨forget_eq_of_quiet_eq added,congrArg (fun house => (house,(1 : Int))) house⟩

end Update

section Predict

variable {nIn : Nat} (lib : CLibrary) (context : CallContext)

/-- What the prediction sees of a field once its frequencies are set. -/
def ReceptiveField.calm (rf : ReceptiveField nIn) : ReceptiveField nIn :=
  {rf with w := 0, b := 0, confRf := 0}

theorem frequentFields_still (model : Model nIn) (cutoff : ℚ) :
    frequentFields lib context model.still cutoff =
      (frequentFields lib context model cutoff).map ReceptiveField.calm := by
  unfold frequentFields
  rw [List.map_map]
  exact List.map_map

theorem totalHappenFreq_calm (fields : List (ReceptiveField nIn)) :
    totalHappenFreq (fields.map ReceptiveField.calm) = totalHappenFreq fields := by
  funext m
  unfold totalHappenFreq
  rw [List.map_map]
  rfl

theorem confStep_still (house : Datahouse) (model : Model nIn) (cutoff : ℚ) (total : Nat → ℚ)
    (sums : ConfSums nIn) (n : Nat) (rf : ReceptiveField nIn) :
    confStep lib context house model.still cutoff total sums n rf.calm =
      confStep lib context house model cutoff total sums n rf := rfl

theorem confLoop_still (house : Datahouse) (model : Model nIn) (cutoff : ℚ)
    (total : Nat → ℚ) (n : Nat) (sums : ConfSums nIn) (fields : List (ReceptiveField nIn)) :
    confLoop lib context house model.still cutoff total n sums (fields.map ReceptiveField.calm) =
      confLoop lib context house model cutoff total n sums fields := by
  induction fields generalizing n sums with
  | nil => rfl
  | cons rf rest ih =>
    rw [List.map_cons,confLoop,confLoop,confStep_still]
    exact ih _ _

theorem confSums_still (house : Datahouse) (model : Model nIn) (cutoff : ℚ) :
    confSums lib context house model.still cutoff = confSums lib context house model cutoff := by
  unfold confSums
  rw [frequentFields_still,totalHappenFreq_calm,confLoop_still]

theorem settled_still (model : Model nIn) (cutoff : ℚ) (total : Nat → ℚ) (rf : ReceptiveField nIn) :
    (settled lib model.still cutoff total rf.calm).forget =
      (settled lib model cutoff total rf).forget := by
  unfold settled
  simp only [apply_ite ReceptiveField.forget]
  rfl

theorem settledFields_still (model : Model nIn) (cutoff : ℚ) (total : Nat → ℚ)
    (fields : List (ReceptiveField nIn)) :
    ((fields.map ReceptiveField.calm).map (settled lib model.still cutoff total)).map
      ReceptiveField.forget = (fields.map (settled lib model cutoff total)).map
      ReceptiveField.forget := by
  simp only [List.map_map]
  apply List.map_congr_left
  intro rf _
  exact settled_still lib model cutoff total rf

theorem fallbackPrediction_still (house : Datahouse) (model : Model nIn) (sums : ConfSums nIn) :
    fallbackPrediction lib context house model.still sums = fallbackPrediction lib context house
      model sums := by
  have found : model.still.rf[sums.idxMax]? = (model.rf[sums.idxMax]?).map ReceptiveField.forget :=
    List.getElem?_map
  unfold fallbackPrediction
  rw [found]
  cases model.rf[sums.idxMax]? with
  | none => rfl
  | some rf => rfl

theorem predictedRows_still (house : Datahouse) (model : Model nIn) (sums : ConfSums nIn) :
    predictedRows lib context house model.still sums =
      predictedRows lib context house model sums := by
  unfold predictedRows
  rw [fallbackPrediction_still]

theorem lwprAuxPredictConfOneT_still (house : Datahouse) (model : Model nIn) (cutoff : ℚ) :
    (lwprAuxPredictConfOneT lib context house model.still cutoff).1.still =
      (lwprAuxPredictConfOneT lib context house model cutoff).1.still ∧
    (lwprAuxPredictConfOneT lib context house model.still cutoff).1.exploreValues =
      (lwprAuxPredictConfOneT lib context house model cutoff).1.exploreValues ∧
    (lwprAuxPredictConfOneT lib context house model.still cutoff).2 =
      (lwprAuxPredictConfOneT lib context house model cutoff).2 := by
  unfold lwprAuxPredictConfOneT
  simp only [confSums_still,frequentFields_still,totalHappenFreq_calm,← Model.still_pushHistory,
    predictedRows_still]
  refine ⟨?_,rfl,trivial⟩
  exact congrArg (fun fields => {(model.pushHistory context).still with rf := fields})
    (settledFields_still lib (model.pushHistory context) cutoff _ _)

theorem lwprPredictExplore_forget (house : Datahouse) (model : Model nIn) (cutoff : ℚ)
    (x : Cells ℚ nIn) :
    (lwprPredictExplore lib context house model.forget cutoff x).1.forget =
      (lwprPredictExplore lib context house model cutoff x).1.forget ∧
    (lwprPredictExplore lib context house model.forget cutoff x).2 =
      (lwprPredictExplore lib context house model cutoff x).2 := by
  obtain ⟨still,values,rows⟩ :=
    lwprAuxPredictConfOneT_still lib context house (model.asked x) cutoff
  have scale : (lwprAuxPredictConfOneT lib context house (model.asked x).still cutoff).1.normOut =
      (lwprAuxPredictConfOneT lib context house (model.asked x) cutoff).1.normOut :=
    congrArg (fun still => still.normOut) still
  have asked : model.forget.asked x = (model.asked x).still := rfl
  unfold lwprPredictExplore
  rw [asked]
  simp only [values,rows,scale]
  exact ⟨congrArg (fun still => {still with xn := 0}) still,trivial⟩

end Predict

end ExploratoryOptimizer.Aqo.Lwpr
