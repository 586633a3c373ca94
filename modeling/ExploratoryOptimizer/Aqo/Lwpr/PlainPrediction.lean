import ExploratoryOptimizer.Aqo.Lwpr.Prediction
import ExploratoryOptimizer.Aqo.Lwpr.Shape

/-! `lwpr_predict` against `lwpr_predict_explore`: for reachable models both average the same
predictions of the fields, but the plain one has neither exact matches nor fields it leaves out. -/
namespace ExploratoryOptimizer.Aqo.Lwpr
open Library.FixedArray Library.Machine OkNNr Session

section Slope

variable {nIn : Nat} (lib : CLibrary)

theorem ReceptiveField.slopeReady_lwprAuxCheckAddProjection (rf : ReceptiveField nIn)
    (model : Model nIn) : (rf.lwprAuxCheckAddProjection model).slopeReady = rf.slopeReady := by
  unfold lwprAuxCheckAddProjection withRoom
  dsimp only
  split_ifs
  all_goals rfl

theorem learnActive_slopeReady (context : CallContext) (house : Datahouse) (model : Model nIn)
    (rf : ReceptiveField nIn) : (learnActive lib context house model rf).1.slopeReady = false := by
  have field : (metricField lib model rf).slopeReady = false := by
    unfold metricField ReceptiveField.pushError
    split_ifs
    all_goals rfl
  rw [learnActive_metric]
  refine (ReceptiveField.slopeReady_lwprAuxCheckAddProjection _ model).trans ?_
  split_ifs
  · exact field
  · exact field

/-- No function of the source ever sets the flag. -/
theorem Grown.slopeReady {fssHash : Int} {model : Model nIn} (grown : Grown lib fssHash model) :
    ∀ rf ∈ model.rf, rf.slopeReady = false := by
  refine Grown.fields lib grown (·.slopeReady = false) (fun rf rf' same before => ?_)
    (fun model template _ _ => ?_) fun context house model rf _ _ _ =>
      learnActive_slopeReady lib context house model rf
  · have flag : rf'.forget.slopeReady = rf.forget.slopeReady := by rw [same]
    exact flag.trans before
  · rfl

end Slope

/-- A trusted field has seen enough data along its only axis, if it has no other. -/
theorem ReceptiveField.Shaped.trustedAxes_eq {nIn : Nat} {rf : ReceptiveField nIn}
    (shaped : rf.Shaped) (trusted : rf.trustworthy = true) : rf.trustedAxes = rf.usedAxes := by
  have some := shaped.regular.some
  have within := shaped.regular.within
  unfold trustedAxes usedAxes
  by_cases single : 1 < nIn
  · simp only [single,and_true]
  · have last : rf.nReg - 1 = 0 := by omega
    have enough := not_le.mpr (shaped.trusted trusted)
    rw [last,if_neg enough,if_neg fun few => enough few.1]

section Plain

variable {nIn : Nat} (lib : CLibrary) (context : CallContext) (house : Datahouse)
  (model : Model nIn) (cutoff : ℚ)

theorem plainPrediction_eq (rf : ReceptiveField nIn) (shaped : rf.Shaped)
    (flag : rf.slopeReady = false)
    (stored : (loadRfDatahouse lib house context.fspaceHash model.fssHash rf.c).isSome = true) :
    rf.plainPrediction lib context house model = fieldPrediction lib context house model rf := by
  unfold ReceptiveField.plainPrediction
  cases trusted : rf.trustworthy with
  | true =>
    simp only [flag,Bool.false_eq_true,if_false,if_true,fieldPrediction,trusted,
      ReceptiveField.trustedPrediction,shaped.trustedAxes_eq trusted]
    rfl
  | false =>
    simp only [flag,Bool.false_eq_true,if_false]
    exact nearestPrediction_stored lib context house model rf _ stored trusted

/-- What the loop adds to its sums for a list of fields. -/
structure PlainSummed (fields : List (ReceptiveField nIn)) (before after : PlainSums nIn) :
    Prop where
  yp : after.yp = before.yp + ((fields.filter (isActive lib model cutoff)).map fun rf =>
    activation lib model rf * rf.plainPrediction lib context house model).sum
  sumW : after.sumW =
    before.sumW + ((fields.filter (isActive lib model cutoff)).map (activation lib model)).sum

theorem plainStep_summed (sums : PlainSums nIn) (n : Nat) (rf : ReceptiveField nIn) :
    PlainSummed lib context house model cutoff [rf] sums
      (plainStep lib context house model cutoff sums n rf) := by
  by_cases active : activation lib model rf > cutoff
  · have isActive : isActive lib model cutoff rf = true := decide_eq_true active
    constructor
    · simp [plainStep,active,isActive]
    · simp [plainStep,active,isActive]
  · have idle : isActive lib model cutoff rf = false := decide_eq_false active
    constructor
    · simp [plainStep,active,idle]
    · simp [plainStep,active,idle]

theorem plainLoop_summed (n : Nat) (sums : PlainSums nIn) (fields : List (ReceptiveField nIn)) :
    PlainSummed lib context house model cutoff fields sums
      (plainLoop lib context house model cutoff n sums fields) := by
  induction fields generalizing n sums with
  | nil => exact ⟨(add_zero _).symm,(add_zero _).symm⟩
  | cons rf rest ih =>
    have first := plainStep_summed lib context house model cutoff sums n rf
    have others := ih (n + 1) (plainStep lib context house model cutoff sums n rf)
    rw [plainLoop,← List.singleton_append]
    constructor
    · rw [others.yp,first.yp,List.filter_append,List.map_append,List.sum_append,add_assoc]
    · rw [others.sumW,first.sumW,List.filter_append,List.map_append,List.sum_append,add_assoc]

/-- The loop's quotient as the mean of the fields' predictions. -/
theorem lwprAuxPredictOneT_mean (above : 0 ≤ cutoff)
    (active : model.rf.filter (isActive lib model cutoff) ≠ [])
    (alike : ∀ rf ∈ model.rf, rf.plainPrediction lib context house model =
      fieldPrediction lib context house model rf) :
    lwprAuxPredictOneT lib context house model cutoff =
      weightedMean lib context house model (model.rf.filter (isActive lib model cutoff)) := by
  have summed := plainLoop_summed lib context house model cutoff 0 ⟨0,0,0,0,0⟩ model.rf
  have yp := summed.yp
  have sumW := summed.sumW
  rw [zero_add] at yp sumW
  have values : ((model.rf.filter (isActive lib model cutoff)).map fun rf =>
      activation lib model rf * rf.plainPrediction lib context house model) =
      (model.rf.filter (isActive lib model cutoff)).map fun rf =>
        activation lib model rf * fieldPrediction lib context house model rf :=
    List.map_congr_left fun rf within => by rw [alike rf (List.mem_of_mem_filter within)]
  have positive := sum_activation_pos lib model _ active fun rf within =>
    above.trans_lt (of_decide_eq_true (List.mem_filter.mp within).2)
  rw [← sumW] at positive
  rw [values] at yp
  unfold lwprAuxPredictOneT weightedMean
  dsimp only
  rw [if_pos positive,yp,sumW]

theorem activation_le_largest (rf : ReceptiveField nIn) (member : rf ∈ model.rf) :
    activation lib model rf ≤ largestActivation lib model := by
  -- The largest value so far only grows, so every value stays below it.
  have bound (values : List ℚ) (start : ℚ) :
      start ≤ values.foldl max start ∧ ∀ value ∈ values, value ≤ values.foldl max start := by
    induction values generalizing start with
    | nil => exact ⟨le_rfl,List.forall_mem_nil _⟩
    | cons value values ih =>
      obtain ⟨started,others⟩ := ih (max start value)
      exact ⟨(le_max_left ..).trans started,
        List.forall_mem_cons.mpr ⟨(le_max_right ..).trans started,others⟩⟩
  exact (bound _ 0).2 _ (List.mem_map_of_mem member)

/-- The intended rows where no field is an exact match and every active one is reliable. -/
theorem intendedRows_mean (active : model.rf.filter (isActive lib model cutoff) ≠ [])
    (inexact : ∀ rf ∈ model.rf, isExact lib model rf = false)
    (reliable : ∀ rf ∈ model.rf, isActive lib model cutoff rf = true →
      isReliable lib model cutoff rf = true) :
    intendedRows lib context house model cutoff =
      weightedMean lib context house model (model.rf.filter (isActive lib model cutoff)) := by
  have same : model.rf.filter (isReliable lib model cutoff) =
      model.rf.filter (isActive lib model cutoff) := by
    refine List.filter_congr fun rf member => ?_
    cases idle : isActive lib model cutoff rf with
    | true => exact reliable rf member idle
    | false => exact decide_eq_false fun both => of_decide_eq_false idle both.1
  have unmatched : model.rf.filter (isExact lib model) = [] := by
    refine List.filter_eq_nil_iff.mpr fun rf member => ?_
    rw [inexact rf member]
    exact Bool.false_ne_true
  simp only [intendedRows,unmatched,List.getLast?_nil,same,if_neg active]

end Plain

section Reach

variable {nIn : Nat} (lib : CLibrary) (fspaceHash fssHash : Int) (memory : Memory nIn)
  (reachable : Reachable lib fspaceHash fssHash memory) (dimension : 0 < nIn)
  (context : CallContext) (here : context.fspaceHash = fspaceHash) (cutoff : ℚ) (x : Cells ℚ nIn)
include reachable dimension here

/-- Mean over the active fields, weighted with their activations, if there is one. -/
theorem lwprPredict_mean (above : 0 ≤ cutoff)
    (active : memory.model.rf.filter (isActive lib (memory.model.asked x) cutoff) ≠ []) :
    lwprPredict lib context memory.house memory.model cutoff x =
      weightedMean lib context memory.house (memory.model.asked x)
        (memory.model.rf.filter (isActive lib (memory.model.asked x) cutoff)) := by
  subst here
  have grown := reachable.grown lib
  have scale : memory.model.normOut = 1 := congrArg Parameters.normOut reachable.storable.parameters
  rw [lwprPredict,scale,mul_one]
  refine lwprAuxPredictOneT_mean lib context memory.house (memory.model.asked x) cutoff above active
    fun rf member => ?_
  exact plainPrediction_eq lib context memory.house (memory.model.asked x) rf
    (Grown.shaped lib grown dimension rf member) (Grown.slopeReady lib grown rf member)
    (reachable.sampled lib rf member)

/-- Both functions predict the same rows where no field is an exact match and every active one is
reliable. -/
theorem lwprPredict_eq_lwprPredictExplore (above : useAqoThreshold ≤ cutoff)
    (below : cutoff ≤ 999/1000)
    (active : memory.model.rf.filter (isActive lib (memory.model.asked x) cutoff) ≠ [])
    (inexact : ∀ rf ∈ memory.model.rf, isExact lib (memory.model.asked x) rf = false)
    (reliable : ∀ rf ∈ memory.model.rf, isActive lib (memory.model.asked x) cutoff rf = true →
      isReliable lib (memory.model.asked x) cutoff rf = true) :
    lwprPredict lib context memory.house memory.model cutoff x =
      (lwprPredictExplore lib context memory.house memory.model cutoff x).2.rows := by
  have positive : (0 : ℚ) ≤ cutoff := le_trans (by unfold useAqoThreshold; norm_num) above
  have largest : largestActivation lib (memory.model.asked x) ≠ useAqoThreshold := by
    obtain ⟨rf,within⟩ := List.exists_mem_of_ne_nil _ active
    have reached := activation_le_largest lib (memory.model.asked x) rf
      (List.mem_of_mem_filter within)
    have beyond : activation lib (memory.model.asked x) rf > cutoff :=
      of_decide_eq_true (List.mem_filter.mp within).2
    exact (above.trans_lt (beyond.trans_le reached)).ne'
  rw [lwprPredict_mean lib fspaceHash fssHash memory reachable dimension context here cutoff x
    positive active,lwprPredictExplore_rows lib fssHash context memory.house memory.model
      reachable.storable cutoff x]
  subst here
  rw [(predictedRows_intended lib context memory.house (memory.model.asked x) cutoff positive below
    (reachable.sampled lib) largest _).1]
  exact (intendedRows_mean lib context memory.house (memory.model.asked x) cutoff active inexact
    reliable).symm

end Reach

example :
    let x : Cells ℚ 1 := Cells.fill fun _ => 1/10
    (learnedTwice.model.rf.map fun rf =>
      (isActive rationalLibrary (learnedTwice.model.asked x) (1/1000) rf,
        isExact rationalLibrary (learnedTwice.model.asked x) rf,
        isReliable rationalLibrary (learnedTwice.model.asked x) (1/1000) rf)) =
          [(true,false,true)] ∧
      lwprPredict rationalLibrary uniformContext learnedTwice.house learnedTwice.model (1/1000) x =
        (lwprPredictExplore rationalLibrary uniformContext learnedTwice.house learnedTwice.model
          (1/1000) x).2.rows := by
  decide +kernel

end ExploratoryOptimizer.Aqo.Lwpr
