import ExploratoryOptimizer.Aqo.Lwpr.Leverage

/-! The shape of receptive fields: how many axes they have and have room for, from how many samples
on they are trusted, and that what they divide by does not vanish. -/
namespace ExploratoryOptimizer.Aqo.Lwpr
open Library.FixedArray Library.Machine OkNNr Session

namespace ReceptiveField

variable {nIn : Nat}

/-- A regular field with room for all axes, and with the statistics of each axis above where they
start. -/
structure Shaped (rf : ReceptiveField nIn) : Prop where
  regular : rf.Regular
  enough : min 2 nIn ≤ rf.nReg
  store : rf.nRegStore = nIn
  trusted : rf.trustworthy = true → 2 * nIn < rf.nData.get 0
  SSs2 : ∀ j < rf.nReg, 1/10000000000 ≤ rf.SSs2.get j
  sumW : ∀ j < rf.nReg, 1/10000000000 ≤ rf.sumW.get j

/-- What `Shaped` speaks of beyond `Regular`. -/
def shape (rf : ReceptiveField nIn) : Nat × Bool × Cells ℚ nIn :=
  (rf.nRegStore,rf.trustworthy,rf.nData)

theorem Shaped.of_same {rf rf' : ReceptiveField nIn} (shaped : rf.Shaped)
    (statistics : rf'.axisStatistics = rf.axisStatistics) (shape : rf'.shape = rf.shape) :
    rf'.Shaped := by
  refine ⟨shaped.regular.of_same statistics,?_,?_,?_,?_,?_⟩
  all_goals
    simp only [axisStatistics,ReceptiveField.shape,Prod.mk.injEq] at statistics shape
    obtain ⟨axes,_,squares,_,weights,_⟩ := statistics
    obtain ⟨store,trusted,data⟩ := shape
  · rw [axes]
    exact shaped.enough
  · rw [store]
    exact shaped.store
  · rw [trusted,data]
    exact shaped.trusted
  · rw [axes,squares]
    exact shaped.SSs2
  · rw [axes,weights]
    exact shaped.sumW

section Step

variable {rf : ReceptiveField nIn} (shaped : rf.Shaped)
include shaped

theorem Shaped.updateAxes (lib : CLibrary) (x : Cells ℚ nIn) (y w : ℚ) (weight : 0 < w) :
    (rf.updateAxes lib x y w).1.Shaped := by
  have regular := shaped.regular
  refine ⟨regular.updateAxes lib x y w weight,shaped.enough,shaped.store,shaped.trusted,
    fun j axis => ?_,fun j axis => ?_⟩
  · have square : 0 ≤ w * (rf.loadingAt x j * rf.loadingAt x j) :=
      mul_nonneg weight.le (mul_self_nonneg _)
    have before := shaped.SSs2 j axis
    rw [regular.axisSquares lib x y w j axis]
    linarith
  · have before := shaped.sumW j axis
    rw [regular.axisWeights lib x y w j axis]
    linarith

/-- A field becomes trusted when it has counted enough samples. -/
theorem Shaped.updateErrors (eCv : Nat → ℚ) (y w : ℚ) (weight : 0 < w) :
    (rf.updateErrors eCv y w).rf.Shaped := by
  refine ⟨shaped.regular.updateErrors eCv y w weight,shaped.enough,shaped.store,
    fun trusted => ?_,shaped.SSs2,shaped.sumW⟩
  rcases Bool.or_eq_true_iff.mp trusted with counted | before
  · exact of_decide_eq_true counted
  · exact shaped.trusted before

theorem Shaped.pushError (error : ℚ) : (rf.pushError error).Shaped := by
  obtain ⟨_,_,pushed⟩ := rf.pushError_eq error
  rw [pushed]
  exact shaped.of_same rfl rfl

/-- A new axis fits into the store, so the field is not moved. -/
theorem Shaped.withRoom (room : rf.nReg < nIn) : rf.withRoom = rf :=
  if_neg fun full => room.ne (full.trans shaped.store)

theorem Shaped.addAxis (model : Model nIn) (parameters : model.toParameters = initParameters nIn)
    (room : rf.nReg < nIn) : (rf.addAxis model).Shaped := by
  have initial : model.initS2 = 1/10000000000 := congrArg Parameters.initS2 parameters
  refine ⟨shaped.regular.addAxis model parameters room,Nat.le_succ_of_le shaped.enough,
    shaped.store,shaped.trusted,fun j axis => ?_,fun j axis => ?_⟩
  · have within : j < rf.nReg + 1 := axis
    refine le_of_le_of_eq ?_ (Cells.get_set _ _ _ j (by omega)).symm
    split_ifs with new
    · exact initial.ge
    · exact shaped.SSs2 j (by omega)
  · have within : j < rf.nReg + 1 := axis
    refine le_of_le_of_eq ?_ (Cells.get_set _ _ _ j (by omega)).symm
    split_ifs with new
    · exact le_rfl
    · exact shaped.sumW j (by omega)

theorem Shaped.lwprAuxCheckAddProjection (model : Model nIn)
    (parameters : model.toParameters = initParameters nIn) :
    (rf.lwprAuxCheckAddProjection model).Shaped := by
  rcases rf.lwprAuxCheckAddProjection_cases model with same | ⟨room,added⟩
  · rw [same]
    exact shaped
  · rw [added,shaped.withRoom room]
    exact shaped.addAxis model parameters room

theorem Shaped.countData (model : Model nIn)
    (parameters : model.toParameters = initParameters nIn) :
    (rf.countData model).Shaped := by
  have regular := shaped.regular
  refine ⟨regular.countData model parameters,shaped.enough,shaped.store,fun trusted => ?_,
    shaped.SSs2,shaped.sumW⟩
  have before := shaped.trusted trusted
  rw [regular.countData_nData model]
  linarith

/-! How many axes an input is projected on. -/

theorem Shaped.usedAxes_pos : 0 < rf.usedAxes := by
  have enough := shaped.enough
  have some := shaped.regular.some
  unfold usedAxes
  split_ifs with few
  · omega
  · exact some

theorem Shaped.trustedAxes_pos (trusted : rf.trustworthy = true) : 0 < rf.trustedAxes := by
  have enough := shaped.enough
  have some := shaped.regular.some
  have within := shaped.regular.within
  unfold trustedAxes
  split_ifs with few
  · -- With one axis it is the first one that has counted the samples.
    by_contra none
    have single : rf.nReg - 1 = 0 := by omega
    rw [single] at few
    exact absurd (shaped.trusted trusted) (not_lt.mpr few)
  · exact some

end Step

end ReceptiveField

section Reach

variable {nIn : Nat} (lib : CLibrary)

/-- The field as it is given to `lwpr_aux_check_add_projection`. -/
def checkedField (model : Model nIn) (rf : ReceptiveField nIn) : ReceptiveField nIn :=
  if model.updateD then
    (metricField lib model rf).lwprAuxUpdateDistanceMetric model (activation lib model rf)
      (kernelSlope lib model.kernel (rf.dist model.xn)) (learnedRegression lib model rf).eCv
      (learnedRegression lib model rf).e
  else metricField lib model rf

/-- The field as it is given to `lwpr_aux_update_regression`. -/
def meansField (model : Model nIn) (rf : ReceptiveField nIn) : ReceptiveField nIn :=
  (ReceptiveField.lwprAuxUpdateMeans {rf with w := activation lib model rf} model.xn model.yn
      (activation lib model rf)).1

/-- A field as the functions see it that an update with the sample of the model calls on it. -/
def stages (model : Model nIn) (rf : ReceptiveField nIn) : List (ReceptiveField nIn) :=
  if activation lib model rf > 1/1000 then
    [rf,meansField lib model rf,metricField lib model rf,checkedField lib model rf]
  else [rf]

theorem stages_shaped (model : Model nIn) (rf : ReceptiveField nIn) (shaped : rf.Shaped) :
    ∀ field ∈ stages lib model rf, field.Shaped := by
  unfold stages
  split_ifs with active
  · have weight : 0 < activation lib model rf := lt_trans (by norm_num) active
    have means : (meansField lib model rf).Shaped := shaped.of_same rfl rfl
    have learned : (metricField lib model rf).Shaped :=
      ((means.updateAxes lib _ _ _ weight).updateErrors _ _ _ weight).pushError _
    have checked : (checkedField lib model rf).Shaped := by
      unfold checkedField
      split_ifs
      · exact learned.of_same rfl rfl
      · exact learned
    simp only [List.mem_cons,List.not_mem_nil,or_false]
    rintro field (rfl | rfl | rfl | rfl)
    · exact shaped
    · exact means
    · exact learned
    · exact checked
  · intro field here
    rw [List.mem_singleton.mp here]
    exact shaped

theorem checkedField_shaped (model : Model nIn) (rf : ReceptiveField nIn)
    (active : activation lib model rf > 1/1000) (shaped : rf.Shaped) :
    (checkedField lib model rf).Shaped := by
  refine stages_shaped lib model rf shaped _ ?_
  rw [stages,if_pos active]
  exact List.mem_of_getLast? rfl

theorem learnActive_shaped (context : CallContext) (house : Datahouse) (model : Model nIn)
    (rf : ReceptiveField nIn) (parameters : model.toParameters = initParameters nIn)
    (active : activation lib model rf > 1/1000) (shaped : rf.Shaped) :
    (learnActive lib context house model rf).1.Shaped := by
  have checked := checkedField_shaped lib model rf active shaped
  exact (checked.lwprAuxCheckAddProjection model parameters).countData model parameters

theorem lwprAuxInitRf_shaped (model : Model nIn) (template : Option (ReceptiveField nIn))
    (dimension : 0 < nIn) (parameters : model.toParameters = initParameters nIn)
    (shaped : ∀ rf, template = some rf → rf.Shaped) :
    (lwprAuxInitRf lib model template).Shaped := by
  have regular := lwprAuxInitRf_regular lib model template dimension parameters fun rf here =>
    (shaped rf here).regular
  have initial : model.initS2 = 1/10000000000 := congrArg Parameters.initS2 parameters
  have store : (lwprAuxInitRf lib model template).nRegStore = nIn := by
    have within := regular.within
    cases template with
    | none => exact if_neg (not_lt.mpr within)
    | some rf =>
      have store := (shaped rf rfl).store
      exact (if_neg (not_lt.mpr (within.trans_eq store.symm))).trans store
  refine ⟨regular,?_,store,fun trusted => absurd trusted Bool.false_ne_true,fun j axis => ?_,
    fun j axis => ?_⟩
  · cases template with
    | none =>
      change _ ≤ if 1 < nIn then 2 else 1
      split_ifs
      · omega
      · omega
    | some rf => exact (shaped rf rfl).enough
  · exact initial.ge.trans_eq (get_startValue regular.within _ axis).symm
  · exact (get_startValue regular.within _ axis).ge

theorem shaped_unread (rf rf' : ReceptiveField nIn) (same : rf'.forget = rf.forget)
    (shaped : rf.Shaped) :
    rf'.Shaped := by
  have statistics : rf'.forget.axisStatistics = rf.forget.axisStatistics := by rw [same]
  have shape : rf'.forget.shape = rf.forget.shape := by rw [same]
  exact shaped.of_same statistics shape

theorem Grown.shaped {fssHash : Int} {model : Model nIn} (grown : Grown lib fssHash model)
    (dimension : 0 < nIn) :
    ∀ rf ∈ model.rf, rf.Shaped := by
  refine Grown.fields lib grown ReceptiveField.Shaped shaped_unread
    (fun model template parameters shaped =>
      lwprAuxInitRf_shaped lib model template dimension parameters shaped)
    fun context house model rf parameters active shaped =>
      learnActive_shaped lib context house model rf parameters active shaped

/-- The fields of a model have two axes if the input has as many, and no more than the input, for
which there is always room. None of their divisors vanishes, nor does the number of axes of a
projection, before an update and in each of its steps. -/
theorem fields_shape (dimension : 0 < nIn) (fssHash : Int) (model : Model nIn)
    (grown : Grown lib fssHash model) (x : Cells ℚ nIn) (y : ℚ) (rf : ReceptiveField nIn)
    (member : rf ∈ model.rf) :
    ∀ field ∈ stages lib (model.sampled x y) rf,
      (min 2 nIn ≤ field.nReg ∧ field.nReg ≤ nIn ∧ field.nRegStore = nIn) ∧
      (field.nReg < nIn → field.nReg ≠ field.nRegStore ∧ 2 ≤ field.nReg) ∧
      (field.nReg ≠ 1 → 2 ≤ field.nReg) ∧ (field.trustworthy = true → 2 * nIn < field.nData.get 0) ∧
      (0 < field.nReg ∧ 0 < field.usedAxes ∧ (field.trustworthy = true → 0 < field.trustedAxes)) ∧
      ∀ i < field.nReg, field.lambda.get i = 1 ∧ model.initS2 ≤ field.SSs2.get i ∧
      0 < model.initS2 ∧
        1/10000000000 ≤ field.sumW.get i := by
  intro field stage
  have initial : model.initS2 = 1/10000000000 :=
    congrArg Parameters.initS2 (Grown.storable lib grown).parameters
  have shaped :=
    stages_shaped lib (model.sampled x y) rf
      (Grown.shaped lib grown dimension rf member) field stage
  have regular := shaped.regular
  have enough := shaped.enough
  have some := regular.some
  refine ⟨⟨enough,regular.within,shaped.store⟩,fun room => ⟨?_,?_⟩,?_,shaped.trusted,
    ⟨some,shaped.usedAxes_pos,shaped.trustedAxes_pos⟩,fun i axis =>
    ⟨regular.lambda i axis,?_,?_,shaped.sumW i axis⟩⟩
  · rw [shaped.store]
    exact room.ne
  · omega
  · omega
  · rw [initial]
    exact shaped.SSs2 i axis
  · rw [initial]
    decide +kernel

theorem fields_shape_points :
    (learnedPoints [(point 0 0,1),(point (1/10) 0,2)]).model.rf.length = 1 ∧
      ∀ rf ∈ (learnedPoints [(point 0 0,1),(point (1/10) 0,2)]).model.rf,
        ∀ field ∈ stages rationalLibrary ((learnedPoints
            [(point 0 0,1),(point (1/10) 0,2)]).model.sampled (point 0 0) 3) rf,
          2 ≤ field.nReg ∧ field.nReg ≤ 2 ∧ field.nRegStore = 2 :=
  ⟨by decide +kernel,fun rf member field stage => (fields_shape rationalLibrary Nat.two_pos 7 _
    (learnedPoints_reachable [(point 0 0,1),(point (1/10) 0,2)]).grown
    (point 0 0) 3 rf member field stage).1⟩

end Reach

end ExploratoryOptimizer.Aqo.Lwpr
