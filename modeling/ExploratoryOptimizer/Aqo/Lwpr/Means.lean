import ExploratoryOptimizer.Aqo.Lwpr.Shape
import ExploratoryOptimizer.Library.WeightedMean

/-! The statistics that a receptive field keeps of its samples are exact weighted means. -/
namespace ExploratoryOptimizer.Aqo.Lwpr
open Library.FixedArray Library.Machine Library.WeightedMean OkNNr Session

/-- A sample and the activation it was learned with. -/
structure Observation (nIn : Nat) where
  x : Cells ℚ nIn
  y : ℚ
  w : ℚ

section Trained

variable {nIn : Nat} (lib : CLibrary)

/-- A field that was created with the intercept `b0` and has learned the samples since. -/
inductive Trained (b0 : ℚ) : List (Observation nIn) → ReceptiveField nIn → Prop where
  | created (model : Model nIn) (template : Option (ReceptiveField nIn))
      (parameters : model.toParameters = initParameters nIn)
      (shaped : ∀ rf, template = some rf → rf.Shaped)
      (intercept : (lwprAuxInitRf lib model template).beta0 = b0) :
        Trained b0 [] (lwprAuxInitRf lib model template)
  | learned (samples : List (Observation nIn)) (context : CallContext) (house : Datahouse)
      (model : Model nIn) (rf : ReceptiveField nIn)
      (parameters : model.toParameters = initParameters nIn)
      (active : activation lib model rf > 1/1000) (before : Trained b0 samples rf) :
      Trained b0 (samples ++ [⟨model.xn,model.yn,activation lib model rf⟩])
        (learnActive lib context house model rf).1
  | unread (samples : List (Observation nIn)) (rf rf' : ReceptiveField nIn)
      (same : rf'.forget = rf.forget) (before : Trained b0 samples rf) : Trained b0 samples rf'

/-- Every field of a model has been created once and has learned some samples since. -/
theorem Grown.trained {fssHash : Int} {model : Model nIn} (grown : Grown lib fssHash model)
    (dimension : 0 < nIn) :
    ∀ rf ∈ model.rf, rf.Shaped ∧ ∃ b0 samples, Trained lib b0 samples rf := by
  refine Grown.fields lib grown _ (fun rf rf' same before => ?_)
    (fun model template parameters shaped => ?_)
    fun context house model rf parameters active before => ?_
  · obtain ⟨shaped,b0,samples,trained⟩ := before
    exact ⟨shaped_unread rf rf' same shaped,b0,samples,.unread samples rf rf' same trained⟩
  · have template_shaped := fun rf here => (shaped rf here).1
    exact ⟨lwprAuxInitRf_shaped lib model template dimension parameters template_shaped,_,[],
      .created model template parameters template_shaped rfl⟩
  · obtain ⟨shaped,b0,samples,trained⟩ := before
    exact ⟨learnActive_shaped lib context house model rf parameters active shaped,b0,_,
      .learned samples context house model rf parameters active trained⟩

end Trained

namespace ReceptiveField

variable {nIn : Nat}

/-- What an update of the means moves, and the counts that belong to it. -/
def tally (rf : ReceptiveField nIn) : ℚ × ℚ × Cells ℚ (nInStore nIn) × ℚ :=
  (rf.sumW.get 0,rf.nData.get 0,rf.meanX,rf.beta0)

theorem tally_pushError (rf : ReceptiveField nIn) (error : ℚ) :
    (rf.pushError error).tally = rf.tally := by
  obtain ⟨_,_,pushed⟩ := rf.pushError_eq error
  rw [pushed]
  rfl

theorem Shaped.tally_lwprAuxCheckAddProjection {rf : ReceptiveField nIn} (shaped : rf.Shaped)
    (model : Model nIn) :
    (rf.lwprAuxCheckAddProjection model).tally = rf.tally := by
  rcases rf.lwprAuxCheckAddProjection_cases model with same | ⟨room,added⟩
  · rw [same]
  · have first : (rf.sumW.set rf.nReg (1/10000000000)).get 0 = rf.sumW.get 0 := by
      rw [Cells.get_set _ _ _ 0 (shaped.regular.some.trans room),if_neg shaped.regular.some.ne]
    rw [added,shaped.withRoom room]
    exact congrArg (·,rf.nData.get 0,rf.meanX,rf.beta0) first

theorem Shaped.tally_countData {rf : ReceptiveField nIn} (shaped : rf.Shaped) (model : Model nIn) :
    (rf.countData model).tally = (rf.sumW.get 0,rf.nData.get 0 + 1,rf.meanX,rf.beta0) :=
  congrArg (rf.sumW.get 0,·,rf.meanX,rf.beta0) (shaped.regular.countData_nData model)

end ReceptiveField

section Step

variable {nIn : Nat} (lib : CLibrary) (model : Model nIn) {rf : ReceptiveField nIn}
  (shaped : rf.Shaped)
include shaped

/-- The weight is added after the means were moved. -/
theorem checkedField_tally :
    (checkedField lib model rf).tally = (rf.sumW.get 0 + activation lib model rf,rf.nData.get 0,
      (meansField lib model rf).meanX,(meansField lib model rf).beta0) := by
  have means : (meansField lib model rf).Regular := shaped.regular.of_same rfl
  have weight :
    (learnedRegression lib model rf).rf.sumW.get 0 = rf.sumW.get 0 + activation lib model rf := by
    let moved :=
      ReceptiveField.lwprAuxUpdateMeans {rf with w := activation lib model rf} model.xn model.yn
        (activation lib model rf)
    exact means.axisWeights lib moved.2.1 moved.2.2 _ 0 means.some
  have regression :
    (learnedRegression lib model rf).rf.tally =
      (rf.sumW.get 0 + activation lib model rf,rf.nData.get 0,
      (meansField lib model rf).meanX,(meansField lib model rf).beta0) :=
    congrArg (·,rf.nData.get 0,(meansField lib model rf).meanX,
        (meansField lib model rf).beta0) weight
  have metric : (metricField lib model rf).tally = _ :=
    (ReceptiveField.tally_pushError _ _).trans regression
  unfold checkedField
  split_ifs
  · exact metric
  · exact metric

theorem learnActive_tally (context : CallContext) (house : Datahouse)
    (parameters : model.toParameters = initParameters nIn)
    (active : activation lib model rf > 1/1000) :
    (learnActive lib context house model rf).1.tally = (rf.sumW.get 0 + activation lib model rf,
        rf.nData.get 0 + 1,
      (meansField lib model rf).meanX,(meansField lib model rf).beta0) := by
  have checked := checkedField_shaped lib model rf active shaped
  have projected := checked.tally_lwprAuxCheckAddProjection model
  rw [checkedField_tally lib model shaped] at projected
  have counted := (checked.lwprAuxCheckAddProjection model parameters).tally_countData model
  simp only [ReceptiveField.tally,Prod.mk.injEq] at projected
  obtain ⟨weight,count,mean,intercept⟩ := projected
  rw [weight,count,mean,intercept] at counted
  exact counted

end Step

/-! Means over what a new field starts with and the samples it has learned. -/

section Averaged

variable {nIn : Nat}

/-- What a new field starts with, as if it had been observed. -/
def startingPoint (b0 : ℚ) : Observation nIn := ⟨0,b0,1/10000000000⟩

/-- A single observation is its own mean. -/
theorem mean_startingPoint (value : Observation nIn → ℚ) (b0 : ℚ) :
    mean Observation.w value [startingPoint b0] = value (startingPoint b0) := by
  have nonzero : (startingPoint b0 : Observation nIn).w ≠ 0 := by
    change (1/10000000000 : ℚ) ≠ 0
    decide +kernel
  rw [mean,weightedSum,total,List.map_singleton,List.map_singleton,List.sum_singleton,
    List.sum_singleton,mul_div_cancel_left₀ _ nonzero]

structure Averaged (b0 : ℚ) (samples : List (Observation nIn))
    (rf : ReceptiveField nIn) : Prop where
  shaped : rf.Shaped
  active : ∀ sample ∈ samples, 1/1000 < sample.w
  sumW : rf.sumW.get 0 = total Observation.w (startingPoint b0 :: samples)
  nData : rf.nData.get 0 = 1/10000000000 + samples.length
  meanX : ∀ i < nIn, rf.meanX.get i = mean Observation.w (·.x.get i) (startingPoint b0 :: samples)
  beta0 : rf.beta0 = mean Observation.w Observation.y (startingPoint b0 :: samples)

theorem Averaged.weights {b0 : ℚ} {samples : List (Observation nIn)} {rf : ReceptiveField nIn}
    (averaged : Averaged b0 samples rf) : ∀ sample ∈ startingPoint b0 :: samples, 0 < sample.w := by
  refine List.forall_mem_cons.mpr ⟨?_,fun sample member => ?_⟩
  · change (0 : ℚ) < 1/10000000000
    norm_num
  · exact lt_trans (by norm_num) (averaged.active sample member)

variable (lib : CLibrary)

theorem lwprAuxInitRf_averaged (model : Model nIn) (template : Option (ReceptiveField nIn))
    (dimension : 0 < nIn) (parameters : model.toParameters = initParameters nIn)
    (shaped : ∀ rf, template = some rf → rf.Shaped) :
    Averaged (lwprAuxInitRf lib model template).beta0 [] (lwprAuxInitRf lib model template) := by
  have created := lwprAuxInitRf_shaped lib model template dimension parameters shaped
  have first := get_startValue created.regular.within (1/10000000000) created.regular.some
  refine ⟨created,List.forall_mem_nil _,?_,?_,fun i _ => ?_,?_⟩
  · exact first.trans (List.sum_singleton).symm
  · exact first.trans (by rw [List.length_nil,Nat.cast_zero,add_zero])
  · rw [mean_startingPoint]
    exact (Cells.get_zero i).trans (Cells.get_zero i).symm
  · rw [mean_startingPoint]
    rfl

theorem learnActive_averaged (context : CallContext) (house : Datahouse) (model : Model nIn)
    (rf : ReceptiveField nIn) (parameters : model.toParameters = initParameters nIn)
    (active : activation lib model rf > 1/1000) (b0 : ℚ) (samples : List (Observation nIn))
    (before : Averaged b0 samples rf) :
    Averaged b0 (samples ++ [⟨model.xn,model.yn,activation lib model rf⟩])
      (learnActive lib context house model rf).1 := by
  have tally := learnActive_tally lib model before.shaped context house parameters active
  simp only [ReceptiveField.tally,Prod.mk.injEq] at tally
  obtain ⟨weight,count,means,intercept⟩ := tally
  have lambda := before.shaped.regular.lambda 0 before.shaped.regular.some
  have nonzero : total Observation.w (startingPoint b0 :: samples) ≠ 0 := by
    rw [← before.sumW]
    exact before.shaped.regular.sumW.ne'
  refine ⟨learnActive_shaped lib context house model rf parameters active before.shaped,?_,?_,?_,
    fun i within => ?_,?_⟩
  · intro sample member
    rcases List.mem_append.mp member with old | new
    · exact before.active sample old
    · rw [List.mem_singleton.mp new]
      exact active
  · rw [weight,before.sumW,← List.cons_append,total_concat]
  · rw [count,before.nData,List.length_append,List.length_singleton,Nat.cast_add,
      Nat.cast_one,add_assoc]
  · rw [means,← List.cons_append,mean_concat _ _ _ _ nonzero,← before.sumW,← before.meanX i within]
    refine (Cells.get_fill _ i (lt_nInStore within)).trans ?_
    simp only [within,if_true,lambda,mul_one,mul_one_div]
  · rw [intercept,← List.cons_append,mean_concat _ _ _ _ nonzero,← before.sumW,← before.beta0]
    change (rf.sumW.get 0 * rf.lambda.get 0 * rf.beta0 + _) *
      (1 / (rf.sumW.get 0 * rf.lambda.get 0 + _)) = _
    rw [lambda,mul_one,mul_one_div]

theorem Trained.averaged {b0 : ℚ} {samples : List (Observation nIn)} {rf : ReceptiveField nIn}
    (trained : Trained lib b0 samples rf) (dimension : 0 < nIn) : Averaged b0 samples rf := by
  induction trained with
  | created model template parameters shaped intercept =>
    rw [← intercept]
    exact lwprAuxInitRf_averaged lib model template dimension parameters shaped
  | learned samples context house model rf parameters active _ ih =>
    exact learnActive_averaged lib context house model rf parameters active b0 samples ih
  | unread samples rf rf' same _ ih =>
    have tally : rf'.forget.tally = rf.forget.tally := by rw [same]
    change rf'.tally = rf.tally at tally
    simp only [ReceptiveField.tally,Prod.mk.injEq] at tally
    obtain ⟨weight,count,means,intercept⟩ := tally
    exact ⟨shaped_unread rf rf' same ih.shaped,ih.active,weight.trans ih.sumW,count.trans ih.nData,
      means ▸ ih.meanX,intercept.trans ih.beta0⟩

/-- Weight, count, means and intercept of a field from all samples it has learned. -/
theorem trained_means (dimension : 0 < nIn) (b0 : ℚ) (samples : List (Observation nIn))
    (rf : ReceptiveField nIn) (trained : Trained lib b0 samples rf) :
    rf.sumW.get 0 = 1/10000000000 + (samples.map (·.w)).sum ∧
      rf.nData.get 0 = 1/10000000000 + samples.length ∧
      (∀ i < nIn, rf.meanX.get i = (samples.map fun sample => sample.w * sample.x.get i).sum /
        rf.sumW.get 0) ∧
      rf.beta0 = (1/10000000000 * b0 + (samples.map fun sample => sample.w * sample.y).sum) /
      rf.sumW.get 0 ∧ ∀ least most : ℚ, (least ≤ b0 ∧ ∀ sample ∈ samples, least ≤ sample.y) →
        (b0 ≤ most ∧ ∀ sample ∈ samples, sample.y ≤ most) → least ≤ rf.beta0 ∧ rf.beta0 ≤ most := by
  have averaged := trained.averaged lib dimension
  have weights := averaged.weights
  have some : 0 < total Observation.w (startingPoint b0 :: samples) :=
    averaged.sumW ▸ averaged.shaped.regular.sumW
  refine ⟨averaged.sumW,averaged.nData,fun i within => ?_,?_,fun least most below above => ?_⟩
  · have origin : (startingPoint b0 : Observation nIn).x.get i = 0 := Cells.get_zero i
    rw [averaged.meanX i within,averaged.sumW,mean,weightedSum,List.map_cons,List.sum_cons,origin,
      mul_zero,zero_add]
  · rw [averaged.beta0,averaged.sumW]
    rfl
  · rw [averaged.beta0]
    exact ⟨le_mean _ _ _ some (fun sample member => (weights sample member).le) _
      (List.forall_mem_cons.mpr below),
      mean_le _ _ _ some (fun sample member => (weights sample member).le) _
      (List.forall_mem_cons.mpr above)⟩

end Averaged

/-- A field at the origin, and a sample next to it. -/
def originField : ReceptiveField 1 :=
  lwprAuxInitRf rationalLibrary ((unlearned 1 7).sampled (Cells.fill fun _ => 0) 2) none

def nearSample : Model 1 := (unlearned 1 7).sampled (Cells.fill fun _ => 1/10) 4

theorem trained_means_near :
    (learnActive rationalLibrary uniformContext (fun _ _ _ => none) nearSample
        originField).1.nData.get 0 = 1/10000000000 + 1 ∧
      2 ≤ (learnActive rationalLibrary uniformContext (fun _ _ _ => none) nearSample
        originField).1.beta0 := by
  have created : Trained rationalLibrary 2 [] originField :=
    .created _ none rfl (fun rf none => absurd none (Option.some_ne_none rf).symm)
      (by decide +kernel)
  have means :=
    trained_means rationalLibrary Nat.one_pos 2 _ _
      (.learned [] uniformContext (fun _ _ _ => none) nearSample
    originField rfl (by decide +kernel) created)
  exact ⟨means.2.1,(means.2.2.2.2 2 4 (by decide +kernel) (by decide +kernel)).1⟩

end ExploratoryOptimizer.Aqo.Lwpr
