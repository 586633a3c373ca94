import ExploratoryOptimizer.Aqo.Lwpr.Update
import Mathlib.Algebra.BigOperators.Ring.List
import Mathlib.Algebra.Order.Field.Basic

/-! Range of the explore values that `lwpr_aux_predict_conf_one_T` computes. -/
namespace ExploratoryOptimizer.Aqo.Lwpr
open Library.FixedArray Session

/-! The integral over the confidence band. -/

def samplePoint (a h : ℚ) (k : Nat) : ℚ := a + (k + 1) * h

theorem integral_foldl (p : ℚ → ℚ) (a h : ℚ) (m : Nat) :
    (List.range m).foldl (fun (x,s) _ => (x + h,s + p (x + h) * h)) (a,0) =
      (a + m * h,((List.range m).map fun k => p (samplePoint a h k)).sum * h) := by
  induction m with
  | zero => simp
  | succ m ih =>
    rw [List.range_succ,List.foldl_append,ih,List.map_append,List.sum_append]
    simp only [List.foldl_cons,List.foldl_nil,List.map_cons,List.map_nil,List.sum_cons,
      List.sum_nil,samplePoint]
    push_cast
    refine Prod.ext (by ring) ?_
    have point : a + m * h + h = a + (m + 1) * h := by ring
    dsimp only
    rw [point]
    ring

/-- Width of a step of the integral over the confidence band. -/
def bandStep (estimate : ℚ) : ℚ := estimate / 50000

def bandDensity (lib : CLibrary) (estimate variance : ℚ) (k : Nat) : ℚ :=
  normDistributionFunction lib estimate variance
    (samplePoint (estimate - estimate * confidenceBoundPercentile) (bandStep estimate) k)

theorem boundProbability_eq (lib : CLibrary) (estimate variance : ℚ) :
    boundProbability lib estimate variance =
      ((List.range 1001).map (bandDensity lib estimate variance)).sum * bandStep estimate := by
  have step :
    (estimate * confidenceBoundPercentile + estimate -
        (estimate - estimate * confidenceBoundPercentile)) /
      (1000 : Nat) = bandStep estimate := by
    unfold confidenceBoundPercentile bandStep
    push_cast
    ring
  simp only [boundProbability,integral]
  rw [step,integral_foldl]
  rfl

theorem clamped_le_one (alpha : ℚ) : clamped alpha ≤ 1 := by
  unfold clamped
  split_ifs with above
  · exact le_refl 1
  · exact not_lt.mp above

theorem clamped_nonneg_iff (alpha : ℚ) : 0 ≤ clamped alpha ↔ 0 ≤ alpha := by
  unfold clamped
  split_ifs with above
  · exact ⟨fun _ => zero_le_one.trans above.le,fun _ => zero_le_one⟩
  · exact Iff.rfl

/-- What is used of the C library functions. -/
structure SoundLibrary (lib : CLibrary) : Prop where
  exp : ∀ t, 0 ≤ lib.exp t
  exp_zero : 0 < lib.exp 0
  sqrt : ∀ t, 0 < t → 0 < lib.sqrt t

section Density

variable (lib : CLibrary) (sound : SoundLibrary lib) (estimate variance : ℚ)
  (positive : 0 < variance)
include sound positive

theorem bandDensity_nonneg (k : Nat) : 0 ≤ bandDensity lib estimate variance k := by
  refine mul_nonneg (one_div_nonneg.mpr (sound.sqrt _ ?_).le) (sound.exp _)
  exact mul_pos (by norm_num) positive

/-- The point in the middle of the band is the estimate itself. -/
theorem bandDensity_middle : 0 < bandDensity lib estimate variance 499 := by
  have middle :
    samplePoint (estimate - estimate * confidenceBoundPercentile) (bandStep estimate) 499 =
      estimate := by
    unfold samplePoint confidenceBoundPercentile bandStep
    push_cast
    ring
  rw [bandDensity,middle,normDistributionFunction,sub_self,mul_zero,zero_div]
  exact mul_pos (one_div_pos.mpr (sound.sqrt _ (mul_pos (by norm_num) positive))) sound.exp_zero

theorem sum_bandDensity_pos :
    0 < ((List.range 1001).map (bandDensity lib estimate variance)).sum := by
  have densities : ∀ value ∈ (List.range 1001).map (bandDensity lib estimate variance),
      0 ≤ value := by
    intro value member
    obtain ⟨k,_,rfl⟩ := List.mem_map.mp member
    exact bandDensity_nonneg lib sound estimate variance positive k
  have middle : bandDensity lib estimate variance 499 ∈
      (List.range 1001).map (bandDensity lib estimate variance) :=
    List.mem_map_of_mem (List.mem_range.mpr (by decide))
  exact (bandDensity_middle lib sound estimate variance positive).trans_le
    (List.single_le_sum densities _ middle)

/-- The probability has the sign of the estimate. -/
theorem boundProbability_nonneg_iff :
    0 ≤ boundProbability lib estimate variance ↔ 0 ≤ estimate := by
  have step : 0 ≤ bandStep estimate ↔ 0 ≤ estimate := by
    rw [bandStep,le_div_iff₀ (by norm_num),zero_mul]
  rw [boundProbability_eq,mul_nonneg_iff_of_pos_left
    (sum_bandDensity_pos lib sound estimate variance positive),step]

end Density

/-! The sums of the loop over the receptive fields. -/

section Loop

variable {nIn : Nat} (lib : CLibrary) (context : CallContext) (house : Datahouse)
  (model : Model nIn) (cutoff : ℚ)

def isActive (rf : ReceptiveField nIn) : Bool := activation lib model rf > cutoff

def isExact (rf : ReceptiveField nIn) : Bool :=
  activation lib model rf > 999/1000 ∧ rf.avgError < avgErrorThreshold

def isUsable (rf : ReceptiveField nIn) : Bool :=
  ¬(rf.trustworthy ∧ rf.avgError > avgErrorThreshold) ∧ activation lib model rf > 0

/-- Active fields whose predictions are averaged. -/
def averaged (fields : List (ReceptiveField nIn)) : List (ReceptiveField nIn) :=
  fields.filter fun rf => isActive lib model cutoff rf && !isExact lib model rf

def averagedSum (fields : List (ReceptiveField nIn)) (f : ReceptiveField nIn → ℚ) : ℚ :=
  ((averaged lib model cutoff fields).map f).sum

/-- What the loop adds to its sums for a list of fields. -/
structure Summed (total : Nat → ℚ) (fields : List (ReceptiveField nIn))
    (before after : ConfSums nIn) : Prop where
  future : ∀ l < numQueryPattern, after.futureValuePattern.get l = before.futureValuePattern.get l +
    ((fields.filter (isActive lib model cutoff)).map fun rf => shareOf lib model total rf l).sum
  exact : after.exact.isSome = (before.exact.isSome || fields.any fun rf =>
    isActive lib model cutoff rf && isExact lib model rf)
  yn : after.yn = before.yn + averagedSum lib model cutoff fields fun rf =>
    activation lib model rf * rf.localPrediction model.xn
  sumW : after.sumW = before.sumW + averagedSum lib model cutoff fields (activation lib model)
  sumWyy : after.sumWyy = before.sumWyy + averagedSum lib model cutoff fields fun rf =>
    activation lib model rf * rf.localPrediction model.xn * rf.localPrediction model.xn
  sumConf : after.sumConf = before.sumConf + averagedSum lib model cutoff fields fun rf =>
    activation lib model rf * rf.sigma2 model.xn (activation lib model rf)
  sumW2 :
    after.sumW2 = before.sumW2 +
      (((averaged lib model cutoff fields).filter (isUsable lib model)).map
    (activation lib model)).sum
  countRfs :
    after.countRfs = before.countRfs +
      ((averaged lib model cutoff fields).filter (isUsable lib model)).length

theorem averaged_append (first second : List (ReceptiveField nIn)) :
    averaged lib model cutoff (first ++ second) =
      averaged lib model cutoff first ++ averaged lib model cutoff second :=
  List.filter_append first second

theorem averagedSum_append (first second : List (ReceptiveField nIn)) (f : ReceptiveField nIn → ℚ) :
    averagedSum lib model cutoff (first ++ second) f =
      averagedSum lib model cutoff first f + averagedSum lib model cutoff second f := by
  rw [averagedSum,averaged_append,List.map_append,List.sum_append]
  rfl

/-- Fields that are not averaged leave the sums of the averages as they are. -/
theorem summed_of_skipped (total : Nat → ℚ) (fields : List (ReceptiveField nIn))
    (before after : ConfSums nIn) (skipped : averaged lib model cutoff fields = [])
    (future : ∀ l < numQueryPattern, after.futureValuePattern.get l =
      before.futureValuePattern.get l +
      ((fields.filter (isActive lib model cutoff)).map fun rf => shareOf lib model total rf l).sum)
    (exact : after.exact.isSome = (before.exact.isSome || fields.any fun rf =>
      isActive lib model cutoff rf && isExact lib model rf))
    (same : after = {before with
      xc := after.xc, minError :=
        after.minError, futureValuePattern := after.futureValuePattern, exact := after.exact}) :
    Summed lib model cutoff total fields before after := by
  have nothing (f : ReceptiveField nIn → ℚ) : averagedSum lib model cutoff fields f = 0 := by
    rw [averagedSum,skipped]
    rfl
  refine ⟨future,exact,?_,?_,?_,?_,?_,?_⟩
  · rw [nothing,add_zero,same]
  · rw [nothing,add_zero,same]
  · rw [nothing,add_zero,same]
  · rw [nothing,add_zero,same]
  · rw [skipped,List.filter_nil,List.map_nil,List.sum_nil,add_zero,same]
  · rw [skipped,List.filter_nil,List.length_nil,add_zero,same]

theorem Summed.trans {total : Nat → ℚ} {first second : List (ReceptiveField nIn)}
    {before between after : ConfSums nIn}
    (summed : Summed lib model cutoff total first before between)
    (summed' : Summed lib model cutoff total second between after) :
    Summed lib model cutoff total (first ++ second) before after where
  future := fun l bound => by
    rw [summed'.future l bound,summed.future l bound,List.filter_append,List.map_append,
      List.sum_append,add_assoc]
  exact := by rw [summed'.exact,summed.exact,List.any_append,Bool.or_assoc]
  yn := by rw [summed'.yn,summed.yn,averagedSum_append,add_assoc]
  sumW := by rw [summed'.sumW,summed.sumW,averagedSum_append,add_assoc]
  sumWyy := by rw [summed'.sumWyy,summed.sumWyy,averagedSum_append,add_assoc]
  sumConf := by rw [summed'.sumConf,summed.sumConf,averagedSum_append,add_assoc]
  sumW2 := by
    rw [summed'.sumW2,summed.sumW2,averaged_append,List.filter_append,List.map_append,
      List.sum_append,add_assoc]
  countRfs := by
    rw [summed'.countRfs,summed.countRfs,averaged_append,List.filter_append,
      List.length_append,add_assoc]

theorem noteActive_future (total : Nat → ℚ) (sums : ConfSums nIn) (rf : ReceptiveField nIn)
    (active : isActive lib model cutoff rf = true) (l : Nat) (bound : l < numQueryPattern) :
    (noteActive lib model total sums rf).futureValuePattern.get l = sums.futureValuePattern.get l +
      (([rf].filter (isActive lib model cutoff)).map fun rf =>
        shareOf lib model total rf l).sum := by
  rw [List.filter_cons_of_pos active,List.filter_nil,List.map_singleton,List.sum_singleton]
  exact Cells.get_fill _ l bound

theorem exact_summed (total : Nat → ℚ) (sums : ConfSums nIn) (rf : ReceptiveField nIn)
    (active : isActive lib model cutoff rf = true) (exact : isExact lib model rf = true) :
    Summed lib model cutoff total [rf] sums
      {noteActive lib model total sums rf with exact := some (rf.localPrediction model.xn)} := by
  have skipped : averaged lib model cutoff [rf] = [] := by
    rw [averaged,List.filter_cons_of_neg (by rw [exact]; simp),List.filter_nil]
  exact summed_of_skipped lib model cutoff total [rf] sums _ skipped
    (noteActive_future lib model cutoff total sums rf active) (by simp [active,exact]) rfl

theorem addPrediction_summed (total : Nat → ℚ) (sums : ConfSums nIn) (rf : ReceptiveField nIn)
    (active : isActive lib model cutoff rf = true) (inexact : isExact lib model rf = false) :
    Summed lib model cutoff total [rf] sums
      (addPrediction lib context house model (noteActive lib model total sums rf) rf) := by
  have kept : averaged lib model cutoff [rf] = [rf] := by
    rw [averaged,List.filter_cons_of_pos (by rw [active,inexact]; rfl),List.filter_nil]
  have single (f : ReceptiveField nIn → ℚ) : averagedSum lib model cutoff [rf] f = f rf := by
    rw [averagedSum,kept,List.map_singleton,List.sum_singleton]
  have usable : isUsable lib model rf =
    decide (¬(rf.trustworthy ∧ rf.avgError > avgErrorThreshold) ∧ activation lib model rf > 0) :=
      rfl
  refine ⟨noteActive_future lib model cutoff total sums rf active,?_,?_,?_,?_,?_,?_,?_⟩
  · simp [inexact,addPrediction,noteActive]
  · rw [single]
    rfl
  · rw [single]
    rfl
  · rw [single]
    rfl
  · rw [single]
    rfl
  · rw [kept,List.filter_singleton,usable]
    by_cases serves :
      ¬(rf.trustworthy ∧ rf.avgError > avgErrorThreshold) ∧ activation lib model rf > 0
    · rw [decide_eq_true serves]
      exact (if_pos serves).trans (by simp [noteActive])
    · rw [decide_eq_false serves]
      exact (if_neg serves).trans (add_zero _).symm
  · rw [kept,List.filter_singleton,usable]
    by_cases serves :
      ¬(rf.trustworthy ∧ rf.avgError > avgErrorThreshold) ∧ activation lib model rf > 0
    · rw [decide_eq_true serves]
      exact if_pos serves
    · rw [decide_eq_false serves]
      exact if_neg serves

theorem noteActivation_summed (total : Nat → ℚ) (fields : List (ReceptiveField nIn))
    (sums after : ConfSums nIn) (n : Nat) (rf : ReceptiveField nIn)
    (summed : Summed lib model cutoff total fields (noteActivation lib model sums n rf) after) :
    Summed lib model cutoff total fields sums after :=
  ⟨summed.future,summed.exact,summed.yn,summed.sumW,summed.sumWyy,summed.sumConf,summed.sumW2,
    summed.countRfs⟩

theorem confStep_summed (total : Nat → ℚ) (sums : ConfSums nIn) (n : Nat)
    (rf : ReceptiveField nIn) :
    Summed lib model cutoff total [rf] sums
      (confStep lib context house model cutoff total sums n rf) := by
  apply noteActivation_summed lib model cutoff total [rf] sums _ n rf
  simp only [confStep]
  split_ifs with active exact
  · exact exact_summed lib model cutoff total _ rf (decide_eq_true active) (decide_eq_true exact)
  · exact addPrediction_summed lib context house model cutoff total _ rf (decide_eq_true active)
      (decide_eq_false exact)
  · have idle : isActive lib model cutoff rf = false := decide_eq_false active
    exact summed_of_skipped lib model cutoff total [rf] _ _ (by simp [averaged,idle])
      (by simp [idle]) (by simp [idle]) rfl

theorem confLoop_summed (total : Nat → ℚ) (n : Nat) (sums : ConfSums nIn)
    (fields : List (ReceptiveField nIn)) :
    Summed lib model cutoff total fields sums
      (confLoop lib context house model cutoff total n sums fields) := by
  induction fields generalizing n sums with
  | nil => exact summed_of_skipped lib model cutoff total [] sums sums rfl (by simp) (by simp) rfl
  | cons rf rest ih =>
    exact Summed.trans lib model cutoff
      (confStep_summed lib context house model cutoff total sums n rf) (ih (n + 1) _)

end Loop

/-! Frequencies of the receptive fields. -/

section Frequencies

variable {nIn : Nat} (lib : CLibrary) (sound : SoundLibrary lib) (context : CallContext)
  (model : Model nIn) (cutoff : ℚ)

include sound

omit sound in
theorem kernelWeight_nonneg (exp : ∀ t, 0 ≤ lib.exp t) (kernel : Kernel) (dist : ℚ) :
    0 ≤ kernelWeight lib kernel dist := by
  cases kernel with
  | gaussian => exact exp _
  | bisquare =>
    simp only [kernelWeight]
    split_ifs
    · exact le_refl 0
    · exact mul_self_nonneg _

theorem historyFrequency_nonneg (rf : ReceptiveField nIn) (m : Nat) :
    0 ≤ historyFrequency lib context model cutoff rf m := by
  unfold historyFrequency
  split_ifs
  · exact le_refl 0
  · apply List.sum_nonneg
    intro part member
    obtain ⟨k,_,rfl⟩ := List.mem_map.mp member
    dsimp only
    split_ifs
    · exact kernelWeight_nonneg lib sound.exp _ _
    · exact le_refl 0

theorem probRf_nonneg (rf : ReceptiveField nIn)
    (member : rf ∈ frequentFields lib context model cutoff) (l : Nat)
    (bound : l < numQueryPattern) : 0 ≤ rf.probRf.get l := by
  obtain ⟨original,_,rfl⟩ := List.mem_map.mp member
  rw [withFrequency,Cells.get_fill _ l bound]
  exact historyFrequency_nonneg lib sound context model cutoff original l

theorem totalHappenFreq_nonneg (l : Nat) (bound : l < numQueryPattern) :
    0 ≤ totalHappenFreq (frequentFields lib context model cutoff) l := by
  apply List.sum_nonneg
  intro part member
  obtain ⟨rf,within,rfl⟩ := List.mem_map.mp member
  exact probRf_nonneg lib sound context model cutoff rf within l bound

end Frequencies

section Future

variable {nIn : Nat} (lib : CLibrary) (context : CallContext) (model : Model nIn)

/-- Frequency of a field, weighted by the distribution of the templates. -/
def fieldWeight (total : Nat → ℚ) (rf : ReceptiveField nIn) : ℚ :=
  ((List.range numQueryPattern).map fun l => context.queryDistribution.get l *
      (rf.probRf.get l / total l)).sum

def fieldConfidence (rf : ReceptiveField nIn) : ℚ :=
  rf.confidence model.xn lib (activation lib model rf)

theorem fieldConfidence_le_one (rf : ReceptiveField nIn) : fieldConfidence lib model rf ≤ 1 :=
  clamped_le_one _

theorem shareOf_eq (total : Nat → ℚ) (rf : ReceptiveField nIn) (l : Nat) :
    shareOf lib model total rf l = rf.probRf.get l / total l *
      (1 - fieldConfidence lib model rf) := by
  unfold shareOf
  split_ifs with absent
  · rfl
  · rw [not_not.mp absent,zero_div,zero_mul]

theorem weighted_shares (total : Nat → ℚ) (fields : List (ReceptiveField nIn)) :
    ((List.range numQueryPattern).map fun l => context.queryDistribution.get l *
      (fields.map fun rf => shareOf lib model total rf l).sum).sum =
        (fields.map fun rf => fieldWeight context total rf *
          (1 - fieldConfidence lib model rf)).sum := by
  induction fields with
  | nil => simp
  | cons rf fields ih =>
    have mine : ((List.range numQueryPattern).map fun l =>
        context.queryDistribution.get l * shareOf lib model total rf l).sum =
          fieldWeight context total rf * (1 - fieldConfidence lib model rf) := by
      rw [fieldWeight,← List.sum_map_mul_right]
      simp only [shareOf_eq,mul_assoc]
    rw [List.map_cons,List.sum_cons,← mine,← ih,← List.sum_map_add]
    simp only [List.map_cons,List.sum_cons,mul_add]

theorem sum_fieldWeight_le (fields : List (ReceptiveField nIn))
    (nonneg : ∀ l < numQueryPattern, 0 ≤ context.queryDistribution.get l) :
    (fields.map (fieldWeight context (totalHappenFreq fields))).sum ≤
      ((List.range numQueryPattern).map context.queryDistribution.get).sum := by
  have swap (total : Nat → ℚ) (fields : List (ReceptiveField nIn)) :
      (fields.map (fieldWeight context total)).sum = ((List.range numQueryPattern).map fun l =>
        context.queryDistribution.get l * (totalHappenFreq fields l / total l)).sum := by
    induction fields with
    | nil => simp [totalHappenFreq]
    | cons rf fields ih =>
      rw [List.map_cons,List.sum_cons,ih,fieldWeight,← List.sum_map_add]
      simp only [totalHappenFreq,List.map_cons,List.sum_cons,add_div,mul_add]
  rw [swap]
  refine List.sum_le_sum fun l within => ?_
  exact mul_le_of_le_one_right (nonneg l (List.mem_range.mp within)) (div_self_le_one _)

end Future

/-! The explore values. -/

section Ranges

variable {nIn : Nat} (lib : CLibrary) (context : CallContext) (model : Model nIn) (cutoff : ℚ)

theorem estUncof_nonneg (sums : ConfSums nIn) : 0 ≤ estUncof lib sums := by
  unfold estUncof
  split_ifs
  · exact le_refl 0
  · exact sub_nonneg.mpr (clamped_le_one _)
  · exact sub_nonneg.mpr (clamped_le_one _)
  · exact zero_le_one

theorem estUncof_range (sums : ConfSums nIn) :
    (0 ≤ estUncof lib sums ∧ estUncof lib sums ≤ 1) ↔
      sums.exact.isSome ∨ sums.sumW2 ≤ 0 ∨ sums.wSec < 1/1000000 ∨
      0 ≤ boundProbability lib sums.mean sums.wSec := by
  unfold estUncof
  by_cases exact : sums.exact.isSome = true
  · simp [exact]
  by_cases positive : sums.sumW2 > 0
  · rw [if_neg exact,if_pos positive,sub_nonneg,sub_le_self_iff,clamped_nonneg_iff]
    simp only [clamped_le_one,true_and,exact,not_le.mpr positive,false_or,Bool.false_eq_true]
    by_cases narrow : sums.wSec < 1/1000000
    · simp only [narrow,if_true,zero_le_one,true_or]
    · simp only [narrow,if_false,false_or]
  · rw [if_neg exact,if_neg positive]
    simp [not_lt.mp positive]

/-- Mean of the predictions of the active fields, and its variance. -/
def averagedPrediction (fields : List (ReceptiveField nIn)) : ℚ :=
  averagedSum lib model cutoff fields
    (fun rf => activation lib model rf * rf.localPrediction model.xn) / averagedSum lib model cutoff
    fields (activation lib model)

def averagedVariance (fields : List (ReceptiveField nIn)) : ℚ :=
  let sumW := averagedSum lib model cutoff fields (activation lib model)
  let sumWy :=
    averagedSum lib model cutoff fields fun rf =>
      activation lib model rf * rf.localPrediction model.xn
  (averagedSum lib model cutoff fields
      (fun rf => activation lib model rf * rf.sigma2 model.xn (activation lib model rf)) +
    |averagedSum lib model cutoff fields (fun rf =>
      activation lib model rf * rf.localPrediction model.xn * rf.localPrediction model.xn) +
        sumWy * sumWy * (sumW - 2)|) / (sumW * sumW)

/-- The divisors of a field's variance are not zero. -/
def Divisible (rf : ReceptiveField nIn) : Prop :=
  rf.sumW.get (rf.usedAxes - 1) - rf.SSp ≠ 0 ∧ ∀ i < rf.usedAxes, rf.SSs2.get i ≠ 0

def exactMatch : Bool := model.rf.any fun rf => isActive lib model cutoff rf && isExact lib model rf

/-- Active fields predict non-negative values unless they are certain, and so does their mean. Where
no divisor is zero the quotients are those of the source. -/
structure NonnegPredictions : Prop where
  divisible : ∀ rf ∈ model.rf, isActive lib model cutoff rf → Divisible rf
  fields : ∀ rf ∈ model.rf, isActive lib model cutoff rf →
    1/1000000 ≤ rf.sigma2 model.xn (activation lib model rf) → 0 ≤ rf.localPrediction model.xn
  mean : exactMatch lib model cutoff = false → 0 ≤ averagedPrediction lib model cutoff model.rf

/-- The mean is negative where its confidence is integrated. -/
structure NegativeMean : Prop where
  divisible : ∀ rf ∈ model.rf, isActive lib model cutoff rf → Divisible rf
  inexact : exactMatch lib model cutoff = false
  usable : (averaged lib model cutoff model.rf).filter (isUsable lib model) ≠ []
  wide : 1/1000000 ≤ averagedVariance lib model cutoff model.rf
  negative : averagedPrediction lib model cutoff model.rf < 0

/-! The frequencies play no part in the averages. -/

theorem averaged_frequentFields :
    averaged lib model cutoff (frequentFields lib context model cutoff) =
      (averaged lib model cutoff model.rf).map (withFrequency lib context model cutoff) :=
  List.filter_map

theorem averagedSum_frequentFields (f : ReceptiveField nIn → ℚ)
    (same : ∀ rf, f (withFrequency lib context model cutoff rf) = f rf) :
    averagedSum lib model cutoff (frequentFields lib context model cutoff) f =
      averagedSum lib model cutoff model.rf f := by
  rw [averagedSum,averaged_frequentFields,List.map_map]
  exact congrArg List.sum (List.map_congr_left fun rf _ => same rf)

variable (house : Datahouse)

theorem confSums_summed :
    Summed lib model cutoff (totalHappenFreq (frequentFields lib context model cutoff))
    (frequentFields lib context model cutoff) (ConfSums.start nIn)
      (confSums lib context house model cutoff) :=
  confLoop_summed lib context house model cutoff _ 0 (ConfSums.start nIn) _

theorem sum_activation_pos (fields : List (ReceptiveField nIn)) (some : fields ≠ [])
    (active : ∀ rf ∈ fields, 0 < activation lib model rf) :
    0 < (fields.map (activation lib model)).sum := by
  refine List.sum_pos _ (fun w member => ?_) (List.map_eq_nil_iff.not.mpr some)
  obtain ⟨rf,within,rfl⟩ := List.mem_map.mp member
  exact active rf within

theorem usable_sum_nonpos_iff (fields : List (ReceptiveField nIn)) :
    ((fields.filter (isUsable lib model)).map (activation lib model)).sum ≤ 0 ↔
      fields.filter (isUsable lib model) = [] := by
  constructor
  · intro small
    by_contra some
    refine absurd small (not_le.mpr (sum_activation_pos lib model _ some fun rf within => ?_))
    exact (of_decide_eq_true (List.mem_filter.mp within).2).2
  · intro none
    rw [none]
    exact le_refl 0

/-- The uncertainty exceeds one exactly when a negative mean is integrated. -/
theorem estUncof_le_one_iff (sound : SoundLibrary lib) :
    estUncof lib (confSums lib context house model cutoff) ≤ 1 ↔
      exactMatch lib model cutoff = true ∨
        (averaged lib model cutoff model.rf).filter (isUsable lib model) = [] ∨
        averagedVariance lib model cutoff model.rf < 1/1000000 ∨
        0 ≤ averagedPrediction lib model cutoff model.rf := by
  have summed := confSums_summed lib context model cutoff house
  have same := averagedSum_frequentFields lib context model cutoff
  have mean : (confSums lib context house model cutoff).mean =
      averagedPrediction lib model cutoff model.rf := by
    rw [ConfSums.mean,summed.yn,summed.sumW,same _ fun _ => rfl,same _ fun _ => rfl]
    exact congrArg₂ (· / ·) (zero_add _) (zero_add _)
  have wSec : (confSums lib context house model cutoff).wSec =
      averagedVariance lib model cutoff model.rf := by
    simp only [ConfSums.wSec,summed.yn,summed.sumW,summed.sumWyy,summed.sumConf,ConfSums.start,
      zero_add,averagedVariance]
    rw [same _ fun _ => rfl,same _ fun _ => rfl,same _ fun _ => rfl,same _ fun _ => rfl]
  have sumW2 : (confSums lib context house model cutoff).sumW2 ≤ 0 ↔
      (averaged lib model cutoff model.rf).filter (isUsable lib model) = [] := by
    have kept := usable_sum_nonpos_iff lib model
      (averaged lib model cutoff (frequentFields lib context model cutoff))
    rw [summed.sumW2]
    change 0 + _ ≤ (0 : ℚ) ↔ _
    rw [zero_add,kept,averaged_frequentFields,List.filter_map,List.map_eq_nil_iff]
    rfl
  have exact : (confSums lib context house model cutoff).exact.isSome =
      exactMatch lib model cutoff := by
    rw [summed.exact,frequentFields,List.any_map]
    rfl
  have range := estUncof_range lib (confSums lib context house model cutoff)
  rw [sumW2,mean,wSec,exact] at range
  have bounded : estUncof lib (confSums lib context house model cutoff) ≤ 1 ↔
      0 ≤ estUncof lib (confSums lib context house model cutoff) ∧
        estUncof lib (confSums lib context house model cutoff) ≤ 1 :=
    ⟨fun small => ⟨estUncof_nonneg lib _,small⟩,And.right⟩
  rw [bounded,range]
  refine or_congr_right (or_congr_right ?_)
  by_cases narrow : averagedVariance lib model cutoff model.rf < 1/1000000
  · exact iff_of_true (.inl narrow) (.inl narrow)
  · have positive : 0 < averagedVariance lib model cutoff model.rf :=
      lt_of_lt_of_le (by norm_num) (not_lt.mp narrow)
    rw [boundProbability_nonneg_iff lib sound _ _ positive]

/-- The templates are drawn from a distribution. -/
structure Distributed (context : CallContext) : Prop where
  nonneg : ∀ l < numQueryPattern, 0 ≤ context.queryDistribution.get l
  sum : ((List.range numQueryPattern).map context.queryDistribution.get).sum = 1

theorem outlier_range (distributed : Distributed context) (num : Nat → Nat) :
    0 ≤ ((List.range numQueryPattern).map fun i =>
      if 0 < num i then context.queryDistribution.get i * outerFutureValue else 0).sum ∧
    ((List.range numQueryPattern).map fun i =>
      if 0 < num i then context.queryDistribution.get i * outerFutureValue else 0).sum ≤ 1 := by
  constructor
  · apply List.sum_nonneg
    intro part member
    obtain ⟨i,bound,rfl⟩ := List.mem_map.mp member
    split_ifs
    · exact mul_nonneg (distributed.nonneg i (List.mem_range.mp bound)) zero_le_one
    · exact le_refl 0
  · rw [← distributed.sum]
    apply List.sum_le_sum
    intro i bound
    split_ifs
    · exact (mul_one _).le
    · exact distributed.nonneg i (List.mem_range.mp bound)

theorem fieldWeight_nonneg (sound : SoundLibrary lib) (distributed : Distributed context)
    (rf : ReceptiveField nIn) (member : rf ∈ frequentFields lib context model cutoff) :
    0 ≤ fieldWeight context (totalHappenFreq (frequentFields lib context model cutoff)) rf := by
  apply List.sum_nonneg
  intro part within
  obtain ⟨l,bound,rfl⟩ := List.mem_map.mp within
  rw [List.mem_range] at bound
  exact mul_nonneg (distributed.nonneg l bound)
    (div_nonneg (probRf_nonneg lib sound context model cutoff rf member l bound)
      (totalHappenFreq_nonneg lib sound context model cutoff l bound))

theorem fieldConfidence_nonneg (sound : SoundLibrary lib) (rf : ReceptiveField nIn)
    (predicts : 1/1000000 ≤ rf.sigma2 model.xn (activation lib model rf) →
      0 ≤ rf.localPrediction model.xn) : 0 ≤ fieldConfidence lib model rf := by
  refine (clamped_nonneg_iff _).mpr ?_
  split_ifs with unused narrow
  · exact kernelWeight_nonneg lib sound.exp _ _
  · exact zero_le_one
  · have wide := not_lt.mp narrow
    exact (boundProbability_nonneg_iff lib sound _ _ (lt_of_lt_of_le (by norm_num) wide)).mpr
      (predicts wide)

/-- The value of the fields that are active, for the templates to come. -/
theorem estFuture_range (sound : SoundLibrary lib) (distributed : Distributed context)
    (later : Model nIn) (covered : NonnegPredictions lib model cutoff) :
    0 ≤ estFuture context later (confSums lib context house model cutoff) ∧
      estFuture context later (confSums lib context house model cutoff) ≤ 1 := by
  unfold estFuture
  split_ifs
  · exact outlier_range context distributed later.numHistoryData.get
  · have value : ((List.range numQueryPattern).map fun l => context.queryDistribution.get l *
        (confSums lib context house model cutoff).futureValuePattern.get l).sum =
        (((frequentFields lib context model cutoff).filter (isActive lib model cutoff)).map
          fun rf =>
          fieldWeight context (totalHappenFreq (frequentFields lib context model cutoff)) rf *
            (1 - fieldConfidence lib model rf)).sum := by
      rw [← weighted_shares]
      congr 1
      apply List.map_congr_left
      intro l bound
      rw [(confSums_summed lib context model cutoff house).future l (List.mem_range.mp bound)]
      congr 1
      exact (congrArg (· + _) (Cells.get_zero l)).trans (zero_add _)
    have weights := fieldWeight_nonneg lib context model cutoff sound distributed
    have part (rf : ReceptiveField nIn)
        (member : rf ∈ (frequentFields lib context model cutoff).filter
          (isActive lib model cutoff)) :
        rf ∈ frequentFields lib context model cutoff ∧ 0 ≤ fieldConfidence lib model rf := by
      obtain ⟨within,active⟩ := List.mem_filter.mp member
      obtain ⟨original,there,rfl⟩ := List.mem_map.mp within
      exact ⟨within,fieldConfidence_nonneg lib model sound _ (covered.fields original there active)⟩
    rw [value]
    constructor
    · refine List.sum_nonneg fun item member => ?_
      obtain ⟨rf,within,rfl⟩ := List.mem_map.mp member
      exact mul_nonneg (weights rf (part rf within).1)
        (sub_nonneg.mpr (fieldConfidence_le_one lib model rf))
    · refine (List.sum_le_sum fun rf within => ?_).trans
        (((List.filter_sublist.map _).sum_le_sum ?_).trans
          ((sum_fieldWeight_le context (frequentFields lib context model cutoff)
            distributed.nonneg).trans_eq distributed.sum))
      · exact mul_le_of_le_one_right (weights rf (part rf within).1)
          (sub_le_self 1 (part rf within).2)
      · intro item member
        obtain ⟨rf,within,rfl⟩ := List.mem_map.mp member
        exact weights rf within

end Ranges

/-- Both explore values and the combined value given to the planner lie in the unit interval. -/
structure Normalised (value : ExploreValue) : Prop where
  estUncof : 0 ≤ value.estUncof ∧ value.estUncof ≤ 1
  estFuture : 0 ≤ value.estFuture ∧ value.estFuture ≤ 1
  combined : 0 ≤ combinedValue value ∧ combinedValue value ≤ 1

theorem normalised_of_ranges (value : ExploreValue) (rate : value.rate = rateBetweenExploreValue)
    (uncof : 0 ≤ value.estUncof ∧ value.estUncof ≤ 1)
    (future : 0 ≤ value.estFuture ∧ value.estFuture ≤ 1) : Normalised value := by
  refine ⟨uncof,future,?_⟩
  rw [combinedValue,rate,rateBetweenExploreValue]
  constructor
  · linarith [uncof.1,future.1]
  · linarith [uncof.2,future.2]

theorem rationalLibrary_sound : SoundLibrary rationalLibrary where
  exp := fun t => by
    change 0 ≤ if t ≤ 0 then 1 / (1 - t) else 1 + t
    split_ifs with small
    · exact one_div_nonneg.mpr (by linarith)
    · linarith
  exp_zero := by decide +kernel
  sqrt := fun t positive => by
    have number : 0 < t.num.toNat := by
      have numerator := Rat.num_pos.mpr positive
      omega
    have root : (0 : Int) < Int.sqrt t.num := Int.natCast_pos.mpr (Nat.sqrt_pos.mpr number)
    change 0 < mkRat (Int.sqrt t.num) (Nat.sqrt t.den)
    rw [Rat.mkRat_eq_div]
    exact div_pos (by exact_mod_cast root) (by exact_mod_cast Nat.sqrt_pos.mpr t.den_pos)

theorem uniformContext_distributed : Distributed uniformContext where
  nonneg := by decide +kernel
  sum := by decide +kernel

/-- A trusted field around zero that predicts one there, and ten more for each unit of the
feature. -/
def slopedField : ReceptiveField 1 :=
  {lwprMemAllocRf 1 1 1 with
    trustworthy := true
    beta0 := 1
    D := Square.diagonal 25
    M := Square.diagonal 5
    U := Square.diagonal 1
    P := Square.diagonal 1
    beta := Cells.fill fun _ => 10
    SSs2 := Cells.fill fun _ => 1
    sumW := Cells.fill fun _ => 4
    nData := Cells.fill fun _ => 4
    lambda := Cells.fill fun _ => 1}

def slopedModel : Model 1 :=
  {lwprInitModel 1 with
    rf := [slopedField], numHistoryData := Cells.fill fun m => if m = 0 then 1 else 0}

/-- Three samples of log cardinalities that fall steeply with the log selectivity. -/
def steepModel : Model 1 × Datahouse :=
  ([(-(1/5),1),(-(1/10),3),(-(1/5),1)] : List (ℚ × ℚ)).foldl (fun (model,house) (x,y) =>
    let (model,house,_) :=
      lwprUpdate rationalLibrary uniformContext house model (Cells.fill fun _ => x) y
    (model,house)) (lwprInitModel 1,fun _ _ _ => none)

end ExploratoryOptimizer.Aqo.Lwpr
