import ExploratoryOptimizer.Aqo.Lwpr.Prediction

/-! Degrees of freedom and leverages of a receptive field: `SSp` takes one share of the weight for
every axis, and the leverage of a sample adds up over the axes, so that both are bounded as intended
only for a single axis. -/
namespace ExploratoryOptimizer.Aqo.Lwpr
open Library.FixedArray Library.Machine OkNNr Session

/-! A sample's share of a sum of squares it has just been added to. -/

theorem share_le (S s w : ℚ) (positive : 0 < S) (weight : 0 ≤ w) :
    w * s * (w * s) * (1 / (S + s * (w * s))) ≤ w := by
  have square : 0 ≤ s * (w * s) := by
    have product : s * (w * s) = w * (s * s) := by ring
    rw [product]
    exact mul_nonneg weight (mul_self_nonneg s)
  have total : 0 < S + s * (w * s) := add_pos_of_pos_of_nonneg positive square
  rw [mul_one_div,div_le_iff₀ total]
  calc
    w * s * (w * s) = w * (s * (w * s)) := by ring
    _ ≤ w * (S + s * (w * s)) :=
      mul_le_mul_of_nonneg_left (le_add_of_nonneg_left positive.le) weight

theorem share_range (S s w : ℚ) (positive : 0 < S) (weight : 0 ≤ w) :
    0 ≤ w * (s * s / (S + s * (w * s))) ∧ w * (s * s / (S + s * (w * s))) < 1 := by
  have square : 0 ≤ w * (s * s) := mul_nonneg weight (mul_self_nonneg s)
  have rest : S + s * (w * s) = S + w * (s * s) := by ring
  have total : 0 < S + w * (s * s) := add_pos_of_pos_of_nonneg positive square
  rw [rest,← mul_div_assoc]
  exact ⟨div_nonneg square total.le,(div_lt_one total).mpr (lt_add_of_pos_left _ positive)⟩

theorem sumBelow_le (n : Nat) (f : Nat → ℚ) (bound : ℚ) (below : ∀ j < n, f j ≤ bound) :
    sumBelow n f ≤ n * bound := by
  have sum := List.sum_le_card_nsmul ((List.range n).map f) bound fun value member => by
    obtain ⟨j,within,rfl⟩ := List.mem_map.mp member
    exact below j (List.mem_range.mp within)
  rwa [List.length_map,List.length_range,nsmul_eq_mul] at sum

namespace ReceptiveField

variable {nIn : Nat}

/-- Statistics of a field that has its axes in use. -/
structure Regular (rf : ReceptiveField nIn) : Prop where
  some : 0 < rf.nReg
  within : rf.nReg ≤ nIn
  lambda : ∀ j < rf.nReg, rf.lambda.get j = 1
  SSs2 : ∀ j < rf.nReg, 0 < rf.SSs2.get j
  sumECv2 : ∀ j, 0 ≤ rf.sumECv2.get j
  sumW : 0 < rf.sumW.get 0
  SSp : rf.SSp < rf.nReg * rf.sumW.get 0

theorem Regular.single {rf : ReceptiveField 1} (regular : rf.Regular) : rf.nReg = 1 :=
  Nat.le_antisymm regular.within regular.some

/-- What `Regular` speaks of. -/
def axisStatistics (rf : ReceptiveField nIn) :
    Nat × Cells ℚ nIn × Cells ℚ nIn × Cells ℚ nIn × Cells ℚ nIn × ℚ :=
  (rf.nReg,rf.lambda,rf.SSs2,rf.sumECv2,rf.sumW,rf.SSp)

theorem Regular.of_same {rf rf' : ReceptiveField nIn} (regular : rf.Regular)
    (same : rf'.axisStatistics = rf.axisStatistics) : rf'.Regular := by
  simp only [axisStatistics,Prod.mk.injEq] at same
  obtain ⟨axes,lambda,squares,errors,weights,shares⟩ := same
  refine ⟨?_,?_,?_,?_,?_,?_,?_⟩
  · rw [axes]
    exact regular.some
  · rw [axes]
    exact regular.within
  · rw [axes,lambda]
    exact regular.lambda
  · rw [axes,squares]
    exact regular.SSs2
  · rw [errors]
    exact regular.sumECv2
  · rw [weights]
    exact regular.sumW
  · rw [axes,weights,shares]
    exact regular.SSp

theorem get_perAxis (rf : ReceptiveField nIn) (old : Cells ℚ nIn) (f : Nat → ℚ) (j : Nat)
    (bound : j < nIn) :
    (rf.perAxis old f).get j = if j < rf.nReg then f j else old.get j :=
  Cells.get_fill _ j bound

theorem perAxis_nonneg (rf : ReceptiveField nIn) (old : Cells ℚ nIn) (f : Nat → ℚ)
    (before : ∀ j, 0 ≤ old.get j) (after : ∀ j < rf.nReg, 0 ≤ f j) (j : Nat) :
    0 ≤ (rf.perAxis old f).get j := by
  by_cases bound : j < nIn
  · rw [get_perAxis rf old f j bound]
    split_ifs with axis
    · exact after j axis
    · exact before j
  · rw [Cells.get_of_le _ j (not_lt.mp bound)]

/-- The loading of a sample along an axis before the axes are updated. -/
def loadingAt (rf : ReceptiveField nIn) (x : Cells ℚ nIn) (j : Nat) : ℚ :=
  ((projectionSteps rf.U rf.P rf.nReg 0 x).getD j (0,x)).1

section Step

variable {rf : ReceptiveField nIn} (regular : rf.Regular)
include regular

theorem Regular.axisSquares (lib : CLibrary) (x : Cells ℚ nIn) (y w : ℚ) (j : Nat)
    (axis : j < rf.nReg) :
    (rf.updateAxes lib x y w).1.SSs2.get j = rf.SSs2.get j + rf.loadingAt x j *
      (w * rf.loadingAt x j) := by
  refine (get_perAxis rf _ _ j (axis.trans_le regular.within)).trans ?_
  rw [if_pos axis,regular.lambda j axis,one_mul]
  rfl

theorem Regular.axisWeights (lib : CLibrary) (x : Cells ℚ nIn) (y w : ℚ) (j : Nat)
    (axis : j < rf.nReg) :
    (rf.updateAxes lib x y w).1.sumW.get j = rf.sumW.get j + w := by
  refine (get_perAxis rf _ _ j (axis.trans_le regular.within)).trans ?_
  rw [if_pos axis,regular.lambda j axis,mul_one]

theorem Regular.updateAxes (lib : CLibrary) (x : Cells ℚ nIn) (y w : ℚ) (weight : 0 < w) :
    (rf.updateAxes lib x y w).1.Regular := by
  have weights := regular.axisWeights lib x y w 0 regular.some
  refine ⟨regular.some,regular.within,regular.lambda,fun j axis => ?_,regular.sumECv2,?_,?_⟩
  · have square : 0 ≤ w * (rf.loadingAt x j * rf.loadingAt x j) :=
      mul_nonneg weight.le (mul_self_nonneg _)
    have positive := regular.SSs2 j axis
    rw [regular.axisSquares lib x y w j axis]
    linarith
  · rw [weights]
    exact add_pos regular.sumW weight
  · -- Every axis takes at most the weight of the sample.
    have shares : sumBelow rf.nReg (fun j => w * rf.loadingAt x j * (w * rf.loadingAt x j) *
        (1 / (rf.updateAxes lib x y w).1.SSs2.get j)) ≤ rf.nReg * w := by
      refine sumBelow_le _ _ _ fun j axis => ?_
      rw [regular.axisSquares lib x y w j axis]
      exact share_le _ _ _ (regular.SSs2 j axis) weight.le
    have sum : (rf.updateAxes lib x y w).1.SSp = rf.lambda.get (rf.nReg - 1) * rf.SSp +
        sumBelow rf.nReg fun j => w * rf.loadingAt x j * (w * rf.loadingAt x j) *
          (1 / (rf.updateAxes lib x y w).1.SSs2.get j) := rfl
    rw [regular.lambda (rf.nReg - 1) (Nat.sub_lt regular.some Nat.one_pos),one_mul] at sum
    have before := regular.SSp
    rw [sum,weights]
    change _ < (rf.nReg : ℚ) * _
    linarith

theorem Regular.updateErrors (eCv : Nat → ℚ) (y w : ℚ) (weight : 0 < w) :
    (rf.updateErrors eCv y w).rf.Regular := by
  refine ⟨regular.some,regular.within,regular.lambda,regular.SSs2,?_,regular.sumW,regular.SSp⟩
  refine perAxis_nonneg rf _ _ regular.sumECv2 fun j axis => ?_
  have square : 0 ≤ w * (eCv j * eCv j) := mul_nonneg weight.le (mul_self_nonneg _)
  have before := regular.sumECv2 j
  rw [regular.lambda j axis]
  linarith

theorem Regular.pushError (error : ℚ) : (rf.pushError error).Regular := by
  obtain ⟨_,_,pushed⟩ := rf.pushError_eq error
  rw [pushed]
  exact regular.of_same rfl

theorem Regular.lwprAuxUpdateDistanceMetric (model : Model nIn) (w dwdq eCv e : ℚ) :
    (rf.lwprAuxUpdateDistanceMetric model w dwdq eCv e).Regular :=
  regular.of_same rfl

theorem Regular.lwprMemReallocRf (nRegStore : Nat) : (rf.lwprMemReallocRf nRegStore).Regular := by
  have axes (old : Cells ℚ nIn) (j : Nat) (axis : j < rf.nReg) :
      (Cells.fill fun j => if j < rf.nReg then old.get j else 0 : Cells ℚ nIn).get
        j = old.get j := by
    rw [Cells.get_fill _ j (axis.trans_le regular.within),if_pos axis]
  refine ⟨regular.some,regular.within,fun j axis => ?_,fun j axis => ?_,fun j => ?_,?_,?_⟩
  · exact (axes rf.lambda j axis).trans (regular.lambda j axis)
  · exact (regular.SSs2 j axis).trans_eq (axes rf.SSs2 j axis).symm
  · by_cases bound : j < nIn
    · refine le_of_le_of_eq ?_ (Cells.get_fill _ j bound).symm
      split_ifs
      · exact regular.sumECv2 j
      · exact le_rfl
    · exact (Cells.get_of_le _ j (not_lt.mp bound)).ge
  · exact regular.sumW.trans_eq (axes rf.sumW 0 regular.some).symm
  · have weight : (rf.lwprMemReallocRf nRegStore).sumW.get 0 = rf.sumW.get 0 :=
      axes rf.sumW 0 regular.some
    rw [weight]
    exact regular.SSp

theorem Regular.withRoom : rf.withRoom.Regular := by
  unfold ReceptiveField.withRoom
  split_ifs
  · exact regular.lwprMemReallocRf _
  · exact regular

/-- A new axis starts with a fresh `SSp`. -/
theorem Regular.addAxis (model : Model nIn) (parameters : model.toParameters = initParameters nIn)
    (room : rf.nReg < nIn) : (rf.addAxis model).Regular := by
  have lambda : model.initLambda = 1 := congrArg Parameters.initLambda parameters
  have initial : model.initS2 = 1/10000000000 := congrArg Parameters.initS2 parameters
  have first : (rf.sumW.set rf.nReg (1/10000000000)).get 0 = rf.sumW.get 0 := by
    rw [Cells.get_set _ _ _ 0 (regular.some.trans room),if_neg regular.some.ne]
  refine ⟨Nat.succ_pos _,room,fun j axis => ?_,fun j axis => ?_,regular.sumECv2,?_,?_⟩
  · have within : j < rf.nReg + 1 := axis
    refine (Cells.get_set _ _ _ j (by omega)).trans ?_
    split_ifs with new
    · exact lambda
    · exact regular.lambda j (by omega)
  · have within : j < rf.nReg + 1 := axis
    refine lt_of_lt_of_eq ?_ (Cells.get_set _ _ _ j (by omega)).symm
    split_ifs with new
    · rw [initial]
      norm_num
    · exact regular.SSs2 j (by omega)
  · exact regular.sumW.trans_eq first.symm
  · have weight : (rf.addAxis model).sumW.get 0 = rf.sumW.get 0 := first
    rw [weight]
    exact mul_pos (Nat.cast_pos.mpr (Nat.succ_pos _)) regular.sumW

theorem Regular.lwprAuxCheckAddProjection (model : Model nIn)
    (parameters : model.toParameters = initParameters nIn) :
    (rf.lwprAuxCheckAddProjection model).Regular := by
  have axes : rf.withRoom.nReg = rf.nReg := by
    unfold ReceptiveField.withRoom
    split_ifs
    · rfl
    · rfl
  rcases rf.lwprAuxCheckAddProjection_cases model with same | ⟨room,added⟩
  · rw [same]
    exact regular
  · rw [added]
    exact regular.withRoom.addAxis model parameters (axes ▸ room)

theorem Regular.countData_nData (model : Model nIn) :
    (rf.countData model).nData.get 0 = rf.nData.get 0 + 1 := by
  refine (get_perAxis rf _ _ 0 (regular.some.trans_le regular.within)).trans ?_
  rw [if_pos regular.some,regular.lambda 0 regular.some,mul_one]

theorem Regular.countData (model : Model nIn)
    (parameters : model.toParameters = initParameters nIn) :
    (rf.countData model).Regular := by
  refine ⟨regular.some,regular.within,fun j axis => ?_,regular.SSs2,regular.sumECv2,
    regular.sumW,regular.SSp⟩
  have tau : model.tauLambda = 1 := congrArg Parameters.tauLambda parameters
  have final : model.finalLambda = 1 := congrArg Parameters.finalLambda parameters
  have within : j < rf.nReg := axis
  refine (get_perAxis rf _ _ j (within.trans_le regular.within)).trans ?_
  rw [if_pos within,tau,final,regular.lambda j within]
  ring

end Step

end ReceptiveField

/-! Reachable models. -/

section Reach

variable {nIn : Nat} (lib : CLibrary)

/-- The regression of a field that learns the sample of the model. -/
def learnedRegression (model : Model nIn) (rf : ReceptiveField nIn) :
    ReceptiveField.Regression nIn :=
  let w := activation lib model rf
  let (means,xmz,ymz) := {rf with w := w}.lwprAuxUpdateMeans model.xn model.yn w
  means.lwprAuxUpdateRegression lib xmz ymz w

/-- The field as it is given to `lwpr_aux_update_distance_metric`. -/
def metricField (model : Model nIn) (rf : ReceptiveField nIn) : ReceptiveField nIn :=
  (learnedRegression lib model rf).rf.pushError |(learnedRegression lib model rf).e /
    (model.yn + 1/1000)|

theorem learnActive_metric (context : CallContext) (house : Datahouse) (model : Model nIn)
    (rf : ReceptiveField nIn) :
    (learnActive lib context house model rf).1 =
      ((if model.updateD then
          (metricField lib model rf).lwprAuxUpdateDistanceMetric model (activation lib model rf)
            (kernelSlope lib model.kernel (rf.dist model.xn)) (learnedRegression lib model rf).eCv
            (learnedRegression lib model rf).e
        else metricField lib model rf).lwprAuxCheckAddProjection model).countData model :=
  rfl

theorem metricField_regular (model : Model nIn) (rf : ReceptiveField nIn) (regular : rf.Regular)
    (active : activation lib model rf > 1/1000) : (metricField lib model rf).Regular := by
  have weight : 0 < activation lib model rf := lt_trans (by norm_num) active
  have means :
    (ReceptiveField.lwprAuxUpdateMeans {rf with w := activation lib model rf} model.xn model.yn
      (activation lib model rf)).1.Regular :=
    regular.of_same rfl
  exact ((means.updateAxes lib _ _ _ weight).updateErrors _ _ _ weight).pushError _

theorem learnActive_regular (context : CallContext) (house : Datahouse) (model : Model nIn)
    (rf : ReceptiveField nIn) (parameters : model.toParameters = initParameters nIn)
    (active : activation lib model rf > 1/1000) (regular : rf.Regular) :
    (learnActive lib context house model rf).1.Regular := by
  have field := metricField_regular lib model rf regular active
  rw [learnActive_metric]
  split_ifs
  · exact ((field.lwprAuxUpdateDistanceMetric model _ _ _ _).lwprAuxCheckAddProjection model
        parameters).countData model
      parameters
  · exact (field.lwprAuxCheckAddProjection model parameters).countData model parameters

theorem lwprAuxInitRf_axes (model : Model nIn) (template : Option (ReceptiveField nIn))
    (dimension : 0 < nIn) (shaped : ∀ rf, template = some rf → rf.Regular) :
    0 < (lwprAuxInitRf lib model template).nReg ∧
      (lwprAuxInitRf lib model template).nReg ≤ nIn := by
  cases template with
  | none =>
    change 0 < (if 1 < nIn then 2 else 1) ∧ (if 1 < nIn then 2 else 1) ≤ nIn
    split_ifs
    · omega
    · omega
  | some rf => exact ⟨(shaped rf rfl).some,(shaped rf rfl).within⟩

/-- The axes of a new field start with one value. -/
theorem get_startValue {nReg j : Nat} (within : nReg ≤ nIn) (value : ℚ) (axis : j < nReg) :
    (Cells.fill fun i => if i < nReg then value else 0 : Cells ℚ nIn).get j = value := by
  rw [Cells.get_fill _ j (axis.trans_le within),if_pos axis]

theorem lwprAuxInitRf_regular (model : Model nIn) (template : Option (ReceptiveField nIn))
    (dimension : 0 < nIn) (parameters : model.toParameters = initParameters nIn)
    (shaped : ∀ rf, template = some rf → rf.Regular) :
    (lwprAuxInitRf lib model template).Regular := by
  obtain ⟨positive,within⟩ := lwprAuxInitRf_axes lib model template dimension shaped
  have start : (lwprAuxInitRf lib model template).sumW.get 0 = 1/10000000000 :=
    get_startValue within _ positive
  have tiny : (0 : ℚ) < 1/10000000000 := by norm_num
  refine ⟨positive,within,fun j axis => ?_,fun j axis => ?_,fun j => ?_,?_,?_⟩
  · exact (get_startValue within model.initLambda axis).trans
      (congrArg Parameters.initLambda parameters)
  · have initial : model.initS2 = 1/10000000000 := congrArg Parameters.initS2 parameters
    rw [← initial,← get_startValue within model.initS2 axis] at tiny
    exact tiny
  · exact (Cells.get_zero j).ge
  · rw [start]
    exact tiny
  · rw [start]
    exact mul_pos (Nat.cast_pos.mpr positive) tiny

theorem regular_unread (rf rf' : ReceptiveField nIn) (same : rf'.forget = rf.forget)
    (regular : rf.Regular) :
    rf'.Regular := by
  have statistics : rf'.forget.axisStatistics = rf.forget.axisStatistics := by rw [same]
  exact regular.of_same statistics

theorem Reachable.regular {fspaceHash fssHash : Int} {memory : Memory nIn}
    (reachable : Reachable lib fspaceHash fssHash memory) (dimension : 0 < nIn) :
    ∀ rf ∈ memory.model.rf, rf.Regular := by
  refine Reachable.fields lib reachable ReceptiveField.Regular regular_unread
    (fun model template parameters shaped =>
      lwprAuxInitRf_regular lib model template dimension parameters shaped)
    fun context house model rf parameters active regular =>
      learnActive_regular lib context house model rf parameters active regular

/-- With one input there is one axis, and a sample takes no more than its weight from the degrees of
freedom. -/
theorem variance_nonneg (single : nIn = 1) (fspaceHash fssHash : Int) (memory : Memory nIn)
    (reachable : Reachable lib fspaceHash fssHash memory) (rf : ReceptiveField nIn)
    (member : rf ∈ memory.model.rf) :
    0 < rf.sumW.get (rf.usedAxes - 1) - rf.SSp ∧ ∀ (xn : Cells ℚ nIn) (w : ℚ), 0 ≤ w →
      0 ≤ rf.sigma2 xn w := by
  subst single
  have regular := Reachable.regular lib reachable Nat.one_pos rf member
  have one := regular.single
  have used : rf.usedAxes = 1 := by
    rw [ReceptiveField.usedAxes,if_neg fun few => absurd few.2 (lt_irrefl 1),one]
  have freedom : 0 < rf.sumW.get (rf.usedAxes - 1) - rf.SSp := by
    have bound := regular.SSp
    rw [one,Nat.cast_one,one_mul] at bound
    rw [used]
    exact sub_pos.mpr bound
  refine ⟨freedom,fun xn w weight => ?_⟩
  refine mul_nonneg (div_nonneg (regular.sumECv2 _) freedom.le)
    (add_nonneg zero_le_one (mul_nonneg weight ?_))
  refine List.sum_nonneg fun part within => ?_
  obtain ⟨i,axis,rfl⟩ := List.mem_map.mp within
  rw [used,← one] at axis
  exact div_nonneg (mul_self_nonneg _) (regular.SSs2 i (List.mem_range.mp axis)).le

end Reach

/-! The leverage of the sample that a field learns. -/

section Leverage

variable {nIn : Nat}

theorem Square.column_write (square : Square nIn) (columns : Nat) (f : Nat → Nat → ℚ)
    (j i : Nat) (row : j < nIn) (place : i < nIn) :
    (square.write columns f).column j i = if j < columns then f j i else square.column j i := by
  have store := lt_nInStore place
  have bound : i + j * nInStore nIn < nInStore nIn * nIn := by
    calc
      i + j * nInStore nIn < (j + 1) * nInStore nIn := by rw [Nat.succ_mul]; omega
      _ ≤ nInStore nIn * nIn := by rw [Nat.mul_comm]; exact Nat.mul_le_mul_left _ row
  rw [column,write,Cells.get_fill _ _ bound,Nat.add_mul_mod_self_right,Nat.mod_eq_of_lt store,
    Nat.add_mul_div_right _ _ (Nat.zero_lt_of_lt store),Nat.div_eq_of_lt store,Nat.zero_add]
  simp only [place,true_and]
  rfl

namespace ReceptiveField

/-- `h` of `lwpr_aux_update_distance_metric`. -/
def leverage (rf : ReceptiveField nIn) (w : ℚ) : ℚ :=
  w * sumBelow rf.nReg fun i => rf.s.get i * rf.s.get i / rf.SSs2.get i

theorem lwprAuxUpdateDistanceMetric_leverage (rf : ReceptiveField nIn) (model : Model nIn)
    (w dwdq eCv e : ℚ) (i : Nat) (axis : i < rf.nReg) (bound : i < nIn) :
    (rf.lwprAuxUpdateDistanceMetric model w dwdq eCv e).H.get i = rf.lambda.get i * rf.H.get i +
        w / (1 - rf.leverage w) * rf.s.get i * eCv * rf.transMul ∧
      (rf.lwprAuxUpdateDistanceMetric model w dwdq eCv e).r.get i = rf.lambda.get i * rf.r.get i +
        w * w * (eCv * eCv) / (1 - rf.leverage w) * rf.s.get i * rf.s.get i * rf.transMul :=
  ⟨(get_perAxis rf _ _ i bound).trans (if_pos axis),
    (get_perAxis rf _ _ i bound).trans (if_pos axis)⟩

theorem leverage_pushError (rf : ReceptiveField nIn) (error w : ℚ) :
    (rf.pushError error).leverage w = rf.leverage w := by
  obtain ⟨_,_,pushed⟩ := rf.pushError_eq error
  rw [pushed]
  rfl

/-- The direction of the only axis has length one. -/
def IsUnit (rf : ReceptiveField 1) : Prop := rf.U.column 0 0 * rf.U.column 0 0 = 1

section Single

variable {rf : ReceptiveField 1} (one : rf.nReg = 1) (lib : CLibrary) (x : Cells ℚ 1) (y w : ℚ)
include one

theorem projection_single (U P : Square 1) :
    lwprAuxComputeProjection U P rf.nReg x = [x.get 0 * U.column 0 0] := by
  rw [one]
  simp [lwprAuxComputeProjection,projectionSteps,lwprMathDotProduct]

theorem loadingAt_single : rf.loadingAt x 0 = x.get 0 * rf.U.column 0 0 := by
  rw [loadingAt,one]
  simp [projectionSteps,lwprMathDotProduct]

theorem updateAxes_s :
    (rf.updateAxes lib x y w).1.s.get 0 = x.get 0 * (rf.updateAxes lib x y w).1.U.column 0 0 := by
  refine (get_perAxis rf _ _ 0 Nat.one_pos).trans ?_
  rw [if_pos (by omega),projection_single one]
  rfl

theorem updateAxes_isUnit (root : ∀ q : ℚ, lib.sqrt (q * q) = |q|) (unit : rf.IsUnit) :
    (rf.updateAxes lib x y w).1.IsUnit := by
  have axis : 0 < rf.nReg := by omega
  have direction := Square.column_write rf.U rf.nReg (fun j i =>
    if sumBelow 1 (fun i => (rf.updateAxes lib x y w).1.SXresYres.column j i *
        (rf.updateAxes lib x y w).1.SXresYres.column j i) > 1/1000000000000000000000000 then
      1 / lib.sqrt (sumBelow 1 fun i => (rf.updateAxes lib x y w).1.SXresYres.column j i *
        (rf.updateAxes lib x y w).1.SXresYres.column j i) *
        (rf.updateAxes lib x y w).1.SXresYres.column j i
    else rf.U.column j i) 0 0 Nat.one_pos Nat.one_pos
  have norm (u : Nat → ℚ) : sumBelow 1 (fun i => u i * u i) = u 0 * u 0 := by simp [sumBelow]
  rw [if_pos axis,norm,root] at direction
  change (rf.updateAxes lib x y w).1.U.column 0 0 = _ at direction
  rw [IsUnit,direction]
  split_ifs with large
  · have nonzero : (rf.updateAxes lib x y w).1.SXresYres.column 0 0 ≠ 0 := by
      intro zero
      rw [zero,mul_zero] at large
      exact absurd large (by norm_num)
    rw [one_div,← div_eq_inv_mul,div_mul_div_comm,abs_mul_abs_self,
      div_self (mul_self_ne_zero.mpr nonzero)]
  · exact unit

/-- Turning the only axis does not change the size of a loading. -/
theorem leverage_single (regular : rf.Regular) (root : ∀ q : ℚ, lib.sqrt (q * q) = |q|)
    (unit : rf.IsUnit) (weight : 0 < w) :
    0 ≤ (rf.updateAxes lib x y w).1.leverage w ∧ (rf.updateAxes lib x y w).1.leverage w < 1 := by
  have after := updateAxes_isUnit one lib x y w root unit
  have axis : 0 < rf.nReg := by omega
  have loading : (rf.updateAxes lib x y w).1.s.get 0 * (rf.updateAxes lib x y w).1.s.get 0 =
      rf.loadingAt x 0 * rf.loadingAt x 0 := by
    have size (u : ℚ) (unit : u * u = 1) : x.get 0 * u * (x.get 0 * u) = x.get 0 * x.get 0 := by
      rw [mul_mul_mul_comm,unit,mul_one]
    rw [updateAxes_s one,loadingAt_single one,size _ after,size _ unit]
  have value : (rf.updateAxes lib x y w).1.leverage w =
      w * (rf.loadingAt x 0 * rf.loadingAt x 0 /
        (rf.SSs2.get 0 + rf.loadingAt x 0 * (w * rf.loadingAt x 0))) := by
    have axes : (rf.updateAxes lib x y w).1.nReg = 1 := one
    rw [leverage,axes,← loading,← regular.axisSquares lib x y w 0 axis]
    simp [sumBelow]
  rw [value]
  exact share_range _ _ _ (regular.SSs2 0 axis) weight.le

end Single

end ReceptiveField

section Reach

variable (lib : CLibrary) (root : ∀ q : ℚ, lib.sqrt (q * q) = |q|)

theorem lwprAuxInitRf_isUnit (model : Model 1) (template : Option (ReceptiveField 1))
    (axis : 0 < (lwprAuxInitRf lib model template).nReg) :
    (lwprAuxInitRf lib model template).IsUnit := by
  have direction := Square.column_write 0 (lwprAuxInitRf lib model template).nReg
    (fun j i => if i = j then 1 else 0) 0 0 Nat.one_pos Nat.one_pos
  rw [if_pos axis,if_pos rfl] at direction
  change (lwprAuxInitRf lib model template).U.column 0 0 = 1 at direction
  rw [ReceptiveField.IsUnit,direction,one_mul]

include root

theorem metricField_isUnit (model : Model 1) (rf : ReceptiveField 1) (one : rf.nReg = 1)
    (unit : rf.IsUnit) :
    (metricField lib model rf).IsUnit ∧ (metricField lib model rf).nReg = 1 := by
  let means :=
    (ReceptiveField.lwprAuxUpdateMeans {rf with w := activation lib model rf} model.xn model.yn
        (activation lib model rf))
  have axes : (means.1.updateAxes lib means.2.1 means.2.2 (activation lib model rf)).1.IsUnit :=
    @ReceptiveField.updateAxes_isUnit means.1 one lib means.2.1 means.2.2 _ root unit
  unfold metricField ReceptiveField.pushError
  split_ifs
  · exact ⟨axes,one⟩
  · exact ⟨axes,one⟩

theorem learnActive_isUnit (context : CallContext) (house : Datahouse) (model : Model 1)
    (rf : ReceptiveField 1) (one : rf.nReg = 1) (unit : rf.IsUnit) :
    (learnActive lib context house model rf).1.IsUnit := by
  obtain ⟨field,axes⟩ := metricField_isUnit lib root model rf one unit
  -- With one input no axis can be added.
  have kept (rf : ReceptiveField 1) (one : rf.nReg = 1) (unit : rf.IsUnit) :
      ((rf.lwprAuxCheckAddProjection model).countData model).IsUnit := by
    have full : rf.lwprAuxCheckAddProjection model = rf := if_pos one.ge
    rw [full]
    exact unit
  rw [learnActive_metric]
  split_ifs
  · exact kept _ axes field
  · exact kept _ axes field

theorem Reachable.isUnit {fspaceHash fssHash : Int} {memory : Memory 1}
    (reachable : Reachable lib fspaceHash fssHash memory) :
    ∀ rf ∈ memory.model.rf, rf.Regular ∧ rf.IsUnit := by
  refine Reachable.fields lib reachable (fun rf => rf.Regular ∧ rf.IsUnit)
    (fun rf rf' same both => ?_) (fun model template parameters shaped => ?_)
    fun context house model rf parameters active both => ?_
  · have direction : rf'.forget.U = rf.forget.U := by rw [same]
    change rf'.U = rf.U at direction
    refine ⟨regular_unread rf rf' same both.1,?_⟩
    rw [ReceptiveField.IsUnit,direction]
    exact both.2
  · have regular := lwprAuxInitRf_regular lib model template Nat.one_pos parameters fun rf here =>
      (shaped rf here).1
    exact ⟨regular,lwprAuxInitRf_isUnit lib model template regular.some⟩
  · exact ⟨learnActive_regular lib context house model rf parameters active both.1,
      learnActive_isUnit lib root context house model rf both.1.single both.2⟩

/-- With one input the sample that a field learns has a leverage below one, and the factors of `H`
and `r` are well defined and not negative. -/
theorem leverage_lt_one (single : nIn = 1) (fspaceHash fssHash : Int) (memory : Memory nIn)
    (reachable : Reachable lib fspaceHash fssHash memory) (x : Cells ℚ nIn) (y : ℚ)
    (rf : ReceptiveField nIn) (member : rf ∈ memory.model.rf)
    (active : activation lib (memory.model.sampled x y) rf > 1/1000) :
    let w := activation lib (memory.model.sampled x y) rf
    let h := (metricField lib (memory.model.sampled x y) rf).leverage w
    0 ≤ h ∧ h < 1 ∧ 0 ≤ w / (1 - h) ∧ ∀ eCv : ℚ, 0 ≤ w * w * (eCv * eCv) / (1 - h) := by
  subst single
  intro w h
  obtain ⟨regular,unit⟩ := Reachable.isUnit lib root reachable rf member
  have weight : 0 < w := lt_trans (by decide +kernel) active
  have means : (ReceptiveField.lwprAuxUpdateMeans {rf with w := w} (memory.model.sampled x y).xn
      (memory.model.sampled x y).yn w).1.Regular :=
    regular.of_same rfl
  have range : 0 ≤ h ∧ h < 1 := by
    have same := (learnedRegression lib (memory.model.sampled x y) rf).rf.leverage_pushError
      |(learnedRegression lib (memory.model.sampled x y) rf).e /
        ((memory.model.sampled x y).yn + 1/1000)| w
    change h = _ at same
    rw [same]
    exact ReceptiveField.leverage_single means.single lib _ _ w means root unit weight
  have rest : 0 ≤ 1 - h := sub_nonneg.mpr range.2.le
  refine ⟨range.1,range.2,div_nonneg weight.le rest,fun eCv => ?_⟩
  exact div_nonneg (mul_nonneg (mul_self_nonneg w) (mul_self_nonneg eCv)) rest

end Reach

end Leverage

theorem rationalLibrary_sqrt (q : ℚ) : rationalLibrary.sqrt (q * q) = |q| := Rat.sqrt_eq q

theorem variance_nonneg_twice :
    learnedTwice.model.rf.length = 1 ∧ ∀ rf ∈ learnedTwice.model.rf,
      0 < rf.sumW.get (rf.usedAxes - 1) - rf.SSp ∧ ∀ (xn : Cells ℚ 1) (w : ℚ), 0 ≤ w →
      0 ≤ rf.sigma2 xn w :=
  ⟨by decide +kernel,variance_nonneg rationalLibrary rfl 1 7 learnedTwice learnedTwice_reachable⟩

theorem leverage_lt_one_twice :
    learnedTwice.model.rf.length = 1 ∧ ∀ rf ∈ learnedTwice.model.rf,
      (metricField rationalLibrary
        (learnedTwice.model.sampled (Cells.fill fun _ => 1/10) 4) rf).leverage
        (activation rationalLibrary (learnedTwice.model.sampled (Cells.fill fun _ => 1/10) 4) rf) <
        1 := by
  have active : ∀ rf ∈ learnedTwice.model.rf,
      activation rationalLibrary (learnedTwice.model.sampled (Cells.fill fun _ => 1/10) 4)
      rf > 1/1000 := by
    decide +kernel
  exact ⟨by decide +kernel,fun rf member =>
    (leverage_lt_one rationalLibrary rationalLibrary_sqrt rfl 1 7 learnedTwice
    learnedTwice_reachable (Cells.fill fun _ => 1/10) 4 rf member (active rf member)).2.1⟩

/-! Two inputs. -/

def point (first second : ℚ) : Cells ℚ 2 := Cells.fill fun i => if i = 0 then first else second

def learnedPoints (samples : List (Cells ℚ 2 × ℚ)) : Memory 2 :=
  (run (answer rationalLibrary) ⟨fun _ _ _ => none,unlearned 2 7⟩
    (samples.map fun (x,y) => .update uniformContext x y)).1

theorem learnedPoints_reachable (samples : List (Cells ℚ 2 × ℚ)) :
    Reachable rationalLibrary 1 7 (learnedPoints samples) := by
  refine Reachable.run rationalLibrary (.fresh _) _ fun call member => ?_
  obtain ⟨sample,_,rfl⟩ := List.mem_map.mp member
  rfl

/-- Both axes take the whole weight of the last sample, which is the larger part of the weight so
far. -/
theorem variance_negative :
    Reachable rationalLibrary 1 7
      (learnedPoints [(point 0 0,1),(point (-(3/10)) (-(4/10)),1),(point 0 0,3)]) ∧
      ∃ rf ∈ (learnedPoints [(point 0 0,1),(point (-(3/10)) (-(4/10)),1),(point 0 0,3)]).model.rf,
        rf.predErrorNum = 2 ∧ rf.sumW.get (rf.usedAxes - 1) - rf.SSp < 0 ∧
        rf.sigma2 (point 0 0) 1 < 0 :=
  ⟨learnedPoints_reachable _,by decide +kernel⟩

/-- A model that has learned twice at the origin, with a sample at some distance. -/
def distantSample : Model 2 :=
  (learnedPoints [(point 0 0,1),(point 0 0,1)]).model.sampled (point (-(3/10)) (-(4/10))) 3

/-- The first axis is turned towards the sample after the squares of its loadings were summed. -/
theorem leverage_above_two :
    Reachable rationalLibrary 1 7 (learnedPoints [(point 0 0,1),(point 0 0,1)]) ∧
      ∃ rf ∈ (learnedPoints [(point 0 0,1),(point 0 0,1)]).model.rf,
        activation rationalLibrary distantSample rf > 1/1000 ∧
          2 < (metricField rationalLibrary distantSample rf).leverage
            (activation rationalLibrary distantSample rf) :=
  ⟨learnedPoints_reachable _,by decide +kernel⟩

end ExploratoryOptimizer.Aqo.Lwpr
