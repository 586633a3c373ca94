import ExploratoryOptimizer.Aqo.Lwpr.Leverage
import Mathlib.Algebra.BigOperators.Group.Finset.Basic

/-! The distance metric of a receptive field stays the square of a diagonal factor, however its
factor is moved. -/
namespace ExploratoryOptimizer.Aqo.Lwpr
open Library.FixedArray Library.Machine OkNNr Session

theorem sum_range_single (n j : Nat) (f : Nat → ℚ) (within : j < n)
    (zero : ∀ i < n, i ≠ j → f i = 0) :
    ((List.range n).map f).sum = f j := by
  rw [← List.sum_toFinset f List.nodup_range]
  refine Finset.sum_eq_single j (fun i here other => ?_) fun out => ?_
  · exact zero i (List.mem_range.mp (List.mem_toFinset.mp here)) other
  · exact absurd (List.mem_toFinset.mpr (List.mem_range.mpr within)) out

namespace ReceptiveField

variable {nIn : Nat}

/-- `D` is the square of the diagonal of `M`, and zero elsewhere. -/
def Diagonal (rf : ReceptiveField nIn) : Prop :=
  ∀ j < nIn, ∀ i < nIn, rf.D.column j i = if i = j then rf.M.column j j * rf.M.column j j else 0

theorem Diagonal.of_same {rf rf' : ReceptiveField nIn} (diagonal : rf.Diagonal)
    (same : (rf'.D,rf'.M) = (rf.D,rf.M)) :
    rf'.Diagonal := by
  obtain ⟨metric,factor⟩ := Prod.mk.inj same
  intro j column i row
  rw [metric,factor]
  exact diagonal j column i row

/-- The diagonal is recomputed, the rest is left as it was. -/
theorem column_squareOf (D M : Square nIn) (j i : Nat) (column : j < nIn) (row : i < nIn) :
    (squareOf true D M).column j i = if i = j then M.column j j * M.column j j else D.column j i :=
  (Square.column_write D nIn _ j i column row).trans (if_pos column)

theorem Diagonal.lwprAuxUpdateDistanceMetric {rf : ReceptiveField nIn} (diagonal : rf.Diagonal)
    (model : Model nIn) (parameters : model.toParameters = initParameters nIn) (w dwdq eCv e : ℚ) :
    (rf.lwprAuxUpdateDistanceMetric model w dwdq eCv e).Diagonal := by
  have diagOnly : model.diagOnly = true := congrArg Parameters.diagOnly parameters
  intro j column i row
  have squares : (rf.lwprAuxUpdateDistanceMetric model w dwdq eCv e).D =
      squareOf true rf.D (rf.lwprAuxUpdateDistanceMetric model w dwdq eCv e).M := by
    rw [← diagOnly]
    rfl
  rw [squares,column_squareOf rf.D _ j i column row]
  split_ifs with same
  · rfl
  · exact (diagonal j column i row).trans (if_neg same)

/-! Only `lwpr_aux_update_distance_metric` writes the metric. -/

theorem metric_pushError (rf : ReceptiveField nIn) (error : ℚ) :
    ((rf.pushError error).D,(rf.pushError error).M) = (rf.D,rf.M) := by
  obtain ⟨_,_,pushed⟩ := rf.pushError_eq error
  rw [pushed]

theorem metric_lwprAuxCheckAddProjection (rf : ReceptiveField nIn) (model : Model nIn) :
    ((rf.lwprAuxCheckAddProjection model).D,(rf.lwprAuxCheckAddProjection model).M) = (rf.D,rf.M) :=
  rf.lwprAuxCheckAddProjection_keeps model (fun field => (field.D,field.M))
    (fun _ _ => rfl) fun _ => rfl

/-! Distances under a diagonal metric. -/

theorem Diagonal.dist_eq {rf : ReceptiveField nIn} (diagonal : rf.Diagonal) (xn : Cells ℚ nIn) :
    rf.dist xn = ((List.range nIn).map fun j =>
        (rf.M.column j j * (xn.get j - rf.c.get j)) ^ 2).sum := by
  refine congrArg List.sum (List.map_congr_left fun j member => ?_)
  have column : j < nIn := List.mem_range.mp member
  have product : lwprMathDotProduct (rf.D.column j) (centred xn rf.c).get nIn =
      (centred xn rf.c).get j * (rf.M.column j j * rf.M.column j j) := by
    refine (sum_range_single nIn j _ column fun i row other => ?_).trans ?_
    · rw [diagonal j column i row,if_neg other,mul_zero]
    · rw [diagonal j column j column,if_pos rfl]
  rw [product,centred,Cells.get_fill _ j column]
  ring

theorem Diagonal.dist_nonneg {rf : ReceptiveField nIn} (diagonal : rf.Diagonal) (xn : Cells ℚ nIn) :
    0 ≤ rf.dist xn := by
  rw [diagonal.dist_eq]
  refine List.sum_nonneg fun part member => ?_
  obtain ⟨j,_,rfl⟩ := List.mem_map.mp member
  exact sq_nonneg _

theorem Diagonal.dist_centre {rf : ReceptiveField nIn} (diagonal : rf.Diagonal) (xn : Cells ℚ nIn)
    (centre : ∀ j < nIn, xn.get j = rf.c.get j) : rf.dist xn = 0 := by
  rw [diagonal.dist_eq]
  refine List.sum_eq_zero fun part member => ?_
  obtain ⟨j,column,rfl⟩ := List.mem_map.mp member
  rw [centre j (List.mem_range.mp column),sub_self,mul_zero,zero_pow two_ne_zero]

end ReceptiveField

section Reach

variable {nIn : Nat} (lib : CLibrary)

theorem diagonal_column (value : ℚ) (j i : Nat) (column : j < nIn) (row : i < nIn) :
    (Square.diagonal value : Square nIn).column j i = if i = j then value else 0 :=
  (Square.column_write _ nIn _ j i column row).trans (if_pos column)

theorem lwprAuxInitRf_diagonal (model : Model nIn) (template : Option (ReceptiveField nIn))
    (parameters : model.toParameters = initParameters nIn)
    (shaped : ∀ rf, template = some rf → rf.Diagonal) :
    (lwprAuxInitRf lib model template).Diagonal := by
  cases template with
  | none =>
    have metric : model.initD = Square.diagonal 25 := congrArg Parameters.initD parameters
    have factor : model.initM = Square.diagonal 5 := congrArg Parameters.initM parameters
    intro j column i row
    change model.initD.column j i = if i = j then model.initM.column j j * model.initM.column j j
      else 0
    rw [metric,factor,diagonal_column 25 j i column row,
      diagonal_column 5 j j column column,if_pos rfl]
    norm_num
  | some rf => exact (shaped rf rfl).of_same rfl

theorem metricField_diagonal (model : Model nIn) (rf : ReceptiveField nIn)
    (diagonal : rf.Diagonal) :
    (metricField lib model rf).Diagonal :=
  diagonal.of_same (ReceptiveField.metric_pushError _ _)

theorem learnActive_diagonal (context : CallContext) (house : Datahouse) (model : Model nIn)
    (rf : ReceptiveField nIn) (parameters : model.toParameters = initParameters nIn)
    (diagonal : rf.Diagonal) :
    (learnActive lib context house model rf).1.Diagonal := by
  have field := metricField_diagonal lib model rf diagonal
  rw [learnActive_metric]
  split_ifs
  · exact (field.lwprAuxUpdateDistanceMetric model parameters _ _ _ _).of_same
      (ReceptiveField.metric_lwprAuxCheckAddProjection _ model)
  · exact field.of_same (ReceptiveField.metric_lwprAuxCheckAddProjection _ model)

theorem Grown.diagonal {fssHash : Int} {model : Model nIn} (grown : Grown lib fssHash model) :
    ∀ rf ∈ model.rf, rf.Diagonal := by
  refine Grown.fields lib grown ReceptiveField.Diagonal (fun rf rf' same diagonal => ?_)
    (fun model template parameters shaped =>
      lwprAuxInitRf_diagonal lib model template parameters shaped)
    fun context house model rf parameters _ diagonal =>
      learnActive_diagonal lib context house model rf parameters diagonal
  have metric : (rf'.forget.D,rf'.forget.M) = (rf.forget.D,rf.forget.M) := by rw [same]
  exact diagonal.of_same metric

/-- All fields measure distances by the square of a diagonal factor, so that no activation exceeds
the one at the centre of the field. -/
theorem metric_diagonal (atZero : lib.exp 0 = 1) (below : ∀ t ≤ 0, lib.exp t ≤ 1) (fssHash : Int)
    (model : Model nIn) (grown : Grown lib fssHash model) (rf : ReceptiveField nIn)
    (member : rf ∈ model.rf) :
    (∀ j < nIn, ∀ i < nIn, i ≠ j → rf.D.column j i = 0) ∧
      (∀ j < nIn, rf.D.column j j = rf.M.column j j * rf.M.column j j) ∧
      model.kernel = .gaussian ∧
      (∀ xn : Cells ℚ nIn, 0 ≤ rf.dist xn ∧ kernelWeight lib .gaussian (rf.dist xn) ≤ 1) ∧
      ∀ xn : Cells ℚ nIn, (∀ j < nIn, xn.get j = rf.c.get j) →
        kernelWeight lib .gaussian (rf.dist xn) = 1 := by
  have diagonal := Grown.diagonal lib grown rf member
  have gaussian : model.kernel = .gaussian :=
    congrArg Parameters.kernel (Grown.storable lib grown).parameters
  refine ⟨fun j column i row other => ?_,fun j column => ?_,gaussian,fun xn =>
    ⟨diagonal.dist_nonneg xn,?_⟩,
    fun xn centre => ?_⟩
  · exact (diagonal j column i row).trans (if_neg other)
  · exact (diagonal j column j column).trans (if_pos rfl)
  · refine below _ ?_
    have distance := diagonal.dist_nonneg xn
    linarith
  · have activated : kernelWeight lib .gaussian 0 = lib.exp 0 := by
      change lib.exp (-(5/10) * 0) = _
      rw [mul_zero]
    rw [diagonal.dist_centre xn centre,activated,atZero]

theorem rationalLibrary_exp_le_one (t : ℚ) (below : t ≤ 0) : rationalLibrary.exp t ≤ 1 := by
  have value : rationalLibrary.exp t = 1 / (1 - t) := if_pos below
  rw [value,div_le_one (by linarith)]
  linarith

theorem metric_diagonal_points :
    (learnedPoints [(point 0 0,1),(point (1/10) 0,2)]).model.rf.length = 1 ∧
      ∀ rf ∈ (learnedPoints [(point 0 0,1),(point (1/10) 0,2)]).model.rf, ∀ xn : Cells ℚ 2,
        0 ≤ rf.dist xn ∧ kernelWeight rationalLibrary .gaussian (rf.dist xn) ≤ 1 :=
  ⟨by decide +kernel,fun rf member =>
    (metric_diagonal rationalLibrary (by decide +kernel) rationalLibrary_exp_le_one 7 _
    (learnedPoints_reachable [(point 0 0,1),(point (1/10) 0,2)]).grown rf member).2.2.2.1⟩

end Reach

end ExploratoryOptimizer.Aqo.Lwpr
