import ExploratoryOptimizer.Aqo.Lwpr.Predict

/-! `lwpr_update`: one training sample moves the active receptive fields, and adds or prunes one. -/
namespace ExploratoryOptimizer.Aqo.Lwpr
open Library.FixedArray OkNNr Session

def sumBelow (n : Nat) (f : Nat → ℚ) : ℚ := ((List.range n).map f).sum

namespace ReceptiveField

variable {nIn : Nat} (rf : ReceptiveField nIn)

/-- Writes the cells below `nReg`. -/
def perAxis (old : Cells ℚ nIn) (f : Nat → ℚ) : Cells ℚ nIn :=
  Cells.fill fun j => if j < rf.nReg then f j else old.get j

/-- The field with its means moved, and the sample relative to them. -/
def lwprAuxUpdateMeans (x : Cells ℚ nIn) (y w : ℚ) : ReceptiveField nIn × Cells ℚ nIn × ℚ :=
  let swl := rf.sumW.get 0 * rf.lambda.get 0
  let invFac := 1 / (swl + w)
  let mean := fun i => (swl * rf.meanX.get i + w * x.get i) * invFac
  let beta0 := (swl * rf.beta0 + w * y) * invFac
  ({rf with
    meanX := Cells.fill fun i => if i < nIn then mean i else rf.meanX.get i
    varX := Cells.fill fun i =>
      if i < nIn then (swl * rf.varX.get i + w * (x.get i - mean i) * (x.get i - mean i)) * invFac
      else rf.varX.get i
    beta0 := beta0},Cells.fill fun i => x.get i - mean i,y - beta0)

structure Regression (nIn : Nat) where
  rf : ReceptiveField nIn
  eCv : ℚ
  e : ℚ

/-- Statistics, axes and coefficients of the regression. -/
def updateAxes (lib : CLibrary) (x : Cells ℚ nIn) (y w : ℚ) : ReceptiveField nIn × (Nat → ℚ) :=
  let steps := projectionSteps rf.U rf.P rf.nReg 0 x
  let s := fun j => (steps.getD j (0,x)).1
  let xres := fun j => (steps.getD j (0,x)).2
  let eCv := fun j => y - sumBelow (j + 1) fun i => rf.beta.get i * s i
  let ytarget := fun j => if j = 0 then y else eCv (j - 1)
  let SXresYres := rf.SXresYres.write rf.nReg fun j i =>
    rf.SXresYres.column j i * (9/10 + 1/10 * rf.lambda.get j) + w * ytarget j * (xres j).get i
  let unorm := fun j => sumBelow nIn fun i => SXresYres.column j i * SXresYres.column j i
  let SSs2 := rf.perAxis rf.SSs2 fun j => rf.lambda.get j * rf.SSs2.get j + s j * (w * s j)
  let SSYres :=
    rf.perAxis rf.SSYres fun j => rf.lambda.get j * rf.SSYres.get j + ytarget j * (w * s j)
  let SSXres :=
    rf.SSXres.write rf.nReg fun j i => rf.lambda.get j * rf.SSXres.column j i + w *
      s j * (xres j).get i
  let U := rf.U.write rf.nReg fun j i =>
    -- Numerical safety measure.
    if unorm j > 1/1000000000000000000000000 then 1 / lib.sqrt (unorm j) * SXresYres.column j i
    else rf.U.column j i
  let P := rf.P.write rf.nReg fun j i => 1 / SSs2.get j * SSXres.column j i
  let loadings := lwprAuxComputeProjection U P rf.nReg x
  ({rf with
    s := rf.perAxis rf.s fun j => loadings.getD j 0
    sumW := rf.perAxis rf.sumW fun j => rf.sumW.get j * rf.lambda.get j + w
    SXresYres := SXresYres
    U := U
    SSs2 := SSs2
    SSYres := SSYres
    SSXres := SSXres
    beta := rf.perAxis rf.beta fun j => SSYres.get j * (1 / SSs2.get j)
    P := P
    SSp := rf.lambda.get (rf.nReg - 1) * rf.SSp +
      sumBelow rf.nReg fun j => w * s j * (w * s j) * (1 / SSs2.get j)},eCv)

/-- The axes whose predictions count for the error, not the last one before it has seen enough
data. -/
def countedAxes : Nat :=
  if rf.nReg = 1 ∨ rf.nData.get (rf.nReg - 1) > 2 * nIn then rf.nReg else rf.nReg - 1

def updateErrors (eCv : Nat → ℚ) (y w : ℚ) : Regression nIn :=
  let e := y - sumBelow rf.countedAxes fun j => rf.beta.get j * rf.s.get j
  ⟨{rf with
    sumE2 := rf.sumE2 * rf.lambda.get (rf.nReg - 1) + w * e * e
    sumECv2 := rf.perAxis rf.sumECv2 fun i => rf.sumECv2.get i * rf.lambda.get i + w * eCv i * eCv i
    slopeReady := false
    trustworthy := decide (rf.nData.get 0 > 2 * nIn) || rf.trustworthy},eCv (rf.countedAxes - 1),e⟩

def lwprAuxUpdateRegression (lib : CLibrary) (x : Cells ℚ nIn) (y w : ℚ) : Regression nIn :=
  let (axes,eCv) := rf.updateAxes lib x y w
  axes.updateErrors eCv y w

/-- Relative prediction errors, the last two of them. -/
def pushError (error : ℚ) : ReceptiveField nIn :=
  if rf.predErrorNum < numPredErrorHistory then
    {rf with
      predErrorHistory := rf.predErrorHistory.set rf.predErrorNum error
      predErrorNum := rf.predErrorNum + 1}
  else
    {rf with predErrorHistory := Cells.fill fun j =>
      if j = numPredErrorHistory - 1 then error else rf.predErrorHistory.get (j + 1)}

theorem pushError_eq (error : ℚ) :
    ∃ history num, rf.pushError error =
      {rf with predErrorHistory := history, predErrorNum := num} := by
  unfold pushError
  split_ifs
  · exact ⟨_,_,rfl⟩
  · exact ⟨_,_,rfl⟩

end ReceptiveField

section DistanceMetric

variable {nIn : Nat}

/-- Derivatives of the activation and of the penalty with respect to element `i`, `j` of `M`. -/
def lwprAuxDistDerivatives (diagOnly : Bool) (dwdq penalty : ℚ) (D M : Square nIn)
    (dx : Cells ℚ nIn) (j i : Nat) :
    ℚ × ℚ :=
  let penalty := penalty + penalty
  if diagOnly then
    let aux := 2 * M.column j j
    (dx.get j * dx.get j * aux * dwdq,penalty * D.column j j * aux)
  else
    let dqdM := sumBelow nIn fun k => if i ≤ k then dx.get k * M.column k i else 0
    let sumAux := sumBelow nIn fun k => if i ≤ k then D.column j k * M.column k i else 0
    (2 * dx.get j * dqdM * dwdq,2 * penalty * sumAux)

/-- Whether element `i`, `j` of `M` is learned: the diagonal, or the upper triangle. -/
def isLearned (diagOnly : Bool) (j i : Nat) : Bool := if diagOnly then i = j else i ≤ j

def maxElement (diagOnly : Bool) (M : Square nIn) : ℚ :=
  (List.range nIn).foldl (fun most j => (List.range nIn).foldl (fun most i =>
    if isLearned diagOnly j i ∧ |M.column j i| > most then |M.column j i| else most) most) 0

/-- `D` from its factor. -/
def squareOf (diagOnly : Bool) (D M : Square nIn) : Square nIn :=
  D.write nIn fun j i =>
    if diagOnly then if i = j then M.column j j * M.column j j else D.column j i
    else lwprMathDotProduct (M.column i) (M.column j) (min i j + 1)

namespace ReceptiveField

variable (rf : ReceptiveField nIn) (model : Model nIn)

def cvError : ℚ :=
  if rf.nReg = 1 then rf.sumECv2.get 0
  else if rf.nData.get (rf.nReg - 1) > 2 * nIn then rf.sumECv2.get (rf.nReg - 1)
  else rf.sumECv2.get (rf.nReg - 2)

def transMul : ℚ :=
  let ratio := rf.sumE2 / (rf.cvError + 1/10000000000)
  let fourth := ratio * ratio * (ratio * ratio)
  if fourth > 1 then 1 else fourth

def costDerivative (eCv e : ℚ) : ℚ :=
  let W := rf.sumW.get 0
  let Ps := fun i => rf.s.get i / rf.SSs2.get i
  (-rf.cvError / W + eCv * eCv - sumBelow rf.nReg fun i => 2 * (e * Ps i) * rf.H.get i + 2 * Ps i *
      Ps i * rf.r.get i) / W

def lwprAuxUpdateDistanceMetric (w dwdq eCv e : ℚ) : ReceptiveField nIn :=
  let h := w * sumBelow rf.nReg fun i => rf.s.get i * rf.s.get i / rf.SSs2.get i
  let dx := centred model.xn rf.c
  let derivatives := lwprAuxDistDerivatives model.diagOnly dwdq (model.penalty / nIn) rf.D rf.M dx
  let delta := fun j i => rf.alpha.column j i * rf.transMul *
    (w / rf.sumW.get 0 * (derivatives j i).2 + (derivatives j i).1 * rf.costDerivative eCv e)
  let tooLarge := fun j i => delta j i > 1/10 * maxElement model.diagOnly rf.M
  let M := rf.M.write nIn fun j i =>
    if isLearned model.diagOnly j i ∧ ¬tooLarge j i then rf.M.column j i - delta j i
    else rf.M.column j i
  {rf with
    alpha := rf.alpha.write nIn fun j i =>
      if isLearned model.diagOnly j i ∧ tooLarge j i then rf.alpha.column j i * (1/2)
      else rf.alpha.column j i
    M := M
    D := squareOf model.diagOnly rf.D M
    H :=
      rf.perAxis rf.H fun i => rf.lambda.get i * rf.H.get i + w / (1 - h) * rf.s.get i *
        eCv * rf.transMul
    r := rf.perAxis rf.r fun i => rf.lambda.get i * rf.r.get i +
      w * w * (eCv * eCv) / (1 - h) * rf.s.get i * rf.s.get i * rf.transMul}

/-- Moves the axes to a larger store, with zeros behind them. -/
def lwprMemReallocRf (nRegStore : Nat) : ReceptiveField nIn :=
  let columns :=
    fun old : Square nIn => Cells.fill fun k => if k < nInStore nIn * rf.nReg then old.get k else 0
  let axes := fun old : Cells ℚ nIn => Cells.fill fun j => if j < rf.nReg then old.get j else 0
  {rf with
    nRegStore := nRegStore
    SXresYres := columns rf.SXresYres
    SSXres := columns rf.SSXres
    U := columns rf.U
    P := columns rf.P
    beta := axes rf.beta
    SSs2 := axes rf.SSs2
    SSYres := axes rf.SSYres
    H := axes rf.H
    r := axes rf.r
    sumW := axes rf.sumW
    sumECv2 := axes rf.sumECv2
    nData := axes rf.nData
    lambda := axes rf.lambda
    s := axes rf.s}

def withRoom : ReceptiveField nIn :=
  if rf.nReg = rf.nRegStore then rf.lwprMemReallocRf (rf.nReg + 2) else rf

def addAxis : ReceptiveField nIn :=
  {rf with
    SSs2 := rf.SSs2.set rf.nReg model.initS2
    U := rf.U.set (rf.nReg + rf.nReg * nInStore nIn) 1
    P := rf.P.set (rf.nReg + rf.nReg * nInStore nIn) 1
    sumW := rf.sumW.set rf.nReg (1/10000000000)
    lambda := rf.lambda.set rf.nReg model.initLambda
    nReg := rf.nReg + 1
    SSp := 0}

def lwprAuxCheckAddProjection : ReceptiveField nIn :=
  let mse := fun axis => rf.sumECv2.get axis / rf.sumW.get axis + 1/10000000000
  if nIn ≤ rf.nReg then rf
  else if mse (rf.nReg - 1) < model.addThreshold * mse (rf.nReg - 2) ∧
      rf.nData.get (rf.nReg - 1) > 99/100 * rf.nData.get 0 then rf.withRoom.addAxis model
  else rf

theorem lwprAuxCheckAddProjection_cases :
    rf.lwprAuxCheckAddProjection model = rf ∨
      (rf.nReg < nIn ∧ rf.lwprAuxCheckAddProjection model = rf.withRoom.addAxis model) := by
  simp only [lwprAuxCheckAddProjection]
  split_ifs with full
  · exact .inl rfl
  · exact .inr ⟨not_le.mp full,rfl⟩
  · exact .inl rfl

/-- What neither a reallocation nor a new axis touches. -/
theorem lwprAuxCheckAddProjection_keeps {β : Type} (view : ReceptiveField nIn → β)
    (reallocated : ∀ field nRegStore, view (lwprMemReallocRf field nRegStore) = view field)
    (extended : ∀ field, view (addAxis field model) = view field) :
    view (rf.lwprAuxCheckAddProjection model) = view rf := by
  rcases rf.lwprAuxCheckAddProjection_cases model with same | ⟨_,added⟩
  · rw [same]
  · rw [added,extended,withRoom]
    split_ifs
    · exact reallocated rf _
    · rfl

def countData : ReceptiveField nIn :=
  {rf with
    nData := rf.perAxis rf.nData fun i => rf.nData.get i * rf.lambda.get i + 1
    lambda := rf.perAxis rf.lambda fun i =>
      model.tauLambda * rf.lambda.get i + model.finalLambda * (1 - model.tauLambda)}

/-- The rest of the update of a field, once its regression is updated. -/
def Regression.finish (regression : Regression nIn) (w dwdq : ℚ) : ReceptiveField nIn :=
  let field := regression.rf.pushError |regression.e / (model.yn + 1/1000)|
  let field :=
    if model.updateD then field.lwprAuxUpdateDistanceMetric model w dwdq regression.eCv regression.e
    else field
  (field.lwprAuxCheckAddProjection model).countData model

end ReceptiveField

end DistanceMetric

section Update

variable {nIn : Nat} (lib : CLibrary) (context : CallContext)

/-- Derivative of the activation with respect to the distance. -/
def kernelSlope (kernel : Kernel) (dist : ℚ) : ℚ :=
  match kernel with
  | .gaussian => -(5/10) * lib.exp (-(5/10) * dist)
  | .bisquare => if 1 - 25/100 * dist < 0 then 0 else -(5/10) * (1 - 25/100 * dist)

def learnActive (house : Datahouse) (model : Model nIn) (rf : ReceptiveField nIn) :
    ReceptiveField nIn × Datahouse :=
  let w := activation lib model rf
  let (means,xmz,ymz) := {rf with w := w}.lwprAuxUpdateMeans model.xn model.yn w
  let regression := means.lwprAuxUpdateRegression lib xmz ymz w
  let house :=
    if means.nData.get 0 > 2 * nIn then house
    else learnRfDatahouse lib house context.fspaceHash model.fssHash rf.c model.xn model.yn
  (regression.finish model w (kernelSlope lib model.kernel (rf.dist model.xn)),house)

def learnField (house : Datahouse) (model : Model nIn) (rf : ReceptiveField nIn) :
    ReceptiveField nIn × Datahouse :=
  if activation lib model rf > 1/1000 then learnActive lib context house model rf
  else ({rf with w := 0},house)

/-- The two largest activations and the places of their fields. -/
structure Maxima where
  wMax : ℚ
  indMax : Option Nat
  wSec : ℚ
  indSec : Option Nat
  deriving DecidableEq

def Maxima.add (maxima : Maxima) (n : Nat) (w : ℚ) : Maxima :=
  if w > maxima.wSec then
    if w > maxima.wMax then ⟨w,some n,maxima.wMax,maxima.indMax⟩
    else {maxima with wSec := w, indSec := some n}
  else maxima

def findMaxima (model : Model nIn) : Nat → Maxima → List (ReceptiveField nIn) → Maxima
  | _,maxima,[] => maxima
  | n,maxima,rf :: rest => findMaxima model (n + 1) (maxima.add n (activation lib model rf)) rest

def learnFields (model : Model nIn) : Datahouse → List (ReceptiveField nIn) → List
    (ReceptiveField nIn) × Datahouse
  | house,[] => ([],house)
  | house,rf :: rest =>
    let (field,house) := learnField lib context house model rf
    let (fields,house) := learnFields model house rest
    (field :: fields,house)

def lwprAuxUpdateOneT (house : Datahouse) (model : Model nIn) : Model nIn × Maxima × Datahouse :=
  if model.rf = [] then (model.pushHistory context,⟨0,none,0,none⟩,house)
  else
    let (fields,learned) := learnFields lib context model house model.rf
    ({model with rf := fields},findMaxima lib model 0 ⟨0,none,0,none⟩ model.rf,learned)

/-- A new receptive field at the sample, shaped after a trusted neighbour if there is one. -/
def lwprAuxInitRf (model : Model nIn) (template : Option (ReceptiveField nIn)) :
    ReceptiveField nIn :=
  let (nReg,nRegStore,D,M,alpha,beta0) :=
    match template with
    | none => (if 1 < nIn then 2 else 1,nIn,model.initD,model.initM,model.initAlpha,model.yn)
    | some rf => (rf.nReg,rf.nRegStore,rf.D,rf.M,rf.alpha,rf.beta0)
  let axes := fun value => Cells.fill fun i => if i < nReg then value else 0
  let identity := Square.write 0 nReg fun j i => if i = j then 1 else 0
  {lwprMemAllocRf nIn nReg nRegStore with
    D := D
    M := M
    alpha := alpha
    beta0 := beta0
    c := Cells.fill fun i => if i < nIn then model.xn.get i else 0
    SSs2 := axes model.initS2
    U := identity
    P := identity
    sumW := axes (1/10000000000)
    nData := axes (1/10000000000)
    lambda := axes model.initLambda
    b :=
      Square.write 0 nIn fun j i => if i ≤ j then lib.log (alpha.column j i + 1/10000000000) else 0}

def traceOf (rf : ReceptiveField nIn) : ℚ := sumBelow nIn fun i => rf.D.column i i

/-- The last field fills the gap. -/
def prune (fields : List (ReceptiveField nIn)) (place : Nat) : List (ReceptiveField nIn) :=
  match fields.getLast? with
  | none => fields
  | some last => (fields.set place last).dropLast

def pruned (model : Model nIn) (maxima : Maxima) : Model nIn :=
  match maxima.indMax,maxima.indSec with
  | some most,some second =>
    let trace := fun place => (model.rf[place]?).elim 0 traceOf
    {model with
      rf := prune model.rf (if trace most < trace second then most else second)
      nPruned := model.nPruned + 1}
  | _,_ => model

/-- The field that a new one is shaped after. -/
def neighbour (model : Model nIn) (maxima : Maxima) : Option (ReceptiveField nIn) :=
  if maxima.wMax > 1/10 * model.wGen then
    (maxima.indMax.bind fun place => model.rf[place]?).filter (·.trustworthy)
  else none

def lwprAuxUpdateOneAddPrune (house : Datahouse) (model : Model nIn)
    (maxima : Maxima) : Model nIn × Datahouse :=
  if maxima.wMax ≤ model.wGen then
    let field := lwprAuxInitRf lib model (neighbour model maxima)
    ({model with rf := model.rf ++ [field]},
      learnRfDatahouse lib house context.fspaceHash model.fssHash field.c model.xn model.yn)
  else if maxima.wSec > model.wPrune then (pruned model maxima,house)
  else (model,house)

def Model.sampled (model : Model nIn) (x : Cells ℚ nIn) (y : ℚ) : Model nIn :=
  {model with nData := model.nData + 1, xn := model.normalised x, yn := y / model.normOut}

/-- The code returned is one, since memory does not run out. -/
def lwprUpdate (house : Datahouse) (model : Model nIn) (x : Cells ℚ nIn)
    (y : ℚ) : Model nIn × Datahouse × Int :=
  let (learned,maxima,house) := lwprAuxUpdateOneT lib context house (model.sampled x y)
  let (model,house) := lwprAuxUpdateOneAddPrune lib context house learned maxima
  (model,house,1)

end Update

end ExploratoryOptimizer.Aqo.Lwpr
