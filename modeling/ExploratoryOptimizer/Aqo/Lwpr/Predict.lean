import ExploratoryOptimizer.Aqo.Lwpr.Model

/-! `lwpr_predict_explore`: the prediction of a model together with its explore values. -/
namespace ExploratoryOptimizer.Aqo.Lwpr
open Library.FixedArray OkNNr Session

def confidenceBoundPercentile : ℚ := 1/100

def outerFutureValue : ℚ := 1

def useAqoThreshold : ℚ := 1/100000

def avgErrorThreshold : ℚ := 1

def lwprMathDotProduct (x y : Nat → ℚ) (n : Nat) : ℚ := ((List.range n).map fun i => y i * x i).sum

def lwprMathAvgVector (x : Nat → ℚ) (n : Nat) : ℚ := ((List.range n).map x).sum / n

/-- The step has the sign of `b - a`, and the sum runs over `n + 1` points. -/
def integral (p : ℚ → ℚ) (a b : ℚ) (n : Nat) : ℚ :=
  let h := (b - a) / n
  ((List.range (n + 1)).foldl (fun (x,s) _ => (x + h,s + p (x + h) * h)) (a,0)).2

/-- A confidence is clamped at one, but not at zero. -/
def clamped (alpha : ℚ) : ℚ := if alpha > 1 then 1 else alpha

section Library

variable (lib : CLibrary)

def normDistributionFunction (a b x : ℚ) : ℚ :=
  1 / lib.sqrt (2 * (3141592/1000000) * b) * lib.exp (-1 * (x - a) * (x - a) / (2 * b))

/-- Probability of an outcome within one percent of the estimate. -/
def boundProbability (estimate variance : ℚ) : ℚ :=
  integral (normDistributionFunction lib estimate variance)
    (estimate - estimate * confidenceBoundPercentile)
    (estimate * confidenceBoundPercentile + estimate) 1000

def kernelWeight (kernel : Kernel) (dist : ℚ) : ℚ :=
  match kernel with
  | .gaussian => lib.exp (-(5/10) * dist)
  | .bisquare =>
    let w := 1 - 25/100 * dist
    if w < 0 then 0 else w * w

end Library

section Projection

variable {nIn : Nat}

/-- Loadings of the input along the regression axes, each with the input that is left at its
turn. -/
def projectionSteps (U P : Square nIn) : Nat → Nat → Cells ℚ nIn → List (ℚ × Cells ℚ nIn)
  | 0,_,_ => []
  | count + 1,j,x =>
    let sj := lwprMathDotProduct (U.column j) x.get nIn
    (sj,x) :: projectionSteps U P count (j + 1) (Cells.fill fun i => x.get i - P.column j i * sj)

def lwprAuxComputeProjection (U P : Square nIn) (nReg : Nat) (x : Cells ℚ nIn) : List ℚ :=
  (projectionSteps U P nReg 0 x).map Prod.fst

end Projection

namespace ReceptiveField

variable {nIn : Nat} (rf : ReceptiveField nIn) (xn : Cells ℚ nIn)

def centred (origin : Cells ℚ (nInStore nIn)) : Cells ℚ nIn :=
  Cells.fill fun i => xn.get i - origin.get i

def dist : ℚ :=
  let xc := centred xn rf.c
  ((List.range nIn).map fun j => xc.get j * lwprMathDotProduct (rf.D.column j) xc.get nIn).sum

def avgError : ℚ :=
  if 0 < rf.predErrorNum then lwprMathAvgVector rf.predErrorHistory.get rf.predErrorNum else 0

/-- The last axis is not used before it has seen enough data. -/
def usedAxes : Nat :=
  if rf.nData.get (rf.nReg - 1) ≤ 2 * nIn ∧ 1 < nIn then rf.nReg - 1 else rf.nReg

def loadings : List ℚ := lwprAuxComputeProjection rf.U rf.P rf.usedAxes (centred xn rf.meanX)

def localPrediction : ℚ :=
  rf.beta0 + ((List.range rf.usedAxes).map fun i => (rf.loadings xn).getD i 0 * rf.beta.get i).sum

def sigma2 (w : ℚ) : ℚ :=
  let last := rf.usedAxes - 1
  rf.sumECv2.get last / (rf.sumW.get last - rf.SSp) *
    (1 + w * ((List.range rf.usedAxes).map fun i =>
    (rf.loadings xn).getD i 0 * (rf.loadings xn).getD i 0 / rf.SSs2.get i).sum)

variable (lib : CLibrary)

/-- `alpha` of a receptive field. -/
def confidence (w : ℚ) : ℚ :=
  clamped (if rf.sigma2 xn w = 0 ∧ rf.predErrorNum = 0 then w
    else if rf.sigma2 xn w < 1/1000000 then 1
    else boundProbability lib (rf.localPrediction xn) (rf.sigma2 xn w))

def nearestPrediction (house : Datahouse) (fspaceHash fssHash : Int) (otherwise : ℚ) : ℚ :=
  match loadRfDatahouse lib house fspaceHash fssHash rf.c with
  | some samples => predict (.exact lib.sqrt) nIn samples.matrix samples.targets xn.toList 2
  | none => otherwise

end ReceptiveField

section Frequencies

variable {nIn : Nat} (lib : CLibrary) (context : CallContext) (model : Model nIn) (cutoff : ℚ)

def historyPoint (m k : Nat) : Cells ℚ nIn :=
  Cells.fill fun i => (model.historyDataMatrix.get m).get (k * nIn + 1 + i)

/-- How often the inputs in the history of template `m` have activated the field. -/
def historyFrequency (rf : ReceptiveField nIn) (m : Nat) : ℚ :=
  if context.queryDistribution.get m = 0 then 0
  else ((List.range (model.numHistoryData.get m)).map fun k =>
    let w := kernelWeight lib model.kernel (rf.dist (historyPoint model m k))
    if w > cutoff then w else 0).sum

def withFrequency (rf : ReceptiveField nIn) : ReceptiveField nIn :=
  {rf with probRf := Cells.fill fun m => historyFrequency lib context model cutoff rf m}

end Frequencies

def totalHappenFreq {nIn : Nat} (rfs : List (ReceptiveField nIn)) (m : Nat) : ℚ :=
  (rfs.map fun rf => rf.probRf.get m).sum

/-- Sums of the loop over the receptive fields. `exact` holds `exact_y` once `exact_flag` is set. -/
structure ConfSums (nIn : Nat) where
  wMax : ℚ
  idxMax : Nat
  minError : ℚ
  futureValuePattern : Cells ℚ numQueryPattern
  exact : Option ℚ
  sumWyy : ℚ
  sumConf : ℚ
  yn : ℚ
  sumW : ℚ
  yp : ℚ
  sumW2 : ℚ
  countRfs : Nat
  xc : Cells ℚ nIn

def ConfSums.start (nIn : Nat) : ConfSums nIn := ⟨0,0,9999,0,none,0,0,0,0,0,0,0,0⟩

section Loop

variable {nIn : Nat} (lib : CLibrary) (context : CallContext) (house : Datahouse)
  (model : Model nIn) (cutoff : ℚ)

def activation (rf : ReceptiveField nIn) : ℚ := kernelWeight lib model.kernel (rf.dist model.xn)

/-- What the field adds to the value of each template. -/
def shareOf (total : Nat → ℚ) (rf : ReceptiveField nIn) (l : Nat) : ℚ :=
  if rf.probRf.get l ≠ 0 then rf.probRf.get l / total l *
    (1 - rf.confidence model.xn lib (activation lib model rf))
  else 0

/-- The fields that the loop writes. -/
def settled (total : Nat → ℚ) (rf : ReceptiveField nIn) : ReceptiveField nIn :=
  if activation lib model rf > cutoff then
    {rf with
      confRf := 1 - rf.confidence model.xn lib (activation lib model rf)
      probRf := Cells.fill fun l => if rf.probRf.get l ≠ 0 then rf.probRf.get l / total l
        else rf.probRf.get l}
  else rf

def noteActivation (sums : ConfSums nIn) (n : Nat) (rf : ReceptiveField nIn) : ConfSums nIn :=
  let w := activation lib model rf
  {sums with
    xc := ReceptiveField.centred model.xn rf.c
    wMax := if w > sums.wMax then w else sums.wMax
    idxMax := if w > sums.wMax then n else sums.idxMax}

def noteActive (total : Nat → ℚ) (sums : ConfSums nIn) (rf : ReceptiveField nIn) : ConfSums nIn :=
  {sums with
    xc := ReceptiveField.centred model.xn rf.meanX
    minError :=
      if 0 < rf.predErrorNum ∧ rf.avgError < sums.minError then rf.avgError else sums.minError
    futureValuePattern :=
      Cells.fill fun l => sums.futureValuePattern.get l + shareOf lib model total rf l}

/-- An active field that is not an exact match: sums for the confidence, then for the prediction,
unless the field is trusted but has been wrong. -/
def addPrediction (sums : ConfSums nIn) (rf : ReceptiveField nIn) : ConfSums nIn :=
  let w := activation lib model rf
  let yp := rf.localPrediction model.xn
  let value :=
    if rf.trustworthy then yp
    else rf.nearestPrediction model.xn lib house context.fspaceHash model.fssHash yp
  let usable := ¬(rf.trustworthy ∧ rf.avgError > avgErrorThreshold) ∧ w > 0
  {sums with
    sumWyy := sums.sumWyy + w * yp * yp
    sumConf := sums.sumConf + w * rf.sigma2 model.xn w
    yn := sums.yn + w * yp
    sumW := sums.sumW + w
    yp := if usable then sums.yp + w * value else sums.yp
    sumW2 := if usable then sums.sumW2 + w else sums.sumW2
    countRfs := if usable then sums.countRfs + 1 else sums.countRfs}

def confStep (total : Nat → ℚ) (sums : ConfSums nIn) (n : Nat)
    (rf : ReceptiveField nIn) : ConfSums nIn :=
  let w := activation lib model rf
  let sums := noteActivation lib model sums n rf
  if w > cutoff then
    let sums := noteActive lib model total sums rf
    if w > 999/1000 ∧ rf.avgError < avgErrorThreshold then
      {sums with exact := some (rf.localPrediction model.xn)}
    else addPrediction lib context house model sums rf
  else sums

def confLoop (total : Nat → ℚ) : Nat → ConfSums nIn → List (ReceptiveField nIn) → ConfSums nIn
  | _,sums,[] => sums
  | n,sums,rf :: rest =>
    confLoop total (n + 1) (confStep lib context house model cutoff total sums n rf) rest

end Loop

section Results

variable {nIn : Nat} (lib : CLibrary) (context : CallContext)

def estFuture (model : Model nIn) (sums : ConfSums nIn) : ℚ :=
  if sums.countRfs = 0 ∧ sums.exact = none then
    -- An outlier: every template that has used the model may gain from it.
    ((List.range numQueryPattern).map fun i =>
      if 0 < model.numHistoryData.get i then context.queryDistribution.get i * outerFutureValue
      else 0).sum
  else
    ((List.range numQueryPattern).map fun l =>
      context.queryDistribution.get l * sums.futureValuePattern.get l).sum

def ConfSums.mean (sums : ConfSums nIn) : ℚ := sums.yn / sums.sumW

def ConfSums.wSec (sums : ConfSums nIn) : ℚ :=
  (sums.sumConf + |sums.sumWyy + sums.yn * sums.yn * (sums.sumW - 2)|) / (sums.sumW * sums.sumW)

def estUncof (sums : ConfSums nIn) : ℚ :=
  if sums.exact.isSome then 0
  else if sums.sumW2 > 0 then
    1 - clamped (if sums.wSec < 1/1000000 then 1 else boundProbability lib sums.mean sums.wSec)
  else 1

/-- Prediction from the field with the largest activation. `xc` is what the loop has left. -/
def fallbackPrediction (house : Datahouse) (model : Model nIn) (sums : ConfSums nIn) : ℚ :=
  match model.rf[sums.idxMax]? with
  | none => sums.yp
  | some rf =>
    if rf.trustworthy then
      let nR := if rf.nData.get (rf.nReg - 1) ≤ 2 * nIn then rf.nReg - 1 else rf.nReg
      let s := lwprAuxComputeProjection rf.U rf.P nR sums.xc
      rf.beta0 + ((List.range nR).map fun i => s.getD i 0 * rf.beta.get i).sum
    else rf.nearestPrediction model.xn lib house context.fspaceHash model.fssHash sums.yp

def predictedRows (house : Datahouse) (model : Model nIn) (sums : ConfSums nIn) : ℚ :=
  match sums.exact with
  | some y => y
  | none =>
    if sums.sumW2 > 0 then sums.yp / sums.sumW2
    else if (sums.wMax < useAqoThreshold ∧ sums.countRfs = 0) ∨
        (sums.wMax > useAqoThreshold ∧ sums.minError > avgErrorThreshold) then -9999
    else fallbackPrediction lib context house model sums

variable (house : Datahouse) (model : Model nIn) (cutoff : ℚ)

/-- The receptive fields with their frequencies in the history before this call. -/
def frequentFields : List (ReceptiveField nIn) :=
  model.rf.map (withFrequency lib context model cutoff)

def confSums : ConfSums nIn :=
  confLoop lib context house model cutoff
    (totalHappenFreq (frequentFields lib context model cutoff)) 0 (ConfSums.start nIn)
    (frequentFields lib context model cutoff)

/-- The model with its explore values set, and the predicted normalised output. -/
def lwprAuxPredictConfOneT : Model nIn × ℚ :=
  let fields := frequentFields lib context model cutoff
  let sums := confSums lib context house model cutoff
  let model := model.pushHistory context
  ({model with
    rf := fields.map (settled lib model cutoff (totalHappenFreq fields))
    exploreValues :=
      {lwprMenAllocEv with
        estUncof := estUncof lib sums, estFuture := estFuture context model sums}},
    predictedRows lib context house model sums)

/-- The model when it is asked for a feature vector. -/
def Model.asked (x : Cells ℚ nIn) : Model nIn := {model with xn := model.normalised x}

def lwprPredictExplore (x : Cells ℚ nIn) : Model nIn × ExploreValue :=
  let (model,yn) := lwprAuxPredictConfOneT lib context house (model.asked x) cutoff
  (model,{model.exploreValues with rows := yn * model.normOut})

end Results

/-! `lwpr_predict`: the prediction alone. -/

structure PlainSums (nIn : Nat) where
  wMax : ℚ
  idxMax : Nat
  yp : ℚ
  sumW : ℚ
  xc : Cells ℚ nIn

section Plain

variable {nIn : Nat} (lib : CLibrary) (context : CallContext) (house : Datahouse)
  (model : Model nIn) (cutoff : ℚ)

namespace ReceptiveField

variable (rf : ReceptiveField nIn)

/-- The axes that a trusted field predicts with. -/
def trustedAxes : Nat := if rf.nData.get (rf.nReg - 1) ≤ 2 * nIn then rf.nReg - 1 else rf.nReg

def trustedPrediction (xc : Cells ℚ nIn) : ℚ :=
  let s := lwprAuxComputeProjection rf.U rf.P rf.trustedAxes xc
  rf.beta0 + ((List.range rf.trustedAxes).map fun i => s.getD i 0 * rf.beta.get i).sum

def plainPrediction : ℚ :=
  let xc := centred model.xn rf.meanX
  if rf.slopeReady then rf.beta0 + lwprMathDotProduct xc.get rf.slope.get nIn
  else if rf.trustworthy then rf.trustedPrediction xc
  else rf.nearestPrediction model.xn lib house context.fspaceHash model.fssHash rf.beta0

end ReceptiveField

def plainStep (sums : PlainSums nIn) (n : Nat) (rf : ReceptiveField nIn) : PlainSums nIn :=
  let w := activation lib model rf
  let sums := {sums with
    xc := ReceptiveField.centred model.xn rf.c
    wMax := if w > sums.wMax then w else sums.wMax
    idxMax := if w > sums.wMax then n else sums.idxMax}
  if w > cutoff then
    {sums with
      xc := ReceptiveField.centred model.xn rf.meanX
      yp := sums.yp + w * rf.plainPrediction lib context house model
      sumW := sums.sumW + w}
  else sums

def plainLoop : Nat → PlainSums nIn → List (ReceptiveField nIn) → PlainSums nIn
  | _,sums,[] => sums
  | n,sums,rf :: rest => plainLoop (n + 1) (plainStep lib context house model cutoff sums n rf) rest

/-- Without an active field, the one with the largest activation as in the other prediction. -/
def lwprAuxPredictOneT : ℚ :=
  let sums := plainLoop lib context house model cutoff 0 ⟨0,0,0,0,0⟩ model.rf
  if sums.sumW > 0 then sums.yp / sums.sumW
  else fallbackPrediction lib context house model
    {ConfSums.start nIn with idxMax := sums.idxMax, yp := sums.yp, xc := sums.xc}

def lwprPredict (x : Cells ℚ nIn) : ℚ :=
  lwprAuxPredictOneT lib context house (model.asked x) cutoff * model.normOut

end Plain

end ExploratoryOptimizer.Aqo.Lwpr
