import ExploratoryOptimizer.Aqo.HashAny
import ExploratoryOptimizer.Aqo.Session
import ExploratoryOptimizer.Library.FixedArray

/-! Data of the locally weighted projection regression of contrib/aqo/machine_learning_lwpr.c. An
array of the source that is addressed as `a[i+j*nInS]` is a `Square`. -/
namespace ExploratoryOptimizer.Aqo.Lwpr
open Library.FixedArray OkNNr Session

def numHistoryDataComputeProbabilityRf : Nat := 10

def numPredErrorHistory : Nat := 2

def rateBetweenExploreValue : ℚ := 6/10

/-- What the model uses of the C library, and `get_int_array_hash2`. -/
structure CLibrary where
  exp : ℚ → ℚ
  log : ℚ → ℚ
  sqrt : ℚ → ℚ
  intArrayHash2 : List ℚ → Int

def nInStore (nIn : Nat) : Nat := if nIn % 2 = 1 then nIn + 1 else nIn

theorem lt_nInStore {nIn i : Nat} (within : i < nIn) : i < nInStore nIn := by
  unfold nInStore
  split_ifs
  · omega
  · exact within

abbrev Square (nIn : Nat) := Cells ℚ (nInStore nIn * nIn)

namespace Square

variable {nIn : Nat}

def column (square : Square nIn) (j i : Nat) : ℚ := square.get (i + j * nInStore nIn)

/-- Writes the first `columns` columns. -/
def write (square : Square nIn) (columns : Nat) (f : Nat → Nat → ℚ) : Square nIn :=
  Cells.fill fun k =>
    let i := k % nInStore nIn
    let j := k / nInStore nIn
    if i < nIn ∧ j < columns then f j i else square.get k

def diagonal (value : ℚ) : Square nIn := write Cells.zero nIn fun j i => if i = j then value else 0

end Square

inductive Kernel where
  | gaussian
  | bisquare
  deriving DecidableEq

structure ReceptiveField (nIn : Nat) where
  nReg : Nat
  nRegStore : Nat
  trustworthy : Bool
  slopeReady : Bool
  w : ℚ
  sumE2 : ℚ
  beta0 : ℚ
  SSp : ℚ
  D : Square nIn
  M : Square nIn
  alpha : Square nIn
  b : Square nIn
  beta : Cells ℚ nIn
  c : Cells ℚ (nInStore nIn)
  SXresYres : Square nIn
  SSs2 : Cells ℚ nIn
  SSYres : Cells ℚ nIn
  SSXres : Square nIn
  U : Square nIn
  P : Square nIn
  H : Cells ℚ nIn
  r : Cells ℚ nIn
  sumW : Cells ℚ nIn
  sumECv2 : Cells ℚ nIn
  nData : Cells ℚ nIn
  lambda : Cells ℚ nIn
  meanX : Cells ℚ (nInStore nIn)
  varX : Cells ℚ (nInStore nIn)
  s : Cells ℚ nIn
  slope : Cells ℚ (nInStore nIn)
  confRf : ℚ
  probRf : Cells ℚ numQueryPattern
  predErrorHistory : Cells ℚ numPredErrorHistory
  predErrorNum : Nat

def lwprMemAllocRf (nIn nReg nRegStore : Nat) : ReceptiveField nIn where
  nReg := nReg
  nRegStore := if nRegStore < nReg then nReg else nRegStore
  trustworthy := false
  slopeReady := false
  w := 0
  sumE2 := 0
  beta0 := 0
  SSp := 0
  D := 0
  M := 0
  alpha := 0
  b := 0
  beta := 0
  c := 0
  SXresYres := 0
  SSs2 := 0
  SSYres := 0
  SSXres := 0
  U := 0
  P := 0
  H := 0
  r := 0
  sumW := 0
  sumECv2 := 0
  nData := 0
  lambda := 0
  meanX := 0
  varX := 0
  s := 0
  slope := 0
  confRf := 0
  probRf := 0
  predErrorHistory := 0
  predErrorNum := 0

structure Parameters (nIn : Nat) where
  normIn : Cells ℚ (nInStore nIn)
  normOut : ℚ
  diagOnly : Bool
  penalty : ℚ
  initD : Square nIn
  initM : Square nIn
  initAlpha : Square nIn
  wGen : ℚ
  wPrune : ℚ
  initLambda : ℚ
  finalLambda : ℚ
  tauLambda : ℚ
  initS2 : ℚ
  addThreshold : ℚ
  kernel : Kernel
  updateD : Bool

abbrev HistoryRow (nIn : Nat) := Cells ℚ (1 + nIn * numHistoryDataComputeProbabilityRf)

structure Model (nIn : Nat) extends Parameters nIn where
  nData : Nat
  rf : List (ReceptiveField nIn)
  nPruned : Nat
  xn : Cells ℚ nIn
  yn : ℚ
  fssHash : Int
  exploreValues : ExploreValue
  historyDataMatrix : Cells (HistoryRow nIn) numQueryPattern
  numHistoryData : Cells Nat numQueryPattern

def lwprMenAllocEv : ExploreValue := ⟨0,0,0,rateBetweenExploreValue⟩

def initParameters (nIn : Nat) : Parameters nIn where
  normIn := Cells.fill fun i => if i < nIn then 1 else 0
  normOut := 1
  diagOnly := true
  penalty := 1/1000000
  initD := Square.diagonal 25
  initM := Square.diagonal 5
  initAlpha := Square.diagonal (5/100)
  wGen := 1/10
  wPrune := 9/10
  initLambda := 1
  finalLambda := 1
  tauLambda := 1
  initS2 := 1/10000000000
  addThreshold := 5/10
  kernel := .gaussian
  updateD := true

def lwprInitModel (nIn : Nat) : Model nIn where
  toParameters := initParameters nIn
  nData := 0
  rf := []
  nPruned := 0
  xn := 0
  yn := 1
  fssHash := 0
  exploreValues := lwprMenAllocEv
  historyDataMatrix := Cells.fill fun i => Cells.fill fun k => if k = 0 then (i + 1 : Nat) else 0
  numHistoryData := 0

/-! The samples of untrusted receptive fields, by feature space, feature subspace and field. -/

abbrev Datahouse := Int → Int → Int → Option Samples

def updateRfDatahouse (house : Datahouse) (fspaceHash fssHash rfHash : Int)
    (samples : Samples) : Datahouse :=
  fun fspace fss rf => if fspace = fspaceHash ∧ fss = fssHash ∧ rf = rfHash then some samples
    else house fspace fss rf

/-- What a call sees of `query_context`. -/
structure CallContext where
  fspaceHash : Int
  currentQueryHash : Nat
  queryDistribution : Cells ℚ numQueryPattern

section Features

variable {nIn : Nat}

def rfHash (lib : CLibrary) (centre : Cells ℚ (nInStore nIn)) : Int :=
  lib.intArrayHash2 ((List.range nIn).map centre.get)

def loadRfDatahouse (lib : CLibrary) (house : Datahouse) (fspaceHash fssHash : Int)
    (centre : Cells ℚ (nInStore nIn)) : Option Samples :=
  house fspaceHash fssHash (rfHash lib centre)

/-- Learns the sample of a field that is not trusted yet. -/
def learnRfDatahouse (lib : CLibrary) (house : Datahouse) (fspaceHash fssHash : Int)
    (centre : Cells ℚ (nInStore nIn)) (xn : Cells ℚ nIn) (yn : ℚ) : Datahouse :=
  updateRfDatahouse house fspaceHash fssHash (rfHash lib centre)
    (learn (.exact lib.sqrt) nIn ((loadRfDatahouse lib house fspaceHash fssHash centre).getD
        ⟨[],[]⟩) xn.toList yn (2 * nIn + 1))

end Features

namespace Model

variable {nIn : Nat} (model : Model nIn)

def normalised (x : Cells ℚ nIn) : Cells ℚ nIn := Cells.fill fun i => x.get i / model.normIn.get i

/-- Appends the normalised input to the history of the query's template, dropping the oldest one
when there are ten. -/
def pushHistory (context : CallContext) : Model nIn :=
  if context.currentQueryHash = 0 then model
  else
    let index := context.currentQueryHash - 1
    let num := model.numHistoryData.get index
    let row := model.historyDataMatrix.get index
    if num < numHistoryDataComputeProbabilityRf then
      {model with
        historyDataMatrix := model.historyDataMatrix.set index (Cells.fill fun i =>
          if num * nIn + 1 ≤ i ∧ i < (num + 1) * nIn + 1 then model.xn.get (i - num * nIn - 1)
          else row.get i)
        numHistoryData := model.numHistoryData.set index (num + 1)}
    else
      let kept := (numHistoryDataComputeProbabilityRf - 1) * nIn
      {model with
        historyDataMatrix := model.historyDataMatrix.set index (Cells.fill fun i =>
          if i = 0 then row.get 0 else if i < kept + 1 then row.get (i + nIn)
          else model.xn.get (i - kept - 1))}

theorem pushHistory_eq (context : CallContext) :
    ∃ matrix num, model.pushHistory context =
      {model with historyDataMatrix := matrix, numHistoryData := num} := by
  simp only [pushHistory]
  split_ifs
  · exact ⟨_,_,rfl⟩
  · exact ⟨_,_,rfl⟩
  · exact ⟨_,_,rfl⟩

end Model

/-! An instance that can be evaluated: the exponential is replaced by a rational function with the
same value and slope at zero. -/

def rationalLibrary : CLibrary where
  exp := fun t => if t ≤ 0 then 1 / (1 - t) else 1 + t
  log := fun t => t - 1
  sqrt := Rat.sqrt
  intArrayHash2 := HashAny.getIntArrayHash2

def uniformContext : CallContext := ⟨1,1,Cells.fill fun _ => 1/7⟩

end ExploratoryOptimizer.Aqo.Lwpr
