import ExploratoryOptimizer.Aqo.Lwpr.Forget

/-! `update_fss_rfwr` and `load_fss_rfwr` of contrib/aqo/storage.c: a model as a row of
`aqo_data_lwpr`. -/
namespace ExploratoryOptimizer.Aqo.Lwpr
open Library.FixedArray Session

structure FssRow where
  nfeatures : Nat
  numRf : Nat
  nReg : StoredArray ℚ
  trustworthy : StoredArray ℚ
  slopeReady : StoredArray ℚ
  sumE2 : StoredArray ℚ
  beta0 : StoredArray ℚ
  D : StoredArray ℚ
  M : StoredArray ℚ
  alpha : StoredArray ℚ
  beta : StoredArray ℚ
  c : StoredArray ℚ
  SXresYres : StoredArray ℚ
  SSs2 : StoredArray ℚ
  SSYres : StoredArray ℚ
  SSXres : StoredArray ℚ
  U : StoredArray ℚ
  P : StoredArray ℚ
  H : StoredArray ℚ
  r : StoredArray ℚ
  sumW : StoredArray ℚ
  sumECv2 : StoredArray ℚ
  nData : StoredArray ℚ
  lambda : StoredArray ℚ
  meanX : StoredArray ℚ
  varX : StoredArray ℚ
  s : StoredArray ℚ
  slope : StoredArray ℚ
  historyDataMatrix : StoredArray ℚ
  numHistoryData : StoredArray ℚ
  ssp : StoredArray ℚ
  historyErrorMatrix : StoredArray ℚ
  numHistoryError : StoredArray ℚ
  deriving DecidableEq

section Columns

variable {nIn : Nat}

def flag (value : Bool) : ℚ := if value then 1 else 0

/-- The row written for a model: a row that is there keeps its number of features. -/
def updateFssRfwr (stored : Option FssRow) (model : Model nIn) : FssRow where
  nfeatures := stored.elim nIn (·.nfeatures)
  numRf := model.rf.length
  nReg := formVector (model.rf.map fun rf => (rf.nReg : ℚ))
  trustworthy := formVector (model.rf.map fun rf => flag rf.trustworthy)
  slopeReady := formVector (model.rf.map fun rf => flag rf.slopeReady)
  sumE2 := formVector (model.rf.map (·.sumE2))
  beta0 := formVector (model.rf.map (·.beta0))
  D := formMatrix (model.rf.map (·.D))
  M := formMatrix (model.rf.map (·.M))
  alpha := formMatrix (model.rf.map (·.alpha))
  beta := formMatrix (model.rf.map (·.beta))
  c := formMatrix (model.rf.map fun rf => (rf.c.resize : Cells ℚ nIn))
  SXresYres := formMatrix (model.rf.map (·.SXresYres))
  SSs2 := formMatrix (model.rf.map (·.SSs2))
  SSYres := formMatrix (model.rf.map (·.SSYres))
  SSXres := formMatrix (model.rf.map (·.SSXres))
  U := formMatrix (model.rf.map (·.U))
  P := formMatrix (model.rf.map (·.P))
  H := formMatrix (model.rf.map (·.H))
  r := formMatrix (model.rf.map (·.r))
  sumW := formMatrix (model.rf.map (·.sumW))
  sumECv2 := formMatrix (model.rf.map (·.sumECv2))
  nData := formMatrix (model.rf.map (·.nData))
  lambda := formMatrix (model.rf.map (·.lambda))
  meanX := formMatrix (model.rf.map fun rf => (rf.meanX.resize : Cells ℚ nIn))
  varX := formMatrix (model.rf.map fun rf => (rf.varX.resize : Cells ℚ nIn))
  s := formMatrix (model.rf.map (·.s))
  slope := formMatrix (model.rf.map fun rf => (rf.slope.resize : Cells ℚ nIn))
  historyDataMatrix := formMatrix model.historyDataMatrix.toList
  numHistoryData := formVector (model.numHistoryData.toList.map fun num : Nat => (num : ℚ))
  ssp := formVector (model.rf.map (·.SSp))
  historyErrorMatrix := formMatrix (model.rf.map (·.predErrorHistory))
  numHistoryError := formVector (model.rf.map fun rf => (rf.predErrorNum : ℚ))

def FssRow.cell (row : FssRow) (datum : StoredArray ℚ) (i : Nat) {size : Nat} : Cells ℚ size :=
  (deformMatrix datum row.numRf size).getD i 0

def entry (datum : StoredArray ℚ) (i : Nat) : ℚ := (deformVector datum).getD i 0

/-- Conversion to `int` of a value that is not negative. -/
def toInt (value : ℚ) : Nat := value.floor.toNat

def loadField (row : FssRow) (i : Nat) : ReceptiveField nIn :=
  {lwprMemAllocRf nIn (toInt (entry row.nReg i)) nIn with
    trustworthy := decide (entry row.trustworthy i ≠ 0)
    slopeReady := decide (entry row.slopeReady i ≠ 0)
    sumE2 := entry row.sumE2 i
    beta0 := entry row.beta0 i
    SSp := entry row.ssp i
    D := row.cell row.D i
    M := row.cell row.M i
    alpha := row.cell row.alpha i
    beta := row.cell row.beta i
    c := (row.cell row.c i : Cells ℚ nIn).resize
    SXresYres := row.cell row.SXresYres i
    SSs2 := row.cell row.SSs2 i
    SSYres := row.cell row.SSYres i
    SSXres := row.cell row.SSXres i
    U := row.cell row.U i
    P := row.cell row.P i
    H := row.cell row.H i
    r := row.cell row.r i
    sumW := row.cell row.sumW i
    sumECv2 := row.cell row.sumECv2 i
    nData := row.cell row.nData i
    lambda := row.cell row.lambda i
    meanX := (row.cell row.meanX i : Cells ℚ nIn).resize
    varX := (row.cell row.varX i : Cells ℚ nIn).resize
    s := row.cell row.s i
    slope := (row.cell row.slope i : Cells ℚ nIn).resize
    predErrorHistory := row.cell row.historyErrorMatrix i
    predErrorNum := toInt (entry row.numHistoryError i)}

/-- The hash is kept in the model whether or not there is a row, but not when the row is of another
number of features. -/
def loadFssRfwr (stored : Option FssRow) (fssHash : Int) (model : Model nIn) : Model nIn × Bool :=
  match stored with
  | none => ({model with fssHash := fssHash},false)
  | some row =>
    if row.nfeatures = nIn then
      ({model with
        rf := model.rf ++ (List.range row.numRf).map (loadField row)
        fssHash := fssHash
        historyDataMatrix :=
          Cells.fill fun i => (deformMatrix row.historyDataMatrix numQueryPattern _).getD i 0
        numHistoryData := Cells.fill fun i => toInt (entry row.numHistoryData i)},true)
    else (model,false)

end Columns

section RoundTrip

variable {nIn : Nat}

/-- The cells that `nInStore` adds for alignment are zero, and the store has room for all axes. -/
structure ReceptiveField.Padded (rf : ReceptiveField nIn) : Prop where
  c : ∀ i, nIn ≤ i → rf.c.get i = 0
  meanX : ∀ i, nIn ≤ i → rf.meanX.get i = 0
  varX : ∀ i, nIn ≤ i → rf.varX.get i = 0
  slope : ∀ i, nIn ≤ i → rf.slope.get i = 0
  store : rf.nRegStore = max nIn rf.nReg

theorem toInt_natCast (n : Nat) : toInt n = n := by
  rw [toInt,← Int.cast_natCast,Rat.floor_intCast,Int.toNat_natCast]

theorem decide_flag (value : Bool) : decide (flag value ≠ 0) = value := by
  cases value with
  | false => rfl
  | true => rfl

theorem loadField_updateFssRfwr (stored : Option FssRow) (model : Model nIn) (i : Nat)
    (bound : i < model.rf.length) (padded : model.rf[i].Padded) :
    loadField (updateFssRfwr stored model) i = model.rf[i].forget := by
  have store :
    (if nIn < model.rf[i].nReg then model.rf[i].nReg else nIn) = model.rf[i].nRegStore := by
    rw [padded.store]
    split_ifs
    · omega
    · omega
  simp only [loadField,updateFssRfwr,FssRow.cell,entry,getD_deformMatrix_formMatrix _ _ i bound,
    getD_deformVector_formVector _ _ i bound,toInt_natCast,decide_flag,
    Cells.resize_resize _ padded.c,Cells.resize_resize _ padded.meanX,
    Cells.resize_resize _ padded.varX,Cells.resize_resize _ padded.slope,lwprMemAllocRf,store]
  rfl

theorem loadFields_updateFssRfwr (stored : Option FssRow) (model : Model nIn)
    (padded : ∀ rf ∈ model.rf, rf.Padded) :
    (List.range model.rf.length).map (loadField (updateFssRfwr stored model)) =
      model.rf.map ReceptiveField.forget := by
  apply List.ext_getElem
  · simp
  · intro i _ bound
    rw [List.length_map] at bound
    rw [List.getElem_map,List.getElem_range,List.getElem_map]
    exact loadField_updateFssRfwr stored model i bound (padded _ (List.getElem_mem bound))

theorem loadHistory (history : Cells (HistoryRow nIn) numQueryPattern) :
    (Cells.fill fun i => (deformMatrix (formMatrix history.toList) numQueryPattern _).getD i 0) =
      history := by
  have whole := deformMatrix_formMatrix history.toList
  rw [history.length_toList] at whole
  rw [whole]
  exact history.fill_get

theorem loadNumHistory (num : Cells Nat numQueryPattern) :
    (Cells.fill fun i => toInt (entry (formVector (num.toList.map fun num : Nat => (num : ℚ))) i)) =
      num := by
  apply Cells.ext_get
  intro i bound
  rw [Cells.get_fill _ i bound,entry,getD_deformVector_formVector _ _ i
    (by rw [num.length_toList]; exact bound),toInt_natCast,Cells.get,List.getD_eq_getElem]

/-- A model that is stored and loaded has lost what lasts for one call. -/
theorem loadFssRfwr_updateFssRfwr (model : Model nIn)
    (parameters : model.toParameters = initParameters nIn) (padded : ∀ rf ∈ model.rf, rf.Padded) :
    loadFssRfwr (some (updateFssRfwr none model)) model.fssHash (lwprInitModel nIn) =
      (model.forget,true) := by
  have loaded : loadFssRfwr (some (updateFssRfwr none model)) model.fssHash (lwprInitModel nIn) =
      ({lwprInitModel nIn with
        rf := (List.range model.rf.length).map (loadField (updateFssRfwr none model))
        fssHash := model.fssHash
        historyDataMatrix := Cells.fill fun i =>
          (deformMatrix (formMatrix model.historyDataMatrix.toList) numQueryPattern _).getD i 0
        numHistoryData := Cells.fill fun i =>
          toInt (entry (formVector (model.numHistoryData.toList.map fun num : Nat => (num : ℚ)))
              i)},true) :=
    if_pos rfl
  rw [loaded,loadFields_updateFssRfwr none model padded,loadHistory,loadNumHistory,
    lwprInitModel,← parameters]
  rfl

end RoundTrip

end ExploratoryOptimizer.Aqo.Lwpr
