import ExploratoryOptimizer.Aqo.Lwpr.History

/-! `predict_for_relation_lwpr_explore` of contrib/aqo/cardinality_estimation.c: planning asks the
stored models and writes their history back. -/
namespace ExploratoryOptimizer.Aqo.Lwpr
open Library.FixedArray Library.Machine OkNNr Session

/-- The rows of `aqo_data_lwpr`, by feature space and feature subspace. -/
abbrev LwprTable := Int → Int → Option FssRow

section Tables

variable {nIn : Nat}

def FssRow.withHistory (row : FssRow) (model : Model nIn) : FssRow :=
  {row with
    historyDataMatrix := formMatrix model.historyDataMatrix.toList
    numHistoryData := formVector (model.numHistoryData.toList.map fun num : Nat => (num : ℚ))}

/-- A row that is there is given the history of the model, and keeps its other columns. -/
def updateFssRfwr2 (table : LwprTable) (fspaceHash fssHash : Int) (model : Model nIn) :
    LwprTable × Bool :=
  match table fspaceHash fssHash with
  | none => (table,false)
  | some row =>
    (fun fspace fss => if fspace = fspaceHash ∧ fss = fssHash then some (row.withHistory model)
        else table fspace fss,true)

end Tables

/-- A relation that is planned, as its features. -/
structure PlanCall where
  context : CallContext
  fssHash : Int
  nfeatures : Nat
  features : Cells ℚ nfeatures

section Planning

variable (lib : CLibrary) (house : Datahouse)

/-- Without a model only the rows are set. -/
def predictForRelationLwprExplore (table : LwprTable) (call : PlanCall) (result : ExploreValue) :
    LwprTable × ExploreValue :=
  let (model,loaded) :=
    loadFssRfwr (table call.context.fspaceHash call.fssHash) call.fssHash
      (lwprInitModel call.nfeatures)
  if loaded then
    let (model,result) := lwprPredictExplore lib call.context house model (1/1000) call.features
    ((updateFssRfwr2 table call.context.fspaceHash call.fssHash model).1,
      {result with rows := if result.rows = -9999 then -1 else lib.exp result.rows})
  else (table,{result with rows := -1})

/-- The table after the calls, each with what its caller has passed in. -/
def planned (table : LwprTable) (calls : List (PlanCall × ExploreValue)) : LwprTable :=
  calls.foldl (fun table (call,result) =>
      (predictForRelationLwprExplore lib house table call result).1) table

end Planning

/-! The prediction does not depend on the history, and neither does its uncertainty. -/

section Unread

variable {nIn : Nat}

/-- The model without its history. -/
def Model.plain (model : Model nIn) : Model nIn :=
  {model with historyDataMatrix := 0, numHistoryData := 0}

/-- The sums without the values of the templates. -/
def ConfSums.plain (sums : ConfSums nIn) : ConfSums nIn := {sums with futureValuePattern := 0}

variable (lib : CLibrary) (context : CallContext) (house : Datahouse)
  (model : Model nIn) (cutoff : ℚ)

theorem confStep_plain (total : Nat → ℚ) (sums : ConfSums nIn) (n : Nat) (rf : ReceptiveField nIn) :
    (confStep lib context house model cutoff total sums n rf).plain =
      (confStep lib context house model.plain cutoff
        (fun _ => 0) sums.plain n rf.forget).plain := by
  have active : activation lib model.plain rf.forget = activation lib model rf := rfl
  have errors : rf.forget.avgError = rf.avgError := rfl
  simp only [confStep,active,errors]
  split_ifs
  · rfl
  · rfl
  · rfl

theorem forget_frequentFields :
    (frequentFields lib context model cutoff).map ReceptiveField.forget =
      model.rf.map ReceptiveField.forget := by
  rw [frequentFields,List.map_map]
  exact List.map_congr_left fun rf _ => rfl

theorem plain_pushHistory : (model.pushHistory context).plain = model.plain := by
  obtain ⟨_,_,pushed⟩ := model.pushHistory_eq context
  rw [pushed]
  rfl

variable {model : Model nIn} {model' : Model nIn} (same : model.plain = model'.plain)
include same

theorem confLoop_alike (total total' : Nat → ℚ) (sums sums' : ConfSums nIn)
    (alike : sums.plain = sums'.plain) (n : Nat) (fields fields' : List (ReceptiveField nIn))
    (each : fields.map ReceptiveField.forget = fields'.map ReceptiveField.forget) :
    (confLoop lib context house model cutoff total n sums fields).plain =
      (confLoop lib context house model' cutoff total' n sums' fields').plain := by
  induction fields generalizing n sums sums' fields' with
  | nil =>
    rw [List.map_eq_nil_iff.mp each.symm]
    exact alike
  | cons rf rest ih =>
    obtain ⟨rf',rest',rfl,first,later⟩ := List.map_eq_cons_iff.mp each.symm
    refine ih _ _ ?_ (n + 1) rest' later.symm
    rw [confStep_plain lib context house model,confStep_plain lib context house model',
      same,alike,first]

theorem confSums_alike :
    (confSums lib context house model cutoff).plain =
      (confSums lib context house model' cutoff).plain := by
  have fields : model.plain.rf = model'.plain.rf := by rw [same]
  refine confLoop_alike lib context house cutoff same _ _ _ _ rfl 0 _ _ ?_
  rw [forget_frequentFields,forget_frequentFields]
  exact congrArg (List.map ReceptiveField.forget) fields

theorem predictedRows_alike (sums sums' : ConfSums nIn) (alike : sums.plain = sums'.plain) :
    predictedRows lib context house model sums = predictedRows lib context house model' sums' := by
  have unread :
    predictedRows lib context house model sums = predictedRows lib context house model.plain
      sums.plain := rfl
  rw [unread,same,alike]
  rfl

/-- Whatever the history is, the same rows are predicted with the same uncertainty. -/
theorem lwprPredictExplore_alike (x : Cells ℚ nIn) :
    (lwprPredictExplore lib context house model cutoff x).2.rows =
        (lwprPredictExplore lib context house model' cutoff x).2.rows ∧
      (lwprPredictExplore lib context house model cutoff x).2.estUncof =
        (lwprPredictExplore lib context house model' cutoff x).2.estUncof := by
  have asked : (model.asked x).plain = (model'.asked x).plain := congrArg (Model.asked · x) same
  have sums := confSums_alike lib context house cutoff asked
  have pushed :
    ((model.asked x).pushHistory context).plain = ((model'.asked x).pushHistory context).plain :=
    ((plain_pushHistory context _).trans asked).trans (plain_pushHistory context _).symm
  have scale : ((model.asked x).pushHistory context).plain.normOut =
    ((model'.asked x).pushHistory context).plain.normOut :=
    by rw [pushed]
  have uncertain (sums : ConfSums nIn) : estUncof lib sums = estUncof lib sums.plain := rfl
  constructor
  · exact congrArg₂ (· * ·) (predictedRows_alike lib context house pushed _ _ sums) scale
  · exact (uncertain _).trans ((congrArg (estUncof lib) sums).trans (uncertain _).symm)

end Unread

/-! What a call leaves in the table. -/

/-- The row without its history. -/
def FssRow.plain (row : FssRow) : FssRow :=
  {row with historyDataMatrix := ⟨[],[]⟩, numHistoryData := ⟨[],[]⟩}

/-- Tables that agree in all columns but the history and its counts. -/
def SameColumns (table table' : LwprTable) : Prop :=
  ∀ fspace fss, (table fspace fss).map FssRow.plain = (table' fspace fss).map FssRow.plain

section Load

variable {nIn : Nat} (fssHash : Int) (model : Model nIn)

theorem loadFssRfwr_alike (stored stored' : Option FssRow)
    (same : stored.map FssRow.plain = stored'.map FssRow.plain) :
    (loadFssRfwr stored fssHash model).2 = (loadFssRfwr stored' fssHash model).2 ∧
      (loadFssRfwr stored fssHash model).1.plain = (loadFssRfwr stored' fssHash model).1.plain := by
  cases stored with
  | none =>
    have empty : stored' = none := Option.map_eq_none_iff.mp same.symm
    rw [empty]
    exact ⟨rfl,rfl⟩
  | some row =>
    obtain ⟨row',rfl,columns⟩ := Option.map_eq_some_iff.mp same.symm
    have features : row'.plain.nfeatures = row.plain.nfeatures := by rw [columns]
    have count : row'.plain.numRf = row.plain.numRf := by rw [columns]
    have fields : (loadField row'.plain : Nat → ReceptiveField nIn) = loadField row.plain := by
      rw [columns]
    change row'.nfeatures = row.nfeatures at features
    change row'.numRf = row.numRf at count
    change (loadField row' : Nat → ReceptiveField nIn) = loadField row at fields
    simp only [loadFssRfwr,features,count,fields]
    split_ifs
    · exact ⟨rfl,rfl⟩
    · exact ⟨rfl,rfl⟩

theorem loadFssRfwr_withHistory (row : FssRow) (written : Model nIn)
    (features : row.nfeatures = nIn) :
    (loadFssRfwr (some (row.withHistory written)) fssHash model).1.history = written.history := by
  have here : (row.withHistory written).nfeatures = nIn := features
  simp only [loadFssRfwr,if_pos here,Model.history]
  exact congrArg₂ Prod.mk (loadHistory written.historyDataMatrix)
    (loadNumHistory written.numHistoryData)

end Load

section Calls

variable (lib : CLibrary) (house : Datahouse) (table : LwprTable) (call : PlanCall)
  (result : ExploreValue)

/-- The model that the call finds. -/
def PlanCall.model : Model call.nfeatures :=
  (loadFssRfwr (table call.context.fspaceHash call.fssHash) call.fssHash
      (lwprInitModel call.nfeatures)).1

def PlanCall.isModelled : Bool :=
  (loadFssRfwr (table call.context.fspaceHash call.fssHash) call.fssHash
      (lwprInitModel call.nfeatures)).2

theorem predictForRelation_modelled (modelled : call.isModelled table = true) :
    predictForRelationLwprExplore lib house table call result =
      ((updateFssRfwr2 table call.context.fspaceHash call.fssHash
          (lwprPredictExplore lib call.context house (call.model table)
            (1/1000) call.features).1).1,
        let value :=
          (lwprPredictExplore lib call.context house (call.model table) (1/1000) call.features).2
        {value with rows := if value.rows = -9999 then -1 else lib.exp value.rows}) :=
  if_pos modelled

theorem predictForRelation_unmodelled (unmodelled : call.isModelled table = false) :
    predictForRelationLwprExplore lib house table call result = (table,{result with rows := -1}) :=
  if_neg (Bool.eq_false_iff.mp unmodelled)

theorem PlanCall.modelled_row (modelled : call.isModelled table = true) :
    ∃ row, table call.context.fspaceHash call.fssHash = some row ∧
      row.nfeatures = call.nfeatures := by
  unfold isModelled at modelled
  cases found : table call.context.fspaceHash call.fssHash with
  | none =>
    rw [found] at modelled
    exact absurd modelled Bool.false_ne_true
  | some row =>
    refine ⟨row,rfl,?_⟩
    by_contra other
    simp only [found,loadFssRfwr,if_neg other] at modelled
    exact Bool.false_ne_true modelled

/-- The model that the call writes back. -/
def PlanCall.pushed : Model call.nfeatures :=
  ((call.model table).asked call.features).pushHistory call.context

/-- A call leaves the table as it was, or pushes its features to the history of a row. -/
theorem predictForRelation_table :
    (predictForRelationLwprExplore lib house table call result).1 = table ∨
      ∃ row, table call.context.fspaceHash call.fssHash = some row ∧
      row.nfeatures = call.nfeatures ∧
        (predictForRelationLwprExplore lib house table call result).1 = fun fspace fss =>
          if fspace = call.context.fspaceHash ∧
            fss = call.fssHash then some (row.withHistory (call.pushed table))
          else table fspace fss := by
  cases modelled : call.isModelled table with
  | false =>
    exact .inl (congrArg Prod.fst
        (predictForRelation_unmodelled lib house table call result modelled))
  | true =>
    obtain ⟨row,found,features⟩ := call.modelled_row table modelled
    refine .inr ⟨row,found,features,?_⟩
    rw [predictForRelation_modelled lib house table call result modelled]
    dsimp only
    rw [updateFssRfwr2,found]
    rfl

theorem predictForRelation_columns :
    SameColumns (predictForRelationLwprExplore lib house table call result).1 table := by
  intro fspace fss
  rcases predictForRelation_table lib house table call result with same | ⟨row,found,_,written⟩
  · rw [same]
  · rw [written]
    dsimp only
    split_ifs with here
    · rw [here.1,here.2,found]
      rfl
    · rfl

/-- The history of a feature subspace, as a model with `nIn` inputs loads it. -/
def storedHistory (fspaceHash fssHash : Int) (nIn : Nat) :
    Cells (HistoryRow nIn) numQueryPattern × Cells Nat numQueryPattern :=
  (loadFssRfwr (table fspaceHash fssHash) fssHash (lwprInitModel nIn)).1.history

theorem predictForRelation_history (fspaceHash fssHash : Int) (nIn : Nat) :
    storedHistory (predictForRelationLwprExplore lib house table call result).1
      fspaceHash fssHash nIn =
        storedHistory table fspaceHash fssHash nIn ∨
      ∃ model : Model nIn, model.history = storedHistory table fspaceHash fssHash nIn ∧
        storedHistory (predictForRelationLwprExplore lib house table call result).1
        fspaceHash fssHash nIn =
          (model.pushHistory call.context).history := by
  rcases predictForRelation_table lib house table call result with same | ⟨row,found,
    features,written⟩
  · rw [same]
    exact .inl rfl
  · unfold storedHistory
    rw [written]
    dsimp only
    split_ifs with here
    · obtain ⟨rfl,rfl⟩ := here
      by_cases width : call.nfeatures = nIn
      · subst width
        exact .inr ⟨(call.model table).asked call.features,rfl,
          loadFssRfwr_withHistory _ _ row _ features⟩
      · -- Neither row is loaded with another number of features.
        have other : row.nfeatures ≠ nIn := fun same => width (features.symm.trans same)
        have other' : (row.withHistory (call.pushed table)).nfeatures ≠ nIn := other
        refine .inl ?_
        simp only [found,loadFssRfwr,if_neg other,if_neg other']
    · exact .inl rfl

/-- Only the rows of the call's template are written. -/
theorem predictForRelation_other (fspaceHash fssHash : Int) (nIn m : Nat)
    (template : m < numQueryPattern) (other : call.context.currentQueryHash ≠ m + 1) :
    let after :=
      storedHistory (predictForRelationLwprExplore lib house table call result).1
        fspaceHash fssHash nIn
    let before := storedHistory table fspaceHash fssHash nIn
    after.1.get m = before.1.get m ∧ after.2.get m = before.2.get m := by
  intro after before
  rcases predictForRelation_history lib house table call result fspaceHash fssHash
    nIn with same | ⟨model,found,pushed⟩
  · have kept : after = before := same
    rw [kept]
    exact ⟨rfl,rfl⟩
  · have written : after = (model.pushHistory call.context).history := pushed
    have read : before = model.history := found.symm
    rw [written,read]
    exact pushHistory_other call.context model m template other

/-- Tables that differ in their history give the same estimates. -/
theorem predictForRelation_alike (table' : LwprTable) (same : SameColumns table table') :
    (predictForRelationLwprExplore lib house table call result).2.rows =
        (predictForRelationLwprExplore lib house table' call result).2.rows ∧
      (predictForRelationLwprExplore lib house table call result).2.estUncof =
        (predictForRelationLwprExplore lib house table' call result).2.estUncof := by
  obtain ⟨loads,models⟩ := loadFssRfwr_alike call.fssHash (lwprInitModel call.nfeatures) _ _
    (same call.context.fspaceHash call.fssHash)
  have modelled : call.isModelled table = call.isModelled table' := loads
  cases found : call.isModelled table with
  | false =>
    rw [predictForRelation_unmodelled lib house table call result found,
      predictForRelation_unmodelled lib house table' call result (modelled.symm.trans found)]
    exact ⟨rfl,rfl⟩
  | true =>
    obtain ⟨rows,uncertain⟩ :=
      lwprPredictExplore_alike lib call.context house (1/1000) models call.features
    rw [predictForRelation_modelled lib house table call result found,
      predictForRelation_modelled lib house table' call result (modelled.symm.trans found)]
    exact ⟨congrArg (fun rows => if rows = -9999 then -1 else lib.exp rows) rows,uncertain⟩

end Calls

section Runs

variable (lib : CLibrary) (house : Datahouse)

theorem planned_columns (table : LwprTable) (calls : List (PlanCall × ExploreValue)) :
    SameColumns (planned lib house table calls) table := by
  induction calls generalizing table with
  | nil => exact fun _ _ => rfl
  | cons call calls ih =>
    have first := predictForRelation_columns lib house table call.1 call.2
    exact fun fspace fss => (ih _ fspace fss).trans (first fspace fss)

theorem planned_other (table : LwprTable) (calls : List (PlanCall × ExploreValue))
    (fspaceHash fssHash : Int) (nIn m : Nat) (template : m < numQueryPattern)
    (other : ∀ call ∈ calls, call.1.context.currentQueryHash ≠ m + 1) :
    let after := storedHistory (planned lib house table calls) fspaceHash fssHash nIn
    let before := storedHistory table fspaceHash fssHash nIn
    after.1.get m = before.1.get m ∧ after.2.get m = before.2.get m := by
  induction calls generalizing table with
  | nil => exact ⟨rfl,rfl⟩
  | cons call calls ih =>
    obtain ⟨here,later⟩ := List.forall_mem_cons.mp other
    obtain ⟨matrix,counts⟩ :=
      predictForRelation_other lib house table call.1 call.2 fspaceHash fssHash nIn m template here
    obtain ⟨matrix',counts'⟩ :=
      ih (predictForRelationLwprExplore lib house table call.1 call.2).1 later
    exact ⟨matrix'.trans matrix,counts'.trans counts⟩

/-- However often relations are planned, the rows estimated for a relation and their uncertainty
stay the same. Nothing is written but the history of the templates that were planned for. -/
theorem planning_keeps_estimates (table : LwprTable) (calls : List (PlanCall × ExploreValue)) :
    (∀ (call : PlanCall) (result : ExploreValue),
      (predictForRelationLwprExplore lib house (planned lib house table calls) call result).2.rows =
          (predictForRelationLwprExplore lib house table call result).2.rows ∧
        (predictForRelationLwprExplore lib house (planned lib house table calls) call
          result).2.estUncof = (predictForRelationLwprExplore lib house table call
            result).2.estUncof) ∧
      (∀ fspace fss, (planned lib house table calls fspace fss).map FssRow.plain =
        (table fspace fss).map FssRow.plain) ∧
      ∀ (fspaceHash fssHash : Int) (nIn m : Nat), m < numQueryPattern →
        (∀ call ∈ calls, call.1.context.currentQueryHash ≠ m + 1) →
          let after := storedHistory (planned lib house table calls) fspaceHash fssHash nIn
          let before := storedHistory table fspaceHash fssHash nIn
          after.1.get m = before.1.get m ∧ after.2.get m = before.2.get m := by
  have columns := planned_columns lib house table calls
  exact ⟨fun call result => predictForRelation_alike lib house _ call result table columns,columns,
    planned_other lib house table calls⟩

end Runs

end ExploratoryOptimizer.Aqo.Lwpr
