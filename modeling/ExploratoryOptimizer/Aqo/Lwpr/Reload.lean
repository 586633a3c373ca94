import ExploratoryOptimizer.Aqo.Lwpr.Storage
import ExploratoryOptimizer.Library.Machine

/-! A model under a sequence of calls, kept in memory or stored and loaded in between. -/
namespace ExploratoryOptimizer.Aqo.Lwpr
open Library.FixedArray Library.Machine OkNNr Session

structure Memory (nIn : Nat) where
  house : Datahouse
  model : Model nIn

inductive Call (nIn : Nat) where
  | update (context : CallContext) (x : Cells ℚ nIn) (y : ℚ)
  | predictExplore (context : CallContext) (x : Cells ℚ nIn) (cutoff : ℚ)

inductive Answer where
  | code (value : Int)
  | explored (value : ExploreValue)

section Runs

variable {nIn : Nat} (lib : CLibrary)

def answer (memory : Memory nIn) : Call nIn → Memory nIn × Answer
  | .update context x y =>
    let (model,house,code) := lwprUpdate lib context memory.house memory.model x y
    (⟨house,model⟩,.code code)
  | .predictExplore context x cutoff =>
    let (model,value) := lwprPredictExplore lib context memory.house memory.model cutoff x
    (⟨memory.house,model⟩,.explored value)

/-- Memories that differ only in what lasts for one call. -/
def SameMemory (first second : Memory nIn) : Prop :=
  first.house = second.house ∧ first.model.forget = second.model.forget

theorem answer_same (first second : Memory nIn) (call : Call nIn) (same : SameMemory first second) :
    SameMemory (answer lib first call).1 (answer lib second call).1 ∧
      (answer lib first call).2 = (answer lib second call).2 := by
  obtain ⟨house,first⟩ := first
  obtain ⟨_,second⟩ := second
  obtain ⟨rfl,same⟩ := same
  cases call with
  | update context x y =>
    have before := lwprUpdate_forget lib context house first x y
    rw [same] at before
    have after := lwprUpdate_forget lib context house second x y
    have results := before.2.symm.trans after.2
    have codes := congrArg (fun rest : Datahouse × Int => Answer.code rest.2) results
    exact ⟨⟨congrArg Prod.fst results,before.1.symm.trans after.1⟩,codes⟩
  | predictExplore context x cutoff =>
    have before := lwprPredictExplore_forget lib context house first cutoff x
    rw [same] at before
    have after := lwprPredictExplore_forget lib context house second cutoff x
    exact ⟨⟨rfl,before.1.symm.trans after.1⟩,congrArg Answer.explored (before.2.symm.trans after.2)⟩

theorem updateFssRfwr_forget (stored : Option FssRow) (model : Model nIn) :
    updateFssRfwr stored model.forget = updateFssRfwr stored model := by
  have fields : model.forget.rf = model.rf.map ReceptiveField.forget := rfl
  simp only [updateFssRfwr,fields,List.map_map,List.length_map]
  rfl

/-! The cells added for alignment stay zero. -/

namespace ReceptiveField

/-- The arrays of a field that have cells for alignment. -/
def aligned (rf : ReceptiveField nIn) : List (Cells ℚ (nInStore nIn)) :=
  [rf.c,rf.meanX,rf.varX,rf.slope]

theorem Padded.of_aligned {first second : ReceptiveField nIn}
    (same : second.aligned = first.aligned) (store : second.nRegStore = max nIn second.nReg)
    (padded : first.Padded) : second.Padded := by
  simp only [aligned,List.cons.injEq,and_true] at same
  obtain ⟨c,meanX,varX,slope⟩ := same
  exact ⟨c ▸ padded.c,meanX ▸ padded.meanX,varX ▸ padded.varX,slope ▸ padded.slope,store⟩

theorem aligned_pushError (rf : ReceptiveField nIn) (error : ℚ) :
    (rf.pushError error).aligned = rf.aligned := by
  obtain ⟨_,_,pushed⟩ := rf.pushError_eq error
  rw [pushed]
  rfl

theorem aligned_lwprAuxCheckAddProjection (rf : ReceptiveField nIn) (model : Model nIn) :
    (rf.lwprAuxCheckAddProjection model).aligned = rf.aligned :=
  rf.lwprAuxCheckAddProjection_keeps model aligned (fun _ _ => rfl) fun _ => rfl

theorem aligned_finish (model : Model nIn) (regression : Regression nIn) (w dwdq : ℚ) :
    (regression.finish model w dwdq).aligned = regression.rf.aligned := by
  have counted : ∀ field : ReceptiveField nIn,
      ((field.lwprAuxCheckAddProjection model).countData model).aligned = field.aligned :=
    fun field => field.aligned_lwprAuxCheckAddProjection model
  unfold Regression.finish
  rw [counted]
  split_ifs
  · exact aligned_pushError _ _
  · exact aligned_pushError _ _

theorem store_lwprAuxCheckAddProjection (rf : ReceptiveField nIn) (model : Model nIn)
    (store : rf.nRegStore = max nIn rf.nReg) :
    (rf.lwprAuxCheckAddProjection model).nRegStore = max nIn
      (rf.lwprAuxCheckAddProjection model).nReg := by
  rcases rf.lwprAuxCheckAddProjection_cases model with same | ⟨room,added⟩
  · rw [same]
    exact store
  · have still : rf.withRoom = rf := if_neg (by omega)
    rw [added,still]
    change rf.nRegStore = max nIn (rf.nReg + 1)
    omega

theorem store_finish (model : Model nIn) (regression : Regression nIn) (w dwdq : ℚ)
    (store : regression.rf.nRegStore = max nIn regression.rf.nReg) :
    (regression.finish model w dwdq).nRegStore = max nIn (regression.finish model w dwdq).nReg := by
  have counted (field : ReceptiveField nIn) (store : field.nRegStore = max nIn field.nReg) :
      ((field.lwprAuxCheckAddProjection model).countData model).nRegStore =
        max nIn ((field.lwprAuxCheckAddProjection model).countData model).nReg :=
    field.store_lwprAuxCheckAddProjection model store
  have pushed : (regression.rf.pushError |regression.e / (model.yn + 1/1000)|).nRegStore =
      max nIn (regression.rf.pushError |regression.e / (model.yn + 1/1000)|).nReg := by
    obtain ⟨_,_,pushed⟩ := regression.rf.pushError_eq |regression.e / (model.yn + 1/1000)|
    rw [pushed]
    exact store
  unfold Regression.finish
  apply counted
  split_ifs
  · exact pushed
  · exact pushed

theorem padded_lwprAuxUpdateMeans (rf : ReceptiveField nIn) (padded : rf.Padded)
    (x : Cells ℚ nIn) (y w : ℚ) :
    (rf.lwprAuxUpdateMeans x y w).1.Padded where
  c := padded.c
  meanX := Cells.get_fill_beyond nIn _ _ padded.meanX
  varX := Cells.get_fill_beyond nIn _ _ padded.varX
  slope := padded.slope
  store := padded.store

end ReceptiveField

theorem learnActive_aligned (context : CallContext) (house : Datahouse) (model : Model nIn)
    (rf : ReceptiveField nIn) :
    (learnActive lib context house model rf).1.aligned =
      (rf.lwprAuxUpdateMeans model.xn model.yn (activation lib model rf)).1.aligned :=
  ReceptiveField.aligned_finish model _ _ _

theorem learnField_padded (context : CallContext) (house : Datahouse) (model : Model nIn)
    (rf : ReceptiveField nIn) (padded : rf.Padded) :
    (learnField lib context house model rf).1.Padded := by
  unfold learnField
  split_ifs
  · exact (rf.padded_lwprAuxUpdateMeans padded _ _ _).of_aligned
      (learnActive_aligned lib context house model rf)
      (ReceptiveField.store_finish model _ _ _ padded.store)
  · exact ⟨padded.c,padded.meanX,padded.varX,padded.slope,padded.store⟩

theorem learnFields_padded (context : CallContext) (model : Model nIn) (house : Datahouse)
    (fields : List (ReceptiveField nIn)) (padded : ∀ rf ∈ fields, rf.Padded) :
    ∀ rf ∈ (learnFields lib context model house fields).1, rf.Padded := by
  induction fields generalizing house with
  | nil => exact padded
  | cons rf rest ih =>
    obtain ⟨first,others⟩ := List.forall_mem_cons.mp padded
    exact List.forall_mem_cons.mpr ⟨learnField_padded lib context house model rf first,ih _ others⟩

theorem lwprAuxInitRf_store (model : Model nIn) (template : Option (ReceptiveField nIn))
    (shaped : ∀ rf, template = some rf → rf.nRegStore = max nIn rf.nReg) :
    (lwprAuxInitRf lib model template).nRegStore = max nIn
      (lwprAuxInitRf lib model template).nReg := by
  cases template with
  | none =>
    change (if nIn < (if 1 < nIn then 2 else 1) then (if 1 < nIn then 2 else 1) else nIn) =
      max nIn (if 1 < nIn then 2 else 1)
    split_ifs
    all_goals omega
  | some rf =>
    have store := shaped rf rfl
    change (if rf.nRegStore < rf.nReg then rf.nReg else rf.nRegStore) = max nIn rf.nReg
    split_ifs
    all_goals omega

theorem lwprAuxInitRf_padded (model : Model nIn) (template : Option (ReceptiveField nIn))
    (shaped : ∀ rf, template = some rf → rf.Padded) :
    (lwprAuxInitRf lib model template).Padded where
  c := Cells.get_fill_beyond nIn _ _ fun _ _ => rfl
  meanX := fun i _ => Cells.get_zero i
  varX := fun i _ => Cells.get_zero i
  slope := fun i _ => Cells.get_zero i
  store := lwprAuxInitRf_store lib model template fun rf found => (shaped rf found).store

theorem mem_prune (fields : List (ReceptiveField nIn)) (place : Nat) (rf : ReceptiveField nIn)
    (member : rf ∈ prune fields place) : rf ∈ fields := by
  unfold prune at member
  cases found : fields.getLast? with
  | none =>
    rw [found] at member
    exact member
  | some last =>
    rw [found] at member
    rcases List.mem_or_eq_of_mem_set (List.mem_of_mem_dropLast member) with within | rfl
    · exact within
    · exact List.mem_of_getLast? found

theorem mem_neighbour (model : Model nIn) (maxima : Maxima) (rf : ReceptiveField nIn)
    (found : neighbour model maxima = some rf) : rf ∈ model.rf := by
  unfold neighbour at found
  split_ifs at found
  obtain ⟨place,_,there⟩ := Option.bind_eq_some_iff.mp (Option.filter_eq_some_iff.mp found).1
  exact List.mem_of_getElem? there

/-- What the row of a model stands for: the rest of it is as `lwpr_init_model` sets it. -/
structure Storable (fssHash : Int) (model : Model nIn) : Prop where
  parameters : model.toParameters = initParameters nIn
  hash : model.fssHash = fssHash
  padded : ∀ rf ∈ model.rf, rf.Padded

section Calls

variable {fssHash : Int} {model : Model nIn} (storable : Storable fssHash model)
  (context : CallContext)
include storable

theorem Storable.pushHistory : Storable fssHash (model.pushHistory context) := by
  obtain ⟨_,_,pushed⟩ := model.pushHistory_eq context
  rw [pushed]
  exact ⟨storable.parameters,storable.hash,storable.padded⟩

omit context in
theorem Storable.sampled (x : Cells ℚ nIn) (y : ℚ) : Storable fssHash (model.sampled x y) :=
  ⟨storable.parameters,storable.hash,storable.padded⟩

theorem Storable.lwprAuxUpdateOneT (house : Datahouse) :
    Storable fssHash (lwprAuxUpdateOneT lib context house model).1 := by
  unfold Lwpr.lwprAuxUpdateOneT
  split_ifs
  · exact storable.pushHistory context
  · exact ⟨storable.parameters,storable.hash,
      learnFields_padded lib context model house model.rf storable.padded⟩

theorem Storable.pruned (maxima : Maxima) : Storable fssHash (pruned model maxima) := by
  unfold Lwpr.pruned
  split
  · exact ⟨storable.parameters,storable.hash,fun rf member =>
      storable.padded rf (mem_prune model.rf _ rf member)⟩
  · exact storable

theorem Storable.lwprAuxUpdateOneAddPrune (house : Datahouse) (maxima : Maxima) :
    Storable fssHash (lwprAuxUpdateOneAddPrune lib context house model maxima).1 := by
  unfold Lwpr.lwprAuxUpdateOneAddPrune
  split_ifs
  · refine ⟨storable.parameters,storable.hash,?_⟩
    intro rf member
    rcases List.mem_append.mp member with old | new
    · exact storable.padded rf old
    · rw [List.mem_singleton.mp new]
      exact lwprAuxInitRf_padded lib model _ fun template found =>
        storable.padded template (mem_neighbour model maxima template found)
  · exact storable.pruned maxima
  · exact storable

theorem Storable.lwprUpdate (house : Datahouse) (x : Cells ℚ nIn) (y : ℚ) :
    Storable fssHash (lwprUpdate lib context house model x y).1 :=
  ((storable.sampled x y).lwprAuxUpdateOneT lib context house).lwprAuxUpdateOneAddPrune lib context
    _ _

theorem Storable.lwprPredictExplore (house : Datahouse) (cutoff : ℚ) (x : Cells ℚ nIn) :
    Storable fssHash (lwprPredictExplore lib context house model cutoff x).1 := by
  have asked : Storable fssHash (model.asked x) :=
    ⟨storable.parameters,storable.hash,storable.padded⟩
  have pushed := asked.pushHistory context
  refine ⟨pushed.parameters,pushed.hash,?_⟩
  intro rf member
  obtain ⟨frequent,within,rfl⟩ := List.mem_map.mp member
  obtain ⟨field,old,rfl⟩ := List.mem_map.mp within
  have padded := asked.padded field old
  unfold settled
  split_ifs
  · exact ⟨padded.c,padded.meanX,padded.varX,padded.slope,padded.store⟩
  · exact ⟨padded.c,padded.meanX,padded.varX,padded.slope,padded.store⟩

end Calls

theorem answer_storable (fssHash : Int) (memory : Memory nIn) (call : Call nIn)
    (storable : Storable fssHash memory.model) :
    Storable fssHash (answer lib memory call).1.model := by
  cases call with
  | update context x y => exact storable.lwprUpdate lib context memory.house x y
  | predictExplore context x cutoff =>
    exact storable.lwprPredictExplore lib context memory.house cutoff x

/-- A fresh model that carries the hash it is stored under. -/
def unlearned (nIn : Nat) (fssHash : Int) : Model nIn :=
  (loadFssRfwr none fssHash (lwprInitModel nIn)).1

theorem unlearned_storable (nIn : Nat) (fssHash : Int) : Storable fssHash (unlearned nIn fssHash) :=
  ⟨rfl,rfl,List.forall_mem_nil _⟩

def reload (fssHash : Int) (memory : Memory nIn) : Memory nIn :=
  {memory with
    model := (loadFssRfwr (some (updateFssRfwr none memory.model)) fssHash (lwprInitModel nIn)).1}

theorem reload_same (fssHash : Int) (memory : Memory nIn)
    (storable : Storable fssHash memory.model) :
    SameMemory memory (reload fssHash memory) := by
  have loaded := loadFssRfwr_updateFssRfwr memory.model storable.parameters storable.padded
  rw [storable.hash] at loaded
  refine ⟨rfl,?_⟩
  rw [reload,loaded]
  exact memory.model.forget_forget.symm

/-- After any calls to a model that carries its hash, it makes no difference to any later calls
whether it is stored and loaded. -/
theorem reload_is_invisible (fssHash : Int) (house : Datahouse) (before after : List (Call nIn)) :
    let kept := (run (answer lib) ⟨house,unlearned nIn fssHash⟩ before).1
    let atEnd := run (answer lib) kept after
    let reloadedEnd := run (answer lib) (reload fssHash kept) after
    atEnd.2 = reloadedEnd.2 ∧ atEnd.1.house = reloadedEnd.1.house ∧
      ∀ stored, updateFssRfwr stored atEnd.1.model = updateFssRfwr stored reloadedEnd.1.model := by
  intro kept atEnd reloadedEnd
  have storable : Storable fssHash kept.model :=
    run_kept (answer lib) (fun memory => Storable fssHash memory.model)
      (answer_storable lib fssHash) _ (unlearned_storable nIn fssHash) before
  obtain ⟨⟨houses,models⟩,answers⟩ :=
    run_alike (answer lib) SameMemory (answer_same lib) kept (reload fssHash kept)
      (reload_same fssHash kept storable) after
  refine ⟨answers,houses,?_⟩
  intro stored
  rw [← updateFssRfwr_forget stored atEnd.1.model,← updateFssRfwr_forget stored reloadedEnd.1.model,
    models]

end Runs

/-- A fresh model that has not been given its hash, after two samples. -/
def learnedUnderZero : Memory 1 :=
  (run (answer rationalLibrary) ⟨fun _ _ _ => none,lwprInitModel 1⟩
    [.update uniformContext 0 5,.update uniformContext 0 3]).1

/-- The samples of its field are kept under hash zero, where the loaded model does not look. -/
theorem reload_loses_samples :
    (lwprPredictExplore rationalLibrary uniformContext learnedUnderZero.house learnedUnderZero.model
        (1/1000)
      (Cells.fill fun _ => 1/10)).2.rows ≠
    (lwprPredictExplore rationalLibrary uniformContext (reload 7 learnedUnderZero).house
      (reload 7 learnedUnderZero).model (1/1000) (Cells.fill fun _ => 1/10)).2.rows := by
  decide +kernel

end ExploratoryOptimizer.Aqo.Lwpr
