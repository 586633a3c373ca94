import ExploratoryOptimizer.Aqo.Lwpr.Reload

/-! The models that calls of `lwpr_update` and `lwpr_predict_explore` can reach, and what becomes of
their receptive fields. -/
namespace ExploratoryOptimizer.Aqo.Lwpr
open Library.FixedArray Library.Machine OkNNr Session

def Call.context {nIn : Nat} : Call nIn → CallContext
  | .update context _ _ => context
  | .predictExplore context _ _ => context

section Reach

variable {nIn : Nat} (lib : CLibrary)

/-- A model of one feature space and subspace, which may be stored and loaded between the calls. -/
inductive Reachable (fspaceHash fssHash : Int) : Memory nIn → Prop where
  | fresh (house : Datahouse) : Reachable fspaceHash fssHash ⟨house,unlearned nIn fssHash⟩
  | called (memory : Memory nIn) (call : Call nIn) (reachable : Reachable fspaceHash fssHash memory)
      (here : call.context.fspaceHash = fspaceHash) :
        Reachable fspaceHash fssHash (answer lib memory call).1
  | reloaded (memory : Memory nIn) (reachable : Reachable fspaceHash fssHash memory) :
      Reachable fspaceHash fssHash (reload fssHash memory)

/-- A model of one feature subspace, whatever the samples of its fields are at each call. -/
inductive Grown (fssHash : Int) : Model nIn → Prop where
  | fresh : Grown fssHash (unlearned nIn fssHash)
  | called (house : Datahouse) (model : Model nIn) (call : Call nIn) (grown : Grown fssHash model) :
      Grown fssHash (answer lib ⟨house,model⟩ call).1.model
  | reloaded (house : Datahouse) (model : Model nIn) (grown : Grown fssHash model) :
      Grown fssHash (reload fssHash ⟨house,model⟩).model

theorem Reachable.grown {fspaceHash fssHash : Int} {memory : Memory nIn}
    (reachable : Reachable lib fspaceHash fssHash memory) : Grown lib fssHash memory.model := by
  induction reachable with
  | fresh _ => exact .fresh
  | called memory call _ _ ih => exact .called memory.house memory.model call ih
  | reloaded memory _ ih => exact .reloaded memory.house memory.model ih

theorem reload_model (fssHash : Int) (memory : Memory nIn)
    (storable : Storable fssHash memory.model) :
    (reload fssHash memory).model = memory.model.forget := by
  have loaded := loadFssRfwr_updateFssRfwr memory.model storable.parameters storable.padded
  rw [storable.hash] at loaded
  rw [reload,loaded]

theorem Grown.storable {fssHash : Int} {model : Model nIn} (grown : Grown lib fssHash model) :
    Storable fssHash model := by
  induction grown with
  | fresh => exact unlearned_storable nIn fssHash
  | called house model call _ ih => exact answer_storable lib fssHash ⟨house,model⟩ call ih
  | reloaded house model _ ih =>
    rw [reload_model fssHash ⟨house,model⟩ ih]
    refine ⟨ih.parameters,ih.hash,fun rf member => ?_⟩
    obtain ⟨field,old,rfl⟩ := List.mem_map.mp member
    have padded := ih.padded field old
    exact ⟨padded.c,padded.meanX,padded.varX,padded.slope,padded.store⟩

theorem Reachable.storable {fspaceHash fssHash : Int} {memory : Memory nIn}
    (reachable : Reachable lib fspaceHash fssHash memory) : Storable fssHash memory.model :=
  reachable.grown.storable

theorem Reachable.run {fspaceHash fssHash : Int} {memory : Memory nIn}
    (reachable : Reachable lib fspaceHash fssHash memory) (calls : List (Call nIn))
    (here : ∀ call ∈ calls, call.context.fspaceHash = fspaceHash) :
    Reachable lib fspaceHash fssHash (run (answer lib) memory calls).1 := by
  induction calls generalizing memory with
  | nil => exact reachable
  | cons call calls ih =>
    obtain ⟨first,rest⟩ := List.forall_mem_cons.mp here
    exact ih (.called memory call reachable first) rest

/-! What an update does to the receptive fields. -/

section Update

variable (context : CallContext)

/-- The fields of a model after an update with its sample. -/
inductive Updated (model : Model nIn) : ReceptiveField nIn → Prop where
  | learned (house : Datahouse) (rf : ReceptiveField nIn) (member : rf ∈ model.rf) :
      Updated model (learnField lib context house model rf).1
  | added (later : Model nIn) (parameters : later.toParameters = model.toParameters)
      (template : Option (ReceptiveField nIn)) (shaped : ∀ rf, template = some rf →
        Updated model rf) :
      Updated model (lwprAuxInitRf lib later template)

theorem mem_learnFields (model : Model nIn) (house : Datahouse) (fields : List (ReceptiveField nIn))
    (rf : ReceptiveField nIn) (member : rf ∈ (learnFields lib context model house fields).1) :
    ∃ old ∈ fields, ∃ house', rf = (learnField lib context house' model old).1 := by
  induction fields generalizing house with
  | nil => cases member
  | cons old rest ih =>
    rcases List.mem_cons.mp member with rfl | later
    · exact ⟨old,List.mem_cons_self,house,rfl⟩
    · obtain ⟨other,within,found⟩ := ih _ later
      exact ⟨other,List.mem_cons_of_mem _ within,found⟩

/-- What an update has done when it comes to adding or pruning a field. -/
structure Learned (model : Model nIn) (learned : List (ReceptiveField nIn) × Datahouse)
    (updated : Model nIn × Maxima × Datahouse) : Prop where
  parameters : updated.1.toParameters = model.toParameters
  hash : updated.1.fssHash = model.fssHash
  input : updated.1.xn = model.xn
  fields : updated.1.rf = learned.1
  house : updated.2.2 = learned.2

theorem lwprAuxUpdateOneT_learned (house : Datahouse) (model : Model nIn) :
    Learned model (learnFields lib context model house model.rf)
      (lwprAuxUpdateOneT lib context house model) := by
  unfold lwprAuxUpdateOneT
  split_ifs with empty
  · obtain ⟨_,_,pushed⟩ := model.pushHistory_eq context
    rw [pushed,empty]
    exact ⟨rfl,rfl,rfl,rfl,rfl⟩
  · exact ⟨rfl,rfl,rfl,rfl,rfl⟩

theorem lwprAuxUpdateOneT_updated (house : Datahouse) (model : Model nIn) :
    ∀ rf ∈ (lwprAuxUpdateOneT lib context house model).1.rf, Updated lib context model rf := by
  intro rf member
  rw [(lwprAuxUpdateOneT_learned lib context house model).fields] at member
  obtain ⟨old,within,house',rfl⟩ := mem_learnFields lib context model house model.rf rf member
  exact .learned house' old within

theorem mem_pruned (model : Model nIn) (maxima : Maxima) (rf : ReceptiveField nIn)
    (member : rf ∈ (pruned model maxima).rf) : rf ∈ model.rf := by
  unfold pruned at member
  split at member
  · exact mem_prune model.rf _ rf member
  · exact member

theorem lwprUpdate_updated (house : Datahouse) (model : Model nIn) (x : Cells ℚ nIn) (y : ℚ) :
    ∀ rf ∈ (lwprUpdate lib context house model x y).1.rf,
      Updated lib context (model.sampled x y) rf := by
  have fields := lwprAuxUpdateOneT_updated lib context house (model.sampled x y)
  have parameters := (lwprAuxUpdateOneT_learned lib context house (model.sampled x y)).parameters
  intro rf member
  simp only [lwprUpdate,lwprAuxUpdateOneAddPrune] at member
  split_ifs at member
  · rcases List.mem_append.mp member with old | new
    · exact fields rf old
    · rw [List.mem_singleton.mp new]
      exact .added _ parameters _ fun template shaped =>
        fields template (mem_neighbour _ _ template shaped)
  · exact fields rf (mem_pruned _ _ rf member)
  · exact fields rf member

end Update

theorem mem_of_forget {fields fields' : List (ReceptiveField nIn)}
    (same : fields'.map ReceptiveField.forget = fields.map ReceptiveField.forget)
    (rf : ReceptiveField nIn) (member : rf ∈ fields') : ∃ old ∈ fields, rf.forget = old.forget := by
  obtain ⟨old,within,alike⟩ := List.mem_map.mp (same ▸ List.mem_map_of_mem member)
  exact ⟨old,within,alike.symm⟩

/-- A prediction writes only what lasts for one call. -/
theorem lwprPredictExplore_fields (context : CallContext) (house : Datahouse)
    (model : Model nIn) (cutoff : ℚ) (x : Cells ℚ nIn) :
    (lwprPredictExplore lib context house model cutoff x).1.rf.map ReceptiveField.forget =
      model.rf.map ReceptiveField.forget := by
  have written : (lwprPredictExplore lib context house model cutoff x).1.rf =
      (model.rf.map (withFrequency lib context (model.asked x) cutoff)).map
        (settled lib ((model.asked x).pushHistory context) cutoff
          (totalHappenFreq (frequentFields lib context (model.asked x) cutoff))) := rfl
  rw [written,List.map_map,List.map_map]
  refine List.map_congr_left fun rf _ => ?_
  rw [Function.comp_apply,Function.comp_apply,settled]
  split_ifs
  · rfl
  · rfl

/-- A property of receptive fields that holds of new ones and is kept by learning, and that does not
depend on what lasts for one call, holds of all fields of reachable models. -/
theorem Grown.fields {fssHash : Int} {model : Model nIn} (grown : Grown lib fssHash model)
    (P : ReceptiveField nIn → Prop)
    (unread : ∀ rf rf' : ReceptiveField nIn, rf'.forget = rf.forget → P rf → P rf')
    (new : ∀ (model : Model nIn) (template : Option (ReceptiveField nIn)), model.toParameters =
      initParameters nIn → (∀ rf, template = some rf → P rf) → P (lwprAuxInitRf lib model template))
    (learned : ∀ (context : CallContext) (house : Datahouse) (model : Model
        nIn) (rf : ReceptiveField nIn),
      model.toParameters = initParameters nIn → activation lib model rf > 1/1000 → P rf →
        P (learnActive lib context house model rf).1) :
    ∀ rf ∈ model.rf, P rf := by
  induction grown with
  | fresh => exact List.forall_mem_nil _
  | called house model call before ih =>
    have parameters := before.storable.parameters
    cases call with
    | update context x y =>
      intro rf member
      have updated := lwprUpdate_updated lib context house model x y rf member
      clear member
      induction updated with
      | learned house rf within =>
        unfold learnField
        split_ifs with active
        · exact learned context house _ rf parameters active (ih rf within)
        · exact unread rf _ rfl (ih rf within)
      | added later same template _ shaped =>
        exact new later template (same.trans parameters) shaped
    | predictExplore context x cutoff =>
      intro rf member
      obtain ⟨field,old,same⟩ :=
        mem_of_forget (lwprPredictExplore_fields lib context house model cutoff x) rf member
      exact unread field rf same (ih field old)
  | reloaded house model before ih =>
    rw [reload_model fssHash ⟨house,model⟩ before.storable]
    intro rf member
    obtain ⟨field,old,rfl⟩ := List.mem_map.mp member
    exact unread field _ rfl (ih field old)

theorem Reachable.fields {fspaceHash fssHash : Int} {memory : Memory nIn}
    (reachable : Reachable lib fspaceHash fssHash memory) (P : ReceptiveField nIn → Prop)
    (unread : ∀ rf rf' : ReceptiveField nIn, rf'.forget = rf.forget → P rf → P rf')
    (new : ∀ (model : Model nIn) (template : Option (ReceptiveField nIn)), model.toParameters =
      initParameters nIn → (∀ rf, template = some rf → P rf) → P (lwprAuxInitRf lib model template))
    (learned : ∀ (context : CallContext) (house : Datahouse) (model : Model
        nIn) (rf : ReceptiveField nIn),
      model.toParameters = initParameters nIn → activation lib model rf > 1/1000 → P rf →
        P (learnActive lib context house model rf).1) :
    ∀ rf ∈ memory.model.rf, P rf :=
  Grown.fields lib reachable.grown P unread new learned

end Reach

end ExploratoryOptimizer.Aqo.Lwpr
