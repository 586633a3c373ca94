import ExploratoryOptimizer.Aqo.Lwpr.Prediction

/-! How `lwpr_update` adds and prunes receptive fields, and that it keeps its samples covered. -/
namespace ExploratoryOptimizer.Aqo.Lwpr
open Library.FixedArray Library.Machine OkNNr Session

theorem getElem_concat_cases {α : Type} (items : List α) (new item : α) (k : Nat)
    (found : (items ++ [new])[k]? = some item) :
    items[k]? = some item ∨ (k = items.length ∧ item = new) := by
  rcases Nat.lt_or_ge k items.length with within | beyond
  · exact .inl ((List.getElem?_append_left within).symm.trans found)
  · rw [List.getElem?_append_right beyond] at found
    have last : k - items.length < 1 := (List.getElem?_eq_some_iff.mp found).1
    exact .inr ⟨by omega,List.mem_singleton.mp (List.mem_of_getElem? found)⟩

/-! The two largest activations, found in one pass. -/

/-- The largest and the second largest of the weights, at different places. A weight that is not
positive is not noted, as a weight of a far field that has underflowed to zero. -/
structure Tracked (weights : List ℚ) (maxima : Maxima) : Prop where
  lead : ∀ i, maxima.indMax = some i → weights[i]? = some maxima.wMax
  alone : maxima.indMax = none → maxima.wMax = 0
  next : ∀ j, maxima.indSec = some j → weights[j]? = some maxima.wSec ∧ maxima.indMax ≠ some j
  few : maxima.indSec = none → maxima.wSec = 0
  most : ∀ w ∈ weights, w ≤ maxima.wMax
  rest : ∀ k w, weights[k]? = some w → maxima.indMax ≠ some k → w ≤ maxima.wSec
  order : 0 ≤ maxima.wSec ∧ maxima.wSec ≤ maxima.wMax

theorem Tracked.start : Tracked [] ⟨0,none,0,none⟩ where
  lead := fun i found => absurd found (Option.some_ne_none i).symm
  alone := fun _ => rfl
  next := fun j found => absurd found (Option.some_ne_none j).symm
  few := fun _ => rfl
  most := List.forall_mem_nil _
  rest := fun _ w found => absurd found (Option.some_ne_none w).symm
  order := ⟨le_rfl,le_rfl⟩

section Add

variable {weights : List ℚ} {maxima : Maxima} (tracked : Tracked weights maxima) (w : ℚ)
include tracked

theorem Tracked.lead_lt (i : Nat) (found : maxima.indMax = some i) : i < weights.length :=
  (List.getElem?_eq_some_iff.mp (tracked.lead i found)).1

theorem Tracked.next_lt (j : Nat) (found : maxima.indSec = some j) : j < weights.length :=
  (List.getElem?_eq_some_iff.mp (tracked.next j found).1).1

theorem Tracked.kept (small : w ≤ maxima.wSec) : Tracked (weights ++ [w]) maxima where
  lead :=
    fun i found => (List.getElem?_append_left (tracked.lead_lt i found)).trans
      (tracked.lead i found)
  alone := tracked.alone
  next := fun j found =>
    ⟨(List.getElem?_append_left (tracked.next_lt j found)).trans (tracked.next j found).1,
      (tracked.next j found).2⟩
  few := tracked.few
  most := by
    intro other member
    rcases List.mem_append.mp member with old | new
    · exact tracked.most other old
    · rw [List.mem_singleton.mp new]
      exact small.trans tracked.order.2
  rest := by
    intro k other found different
    rcases getElem_concat_cases weights w other k found with old | ⟨_,rfl⟩
    · exact tracked.rest k other old different
    · exact small
  order := tracked.order

theorem Tracked.largest (large : maxima.wMax < w) :
    Tracked (weights ++ [w]) ⟨w,some weights.length,maxima.wMax,maxima.indMax⟩ where
  lead := by
    intro i found
    rw [← Option.some.inj found]
    exact List.getElem?_concat_length
  alone := fun none => absurd none (Option.some_ne_none _)
  next := fun j found => by
    have within := tracked.lead_lt j found
    exact ⟨(List.getElem?_append_left within).trans (tracked.lead j found),fun same =>
      within.ne' (Option.some.inj same)⟩
  few := tracked.alone
  most := by
    intro other member
    rcases List.mem_append.mp member with old | new
    · exact (tracked.most other old).trans large.le
    · exact (List.mem_singleton.mp new).le
  rest := by
    intro k other found different
    rcases getElem_concat_cases weights w other k found with old | ⟨rfl,_⟩
    · exact tracked.most other (List.mem_of_getElem? old)
    · exact absurd rfl different
  order := ⟨tracked.order.1.trans tracked.order.2,large.le⟩

theorem Tracked.second (large : maxima.wSec < w) (small : w ≤ maxima.wMax) :
    Tracked (weights ++ [w]) {maxima with wSec := w, indSec := some weights.length} where
  lead :=
    fun i found => (List.getElem?_append_left (tracked.lead_lt i found)).trans
      (tracked.lead i found)
  alone := tracked.alone
  next := by
    intro j found
    rw [← Option.some.inj found]
    exact ⟨List.getElem?_concat_length,fun same => (tracked.lead_lt _ same).ne rfl⟩
  few := fun none => absurd none (Option.some_ne_none _)
  most := by
    intro other member
    rcases List.mem_append.mp member with old | new
    · exact tracked.most other old
    · rw [List.mem_singleton.mp new]
      exact small
  rest := by
    intro k other found different
    rcases getElem_concat_cases weights w other k found with old | ⟨_,rfl⟩
    · exact (tracked.rest k other old different).trans large.le
    · exact le_rfl
  order := ⟨tracked.order.1.trans large.le,small⟩

theorem Tracked.add : Tracked (weights ++ [w]) (maxima.add weights.length w) := by
  unfold Maxima.add
  split_ifs with above most
  · exact tracked.largest w most
  · exact tracked.second w above (not_lt.mp most)
  · exact tracked.kept w (not_lt.mp above)

end Add

section Update

variable {nIn : Nat} (lib : CLibrary)

theorem findMaxima_tracked (model : Model nIn) (seen : List ℚ) (maxima : Maxima)
    (fields : List (ReceptiveField nIn)) (tracked : Tracked seen maxima) :
    Tracked (seen ++ fields.map (activation lib model))
      (findMaxima lib model seen.length maxima fields) := by
  induction fields generalizing seen maxima with
  | nil => rwa [List.map_nil,List.append_nil]
  | cons rf rest ih =>
    have next := ih (seen ++ [activation lib model rf]) _ (tracked.add _)
    rw [List.append_assoc,List.length_append,List.length_singleton] at next
    exact next

/-! Pruning moves the last field into the gap. -/

theorem cons_set_perm {α : Type} (items : List α) (place : Nat) (new gone : α)
    (found : items[place]? = some gone) :
    (gone :: items.set place new).Perm (new :: items) := by
  induction items generalizing place with
  | nil => cases found
  | cons item items ih =>
    cases place with
    | zero =>
      rw [← Option.some.inj found]
      exact .swap new item items
    | succ place =>
      exact (List.Perm.swap _ _ _).trans (((ih place found).cons item).trans (List.Perm.swap _ _ _))

theorem prune_perm (fields : List (ReceptiveField nIn)) (place : Nat)
    (within : place < fields.length) :
    (prune fields place).Perm (fields.eraseIdx place) := by
  have found := List.getElem?_eq_getElem within
  have some : fields ≠ [] := List.ne_nil_of_length_pos (Nat.zero_lt_of_lt within)
  have whole := List.getElem_cons_eraseIdx_perm within
  generalize fields[place] = gone at found whole
  refine List.Perm.cons_inv (.trans ?_ whole.symm)
  obtain ⟨rest,last,rfl⟩ := List.eq_nil_or_concat' fields |>.resolve_left some
  have removed : prune (rest ++ [last]) place = ((rest ++ [last]).set place last).dropLast := by
    rw [prune,List.getLast?_concat]
  rw [removed]
  rcases getElem_concat_cases rest last gone place found with inner | ⟨rfl,rfl⟩
  · have before : place < rest.length := (List.getElem?_eq_some_iff.mp inner).1
    rw [List.set_append_left _ _ before,List.dropLast_concat]
    exact (cons_set_perm rest place last gone inner).trans
      (List.perm_append_singleton last rest).symm
  · -- The field is the last one itself.
    rw [List.set_append_right _ _ le_rfl,Nat.sub_self,List.set_cons_zero,List.dropLast_concat]
    exact (List.perm_append_singleton gone rest).symm

/-! One update. -/

variable (context : CallContext) (house : Datahouse)

theorem learnFields_centres (model : Model nIn) (fields : List (ReceptiveField nIn)) :
    (learnFields lib context model house fields).1.map (·.c) = fields.map (·.c) := by
  induction fields generalizing house with
  | nil => rfl
  | cons rf rest ih =>
    exact congrArg₂ List.cons (learnField_centre lib context house model rf) (ih _)

theorem lwprAuxUpdateOneT_centres (model : Model nIn) :
    (lwprAuxUpdateOneT lib context house model).1.rf.map (·.c) = model.rf.map (·.c) := by
  rw [(lwprAuxUpdateOneT_learned lib context house model).fields]
  exact learnFields_centres lib context house model model.rf

theorem lwprAuxUpdateOneT_length (model : Model nIn) :
    (lwprAuxUpdateOneT lib context house model).1.rf.length = model.rf.length := by
  have lengths := congrArg List.length (lwprAuxUpdateOneT_centres lib context house model)
  rwa [List.length_map,List.length_map] at lengths

theorem lwprAuxUpdateOneT_tracked (model : Model nIn) :
    Tracked (model.rf.map (activation lib model))
      (lwprAuxUpdateOneT lib context house model).2.1 := by
  unfold lwprAuxUpdateOneT
  split_ifs with empty
  · rw [empty]
    exact .start
  · exact findMaxima_tracked lib model [] _ model.rf .start

/-- The field that pruning removes is one of the two most activated ones. -/
theorem pruned_perm (model : Model nIn) (maxima : Maxima) (most second : Nat)
    (first : maxima.indMax = some most) (next : maxima.indSec = some second)
    (within : most < model.rf.length ∧ second < model.rf.length) :
    ∃ place, (place = most ∨ place = second) ∧ (pruned model maxima).rf.Perm
      (model.rf.eraseIdx place) := by
  simp only [pruned,first,next]
  split_ifs
  · exact ⟨most,.inl rfl,prune_perm model.rf most within.1⟩
  · exact ⟨second,.inr rfl,prune_perm model.rf second within.2⟩

section Outcome

variable (wGen wPrune : ℚ) (xn : Cells ℚ nIn) (learned : List (ReceptiveField nIn))
  (maxima : Maxima)

/-- What becomes of the fields of a model once they have learned a sample. -/
inductive Outcome : List (ReceptiveField nIn) → Prop where
  | added (field : ReceptiveField nIn) (low : maxima.wMax ≤ wGen)
      (centre : ∀ i < nIn, field.c.get i = xn.get i) :
      Outcome (learned ++ [field])
  | pruned (fields : List (ReceptiveField nIn)) (high : wGen < maxima.wMax)
      (crowded : wPrune < maxima.wSec) (place : Nat) (within : place < learned.length)
      (either : maxima.indMax = some place ∨ maxima.indSec = some place)
      (left : fields.Perm (learned.eraseIdx place)) : Outcome fields
  | kept (high : wGen < maxima.wMax) (sparse : maxima.wSec ≤ wPrune) : Outcome learned

variable {wGen wPrune : ℚ} {xn : Cells ℚ nIn} {learned : List (ReceptiveField nIn)}
  {maxima : Maxima} {fields : List (ReceptiveField nIn)}
  (outcome : Outcome wGen wPrune xn learned maxima fields)
include outcome

theorem Outcome.length :
    (fields.length = learned.length + 1 ↔ maxima.wMax ≤ wGen) ∧
      (fields.length + 1 = learned.length ↔ wGen < maxima.wMax ∧ wPrune < maxima.wSec) := by
  cases outcome with
  | added field low centre =>
    rw [List.length_append,List.length_singleton]
    exact ⟨⟨fun _ => low,fun _ => rfl⟩,
      ⟨fun same => by omega,fun both => absurd low (not_le.mpr both.1)⟩⟩
  | pruned fields high crowded place within either left =>
    have fewer := left.length_eq.trans (List.length_eraseIdx_of_lt within)
    exact ⟨⟨fun same => by omega,fun low => absurd low (not_le.mpr high)⟩,
      ⟨fun _ => ⟨high,crowded⟩,fun _ => by omega⟩⟩
  | kept high sparse =>
    exact ⟨⟨fun same => by omega,fun low => absurd low (not_le.mpr high)⟩,
      ⟨fun same => by omega,fun both => absurd both.2 (not_lt.mpr sparse)⟩⟩

variable {weights : List ℚ} (tracked : Tracked weights maxima)
  (each : weights.length = learned.length) (generate : 0 ≤ wGen) (order : wGen ≤ wPrune)
include tracked each generate order

/-- The field of the largest activation is left, or else the one of the second largest. -/
theorem Outcome.covered :
    ∃ rf ∈ fields, (∀ i < nIn, rf.c.get i = xn.get i) ∨
      ∃ (k : Nat) (w : ℚ), weights[k]? = some w ∧ learned[k]? = some rf ∧ wGen < w := by
  have lead : wGen < maxima.wMax → ∃ most, maxima.indMax = some most := fun high => by
    cases first : maxima.indMax with
    | none =>
      have zero := tracked.alone first
      linarith
    | some most => exact ⟨most,rfl⟩
  cases outcome with
  | added field low centre => exact ⟨field,List.mem_concat_self,.inl centre⟩
  | pruned fields high crowded place within either left =>
    have survives (k : Nat) (bound : k < learned.length) (other : k ≠ place) :
      learned[k] ∈ fields :=
      left.mem_iff.mpr (List.mem_eraseIdx_iff_getElem?.mpr ⟨k,other,List.getElem?_eq_getElem bound⟩)
    obtain ⟨most,first⟩ := lead high
    have top := each ▸ tracked.lead_lt most first
    by_cases gone : most = place
    · cases next : maxima.indSec with
      | none =>
        have zero := tracked.few next
        linarith
      | some second =>
        obtain ⟨value,different⟩ := tracked.next second next
        have bound := each ▸ tracked.next_lt second next
        have apart : second ≠ place :=
          fun same => different (first.trans (congrArg some (gone.trans same.symm)))
        exact ⟨learned[second],survives second bound apart,
          .inr ⟨second,_,value,List.getElem?_eq_getElem bound,order.trans_lt crowded⟩⟩
    · exact ⟨learned[most],survives most top gone,
        .inr ⟨most,_,tracked.lead most first,List.getElem?_eq_getElem top,high⟩⟩
  | kept high sparse =>
    obtain ⟨most,first⟩ := lead high
    have bound := each ▸ tracked.lead_lt most first
    exact ⟨learned[most],List.getElem_mem bound,
      .inr ⟨most,_,tracked.lead most first,List.getElem?_eq_getElem bound,high⟩⟩

end Outcome

/-- Where a second activation is compared, there are two fields. -/
theorem addPrune_outcome (model : Model nIn) (maxima : Maxima) (weights : List ℚ)
    (tracked : Tracked weights maxima) (each : weights.length = model.rf.length)
    (generate : 0 ≤ model.wGen) (order : model.wGen ≤ model.wPrune) :
    Outcome model.wGen model.wPrune model.xn model.rf maxima
      (lwprAuxUpdateOneAddPrune lib context house model maxima).1.rf := by
  unfold lwprAuxUpdateOneAddPrune
  split_ifs with low crowded
  · refine .added _ low fun i within => ?_
    exact (Cells.get_fill _ i (lt_nInStore within)).trans (if_pos within)
  · have high := not_le.mp low
    cases first : maxima.indMax with
    | none =>
      have zero := tracked.alone first
      linarith
    | some most =>
      cases next : maxima.indSec with
      | none =>
        have zero := tracked.few next
        linarith
      | some second =>
        have top : most < model.rf.length := each ▸ tracked.lead_lt most first
        have bound : second < model.rf.length := each ▸ tracked.next_lt second next
        obtain ⟨place,rfl | rfl,left⟩ := pruned_perm model maxima most second first next ⟨top,bound⟩
        · exact .pruned _ high crowded _ top (.inl first) left
        · exact .pruned _ high crowded _ bound (.inr next) left
  · exact .kept (not_le.mp low) (not_lt.mp crowded)

theorem lwprUpdate_outcome (model : Model nIn) (generate : 0 ≤ model.wGen)
    (order : model.wGen ≤ model.wPrune) :
    Outcome model.wGen model.wPrune model.xn (lwprAuxUpdateOneT lib context house model).1.rf
      (lwprAuxUpdateOneT lib context house model).2.1
      (lwprAuxUpdateOneAddPrune lib context (lwprAuxUpdateOneT lib context house model).2.2
        (lwprAuxUpdateOneT lib context house model).1
        (lwprAuxUpdateOneT lib context house model).2.1).1.rf := by
  have learned := lwprAuxUpdateOneT_learned lib context house model
  have parameters := learned.parameters
  have lowest : (lwprAuxUpdateOneT lib context house model).1.wGen = model.wGen :=
    congrArg Parameters.wGen parameters
  have closest : (lwprAuxUpdateOneT lib context house model).1.wPrune = model.wPrune :=
    congrArg Parameters.wPrune parameters
  have input := learned.input
  have outcome := addPrune_outcome lib context (lwprAuxUpdateOneT lib context house model).2.2
    (lwprAuxUpdateOneT lib context house model).1 _ _
    (lwprAuxUpdateOneT_tracked lib context house model)
    (by rw [List.length_map,lwprAuxUpdateOneT_length]) (by rwa [lowest]) (by rwa [lowest,closest])
  rwa [lowest,closest,input] at outcome

/-- The largest activations at a sample, and the fields that are noted for them. -/
structure LargestActivations (sample : Model nIn) (fields : List (ReceptiveField nIn))
    (maxima : Maxima) : Prop where
  most : ∀ rf ∈ fields, activation lib sample rf ≤ maxima.wMax
  attained : fields ≠ [] → ∃ rf ∈ fields, activation lib sample rf = maxima.wMax
  noted : 0 < maxima.wMax → ∃ i rf, maxima.indMax = some i ∧ fields[i]? = some rf ∧
    activation lib sample rf = maxima.wMax
  rest : ∀ k rf, fields[k]? = some rf → maxima.indMax ≠ some k →
    activation lib sample rf ≤ maxima.wSec
  second : 2 ≤ fields.length → ∃ k rf, fields[k]? = some rf ∧ maxima.indMax ≠ some k ∧
    activation lib sample rf = maxima.wSec
  secondNoted : 0 < maxima.wSec → ∃ j rf, maxima.indSec = some j ∧ maxima.indMax ≠ some j ∧
    fields[j]? = some rf ∧ activation lib sample rf = maxima.wSec

section Largest

variable (sample : Model nIn) (fields : List (ReceptiveField nIn)) (maxima : Maxima)
  (tracked : Tracked (fields.map (activation lib sample)) maxima)
include tracked

theorem activations_noted (positive : 0 < maxima.wMax) :
    ∃ i rf, maxima.indMax = some i ∧ fields[i]? = some rf ∧
      activation lib sample rf = maxima.wMax := by
  cases first : maxima.indMax with
  | none => exact absurd (tracked.alone first) positive.ne'
  | some i =>
    have lead := tracked.lead i first
    rw [List.getElem?_map] at lead
    obtain ⟨rf,found,value⟩ := Option.map_eq_some_iff.mp lead
    exact ⟨i,rf,rfl,found,value⟩

theorem activations_secondNoted (positive : 0 < maxima.wSec) :
    ∃ j rf, maxima.indSec = some j ∧ maxima.indMax ≠ some j ∧ fields[j]? = some rf ∧
      activation lib sample rf = maxima.wSec := by
  cases next : maxima.indSec with
  | none => exact absurd (tracked.few next) positive.ne'
  | some j =>
    obtain ⟨value,different⟩ := tracked.next j next
    rw [List.getElem?_map] at value
    obtain ⟨rf,found,value⟩ := Option.map_eq_some_iff.mp value
    exact ⟨j,rf,rfl,different,found,value⟩

theorem activations_rest (k : Nat) (rf : ReceptiveField nIn) (found : fields[k]? = some rf)
    (other : maxima.indMax ≠ some k) : activation lib sample rf ≤ maxima.wSec := by
  refine tracked.rest k _ ?_ other
  rw [List.getElem?_map,found,Option.map_some]

/-- Where no weight is noted, all of them are zero. -/
theorem activations_largest (nonneg : ∀ t, 0 ≤ lib.exp t) :
    LargestActivations lib sample fields maxima := by
  have weight (rf : ReceptiveField nIn) : 0 ≤ activation lib sample rf :=
    kernelWeight_nonneg lib nonneg _ _
  have most : ∀ rf ∈ fields, activation lib sample rf ≤ maxima.wMax := fun rf member =>
    tracked.most _ (List.mem_map_of_mem member)
  have rest := activations_rest lib sample fields maxima tracked
  refine ⟨most,fun some => ?_,activations_noted lib sample fields maxima tracked,rest,fun two => ?_,
    activations_secondNoted lib sample fields maxima tracked⟩
  · rcases (tracked.order.1.trans tracked.order.2).lt_or_eq with positive | zero
    · obtain ⟨i,rf,_,found,value⟩ := activations_noted lib sample fields maxima tracked positive
      exact ⟨rf,List.mem_of_getElem? found,value⟩
    · obtain ⟨rf,member⟩ := List.exists_mem_of_ne_nil _ some
      exact ⟨rf,member,le_antisymm (most rf member) (zero ▸ weight rf)⟩
  · rcases tracked.order.1.lt_or_eq with positive | zero
    · obtain ⟨j,rf,_,other,found,value⟩ :=
        activations_secondNoted lib sample fields maxima tracked positive
      exact ⟨j,rf,found,other,value⟩
    · -- one of the first two places is not the noted one
      have free : ∃ k < fields.length, maxima.indMax ≠ some k := by
        by_cases first : maxima.indMax = some 0
        · exact ⟨1,two,by simp [first]⟩
        · exact ⟨0,by omega,first⟩
      obtain ⟨k,within,other⟩ := free
      have found := List.getElem?_eq_getElem within
      exact ⟨k,_,found,other,le_antisymm (rest k _ found other) (zero ▸ weight _)⟩

end Largest

/-- An update adds a field at the sample if no field is activated by it, removes one of the two most
activated fields if they are close to each other, and keeps the others. So a field at or near the
sample is left. -/
theorem lwprUpdate_coverage (nonneg : ∀ t, 0 ≤ lib.exp t) (model : Model nIn)
    (generate : 0 ≤ model.wGen) (order : model.wGen ≤ model.wPrune) (x : Cells ℚ nIn) (y : ℚ) :
    let sample := model.sampled x y
    let learned := (lwprAuxUpdateOneT lib context house sample).1.rf
    let maxima := (lwprAuxUpdateOneT lib context house sample).2.1
    let new := (lwprUpdate lib context house model x y).1.rf
    LargestActivations lib sample model.rf maxima ∧
    learned.map (·.c) = model.rf.map (·.c) ∧
    (maxima.wMax ≤ model.wGen →
      ∃ field : ReceptiveField nIn, (∀ i < nIn, field.c.get i = sample.xn.get i) ∧
        new = learned ++ [field]) ∧
    (model.wGen < maxima.wMax ∧ model.wPrune < maxima.wSec →
      ∃ place < learned.length, (maxima.indMax = some place ∨ maxima.indSec = some place) ∧
        new.Perm (learned.eraseIdx place)) ∧
    (model.wGen < maxima.wMax ∧ maxima.wSec ≤ model.wPrune → new = learned) ∧
    (new.length = model.rf.length + 1 ↔ maxima.wMax ≤ model.wGen) ∧
    (new.length + 1 = model.rf.length ↔ model.wGen < maxima.wMax ∧ model.wPrune < maxima.wSec) ∧
    new ≠ [] ∧
    ∃ rf ∈ new, (∀ i < nIn, rf.c.get i = sample.xn.get i) ∨
      ∃ (k : Nat) (old : ReceptiveField nIn), model.rf[k]? = some old ∧ learned[k]? = some rf ∧
        model.wGen < activation lib sample old := by
  intro sample learned maxima new
  have tracked := lwprAuxUpdateOneT_tracked lib context house sample
  have outcome : Outcome model.wGen model.wPrune sample.xn learned maxima new :=
    lwprUpdate_outcome lib context house sample generate order
  have lengths : learned.length = model.rf.length :=
    lwprAuxUpdateOneT_length lib context house sample
  have count := outcome.length
  rw [lengths] at count
  obtain ⟨rf,left,near⟩ :=
    outcome.covered tracked ((List.length_map _).trans lengths.symm) generate order
  refine ⟨activations_largest lib sample sample.rf maxima tracked nonneg,
    lwprAuxUpdateOneT_centres lib context house sample,
    fun low => ?_,fun dense => ?_,fun sparse => ?_,count.1,count.2,List.ne_nil_of_mem left,rf,left,
    near.imp_right ?_⟩
  · generalize new = fields at outcome
    cases outcome with
    | added field _ centre => exact ⟨field,centre,rfl⟩
    | pruned _ high => exact absurd low (not_le.mpr high)
    | kept high => exact absurd low (not_le.mpr high)
  · generalize new = fields at outcome
    cases outcome with
    | added field low => exact absurd low (not_le.mpr dense.1)
    | pruned fields _ _ place within either left => exact ⟨place,within,either,left⟩
    | kept _ sparse => exact absurd dense.2 (not_lt.mpr sparse)
  · generalize new = fields at outcome
    cases outcome with
    | added field low => exact absurd low (not_le.mpr sparse.1)
    | pruned _ _ crowded => exact absurd crowded (not_lt.mpr sparse.2)
    | kept => rfl
  · rintro ⟨k,w,weight,found,above⟩
    rw [List.getElem?_map] at weight
    obtain ⟨old,before,rfl⟩ := Option.map_eq_some_iff.mp weight
    exact ⟨k,old,before,found,above⟩

end Update

/-- A second field far from the first. -/
def learnedFar : Model 1 × Datahouse × Int :=
  lwprUpdate rationalLibrary uniformContext learnedTwice.house learnedTwice.model
    (Cells.fill fun _ => 9) 4

theorem lwprUpdate_coverage_far :
    learnedTwice.model.rf.length = 1 ∧ learnedFar.1.rf.length = 2 ∧ learnedFar.1.rf ≠ [] := by
  obtain ⟨_,_,_,_,_,grows,_,some,_⟩ := lwprUpdate_coverage rationalLibrary uniformContext
    learnedTwice.house rationalLibrary_sound.exp learnedTwice.model (by decide +kernel)
    (by decide +kernel) (Cells.fill fun _ => 9) 4
  have one : learnedTwice.model.rf.length = 1 := by decide +kernel
  exact ⟨one,(grows.mpr (by decide +kernel)).trans (by rw [one]),some⟩

/-- `exp` of a double is zero below about -745. -/
def underflowingLibrary : CLibrary :=
  {rationalLibrary with exp := fun t => if t < -746 then 0 else rationalLibrary.exp t}

def learnedOnce : Model 1 × Datahouse × Int :=
  lwprUpdate underflowingLibrary uniformContext (fun _ _ _ => none) (lwprInitModel 1) 0 5

/-- The one field is too far from the sample to be noted. -/
theorem far_field_unnoted :
    learnedOnce.1.rf.length = 1 ∧
      (lwprAuxUpdateOneT underflowingLibrary uniformContext learnedOnce.2.1
        (learnedOnce.1.sampled (Cells.fill fun _ => 9) 4)).2.1 = ⟨0,none,0,none⟩ := by
  decide +kernel

end ExploratoryOptimizer.Aqo.Lwpr
