import ExploratoryOptimizer.Aqo.Lwpr.ExploreBounds
import ExploratoryOptimizer.Aqo.Lwpr.Reachable

/-! The value that `lwpr_predict_explore` predicts. -/
namespace ExploratoryOptimizer.Aqo.Lwpr
open Library.FixedArray Library.Machine OkNNr Session

/-! Every field of a reachable model has its samples stored. -/

section Samples

variable {nIn : Nat} (lib : CLibrary)

/-- Samples are replaced, but never removed. -/
def Keeps (house house' : Datahouse) : Prop :=
  ∀ fspace fss rf, (house fspace fss rf).isSome = true → (house' fspace fss rf).isSome = true

theorem learnRfDatahouse_keeps (house : Datahouse) (fspaceHash fssHash : Int)
    (centre : Cells ℚ (nInStore nIn)) (xn : Cells ℚ nIn) (yn : ℚ) :
    Keeps house (learnRfDatahouse lib house fspaceHash fssHash centre xn yn) := by
  intro fspace fss rf stored
  unfold learnRfDatahouse updateRfDatahouse
  split_ifs
  · rfl
  · exact stored

theorem loadRfDatahouse_learn (house : Datahouse) (fspaceHash fssHash : Int)
    (centre : Cells ℚ (nInStore nIn)) (xn : Cells ℚ nIn) (yn : ℚ) :
    (loadRfDatahouse lib (learnRfDatahouse lib house fspaceHash fssHash centre xn yn) fspaceHash
        fssHash centre).isSome =
      true := by
  simp only [loadRfDatahouse,learnRfDatahouse,updateRfDatahouse,and_self,if_true,Option.isSome_some]

variable (context : CallContext)

theorem learnField_keeps (house : Datahouse) (model : Model nIn) (rf : ReceptiveField nIn) :
    Keeps house (learnField lib context house model rf).2 := by
  unfold learnField
  split_ifs
  · unfold learnActive
    dsimp only
    split_ifs
    · exact fun _ _ _ stored => stored
    · exact learnRfDatahouse_keeps lib house _ _ _ _ _
  · exact fun _ _ _ stored => stored

theorem learnFields_keeps (model : Model nIn) (house : Datahouse)
    (fields : List (ReceptiveField nIn)) :
    Keeps house (learnFields lib context model house fields).2 := by
  induction fields generalizing house with
  | nil => exact fun _ _ _ stored => stored
  | cons rf rest ih =>
    exact fun fspace fss field stored =>
      ih _ fspace fss field (learnField_keeps lib context house model rf fspace fss field stored)

theorem learnField_centre (house : Datahouse) (model : Model nIn) (rf : ReceptiveField nIn) :
    (learnField lib context house model rf).1.c = rf.c := by
  unfold learnField
  split_ifs
  · exact (List.cons.inj (learnActive_aligned lib context house model rf)).1
  · rfl

/-- All fields of the model have samples. -/
def Sampled (fspaceHash : Int) (house : Datahouse) (model : Model nIn) : Prop :=
  ∀ rf ∈ model.rf, (loadRfDatahouse lib house fspaceHash model.fssHash rf.c).isSome = true

theorem lwprAuxUpdateOneT_sampled (house : Datahouse) (model : Model nIn)
    (sampled : Sampled lib context.fspaceHash house model) :
    Sampled lib context.fspaceHash (lwprAuxUpdateOneT lib context house model).2.2
      (lwprAuxUpdateOneT lib context house model).1 := by
  have learned := lwprAuxUpdateOneT_learned lib context house model
  intro rf member
  rw [learned.fields] at member
  obtain ⟨old,within,house',rfl⟩ := mem_learnFields lib context model house model.rf rf member
  rw [learnField_centre,learned.hash,learned.house]
  exact learnFields_keeps lib context model house model.rf _ _ _ (sampled old within)

theorem lwprAuxUpdateOneAddPrune_sampled (house : Datahouse) (model : Model nIn) (maxima : Maxima)
    (sampled : Sampled lib context.fspaceHash house model) :
    Sampled lib context.fspaceHash (lwprAuxUpdateOneAddPrune lib context house model maxima).2
      (lwprAuxUpdateOneAddPrune lib context house model maxima).1 := by
  unfold lwprAuxUpdateOneAddPrune
  split_ifs
  · intro rf member
    rcases List.mem_append.mp member with old | new
    · exact learnRfDatahouse_keeps lib house _ _ _ _ _ _ _ _ (sampled rf old)
    · rw [List.mem_singleton.mp new]
      exact loadRfDatahouse_learn lib house _ _ _ _ _
  · have hash : (pruned model maxima).fssHash = model.fssHash := by
      unfold pruned
      split
      · rfl
      · rfl
    intro rf member
    rw [hash]
    exact sampled rf (mem_pruned model maxima rf member)
  · exact sampled

theorem Reachable.sampled {fspaceHash fssHash : Int} {memory : Memory nIn}
    (reachable : Reachable lib fspaceHash fssHash memory) :
    Sampled lib fspaceHash memory.house memory.model := by
  induction reachable with
  | fresh house => exact List.forall_mem_nil _
  | called memory call before here ih =>
    subst here
    cases call with
    | update context x y =>
      exact lwprAuxUpdateOneAddPrune_sampled lib context _ _ _
        (lwprAuxUpdateOneT_sampled lib context memory.house _ ih)
    | predictExplore context x cutoff =>
      have hash := (before.storable.lwprPredictExplore lib context memory.house cutoff x).hash.trans
        before.storable.hash.symm
      intro rf member
      obtain ⟨field,old,same⟩ :=
        mem_of_forget (lwprPredictExplore_fields lib context memory.house memory.model cutoff x) rf
          member
      have centre : rf.forget.c = field.forget.c := by rw [same]
      change rf.c = field.c at centre
      have stored := ih field old
      rw [← hash,← centre] at stored
      exact stored
  | reloaded memory before ih =>
    intro rf member
    rw [reload_model fssHash memory before.storable] at member ⊢
    obtain ⟨field,old,rfl⟩ := List.mem_map.mp member
    exact ih field old

end Samples

/-! What the function is meant to predict. -/

section Outcome

variable {nIn : Nat} (lib : CLibrary) (context : CallContext) (house : Datahouse)
  (model : Model nIn) (cutoff : ℚ)

/-- Linear for a trusted field, from the stored samples for any other. -/
def fieldPrediction (rf : ReceptiveField nIn) : ℚ :=
  if rf.trustworthy then rf.localPrediction model.xn
  else
    let samples := (loadRfDatahouse lib house context.fspaceHash model.fssHash rf.c).getD ⟨[],[]⟩
    predict (.exact lib.sqrt) nIn samples.matrix samples.targets model.xn.toList 2

/-- Active, and not known to be wrong. -/
def isReliable (rf : ReceptiveField nIn) : Bool :=
  activation lib model rf > cutoff ∧ (rf.trustworthy = false ∨ rf.avgError ≤ avgErrorThreshold)

def weightedMean (fields : List (ReceptiveField nIn)) : ℚ :=
  (fields.map fun rf => activation lib model rf * fieldPrediction lib context house model rf).sum /
    (fields.map (activation lib model)).sum

/-- The last exact match, or else the mean over the reliable fields, or else a refusal. -/
def intendedRows : ℚ :=
  match (model.rf.filter (isExact lib model)).getLast? with
  | some rf => rf.localPrediction model.xn
  | none =>
    if model.rf.filter (isReliable lib model cutoff) = [] then -9999
    else weightedMean lib context house model (model.rf.filter (isReliable lib model cutoff))

def largestActivation : ℚ := (model.rf.map (activation lib model)).foldl max 0

/-- Whether the prediction is taken from the most activated field. -/
def ConfSums.fallsBack (sums : ConfSums nIn) : Prop :=
  sums.exact = none ∧ ¬sums.sumW2 > 0 ∧
    ¬((sums.wMax < useAqoThreshold ∧ sums.countRfs = 0) ∨
      (sums.wMax > useAqoThreshold ∧ sums.minError > avgErrorThreshold))

/-! What the loop gathers for the prediction. -/

def lastExact (fields : List (ReceptiveField nIn)) : Option ℚ :=
  (fields.filter fun rf => isActive lib model cutoff rf && isExact lib model rf).getLast?.map
    (·.localPrediction model.xn)

def usedFields (fields : List (ReceptiveField nIn)) : List (ReceptiveField nIn) :=
  (averaged lib model cutoff fields).filter (isUsable lib model)

structure Gathered (fields : List (ReceptiveField nIn)) (before after : ConfSums nIn) : Prop where
  exact : after.exact = (lastExact lib model cutoff fields).or before.exact
  yp : after.yp = before.yp + ((usedFields lib model cutoff fields).map fun rf =>
    activation lib model rf * fieldPrediction lib context house model rf).sum
  wMax : after.wMax = (fields.map (activation lib model)).foldl max before.wMax
  minError :
    (∀ rf ∈ fields, isActive lib model cutoff rf = true → rf.avgError > avgErrorThreshold) →
    before.minError > avgErrorThreshold → after.minError > avgErrorThreshold

theorem Gathered.trans {first second : List (ReceptiveField nIn)}
    {before between after : ConfSums nIn}
    (gathered : Gathered lib context house model cutoff first before between)
    (gathered' : Gathered lib context house model cutoff second between after) :
    Gathered lib context house model cutoff (first ++ second) before after where
  exact := by
    rw [gathered'.exact,gathered.exact,lastExact,lastExact,lastExact,List.filter_append,
      List.getLast?_append,Option.map_or,Option.or_assoc]
  yp := by
    rw [gathered'.yp,gathered.yp,usedFields,usedFields,usedFields,averaged_append,
      List.filter_append,List.map_append,List.sum_append,add_assoc]
  wMax := by rw [gathered'.wMax,gathered.wMax,List.map_append,List.foldl_append]
  minError :=
    fun wrong start => gathered'.minError
      (fun rf member => wrong rf (List.mem_append_right _ member))
    (gathered.minError (fun rf member => wrong rf (List.mem_append_left _ member)) start)

theorem noteActivation_wMax (sums : ConfSums nIn) (n : Nat) (rf : ReceptiveField nIn) :
    (noteActivation lib model sums n rf).wMax = max sums.wMax (activation lib model rf) := by
  simp only [noteActivation]
  split_ifs with above
  · exact (max_eq_right above.le).symm
  · exact (max_eq_left (not_lt.mp above)).symm

theorem noteActive_minError (total : Nat → ℚ) (sums : ConfSums nIn) (rf : ReceptiveField nIn)
    (wrong : rf.avgError > avgErrorThreshold) (start : sums.minError > avgErrorThreshold) :
    (noteActive lib model total sums rf).minError > avgErrorThreshold := by
  simp only [noteActive]
  split_ifs
  · exact wrong
  · exact start

theorem nearestPrediction_stored (rf : ReceptiveField nIn) (otherwise : ℚ)
    (stored : (loadRfDatahouse lib house context.fspaceHash model.fssHash rf.c).isSome = true)
    (untrusted : rf.trustworthy = false) :
    rf.nearestPrediction model.xn lib house context.fspaceHash model.fssHash otherwise =
      fieldPrediction lib context house model rf := by
  obtain ⟨samples,found⟩ := Option.isSome_iff_exists.mp stored
  simp only [ReceptiveField.nearestPrediction,fieldPrediction,found,untrusted,Bool.false_eq_true,
    if_false,Option.getD_some]

theorem confStep_gathered (total : Nat → ℚ) (sums : ConfSums nIn) (n : Nat)
    (rf : ReceptiveField nIn)
    (stored : (loadRfDatahouse lib house context.fspaceHash model.fssHash rf.c).isSome = true) :
    Gathered lib context house model cutoff [rf] sums
      (confStep lib context house model cutoff total sums n rf) := by
  have largest := noteActivation_wMax lib model sums n rf
  simp only [confStep]
  split_ifs with active exact
  · have isActive : isActive lib model cutoff rf = true := decide_eq_true active
    have isExact : isExact lib model rf = true := decide_eq_true exact
    refine ⟨?_,?_,largest,fun wrong start => ?_⟩
    · simp [lastExact,isActive,isExact]
    · simp [usedFields,averaged,isActive,isExact,noteActive,noteActivation]
    · exact noteActive_minError lib model total _ rf
        (wrong rf (List.mem_singleton_self rf) isActive) start
  · have isActive : isActive lib model cutoff rf = true := decide_eq_true active
    have isExact : isExact lib model rf = false := decide_eq_false exact
    refine ⟨?_,?_,largest,fun wrong start => ?_⟩
    · simp [lastExact,isExact,addPrediction,noteActive,noteActivation]
    · have kept : averaged lib model cutoff [rf] = [rf] := by
        rw [averaged,List.filter_cons_of_pos (by rw [isActive,isExact]; rfl),List.filter_nil]
      have value : (if rf.trustworthy then rf.localPrediction model.xn
          else rf.nearestPrediction model.xn lib house context.fspaceHash model.fssHash
            (rf.localPrediction model.xn)) = fieldPrediction lib context house model rf := by
        cases trusted : rf.trustworthy with
        | true => simp [fieldPrediction,trusted]
        | false => exact nearestPrediction_stored lib context house model rf _ stored trusted
      rw [usedFields,kept,List.filter_singleton]
      simp only [addPrediction,value,isUsable]
      by_cases serves :
        ¬(rf.trustworthy ∧ rf.avgError > avgErrorThreshold) ∧ activation lib model rf > 0
      · rw [if_pos serves,decide_eq_true serves]
        simp [noteActive,noteActivation]
      · rw [if_neg serves,decide_eq_false serves]
        simp [noteActive,noteActivation]
    · exact noteActive_minError lib model total _ rf
        (wrong rf (List.mem_singleton_self rf) isActive) start
  · have idle : isActive lib model cutoff rf = false := decide_eq_false active
    refine ⟨?_,?_,largest,fun _ start => start⟩
    · simp [lastExact,idle,noteActivation]
    · simp [usedFields,averaged,idle,noteActivation]

theorem confLoop_gathered (total : Nat → ℚ) (n : Nat) (sums : ConfSums nIn)
    (fields : List (ReceptiveField nIn))
    (stored : ∀ rf ∈ fields, (loadRfDatahouse lib house context.fspaceHash model.fssHash
        rf.c).isSome = true) :
    Gathered lib context house model cutoff fields sums
      (confLoop lib context house model cutoff total n sums fields) := by
  induction fields generalizing n sums with
  | nil => exact ⟨rfl,(add_zero _).symm,rfl,fun _ start => start⟩
  | cons rf rest ih =>
    obtain ⟨first,others⟩ := List.forall_mem_cons.mp stored
    exact Gathered.trans lib context house model cutoff
      (confStep_gathered lib context house model cutoff total sums n rf first) (ih (n + 1) _ others)

theorem filter_frequent (p : ReceptiveField nIn → Bool)
    (same : ∀ rf, p (withFrequency lib context model cutoff rf) = p rf) :
    (frequentFields lib context model cutoff).filter p =
      (model.rf.filter p).map (withFrequency lib context model cutoff) := by
  rw [frequentFields,List.filter_map]
  exact congrArg _ (List.filter_congr fun rf _ => same rf)

section Stored

variable (stored : Sampled lib context.fspaceHash house model)
include stored

theorem confSums_gathered :
    Gathered lib context house model cutoff (frequentFields lib context model cutoff)
      (ConfSums.start nIn) (confSums lib context house model cutoff) := by
  refine confLoop_gathered lib context house model cutoff _ 0 _ _ fun rf member => ?_
  obtain ⟨field,old,rfl⟩ := List.mem_map.mp member
  exact stored field old

theorem confSums_wMax :
    (confSums lib context house model cutoff).wMax = largestActivation lib model := by
  refine (confSums_gathered lib context house model cutoff stored).wMax.trans ?_
  rw [frequentFields,List.map_map]
  rfl

/-- All active fields are trusted and have been wrong: the smallest error is above the bound. -/
theorem confSums_minError (none : model.rf.filter (isReliable lib model cutoff) = []) :
    (confSums lib context house model cutoff).minError > avgErrorThreshold := by
  have start : (ConfSums.start nIn).minError > avgErrorThreshold := by
    change (1 : ℚ) < 9999
    decide +kernel
  refine (confSums_gathered lib context house model cutoff stored).minError
    (fun rf member isActive => ?_) start
  obtain ⟨field,old,rfl⟩ := List.mem_map.mp member
  have unreliable := List.filter_eq_nil_iff.mp none field old
  by_contra small
  exact unreliable (decide_eq_true ⟨of_decide_eq_true isActive,.inr (not_lt.mp small)⟩)

end Stored

section Intended

variable (above : 0 ≤ cutoff) (below : cutoff ≤ 999/1000)

include below in
theorem lastExact_frequent :
    lastExact lib model cutoff (frequentFields lib context model cutoff) =
      (model.rf.filter (isExact lib model)).getLast?.map (·.localPrediction model.xn) := by
  have exact (rf : ReceptiveField nIn) : (isActive lib model cutoff rf && isExact lib model rf) =
    isExact lib model rf := by
    cases matched : isExact lib model rf with
    | false => exact Bool.and_false _
    | true =>
      have close := (of_decide_eq_true matched).1
      rw [isActive,decide_eq_true (below.trans_lt close)]
      rfl
  rw [lastExact,funext exact,filter_frequent lib context model cutoff _ fun _ => rfl,
    List.getLast?_map,Option.map_map]
  rfl

include above in
theorem usedFields_frequent (inexact : model.rf.filter (isExact lib model) = []) :
    usedFields lib model cutoff (frequentFields lib context model cutoff) =
      (model.rf.filter (isReliable lib model cutoff)).map
      (withFrequency lib context model cutoff) := by
  rw [← filter_frequent lib context model cutoff (isReliable lib model cutoff) fun _ => rfl,
    usedFields,averaged,List.filter_filter]
  refine List.filter_congr fun rf member => ?_
  have missed : isExact lib model rf = false := by
    have none : (frequentFields lib context model cutoff).filter (isExact lib model) = [] := by
      rw [filter_frequent lib context model cutoff _ fun _ => rfl,inexact]
      rfl
    simpa using List.filter_eq_nil_iff.mp none rf member
  rw [missed,Bool.not_false,Bool.and_true,isActive,isUsable,isReliable,← Bool.decide_and]
  refine decide_eq_decide.mpr ?_
  rw [not_and_or,Bool.not_eq_true,not_lt]
  constructor
  · rintro ⟨⟨fit,_⟩,active⟩
    exact ⟨active,fit⟩
  · rintro ⟨active,fit⟩
    exact ⟨⟨fit,above.trans_lt active⟩,active⟩

include above below

/-- With samples for every field the function predicts what it is meant to, and never falls back. -/
theorem predictedRows_intended (stored : Sampled lib context.fspaceHash house model)
    (largest : largestActivation lib model ≠ useAqoThreshold) (later : Model nIn) :
    predictedRows lib context house later (confSums lib context house model cutoff) =
        intendedRows lib context house model cutoff ∧
      ¬(confSums lib context house model cutoff).fallsBack := by
  have gathered := confSums_gathered lib context house model cutoff stored
  have summed := confSums_summed lib context model cutoff house
  have exact : (confSums lib context house model cutoff).exact =
      (model.rf.filter (isExact lib model)).getLast?.map (·.localPrediction model.xn) := by
    refine gathered.exact.trans ?_
    rw [lastExact_frequent lib context model cutoff below]
    exact Option.or_none
  cases matched : (model.rf.filter (isExact lib model)).getLast? with
  | some rf =>
    rw [matched,Option.map_some] at exact
    refine ⟨?_,fun falls => ?_⟩
    · simp only [predictedRows,exact,intendedRows,matched]
    · cases exact.symm.trans falls.1
  | none =>
    rw [matched,Option.map_none] at exact
    have used :=
      usedFields_frequent lib context model cutoff above (List.getLast?_eq_none_iff.mp matched)
    have sumW2 : (confSums lib context house model cutoff).sumW2 =
        ((model.rf.filter (isReliable lib model cutoff)).map (activation lib model)).sum := by
      rw [summed.sumW2,← usedFields,used,List.map_map]
      exact zero_add _
    have yp : (confSums lib context house model cutoff).yp =
        ((model.rf.filter (isReliable lib model cutoff)).map fun rf =>
          activation lib model rf * fieldPrediction lib context house model rf).sum := by
      refine gathered.yp.trans ?_
      rw [used,List.map_map]
      exact zero_add _
    by_cases none : model.rf.filter (isReliable lib model cutoff) = []
    · have idle : ¬(confSums lib context house model cutoff).sumW2 > 0 := by
        rw [sumW2,none]
        exact lt_irrefl 0
      have count : (confSums lib context house model cutoff).countRfs = 0 := by
        rw [summed.countRfs,← usedFields,used,none]
        rfl
      have errors := confSums_minError lib context house model cutoff stored none
      have guard : ((confSums lib context house model cutoff).wMax < useAqoThreshold ∧
          (confSums lib context house model cutoff).countRfs = 0) ∨
          ((confSums lib context house model cutoff).wMax > useAqoThreshold ∧
            (confSums lib context house model cutoff).minError > avgErrorThreshold) := by
        rw [confSums_wMax lib context house model cutoff stored]
        exact (lt_or_gt_of_ne largest).imp (fun less => ⟨less,count⟩) fun more => ⟨more,errors⟩
      refine ⟨?_,fun falls => falls.2.2 guard⟩
      simp only [predictedRows,exact,if_neg idle,if_pos guard,intendedRows,matched,if_pos none]
    · have positive : (confSums lib context house model cutoff).sumW2 > 0 := by
        rw [sumW2]
        refine sum_activation_pos lib model _ none fun rf within => ?_
        exact above.trans_lt (of_decide_eq_true (List.mem_filter.mp within).2).1
      refine ⟨?_,fun falls => falls.2.1 positive⟩
      simp only [predictedRows,exact,if_pos positive,intendedRows,matched,if_neg none,weightedMean]
      rw [sumW2,yp]

end Intended

end Outcome

theorem lwprPredictExplore_rows {nIn : Nat} (lib : CLibrary) (fssHash : Int) (context : CallContext)
    (house : Datahouse) (model : Model nIn) (storable : Storable fssHash model) (cutoff : ℚ)
    (x : Cells ℚ nIn) :
    (lwprPredictExplore lib context house model cutoff x).2.rows =
      predictedRows lib context house ((model.asked x).pushHistory context)
        (confSums lib context house (model.asked x) cutoff) := by
  have scale : (lwprPredictExplore lib context house model cutoff x).1.normOut = 1 :=
    congrArg Parameters.normOut (storable.lwprPredictExplore lib context house cutoff x).parameters
  calc
    _ = predictedRows lib context house ((model.asked x).pushHistory context)
          (confSums lib context house (model.asked x) cutoff) *
            (lwprPredictExplore lib context house model cutoff x).1.normOut := rfl
    _ = _ := by rw [scale,mul_one]

/-- For reachable models, the three outcomes of a prediction. -/
theorem lwprPredictExplore_intended {nIn : Nat} (lib : CLibrary) (fspaceHash fssHash : Int)
    (memory : Memory nIn) (reachable : Reachable lib fspaceHash fssHash memory)
    (context : CallContext) (here : context.fspaceHash = fspaceHash) (cutoff : ℚ)
    (above : 0 ≤ cutoff) (below : cutoff ≤ 999/1000) (x : Cells ℚ nIn)
    (largest : largestActivation lib (memory.model.asked x) ≠ useAqoThreshold) :
    (lwprPredictExplore lib context memory.house memory.model cutoff x).2.rows =
        intendedRows lib context memory.house (memory.model.asked x) cutoff ∧
      (∀ rf ∈ memory.model.rf, ∃ samples,
        loadRfDatahouse lib memory.house fspaceHash memory.model.fssHash rf.c = some samples) ∧
      ¬(confSums lib context memory.house (memory.model.asked x) cutoff).fallsBack := by
  subst here
  obtain ⟨value,stays⟩ :=
    predictedRows_intended lib context memory.house (memory.model.asked x) cutoff above below
      (reachable.sampled lib) largest ((memory.model.asked x).pushHistory context)
  refine ⟨?_,fun rf member => Option.isSome_iff_exists.mp (reachable.sampled lib rf member),stays⟩
  rw [lwprPredictExplore_rows lib fssHash context memory.house memory.model
    reachable.storable cutoff x,value]

/-- A model after two samples at zero. -/
def learnedTwice : Memory 1 :=
  (answer rationalLibrary (answer rationalLibrary ⟨fun _ _ _ => none,unlearned 1 7⟩
        (.update uniformContext 0 5)).1
    (.update uniformContext 0 3)).1

theorem learnedTwice_reachable : Reachable rationalLibrary 1 7 learnedTwice :=
  .called _ _ (.called _ _ (.fresh _) rfl) rfl

theorem lwprPredictExplore_intended_twice :
    (lwprPredictExplore rationalLibrary uniformContext learnedTwice.house
        learnedTwice.model (1/1000)
      (Cells.fill fun _ => 1/10)).2.rows =
        intendedRows rationalLibrary uniformContext learnedTwice.house
          (learnedTwice.model.asked (Cells.fill fun _ => 1/10)) (1/1000) ∧
      ¬(confSums rationalLibrary uniformContext learnedTwice.house
        (learnedTwice.model.asked (Cells.fill fun _ => 1/10)) (1/1000)).fallsBack := by
  obtain ⟨rows,_,stays⟩ := lwprPredictExplore_intended rationalLibrary 1 7 learnedTwice
    learnedTwice_reachable uniformContext rfl (1/1000) (by decide +kernel) (by decide +kernel)
    (Cells.fill fun _ => 1/10) (by decide +kernel)
  exact ⟨rows,stays⟩

end ExploratoryOptimizer.Aqo.Lwpr
