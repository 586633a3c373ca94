import ExploratoryOptimizer.Aqo.Lwpr.AddPrune
import ExploratoryOptimizer.Aqo.Lwpr.Means

/-! How many samples are stored for a receptive field, and when. -/
namespace ExploratoryOptimizer.Aqo.Lwpr
open Library.FixedArray Library.Machine OkNNr Session

def rowsAt (house : Datahouse) (fspaceHash fssHash key : Int) : Nat :=
  (house fspaceHash fssHash key).elim 0 (·.matrix.length)

/-- A call of `OkNNr_learn`: under which hash the samples are stored, how many there are before the
call, and whether the field is trusted. -/
structure LearnCall where
  key : Int
  rows : Nat
  trusted : Bool
  deriving DecidableEq

section Calls

variable {nIn : Nat} (lib : CLibrary) (context : CallContext)

def fieldCalls (house : Datahouse) (model : Model nIn) (rf : ReceptiveField nIn) : List LearnCall :=
  if activation lib model rf > 1/1000 ∧ ¬rf.nData.get 0 > 2 * nIn then
    [⟨rfHash lib rf.c,rowsAt house context.fspaceHash model.fssHash (rfHash lib rf.c),
        rf.trustworthy⟩]
  else []

def fieldsCalls (model : Model nIn) : Datahouse → List (ReceptiveField nIn) → List LearnCall
  | _,[] => []
  | house,rf :: rest =>
    fieldCalls lib context house model rf ++ fieldsCalls model
      (learnField lib context house model rf).2 rest

/-- The field that an update adds. -/
def createdField (model : Model nIn) (maxima : Maxima) : Option (ReceptiveField nIn) :=
  if maxima.wMax ≤ model.wGen then some (lwprAuxInitRf lib model (neighbour model maxima)) else none

def createdCalls (house : Datahouse) (model : Model nIn) (maxima : Maxima) : List LearnCall :=
  (createdField lib model maxima).toList.map fun rf =>
    ⟨rfHash lib rf.c,rowsAt house context.fspaceHash model.fssHash (rfHash lib rf.c),rf.trustworthy⟩

end Calls

section Run

variable {nIn : Nat} (lib : CLibrary)

/-- The calls of `OkNNr_learn` that a call makes, in their order. -/
def learnCalls (memory : Memory nIn) : Call nIn → List LearnCall
  | .update context x y =>
    let sample := memory.model.sampled x y
    let (learned,maxima,house) := lwprAuxUpdateOneT lib context memory.house sample
    fieldsCalls lib context sample memory.house sample.rf ++ createdCalls lib context
      house learned maxima
  | .predictExplore _ _ _ => []

/-- The hash of the centre of the field that a call creates. -/
def createdKey (memory : Memory nIn) : Call nIn → Option Int
  | .update context x y =>
    let (learned,maxima,_) := lwprAuxUpdateOneT lib context memory.house (memory.model.sampled x y)
    (createdField lib learned maxima).map fun rf => rfHash lib rf.c
  | .predictExplore _ _ _ => none

/-- A memory after a field was created whose samples are stored under the hash, where none were
before, and the calls of `OkNNr_learn` for this hash since. No field that is created later has the
hash. -/
inductive Living (fspaceHash fssHash key : Int) : List LearnCall → Memory nIn → Prop where
  | created (memory : Memory nIn) (call : Call nIn)
      (reachable : Reachable lib fspaceHash fssHash memory)
      (here : call.context.fspaceHash = fspaceHash) (new : createdKey lib memory call = some key)
      (empty : memory.house fspaceHash fssHash key = none) :
      Living fspaceHash fssHash key ((learnCalls lib memory call).filter (·.key = key))
        (answer lib memory call).1
  | called (calls : List LearnCall) (memory : Memory nIn) (call : Call nIn)
      (living : Living fspaceHash fssHash key calls memory)
      (here : call.context.fspaceHash = fspaceHash)
      (other : createdKey lib memory call ≠ some key) :
      Living fspaceHash fssHash key (calls ++ (learnCalls lib memory call).filter (·.key = key))
        (answer lib memory call).1
  | reloaded (calls : List LearnCall) (memory : Memory nIn)
      (living : Living fspaceHash fssHash key calls memory) :
      Living fspaceHash fssHash key calls (reload fssHash memory)

theorem Living.reachable {fspaceHash fssHash key : Int} {calls : List LearnCall}
    {memory : Memory nIn} (living : Living lib fspaceHash fssHash key calls memory) :
    Reachable lib fspaceHash fssHash memory := by
  induction living with
  | created memory call reachable here _ _ => exact .called memory call reachable here
  | called _ memory call _ here _ ih => exact .called memory call ih here
  | reloaded _ memory _ ih => exact .reloaded memory ih

end Run

/-! One call of `OkNNr_learn`. -/

theorem learn_rows (arith : Arithmetic) (matrixCols : Nat) (samples : Samples) (features : List ℚ)
    (target : ℚ) (k : Nat) (room : samples.matrix.length < k) :
    (learn arith matrixCols samples features target k).matrix.length ≤
      samples.matrix.length + 1 := by
  simp only [learn,if_pos room]
  split_ifs
  · exact (List.length_set).trans_le (Nat.le_succ _)
  · exact (List.length_append).le

section Store

variable {nIn : Nat} (lib : CLibrary)

theorem rowsAt_learn (house : Datahouse) (fspaceHash fssHash : Int)
    (centre : Cells ℚ (nInStore nIn)) (xn : Cells ℚ nIn) (yn : ℚ)
    (room : rowsAt house fspaceHash fssHash (rfHash lib centre) ≤ 2 * nIn) :
    rowsAt (learnRfDatahouse lib house fspaceHash fssHash centre xn yn) fspaceHash fssHash
      (rfHash lib centre) ≤ rowsAt house fspaceHash fssHash (rfHash lib centre) + 1 := by
  have written : learnRfDatahouse lib house fspaceHash fssHash centre xn yn fspaceHash fssHash
    (rfHash lib centre) =
      some (learn (.exact lib.sqrt) nIn
        ((loadRfDatahouse lib house fspaceHash fssHash centre).getD ⟨[],[]⟩) xn.toList yn
        (2 * nIn + 1)) := if_pos ⟨rfl,rfl,rfl⟩
  have before : ((loadRfDatahouse lib house fspaceHash fssHash centre).getD ⟨[],[]⟩).matrix.length =
      rowsAt house fspaceHash fssHash (rfHash lib centre) := by
    unfold loadRfDatahouse rowsAt
    cases house fspaceHash fssHash (rfHash lib centre) with
    | none => rfl
    | some samples => rfl
  rw [rowsAt,written,← before]
  exact learn_rows (.exact lib.sqrt) nIn _ xn.toList yn _ (Nat.lt_succ_of_le (before.trans_le room))

theorem learnRfDatahouse_other (house : Datahouse) (fspaceHash fssHash key : Int)
    (centre : Cells ℚ (nInStore nIn)) (xn : Cells ℚ nIn) (yn : ℚ)
    (other : rfHash lib centre ≠ key) :
    learnRfDatahouse lib house fspaceHash fssHash centre xn yn fspaceHash fssHash key =
      house fspaceHash fssHash key :=
  if_neg fun same => other same.2.2.symm

/-! One field learns a sample. The number of its samples is at most one more than the number of its
updates, which `nData` counts from a tenth of a billionth on. -/

def Counted (rf : ReceptiveField nIn) (rows : Nat) : Prop :=
  ∃ updates : Nat, rf.nData.get 0 = 1/10000000000 + updates ∧ rows ≤ updates + 1

theorem Counted.room {rf : ReceptiveField nIn} {rows : Nat} (counted : Counted rf rows)
    (few : ¬rf.nData.get 0 > 2 * nIn) : rows ≤ 2 * nIn := by
  obtain ⟨updates,count,bound⟩ := counted
  have less : (updates : ℚ) < (2 * nIn : Nat) := by
    rw [count] at few
    push_cast
    linarith [not_lt.mp few]
  exact bound.trans (Nat.cast_lt.mp less)

variable (context : CallContext) (model : Model nIn)

theorem fieldCalls_key (house : Datahouse) (rf : ReceptiveField nIn) :
    ∀ call ∈ fieldCalls lib context house model rf, call.key = rfHash lib rf.c := by
  intro call member
  unfold fieldCalls at member
  split_ifs at member
  · rw [List.mem_singleton.mp member]
  · cases member

/-- Samples are written in calls of `OkNNr_learn` only. -/
theorem learnField_silent (house : Datahouse) (rf : ReceptiveField nIn) (key : Int)
    (silent : ∀ call ∈ fieldCalls lib context house model rf, call.key ≠ key) :
    (learnField lib context house model rf).2 context.fspaceHash model.fssHash key =
      house context.fspaceHash model.fssHash key := by
  simp only [learnField,learnActive]
  split_ifs with active many
  · rfl
  · rw [fieldCalls,if_pos ⟨active,many⟩] at silent
    exact learnRfDatahouse_other lib house _ _ key rf.c _ _ (silent _ (List.mem_singleton_self _))
  · rfl

/-- The turn of the field whose samples they are. -/
theorem learnField_own (house : Datahouse) (rf : ReceptiveField nIn) (shaped : rf.Shaped)
    (parameters : model.toParameters = initParameters nIn)
    (within : rowsAt house context.fspaceHash model.fssHash (rfHash lib rf.c) ≤ 2 * nIn + 1)
    (counted : Counted rf (rowsAt house context.fspaceHash model.fssHash (rfHash lib rf.c))) :
    (∀ call ∈ fieldCalls lib context house model rf, call.rows ≤ 2 * nIn ∧ call.trusted = false) ∧
      rowsAt (learnField lib context house model rf).2 context.fspaceHash model.fssHash
      (rfHash lib rf.c) ≤ 2 * nIn + 1 ∧ Counted (learnField lib context house model rf).1
        (rowsAt (learnField lib context house model rf).2 context.fspaceHash model.fssHash
          (rfHash lib rf.c)) := by
  unfold learnField fieldCalls
  by_cases active : activation lib model rf > 1/1000
  · rw [if_pos active]
    have tally := learnActive_tally lib model shaped context house parameters active
    simp only [ReceptiveField.tally,Prod.mk.injEq] at tally
    obtain ⟨updates,count,bound⟩ := counted
    have next : (learnActive lib context house model rf).1.nData.get 0 = 1/10000000000 +
      (updates + 1 : Nat) := by
      rw [tally.2.1,count,Nat.cast_succ,add_assoc]
    by_cases many : rf.nData.get 0 > 2 * nIn
    · have kept : (learnActive lib context house model rf).2 = house := if_pos many
      rw [if_neg fun both => both.2 many,kept]
      exact ⟨List.forall_mem_nil _,within,updates + 1,next,bound.trans (Nat.le_succ _)⟩
    · have room := Counted.room ⟨updates,count,bound⟩ many
      have written : (learnActive lib context house model rf).2 =
          learnRfDatahouse lib house context.fspaceHash model.fssHash rf.c model.xn model.yn :=
            if_neg many
      have rows :=
        rowsAt_learn lib house context.fspaceHash model.fssHash rf.c model.xn model.yn room
      have untrusted : rf.trustworthy = false :=
        Bool.eq_false_iff.mpr fun trusted => many (shaped.trusted trusted)
      rw [if_pos ⟨active,many⟩,written]
      refine ⟨fun call member => ?_,rows.trans (Nat.succ_le_succ room),updates + 1,next,
        rows.trans (Nat.succ_le_succ bound)⟩
      rw [List.mem_singleton.mp member]
      exact ⟨room,untrusted⟩
  · rw [if_neg active,if_neg fun both => active both.1]
    exact ⟨List.forall_mem_nil _,within,counted⟩

/-! All fields learn a sample, one after the other. -/

theorem fieldsCalls_key (house : Datahouse) (fields : List (ReceptiveField nIn)) :
    ∀ call ∈ fieldsCalls lib context model house fields, ∃ rf ∈ fields,
      call.key = rfHash lib rf.c := by
  induction fields generalizing house with
  | nil => exact List.forall_mem_nil _
  | cons rf rest ih =>
    intro call member
    rcases List.mem_append.mp member with own | later
    · exact ⟨rf,List.mem_cons_self,fieldCalls_key lib context model house rf call own⟩
    · obtain ⟨other,within,same⟩ := ih _ call later
      exact ⟨other,List.mem_cons_of_mem _ within,same⟩

theorem learnFields_silent (house : Datahouse) (fields : List (ReceptiveField nIn)) (key : Int)
    (silent : ∀ call ∈ fieldsCalls lib context model house fields, call.key ≠ key) :
    (learnFields lib context model house fields).2 context.fspaceHash model.fssHash key =
      house context.fspaceHash model.fssHash key := by
  induction fields generalizing house with
  | nil => rfl
  | cons rf rest ih =>
    obtain ⟨own,later⟩ := List.forall_mem_append.mp silent
    exact (ih _ later).trans (learnField_silent lib context model house rf key own)

/-- The samples under a hash, which at most one field has. -/
structure Bounded (fspaceHash fssHash key : Int) (house : Datahouse)
    (fields : List (ReceptiveField nIn)) : Prop where
  within : rowsAt house fspaceHash fssHash key ≤ 2 * nIn + 1
  alone : (fields.map fun rf => rfHash lib rf.c).count key ≤ 1
  counted : ∀ rf ∈ fields, rfHash lib rf.c = key → Counted rf (rowsAt house fspaceHash fssHash key)

/-- What is kept to by the calls of `OkNNr_learn` for a hash. -/
def Allowed (nIn : Nat) (key : Int) (calls : List LearnCall) : Prop :=
  ∀ call ∈ calls, call.key = key → call.rows ≤ 2 * nIn ∧ call.trusted = false

theorem learnFields_keys (house : Datahouse) (fields : List (ReceptiveField nIn)) :
    ((learnFields lib context model house fields).1.map fun rf => rfHash lib rf.c) =
      fields.map fun rf => rfHash lib rf.c := by
  have centres :=
    congrArg (List.map (rfHash lib)) (learnFields_centres lib context house model fields)
  rw [List.map_map,List.map_map] at centres
  exact centres

theorem rowsAt_congr {house house' : Datahouse} {fspaceHash fssHash key : Int}
    (same : house' fspaceHash fssHash key = house fspaceHash fssHash key) :
    rowsAt house' fspaceHash fssHash key = rowsAt house fspaceHash fssHash key :=
  congrArg (fun samples => samples.elim 0 (·.matrix.length)) same

/-- What a list of fields does to samples that are not of any of them. -/
theorem learnFields_others (house : Datahouse) (fields : List (ReceptiveField nIn)) (key : Int)
    (others : ∀ rf ∈ fields, rfHash lib rf.c ≠ key) :
    Allowed nIn key (fieldsCalls lib context model house fields) ∧
      (learnFields lib context model house fields).2 context.fspaceHash model.fssHash key =
        house context.fspaceHash model.fssHash key ∧
      ∀ rf ∈ (learnFields lib context model house fields).1, rfHash lib rf.c ≠ key := by
  have silent : ∀ call ∈ fieldsCalls lib context model house fields, call.key ≠ key := by
    intro call member same
    obtain ⟨rf,within,hash⟩ := fieldsCalls_key lib context model house fields call member
    exact others rf within (hash.symm.trans same)
  refine ⟨fun call member same => absurd same (silent call member),
    learnFields_silent lib context model house fields key silent,fun rf member => ?_⟩
  obtain ⟨old,within,house',rfl⟩ := mem_learnFields lib context model house fields rf member
  rw [learnField_centre]
  exact others old within

theorem learnFields_bounded (house : Datahouse) (fields : List (ReceptiveField nIn)) (key : Int)
    (shaped : ∀ rf ∈ fields, rf.Shaped) (parameters : model.toParameters = initParameters nIn)
    (bounded : Bounded lib context.fspaceHash model.fssHash key house fields) :
    Allowed nIn key (fieldsCalls lib context model house fields) ∧
      Bounded lib context.fspaceHash model.fssHash key
      (learnFields lib context model house fields).2
        (learnFields lib context model house fields).1 := by
  have alone := bounded.alone
  rw [← learnFields_keys lib context model house fields] at alone
  suffices turns : Allowed nIn key (fieldsCalls lib context model house fields) ∧
      rowsAt (learnFields lib context model house fields).2 context.fspaceHash model.fssHash
      key ≤ 2 * nIn + 1 ∧
      ∀ rf ∈ (learnFields lib context model house fields).1, rfHash lib rf.c = key →
        Counted rf (rowsAt (learnFields lib context model house fields).2 context.fspaceHash
          model.fssHash key) from
    ⟨turns.1,turns.2.1,alone,turns.2.2⟩
  clear alone
  induction fields generalizing house with
  | nil => exact ⟨List.forall_mem_nil _,bounded.within,List.forall_mem_nil _⟩
  | cons rf rest ih =>
    obtain ⟨first,others⟩ := List.forall_mem_cons.mp shaped
    obtain ⟨own_counted,rest_counted⟩ := List.forall_mem_cons.mp bounded.counted
    have alone := bounded.alone
    rw [List.map_cons] at alone
    by_cases own : rfHash lib rf.c = key
    · subst own
      obtain ⟨calls,within,counted⟩ :=
        learnField_own lib context model house rf first parameters bounded.within (own_counted rfl)
      rw [List.count_cons_self] at alone
      have absent := List.count_eq_zero.mp (Nat.le_zero.mp (Nat.le_of_succ_le_succ alone))
      obtain ⟨later,kept,different⟩ := learnFields_others lib context model
        (learnField lib context house model rf).2 rest (rfHash lib rf.c)
        fun other member same => absent (List.mem_map.mpr ⟨other,member,same⟩)
      have rows := rowsAt_congr kept
      refine ⟨List.forall_mem_append.mpr ⟨fun call member _ => calls call member,later⟩,
        rows.trans_le within,List.forall_mem_cons.mpr ⟨fun _ => ?_,fun other member same =>
        absurd same (different other member)⟩⟩
      exact rows.symm ▸ counted
    · have silent : ∀ call ∈ fieldCalls lib context house model rf, call.key ≠ key :=
        fun call member same =>
        own ((fieldCalls_key lib context model house rf call member).symm.trans same)
      have rows := rowsAt_congr (learnField_silent lib context model house rf key silent)
      rw [List.count_cons_of_ne own] at alone
      obtain ⟨calls,within,counted⟩ := ih (learnField lib context house model rf).2 others
        ⟨rows.trans_le bounded.within,alone,fun other member same =>
        rows.symm ▸ rest_counted other member same⟩
      have different : rfHash lib (learnField lib context house model rf).1.c ≠ key := by
        rw [learnField_centre]
        exact own
      exact ⟨List.forall_mem_append.mpr
        ⟨fun call member same => absurd same (silent call member),calls⟩,within,
        List.forall_mem_cons.mpr ⟨fun same => absurd same different,counted⟩⟩

/-! The field that is added and the one that is pruned. -/

theorem createdCalls_key (house : Datahouse) (maxima : Maxima) :
    ∀ call ∈ createdCalls lib context house model maxima,
      (createdField lib model maxima).map (fun rf => rfHash lib rf.c) = some call.key := by
  intro call member
  obtain ⟨rf,created,rfl⟩ := List.mem_map.mp member
  rw [Option.mem_toList.mp created,Option.map_some]

theorem lwprAuxUpdateOneAddPrune_silent (house : Datahouse) (maxima : Maxima) (key : Int)
    (silent : ∀ call ∈ createdCalls lib context house model maxima, call.key ≠ key) :
    (lwprAuxUpdateOneAddPrune lib context house model maxima).2 context.fspaceHash
      model.fssHash key = house context.fspaceHash model.fssHash key := by
  unfold lwprAuxUpdateOneAddPrune
  split_ifs with low
  · rw [createdCalls,createdField,if_pos low] at silent
    exact learnRfDatahouse_other lib house _ _ key _ _ _ (silent _ (List.mem_singleton_self _))
  · rfl
  · rfl

theorem count_prune_le (fields : List (ReceptiveField nIn)) (place : Nat) (key : Int) :
    ((prune fields place).map fun rf => rfHash lib rf.c).count key ≤
      (fields.map fun rf => rfHash lib rf.c).count key := by
  rcases Nat.lt_or_ge place fields.length with within | beyond
  · rw [((prune_perm fields place within).map _).count_eq]
    exact ((List.eraseIdx_sublist fields place).map _).count_le key
  · unfold prune
    split
    · exact le_rfl
    · rw [List.set_eq_of_length_le beyond]
      exact ((List.dropLast_sublist fields).map _).count_le key

theorem count_pruned_le (maxima : Maxima) (key : Int) :
    ((pruned model maxima).rf.map fun rf => rfHash lib rf.c).count key ≤
      (model.rf.map fun rf => rfHash lib rf.c).count key := by
  unfold pruned
  split
  · exact count_prune_le lib model.rf _ key
  · exact le_rfl

theorem lwprAuxUpdateOneAddPrune_bounded (house : Datahouse) (maxima : Maxima) (key : Int)
    (other : (createdField lib model maxima).map (fun rf => rfHash lib rf.c) ≠ some key)
    (bounded : Bounded lib context.fspaceHash model.fssHash key house model.rf) :
    Bounded lib context.fspaceHash model.fssHash key
      (lwprAuxUpdateOneAddPrune lib context house model maxima).2
      (lwprAuxUpdateOneAddPrune lib context house model maxima).1.rf := by
  have silent : ∀ call ∈ createdCalls lib context house model maxima, call.key ≠ key :=
    fun call member same =>
    other ((createdCalls_key lib context model house maxima call member).trans (congrArg some same))
  have rows :=
    rowsAt_congr (lwprAuxUpdateOneAddPrune_silent lib context model house maxima key silent)
  suffices fields :
    ((lwprAuxUpdateOneAddPrune lib context house model maxima).1.rf.map fun rf =>
        rfHash lib rf.c).count
        key ≤ 1 ∧
      ∀ rf ∈ (lwprAuxUpdateOneAddPrune lib context house model maxima).1.rf, rfHash lib rf.c = key →
        rf ∈ model.rf from
    ⟨rows.trans_le bounded.within,fields.1,fun rf member same =>
      rows.symm ▸ bounded.counted rf (fields.2 rf member same) same⟩
  clear rows silent
  unfold lwprAuxUpdateOneAddPrune
  split_ifs with low
  · have apart : rfHash lib (lwprAuxInitRf lib model (neighbour model maxima)).c ≠ key := by
      rw [createdField,if_pos low,Option.map_some] at other
      exact fun same => other (congrArg some same)
    constructor
    · rw [List.map_append,List.map_singleton,List.count_append,List.count_singleton,
        if_neg (by simpa using apart)]
      exact bounded.alone
    · intro rf member same
      rcases List.mem_append.mp member with old | new
      · exact old
      · rw [List.mem_singleton.mp new] at same
        exact absurd same apart
  · exact ⟨(count_pruned_le lib model maxima key).trans bounded.alone,fun rf member _ =>
      mem_pruned model maxima rf member⟩
  · exact ⟨bounded.alone,fun rf member _ => member⟩

/-- The first sample of a field that is added. -/
theorem lwprAuxUpdateOneAddPrune_created (house : Datahouse) (maxima : Maxima) (key : Int)
    (dimension : 0 < nIn) (parameters : model.toParameters = initParameters nIn)
    (shaped : ∀ rf ∈ model.rf, rf.Shaped) (others : ∀ rf ∈ model.rf, rfHash lib rf.c ≠ key)
    (empty : house context.fspaceHash model.fssHash key = none)
    (new : (createdField lib model maxima).map (fun rf => rfHash lib rf.c) = some key) :
    Allowed nIn key (createdCalls lib context house model maxima) ∧
      Bounded lib context.fspaceHash model.fssHash key
      (lwprAuxUpdateOneAddPrune lib context house model maxima).2
        (lwprAuxUpdateOneAddPrune lib context house model maxima).1.rf := by
  by_cases low : maxima.wMax ≤ model.wGen
  · rw [createdField,if_pos low,Option.map_some] at new
    obtain rfl := Option.some.inj new
    have before : rowsAt house context.fspaceHash model.fssHash
        (rfHash lib (lwprAuxInitRf lib model (neighbour model maxima)).c) = 0 := by
      rw [rowsAt,empty]
      rfl
    have rows := rowsAt_learn lib house context.fspaceHash model.fssHash
      (lwprAuxInitRf lib model (neighbour model maxima)).c model.xn model.yn
      (before.trans_le (Nat.zero_le _))
    rw [before] at rows
    have started := lwprAuxInitRf_averaged lib model (neighbour model maxima) dimension parameters
      fun rf found => shaped rf (mem_neighbour model maxima rf found)
    rw [createdCalls,createdField,lwprAuxUpdateOneAddPrune,if_pos low,if_pos low]
    refine ⟨fun call member _ => ?_,rows.trans (Nat.le_add_left _ _),?_,fun rf member same => ?_⟩
    · rw [List.mem_singleton.mp member]
      exact ⟨before.trans_le (Nat.zero_le _),rfl⟩
    · have absent : List.count (rfHash lib (lwprAuxInitRf lib model (neighbour model maxima)).c)
          (model.rf.map fun rf => rfHash lib rf.c) = 0 := by
        refine List.count_eq_zero.mpr fun member => ?_
        obtain ⟨rf,within,same⟩ := List.mem_map.mp member
        exact others rf within same
      rw [List.map_append,List.map_singleton,List.count_append,absent,List.count_singleton_self]
    · rcases List.mem_append.mp member with old | new
      · exact absurd same (others rf old)
      · rw [List.mem_singleton.mp new]
        exact ⟨0,started.nData,rows⟩
  · rw [createdField,if_neg low] at new
    cases new

/-! Whole calls. -/

theorem Bounded.unread {fspaceHash fssHash key : Int} {house : Datahouse}
    {fields fields' : List (ReceptiveField nIn)}
    (bounded : Bounded lib fspaceHash fssHash key house fields)
    (same : fields'.map ReceptiveField.forget = fields.map ReceptiveField.forget) :
    Bounded lib fspaceHash fssHash key house fields' := by
  have keys : (fields'.map fun rf => rfHash lib rf.c) = fields.map fun rf => rfHash lib rf.c := by
    have hashes := congrArg (List.map fun rf => rfHash lib rf.c) same
    rw [List.map_map,List.map_map] at hashes
    exact hashes
  refine ⟨bounded.within,keys ▸ bounded.alone,fun rf member own => ?_⟩
  obtain ⟨old,within,alike⟩ := mem_of_forget same rf member
  have centre : rf.forget.c = old.forget.c := by rw [alike]
  have data : rf.forget.nData = old.forget.nData := by rw [alike]
  change rf.c = old.c at centre
  change rf.nData = old.nData at data
  rw [centre] at own
  obtain ⟨updates,count,bound⟩ := bounded.counted old within own
  rw [← data] at count
  exact ⟨updates,count,bound⟩

theorem learnFields_shaped (house : Datahouse) (fields : List (ReceptiveField nIn))
    (shaped : ∀ rf ∈ fields, rf.Shaped) (parameters : model.toParameters = initParameters nIn) :
    ∀ rf ∈ (learnFields lib context model house fields).1, rf.Shaped := by
  intro rf member
  obtain ⟨old,within,house',rfl⟩ := mem_learnFields lib context model house fields rf member
  unfold learnField
  split_ifs with active
  · exact learnActive_shaped lib context house' model old parameters active (shaped old within)
  · exact shaped_unread old _ rfl (shaped old within)

end Store

section Answers

variable {nIn : Nat} (lib : CLibrary) {fspaceHash fssHash key : Int} {memory : Memory nIn}
  (reachable : Reachable lib fspaceHash fssHash memory)
include reachable

/-- Samples are stored in calls of `OkNNr_learn` only. -/
theorem answer_silent (call : Call nIn) (here : call.context.fspaceHash = fspaceHash)
    (silent : ∀ learned ∈ learnCalls lib memory call, learned.key ≠ key) :
    (answer lib memory call).1.house fspaceHash fssHash key =
      memory.house fspaceHash fssHash key := by
  obtain rfl := here
  obtain rfl := reachable.storable.hash
  cases call with
  | update context x y =>
    have updated :
      Learned _ (learnFields lib context (memory.model.sampled x y) memory.house memory.model.rf)
        _ :=
      lwprAuxUpdateOneT_learned lib context memory.house (memory.model.sampled x y)
    obtain ⟨learned,created⟩ := List.forall_mem_append.mp silent
    have kept :=
      learnFields_silent lib context (memory.model.sampled x y) memory.house
        memory.model.rf key learned
    rw [← updated.house] at kept
    have added := lwprAuxUpdateOneAddPrune_silent lib context
      (lwprAuxUpdateOneT lib context memory.house (memory.model.sampled x y)).1 _ _ key created
    rw [updated.hash] at added
    exact added.trans kept
  | predictExplore context x cutoff => rfl

variable (dimension : 0 < nIn)
include dimension

/-- A call that does not create a field with the hash. -/
theorem answer_bounded (bounded : Bounded lib fspaceHash fssHash key memory.house memory.model.rf)
    (call : Call nIn) (here : call.context.fspaceHash = fspaceHash)
    (other : createdKey lib memory call ≠ some key) :
    Allowed nIn key (learnCalls lib memory call) ∧
      Bounded lib fspaceHash fssHash key (answer lib memory call).1.house
      (answer lib memory call).1.model.rf := by
  obtain rfl := here
  obtain rfl := reachable.storable.hash
  cases call with
  | update context x y =>
    have updated :
      Learned _ (learnFields lib context (memory.model.sampled x y) memory.house memory.model.rf)
        _ :=
      lwprAuxUpdateOneT_learned lib context memory.house (memory.model.sampled x y)
    have hash : _ = memory.model.fssHash := updated.hash
    obtain ⟨calls,learned⟩ :=
      learnFields_bounded lib context (memory.model.sampled x y) memory.house memory.model.rf key
        (reachable.grown.shaped lib dimension) reachable.storable.parameters bounded
    change Bounded lib context.fspaceHash memory.model.fssHash key _ _ at learned
    rw [← hash,← updated.fields,← updated.house] at learned
    rw [← hash]
    refine ⟨List.forall_mem_append.mpr ⟨calls,fun call member same => absurd ?_ other⟩,
      lwprAuxUpdateOneAddPrune_bounded lib context _ _ _ key other learned⟩
    exact (createdCalls_key lib context _ _ _ call member).trans (congrArg some same)
  | predictExplore context x cutoff =>
    exact ⟨List.forall_mem_nil _,
      bounded.unread lib (lwprPredictExplore_fields lib context memory.house memory.model cutoff x)⟩

/-- The call that creates the field. Any other field with the hash would have had samples. -/
theorem answer_created (call : Call nIn) (here : call.context.fspaceHash = fspaceHash)
    (new : createdKey lib memory call = some key)
    (empty : memory.house fspaceHash fssHash key = none) :
    Allowed nIn key (learnCalls lib memory call) ∧
      Bounded lib fspaceHash fssHash key (answer lib memory call).1.house
      (answer lib memory call).1.model.rf := by
  obtain rfl := here
  obtain rfl := reachable.storable.hash
  cases call with
  | update context x y =>
    have others : ∀ rf ∈ memory.model.rf, rfHash lib rf.c ≠ key := by
      intro rf member same
      have stored := reachable.sampled lib rf member
      rw [loadRfDatahouse,same] at stored
      exact absurd ((congrArg Option.isSome empty).symm.trans stored) Bool.false_ne_true
    have updated :
      Learned _ (learnFields lib context (memory.model.sampled x y) memory.house memory.model.rf)
        _ :=
      lwprAuxUpdateOneT_learned lib context memory.house (memory.model.sampled x y)
    have parameters := updated.parameters.trans reachable.storable.parameters
    have hash : _ = memory.model.fssHash := updated.hash
    have shaped :=
      learnFields_shaped lib context (memory.model.sampled x y) memory.house memory.model.rf
        (reachable.grown.shaped lib dimension) reachable.storable.parameters
    obtain ⟨calls,kept,apart⟩ :=
      learnFields_others lib context (memory.model.sampled x y) memory.house
        memory.model.rf key others
    have still := kept.trans empty
    change (learnFields lib context _ _ _).2 context.fspaceHash memory.model.fssHash
      key = none at still
    rw [← hash,← updated.house] at still
    rw [← updated.fields] at shaped apart
    rw [← hash]
    obtain ⟨first,finished⟩ :=
      lwprAuxUpdateOneAddPrune_created lib context _ _ _ key dimension parameters
        shaped apart still new
    exact ⟨List.forall_mem_append.mpr ⟨calls,first⟩,finished⟩
  | predictExplore context x cutoff => cases new

end Answers

section Life

variable {nIn : Nat} (lib : CLibrary)

theorem Living.bounded {fspaceHash fssHash key : Int} {calls : List LearnCall} {memory : Memory nIn}
    (living : Living lib fspaceHash fssHash key calls memory) (dimension : 0 < nIn) :
    (∀ call ∈ calls, call.rows ≤ 2 * nIn ∧ call.trusted = false) ∧
      Bounded lib fspaceHash fssHash key memory.house memory.model.rf := by
  induction living with
  | created memory call reachable here new empty =>
    obtain ⟨allowed,bounded⟩ := answer_created lib reachable dimension call here new empty
    refine ⟨fun learned member => ?_,bounded⟩
    obtain ⟨within,own⟩ := List.mem_filter.mp member
    exact allowed learned within (of_decide_eq_true own)
  | called calls memory call living here other ih =>
    obtain ⟨allowed,bounded⟩ := answer_bounded lib living.reachable dimension ih.2 call here other
    refine ⟨List.forall_mem_append.mpr ⟨ih.1,fun learned member => ?_⟩,bounded⟩
    obtain ⟨within,own⟩ := List.mem_filter.mp member
    exact allowed learned within (of_decide_eq_true own)
  | reloaded calls memory living ih =>
    refine ⟨ih.1,ih.2.unread lib ?_⟩
    rw [reload_model fssHash memory living.reachable.storable]
    exact ReceptiveField.map_forget_map_forget memory.model.rf

/-- The samples of a field whose hash no later field has are bounded, are learned only while the
field is not trusted, and never by a call that finds the matrix full. -/
theorem sample_store_bounded (dimension : 0 < nIn) (fspaceHash fssHash key : Int)
    (calls : List LearnCall) (memory : Memory nIn)
    (living : Living lib fspaceHash fssHash key calls memory) :
    rowsAt memory.house fspaceHash fssHash key ≤ 2 * nIn + 1 ∧
      (∀ call ∈ calls, call.rows ≤ 2 * nIn ∧ call.trusted = false) ∧
      ∀ next : Call nIn, next.context.fspaceHash = fspaceHash →
        (∀ call ∈ learnCalls lib memory next, call.key ≠ key) →
          (answer lib memory next).1.house fspaceHash fssHash key =
          memory.house fspaceHash fssHash key := by
  obtain ⟨allowed,bounded⟩ := living.bounded lib dimension
  exact ⟨bounded.within,allowed,fun next here silent =>
    answer_silent lib living.reachable next here silent⟩

end Life

theorem sample_store_bounded_twice :
    rowsAt learnedTwice.house 1 7 (rationalLibrary.intArrayHash2 [0]) ≤ 3 := by
  have living : Living rationalLibrary 1 7 (rationalLibrary.intArrayHash2 [0]) _ learnedTwice :=
    .called _ _ _ (.created _ _ (.fresh _) rfl (by decide +kernel) rfl) rfl (by decide +kernel)
  exact (sample_store_bounded rationalLibrary Nat.one_pos 1 7 _ _ _ living).1

/-- The hash of centres is that of the source also where they are not whole numbers. -/
def fractionLibrary : CLibrary :=
  {rationalLibrary with intArrayHash2 := HashAny.getFractionArrayHash2}

def colliding (n : Nat) : Call 1 :=
  .update uniformContext (Cells.fill fun _ =>
      [-20127/4096,-23749/1024,-20127/4096 + 1/4,-23749/1024 + 1/4].getD n 0) n

def collided : Memory 1 :=
  (run (answer fractionLibrary) ⟨fun _ _ _ => none,unlearned 1 7⟩
      [colliding 0,colliding 1,colliding 2]).1

/-- Two fields whose centres have the same hash share their samples: the second one learns its
second sample into a full matrix. -/
theorem sample_store_overfull :
    createdKey fractionLibrary ⟨fun _ _ _ => none,unlearned 1 7⟩ (colliding 0) = some 168691270 ∧
      learnCalls fractionLibrary collided (colliding 3) = [⟨168691270,2 * 1 + 1,false⟩] := by
  decide +kernel

end ExploratoryOptimizer.Aqo.Lwpr
