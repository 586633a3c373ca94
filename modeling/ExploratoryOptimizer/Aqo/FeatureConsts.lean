import ExploratoryOptimizer.Aqo.FeatureSubspace
import ExploratoryOptimizer.Aqo.QueryHash
import ExploratoryOptimizer.Library.Erasure.Alike

/-! Clause hashes and feature subspaces do not depend on the contents of constants and on
locations. -/
namespace ExploratoryOptimizer.Aqo.FeatureConsts
open Hash QueryHash FeatureSubspace Library.Sorting Library.Erasure

/-- Texts that differ only inside the bodies of constants. -/
abbrev SameButConsts : Text → Text → Prop := Alike "\x7bCONST".toList isBrace

/-- Texts that differ only inside the bodies of constants and in locations. -/
abbrev SimilarText : Text → Text → Prop :=
  Similar "\x7bCONST".toList isBrace " :location".toList isBrace

theorem replacePatterns_erase (str : Text) (start : String) (stop : Char → Bool) :
    replacePatterns str start stop = erase start.toList stop [] str :=
  replaceFrom_erase start.toList stop [] str

theorem removeConsts_alike (text text' : Text) (alike : SameButConsts text text') :
    removeConsts text = removeConsts text' := by
  rw [removeConsts,removeConsts,replacePatterns_erase,replacePatterns_erase]
  exact alike.erase (.refl _ _ [])

theorem removeLocations_similar (text text' : Text) (similar : SimilarText text text') :
    removeLocations (removeConsts text) = removeLocations (removeConsts text') := by
  rw [removeLocations,removeLocations,removeConsts,removeConsts]
  simp only [replacePatterns_erase]
  exact (similar.erase (by decide) (by decide) (.refl _ _ [])).erase (.refl _ _ [])

mutual

/-- The same expression but for the contents of constants, printed without braces, and locations. -/
inductive Agree : Node → Node → Prop where
  | var (varno : Nat) (varattno : Int) (vartype : Nat) (vartypmod : Int)
      (varcollid varlevelsup varnoold : Nat) (varoattno location location' : Int) :
      Agree (.var varno varattno vartype vartypmod varcollid varlevelsup varnoold
          varoattno location)
        (.var varno varattno vartype vartypmod varcollid varlevelsup varnoold varoattno location')
  | const (fields fields' : Text) (free : fields.any isBrace = false)
      (free' : fields'.any isBrace = false) :
      Agree (.const fields) (.const fields')
  | param (paramid : Int) : Agree (.param paramid) (.param paramid)
  | clause (type : ClauseType) (opno : Nat) (fields : Text) (arg arg' : Node)
      (args args' : List Node) (location location' : Int) (first : Agree arg arg')
      (rest : AgreeAll args args') :
      Agree (.clause type opno fields arg args location)
        (.clause type opno fields arg' args' location')
  | other (text text' : Text) (similar : SimilarText text text') :
    Agree (.other text) (.other text')

inductive AgreeAll : List Node → List Node → Prop where
  | nil : AgreeAll [] []
  | cons (node node' : Node) (nodes nodes' : List Node) (first : Agree node node')
      (rest : AgreeAll nodes nodes') :
      AgreeAll (node :: nodes) (node' :: nodes')

end

theorem location_foreign (location : Int) :
    ∀ c ∈ " :location".toList ++ ' ' :: number location, c ∉ "\x7bCONST".toList ∧
      isBrace c = false := by
  have pattern : ∀ c ∈ "\x7bCONST".toList, isNumeric c = false := by
    have none : "\x7bCONST".toList.any isNumeric = false := by decide
    simpa using none
  have name : (" :location ".toList.all fun c => !"\x7bCONST".toList.contains c && !isBrace c) =
    true := by decide
  intro c member
  have split :
    " :location".toList ++ ' ' :: number location = " :location ".toList ++ number location := rfl
  rw [split,List.mem_append] at member
  rcases member with fixed | digit
  · simpa using List.all_eq_true.mp name c fixed
  · exact number_foreign _ _ location pattern isBrace_numeric c digit

theorem similar_located (before before' : Text) (similar : SimilarText before before')
    (location location' : Int) :
    SimilarText (braced (before ++ field "location" (number location)))
      (braced (before' ++ field "location" (number location'))) := by
  have free (value : Int) : ∀ c ∈ ' ' :: number value, isBrace c = false :=
    fun c member => (location_foreign value c (List.mem_append_right _ member)).2
  have last : SimilarText (" :location".toList ++ (' ' :: number location ++ ['\x7d']))
      (" :location".toList ++ (' ' :: number location' ++ ['\x7d'])) :=
    .second _ _ '\x7d' [] [] (location_foreign location) (location_foreign location')
      (free location) (free location')
      rfl (by decide) rfl (by decide) .nil
  have whole := (similar.append last).prepend ['\x7b']
  have text (before : Text) (value : Int) : braced (before ++ field "location" (number value)) =
      ['\x7b'] ++ (before ++ (" :location".toList ++ (' ' :: number value ++ ['\x7d']))) := by
    simp [braced,field]
  rw [text,text]
  exact whole

theorem similar_const (fields fields' : Text) (free : fields.any isBrace = false)
    (free' : fields'.any isBrace = false) :
    SimilarText (nodeToString (.const fields)) (nodeToString (.const fields')) := by
  have text (fields : Text) :
    nodeToString (.const fields) = "\x7bCONST".toList ++ (fields ++ ['\x7d']) := by
    simp [nodeToString,braced]
  rw [text,text]
  exact .first _ _ '\x7d' [] [] (by simpa using free) (by simpa using free') rfl (by decide) .nil

mutual

theorem Agree.similar : ∀ {node node' : Node}, Agree node node' → SimilarText (nodeToString node)
    (nodeToString node')
  | _,_,.var varno varattno vartype vartypmod varcollid varlevelsup varnoold varoattno
      location location' => by
    rw [nodeToString,nodeToString]
    exact similar_located _ _ (.refl _) location location'
  | _,_,.const fields fields' free free' => similar_const fields fields' free free'
  | _,_,.param paramid => .refl _
  | _,_,.clause type opno fields arg arg' args args' location location' first rest => by
    rw [nodeToString,nodeToString]
    refine similar_located _ _ ?_ location location'
    exact Similar.prepend _ (Similar.prepend _
        (.cons ' ' _ _ (.cons '(' _ _ (first.similar.append rest.similar))))
  | _,_,.other text text' similar => by
    rw [nodeToString,nodeToString]
    exact similar

theorem AgreeAll.similar : ∀ {nodes nodes' : List Node}, AgreeAll nodes nodes' →
    SimilarText (moreToString nodes) (moreToString nodes')
  | _,_,.nil => .refl _
  | _,_,.cons node node' nodes nodes' first rest => by
    rw [moreToString,moreToString]
    exact .cons ' ' _ _ (first.similar.append rest.similar)

end

/-! Hashes of clauses that agree. -/

section Hashes

variable (hash : HashAny)

theorem Agree.nodeHash {node node' : Node} (agree : Agree node node') :
    getNodeHash hash node = getNodeHash hash node' := by
  rw [getNodeHash,getNodeHash,removeLocations_similar _ _ agree.similar]

theorem Agree.isConst {node node' : Node} (agree : Agree node node') :
    node.isConst = node'.isConst := by
  cases agree with
  | var => rfl
  | const => rfl
  | param => rfl
  | clause => rfl
  | other => rfl

theorem AgreeAll.map_eq {β : Type} {f : Node → β}
    (same : ∀ node node', Agree node node' → f node = f node') {nodes nodes' : List Node}
    (agree : AgreeAll nodes nodes') : nodes.map f = nodes'.map f := by
  induction nodes generalizing nodes' with
  | nil =>
    cases agree
    rfl
  | cons node nodes ih =>
    cases agree with
    | cons _ node' _ nodes' first rest =>
      rw [List.map_cons,List.map_cons,same node node' first,ih rest]

theorem AgreeAll.hashes {nodes nodes' : List Node} (agree : AgreeAll nodes nodes') :
    ((nodes.filter fun arg => !arg.isConst).map (getNodeHash hash)) =
      ((nodes'.filter fun arg => !arg.isConst).map (getNodeHash hash)) := by
  have marked (args : List Node) : (args.filter fun arg => !arg.isConst).map (getNodeHash hash) =
      ((args.map fun arg => (arg.isConst,getNodeHash hash arg)).filter fun pair =>
        !pair.1).map Prod.snd := by
    rw [List.filter_map,List.map_map]
    rfl
  rw [marked,marked,agree.map_eq fun _ _ first => Prod.ext first.isConst (first.nodeHash hash)]

theorem AgreeAll.hasConsts {nodes nodes' : List Node} (agree : AgreeAll nodes nodes') :
    hasConsts nodes = hasConsts nodes' := by
  have marked (args : List Node) : Hash.hasConsts args = (args.map Node.isConst).any id := by
    rw [List.any_map]
    rfl
  rw [marked,marked,agree.map_eq fun _ _ first => first.isConst]

theorem Agree.eqArgHashes {node node' : Node} (agree : Agree node node') :
    eqArgHashes hash node = eqArgHashes hash node' := by
  cases agree with
  | var => rfl
  | const => rfl
  | param => rfl
  | clause type opno fields arg arg' args args' location location' first rest =>
    have all := AgreeAll.hashes hash (.cons arg arg' args args' first rest)
    exact congrArg (fun hashes => if eqOperators.contains opno then hashes else []) all
  | other => rfl

theorem Agree.clauseHasConsts {node node' : Node} (agree : Agree node node') :
    clauseHasConsts node = clauseHasConsts node' := by
  cases agree with
  | var => rfl
  | const => rfl
  | param => rfl
  | clause type opno fields arg arg' args args' location location' first rest =>
    exact AgreeAll.hasConsts (.cons arg arg' args args' first rest)
  | other => rfl

theorem Agree.classArg {node node' : Node} (agree : Agree node node') (eclasses : Eclasses) :
    Agree (classArg (getNodeHash hash) eclasses node)
      (classArg (getNodeHash hash) eclasses node') := by
  unfold Hash.classArg
  rw [agree.nodeHash hash]
  dsimp only
  split
  · exact .param _
  · exact agree

theorem AgreeAll.classArgs {nodes nodes' : List Node} (agree : AgreeAll nodes nodes')
    (eclasses : Eclasses) :
    AgreeAll (nodes.map (Hash.classArg (getNodeHash hash) eclasses))
      (nodes'.map (Hash.classArg (getNodeHash hash) eclasses)) := by
  induction nodes generalizing nodes' with
  | nil =>
    cases agree
    exact .nil
  | cons node nodes ih =>
    cases agree with
    | cons _ node' _ nodes' first rest =>
      exact .cons _ _ _ _ (first.classArg hash eclasses) (ih rest)

theorem Agree.hashedNode {node node' : Node} (agree : Agree node node') (eclasses : Eclasses) :
    Agree (hashedNode (getNodeHash hash) eclasses node)
      (hashedNode (getNodeHash hash) eclasses node') := by
  cases agree with
  | var => exact .var ..
  | const _ _ free free' => exact .const _ _ free free'
  | param => exact .param _
  | clause type opno fields arg arg' args args' location location' first rest =>
    have head := first.classArg hash eclasses
    have tail := rest.classArgs hash eclasses
    have consts := AgreeAll.hasConsts (.cons _ _ _ _ head tail)
    rw [hashedNode_clause,hashedNode_clause,consts]
    by_cases whole :
      (!eqOperators.contains opno ||
          Hash.hasConsts (Hash.classArg (getNodeHash hash) eclasses arg' ::
        args'.map (Hash.classArg (getNodeHash hash) eclasses))) = true
    · rw [if_pos whole,if_pos whole]
      exact .clause _ _ _ _ _ _ _ _ _ head tail
    · rw [if_neg whole,if_neg whole]
      exact head
  | other _ _ similar => exact .other _ _ similar

theorem Agree.clauseHash {node node' : Node} (agree : Agree node node') (eclasses : Eclasses) :
    getClauseHash hash eclasses node = getClauseHash hash eclasses node' :=
  (agree.hashedNode hash eclasses).nodeHash hash

theorem getEclasses_agree (clauselist clauselist' : List Node)
    (agree : List.Forall₂ Agree clauselist clauselist') :
    getEclasses hash clauselist = getEclasses hash clauselist' := by
  have hashes {γ : Type} (f : List Int → List γ) :
      (clauselist.flatMap fun clause => f (eqArgHashes hash clause)) =
        clauselist'.flatMap fun clause => f (eqArgHashes hash clause) := by
    induction agree with
    | nil => rfl
    | cons first _ ih => rw [List.flatMap_cons,List.flatMap_cons,first.eqArgHashes hash,ih]
  refine getEclasses_congr hash clauselist clauselist' ?_ ?_
  · rw [getClauselistArgs,getClauselistArgs]
    exact congrArg (fun args => dedupSorted (args.insertionSort (· ≤ ·))) (hashes id)
  · intro v w
    rw [linkedPairs,linkedPairs,hashes neighbours]

end Hashes

theorem zip_alike {α : Type} {R : α → α → Prop} (first first' : List α) (second second' : List ℚ)
    (related : List.Forall₂ R first first') (length : second.length = first.length)
    (length' : second'.length = first'.length) :
    List.Forall₂ (fun object object' => R object.1 object'.1) (first.zip second)
      (first'.zip second') := by
  induction related generalizing second second' with
  | nil => exact .nil
  | cons here _ ih =>
    cases second with
    | nil => cases length
    | cons value second =>
      cases second' with
      | nil => cases length'
      | cons value' second' =>
        exact .cons here (ih second second' (Nat.succ.inj length) (Nat.succ.inj length'))

/-- Clauses that agree but for constants and locations give the same feature subspace, whatever
their selectivities. The core is that constants are cut out of a text. -/
theorem getFssForObject_const_free (hash : HashAny) (log : ℚ → ℚ) (sorter sorter' : Sorter) :
    (∀ text text', SameButConsts text text' → removeConsts text = removeConsts text') ∧
    ∀ (clauselist clauselist' : List Node) (selectivities selectivities' : List
        ℚ) (relidslist : List Int),
      List.Forall₂ Agree clauselist clauselist' → selectivities.length = clauselist.length →
      selectivities'.length = clauselist'.length →
      ∃ fss fss', getFssForObject sorter hash log clauselist selectivities relidslist = some fss ∧
        getFssForObject sorter' hash log clauselist' selectivities' relidslist = some fss' ∧
        fss.nfeatures = fss'.nfeatures ∧ fss.fssHash = fss'.fssHash := by
  refine ⟨removeConsts_alike,?_⟩
  intro clauselist clauselist' selectivities selectivities' relidslist agree length length'
  obtain ⟨eclasses,found,result⟩ :=
    getFssForObject_some sorter hash log (clauselist.zip selectivities) relidslist
  obtain ⟨eclasses',found',result'⟩ :=
    getFssForObject_some sorter' hash log (clauselist'.zip selectivities') relidslist
  rw [List.map_fst_zip length.ge] at found result
  rw [List.map_fst_zip length'.ge] at found' result'
  rw [List.map_snd_zip length.le] at result
  rw [List.map_snd_zip length'.le] at result'
  have same : eclasses = eclasses' := by
    rw [getEclasses_agree hash clauselist clauselist' agree,found'] at found
    exact (Option.some.inj found).symm
  subst same
  refine ⟨_,_,result,result',?_⟩
  have kept := keptObjects_alike hash eclasses (fun object => getClauseHash hash eclasses object.1)
    (clauselist.zip selectivities) (clauselist'.zip selectivities')
    ((zip_alike _ _ _ _ agree length length').imp fun _ _ both =>
      ⟨⟨both.clauseHash hash eclasses,both.clauseHasConsts⟩,both.clauseHash hash eclasses⟩)
  constructor
  · have sizes := congrArg List.length kept
    rw [List.length_map,List.length_map] at sizes
    simp only [fssOf,length_orderedCells]
    exact sizes
  · simp only [fssOf,orderedCells_hashes,kept]

def int4Const (value location : Int) : Node :=
  .const (ConstFields.text ⟨23,-1,0,4,true,location,some (4,[value,0,0,0,0,0,0,0])⟩)

/-- A column compared with a constant. -/
def columnIs (value location : Int) : Node :=
  int4Clause 96 65 (int4Var 1 1 location) (int4Const value (location + 4)) 0

theorem columnIs_agree (value value' location location' : Int) : Agree (columnIs value location)
    (columnIs value' location') := by
  have free (fields : ConstFields) : fields.text.any isBrace = false := by
    refine List.any_eq_false.mpr fun c member => ?_
    have modest := List.all_eq_true.mp (constText_modest fields) c member
    simp_all [isModest]
  exact .clause _ _ _ _ _ _ _ _ _ (.var ..) (.cons _ _ _ _ (.const _ _ (free _) (free _)) .nil)

theorem getFssForObject_const_free_column :
    ∃ fss fss', getFssForObject insertionSorter exactHash id [columnIs 5 0] [1/2] [1] = some fss ∧
      getFssForObject insertionSorter exactHash id [columnIs 7 9] [1/3] [1] = some fss' ∧
      fss.nfeatures = fss'.nfeatures ∧ fss.fssHash = fss'.fssHash :=
  (getFssForObject_const_free exactHash id insertionSorter insertionSorter).2 [columnIs 5 0]
    [columnIs 7 9] [1/2] [1/3] [1] (.cons (columnIs_agree ..) .nil) rfl rfl

end ExploratoryOptimizer.Aqo.FeatureConsts
