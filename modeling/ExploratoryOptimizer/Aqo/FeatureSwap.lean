import ExploratoryOptimizer.Aqo.Eclasses
import ExploratoryOptimizer.Aqo.FeatureConsts

/-! The arguments of an equality clause in the other order: the feature subspace stays the same
unless the clause compares a constant with something else. -/
namespace ExploratoryOptimizer.Aqo.FeatureSwap
open Hash QueryHash FeatureSubspace FeatureConsts Eclasses Library Library.Sorting Library.Erasure

/-- An equality clause of two arguments may have them the other way round. -/
inductive Swapped : Node → Node → Prop where
  | same (clause : Node) : Swapped clause clause
  | swap (type : ClauseType) (opno : Nat) (fields : Text) (arg other : Node) (location : Int)
      (equality : eqOperators.contains opno = true) :
      Swapped (.clause type opno fields arg [other] location)
        (.clause type opno fields other [arg] location)

/-- An equality of a constant with something that is none. -/
def isMixed : Node → Bool
  | .clause _ opno _ arg [other] _ => eqOperators.contains opno && arg.isConst != other.isConst
  | _ => false

/-- Constants are printed without braces inside, and only constants begin like one. -/
def ArgPrinted : Node → Prop
  | .const fields => fields.any isBrace = false
  | .other text => ¬"\x7bCONST".toList <+: text
  | _ => True

/-- Clauses as `nodeToString` prints them. -/
def WellPrinted : Node → Prop
  | .clause _ _ fields arg args _ =>
    fields.any isBrace = false ∧ ∀ node ∈ arg :: args, ArgPrinted node
  | _ => True

/-- No class has the hash that stands for no class. -/
def ClassesNonzero (hash : HashAny) (clauselist : List Node) : Prop :=
  ∀ eclasses, getEclasses hash clauselist = some eclasses →
    ∀ eclassHash ∈ eclasses.eclassHash, eclassHash ≠ 0

/-! The text that is hashed. -/

def hashedText (text : Text) : Text :=
  removeVarnoold (removeVarno (removeLocations (removeConsts text)))

theorem take_hashedText (text : Text) : (hashedText text).take 6 = text.take 6 := by
  simp only [hashedText,removeVarnoold,removeVarno,removeLocations,removeConsts,
    replacePatterns_erase]
  rw [take_erase _ 6 (by decide),take_erase _ 6 (by decide),take_erase _ 6 (by decide),
    take_erase _ 6 (by decide)]

theorem not_const_start (c : Char) (rest : Text) (other : 'C' ≠ c) :
    ¬"\x7bCONST".toList <+: '\x7b' :: c :: rest := by
  intro starts
  obtain ⟨_,later⟩ := List.cons_prefix_cons.mp starts
  exact other (List.cons_prefix_cons.mp later).1

theorem const_start (node : Node) (printed : ArgPrinted node)
    (starts : "\x7bCONST".toList <+: nodeToString node) :
    node.isConst = true := by
  cases node with
  | var =>
    rw [nodeToString] at starts
    exact absurd starts (not_const_start 'V' _ (by decide))
  | const => rfl
  | param =>
    rw [nodeToString] at starts
    exact absurd starts (not_const_start 'P' _ (by decide))
  | clause type =>
    rw [nodeToString] at starts
    cases type with
    | opExpr => exact absurd starts (not_const_start 'O' _ (by decide))
    | distinctExpr => exact absurd starts (not_const_start 'D' _ (by decide))
    | nullIfExpr => exact absurd starts (not_const_start 'N' _ (by decide))
    | scalarArrayOpExpr => exact absurd starts (not_const_start 'S' _ (by decide))
  | other text =>
    rw [nodeToString] at starts
    exact absurd starts printed

/-- A constant is hashed apart from everything else. -/
theorem const_hash_apart (hash : HashAny) (injective : Function.Injective hash.str)
    (fields : Text) (node : Node) (printed : ArgPrinted node)
    (same : getNodeHash hash (.const fields) = getNodeHash hash node) :
    node.isConst = true := by
  have texts : hashedText (nodeToString (.const fields)) = hashedText (nodeToString node) :=
    injective same
  have starts := congrArg (List.take 6) texts
  rw [take_hashedText,take_hashedText] at starts
  refine const_start node printed ?_
  have front : (nodeToString (.const fields)).take 6 = "\x7bCONST".toList := by
    rw [nodeToString,braced]
    rfl
  rw [← front,starts]
  exact List.take_prefix 6 _

theorem free_of_any (text : Text) (stop : Char → Bool) (free : text.any stop = false) :
    ∀ c ∈ text, stop c = false := by
  simpa using free

/-- What is printed of a clause after its brace and before its first argument. -/
def clauseHead (type : ClauseType) (opno : Nat) (fields : Text) : Text :=
  type.label ++ field "opno" (number opno) ++ fields ++ " :args (".toList

theorem clause_text (type : ClauseType) (opno : Nat) (fields : Text) (arg : Node) (args : List Node)
    (location : Int) :
    nodeToString (.clause type opno fields arg args location) =
      ('\x7b' :: clauseHead type opno fields) ++ (nodeToString arg ++ (moreToString args ++
        (field "location" (number location) ++ ['\x7d']))) := by
  simp [nodeToString,braced,clauseHead,field]

section Front

variable (type : ClauseType) (opno : Nat) (fields : Text)

theorem clauseHead_free (free : fields.any isBrace = false) :
    ∀ c ∈ clauseHead type opno fields, isBrace c = false := by
  intro c member
  have digits : ∀ c ∈ number opno, isBrace c = false := by
    intro c digit
    by_contra brace
    rw [Bool.not_eq_false] at brace
    have numeric := number_chars opno c digit
    rw [isBrace_numeric c brace] at numeric
    exact Bool.noConfusion numeric
  have label : type.label.any isBrace = false := by
    cases type
    all_goals decide
  have split : clauseHead type opno fields = type.label ++ (" :opno ".toList ++ number opno) ++
    fields ++ " :args (".toList := by
    simp [clauseHead,field]
  rw [split] at member
  simp only [List.mem_append] at member
  rcases member with ((inLabel | inName | inNumber) | inFields) | inLast
  · exact free_of_any _ _ label c inLabel
  · exact free_of_any _ _ (by decide) c inName
  · exact digits c inNumber
  · exact free_of_any _ _ free c inFields
  · exact free_of_any _ _ (by decide) c inLast

theorem clauseHead_quiet (free : fields.any isBrace = false) :
    Quiet "\x7bCONST".toList ((clauseHead type opno fields).reverse ++ ['\x7b']) := by
  refine quiet_first '\x7b' "CONST".toList _ ?_ (by decide) ?_
  · intro member
    exact Bool.noConfusion (clauseHead_free type opno fields free _ member)
  · intro starts
    have whole : "\x7bCONST".toList <+: '\x7b' :: clauseHead type opno fields :=
      List.cons_prefix_cons.mpr ⟨rfl,starts⟩
    cases type with
    | opExpr => exact not_const_start 'O' _ (by decide) whole
    | distinctExpr => exact not_const_start 'D' _ (by decide) whole
    | nullIfExpr => exact not_const_start 'N' _ (by decide) whole
    | scalarArrayOpExpr => exact not_const_start 'S' _ (by decide) whole

end Front

/-- The text ends in one of two words that begin at the last colon. -/
def Calm (text : Text) : Prop := ':' :: "args (".toList <:+ text ∨ ':' :: "location".toList <:+ text

theorem Calm.erase {text : Text} (calm : Calm text) (start : Text)
    (quiet : Quiet start ("args (".toList.reverse ++ [':']))
    (quiet' : Quiet start ("location".toList.reverse ++ [':'])) :
    (∀ next, skips start isColon (next :: text.reverse) = false) ∧
      Calm (erase start isColon [] text) := by
  rcases calm with ends | ends
  · exact (erase_quiet_end text _ ':' rfl quiet ends).imp_right .inl
  · exact (erase_quiet_end text _ ':' rfl quiet' ends).imp_right .inr

/-- Whatever the fields of an operator are, the beginning of its first argument is left. -/
theorem hashedText_argument (type : ClauseType) (opno : Nat) (fields : Text)
    (free : fields.any isBrace = false) :
    ∃ front, ∀ (c : Char) (rest : Text), ∃ rest',
      hashedText (('\x7b' :: clauseHead type opno fields) ++ '\x7b' :: c :: rest) =
      front ++ '\x7b' :: c :: rest' := by
  let front := '\x7b' :: clauseHead type opno fields
  have reversed : front.reverse = (clauseHead type opno fields).reverse ++ ['\x7b'] :=
    List.reverse_cons
  have ending : ":args (".toList <:+ front :=
    ⟨'\x7b' :: (type.label ++ field "opno" (number opno) ++ fields ++ [' ']),by
    simp [front,clauseHead]⟩
  -- The patterns of constants do not match in the front, so its end is left.
  have open1 : skips "\x7bCONST".toList isBrace front.reverse = false := by
    rw [reversed]
    exact skips_quiet _ _ [] _ _ rfl (clauseHead_quiet type opno fields free)
  have ending1 := erase_free_end front ":args (".toList (free_of_any _ _ (by decide)) open1 ending
  have calm :
    Calm (erase " :location".toList isBrace [] (erase "\x7bCONST".toList isBrace [] front)) := by
    by_cases skipping :
      skips " :location".toList isBrace (erase "\x7bCONST".toList isBrace [] front).reverse = true
    · right
      have last := kept_skipping _ (free_of_any _ _ (by decide)) skipping
      rw [erase_eq_kept]
      rw [← List.reverse_suffix,List.reverse_reverse] at last
      exact (show ':' :: "location".toList <:+ " :location".toList from ⟨[' '],rfl⟩).trans last
    · left
      exact erase_free_end _ ":args (".toList (free_of_any _ _ (by decide))
        (eq_false_of_ne_true skipping) ending1
  obtain ⟨open3,calm3⟩ :=
    calm.erase " :varno".toList (by unfold Quiet; decide) (by unfold Quiet; decide)
  obtain ⟨open4,_⟩ :=
    calm3.erase " :varnoold".toList (by unfold Quiet; decide) (by unfold Quiet; decide)
  refine ⟨hashedText front,fun c rest => ?_⟩
  obtain ⟨rest1,pass1⟩ :=
    erase_pair front rest '\x7b' c 'T' (skips_stop "\x7bCONST".toList isBrace _ _ rfl) rfl
      (by decide)
  obtain ⟨rest2,pass2⟩ := erase_pair (erase "\x7bCONST".toList isBrace [] front) rest1 '\x7b' c 'n'
    (skips_stop " :location".toList isBrace _ _ rfl) rfl (by decide)
  obtain ⟨rest3,pass3⟩ := erase_pair _ rest2 '\x7b' c 'o' (open3 '\x7b') rfl (by decide)
  obtain ⟨rest4,pass4⟩ := erase_pair _ rest3 '\x7b' c 'd' (open4 '\x7b') rfl (by decide)
  refine ⟨rest4,?_⟩
  simp only [hashedText,removeVarnoold,removeVarno,removeLocations,removeConsts,
    replacePatterns_erase]
  rw [pass1,pass2,pass3,pass4]

/-- Behind the same front a Param and a constant are told apart. -/
theorem clause_hash_apart (hash : HashAny) (injective : Function.Injective hash.str)
    (type : ClauseType) (opno : Nat) (fields constFields : Text) (free : fields.any isBrace = false)
    (paramid : Int) (args args' : List Node) (location : Int) :
    getNodeHash hash (.clause type opno fields (.param paramid) args location) ≠
      getNodeHash hash (.clause type opno fields (.const constFields) args' location) := by
  intro same
  have texts : hashedText (nodeToString (.clause type opno fields (.param paramid) args location)) =
      hashedText (nodeToString (.clause type opno fields (.const constFields) args' location)) :=
        injective same
  obtain ⟨front,left⟩ := hashedText_argument type opno fields free
  rw [clause_text,clause_text,nodeToString,nodeToString,braced,braced] at texts
  obtain ⟨rest,param⟩ := left 'P' _
  obtain ⟨rest',const⟩ := left 'C' _
  have whole := param.symm.trans (texts.trans const)
  have letters := (List.cons.inj (List.append_cancel_left whole)).2
  exact absurd (List.cons.inj letters).1 (by decide)

/-! The arguments of a clause among the classes. -/

section Classes

variable (hash : HashAny) (clauselist : List Node) (eclasses : Eclasses)

theorem mem_argsHash (found : getEclasses hash clauselist = some eclasses) (val : Int) :
    val ∈ eclasses.argsHash ↔ ∃ clause ∈ clauselist, val ∈ eqArgHashes hash clause := by
  rw [getEclasses_eq] at found
  obtain rfl := Option.some.inj found
  exact mem_getClauselistArgs hash clauselist val

theorem classArg_param (found : getEclasses hash clauselist = some eclasses)
    (nonzero : ClassesNonzero hash clauselist) (clause : Node) (member : clause ∈ clauselist)
    (node : Node) (among : getNodeHash hash node ∈ eqArgHashes hash clause) :
    classArg (getNodeHash hash) eclasses node = .param
      (eclass hash clauselist (getNodeHash hash node)) := by
  obtain ⟨value,inside⟩ :=
    getArgEclass_member hash clauselist eclasses found (getNodeHash hash node)
      ((mem_argsHash hash clauselist eclasses found _).mpr ⟨clause,member,among⟩)
  have other := nonzero eclasses found _ inside
  rw [value] at other
  simp only [classArg,value]
  rw [if_pos other]

theorem classArg_const (injective : Function.Injective hash.str)
    (found : getEclasses hash clauselist = some eclasses)
    (printed : ∀ clause ∈ clauselist, WellPrinted clause) (fields : Text) :
    classArg (getNodeHash hash) eclasses (.const fields) = .const fields := by
  have missing : getNodeHash hash (.const fields) ∉ eclasses.argsHash := by
    intro member
    obtain ⟨clause,among,inside⟩ := (mem_argsHash hash clauselist eclasses found _).mp member
    obtain ⟨_,args,isClause,arg,place,proper,same⟩ := (mem_eqArgHashes hash clause _).mp inside
    have good : ArgPrinted arg := by
      cases clause with
      | clause type opno fields first rest location =>
        obtain rfl := Option.some.inj isClause
        exact (printed _ among).2 arg place
      | var => cases isClause
      | const => cases isClause
      | param => cases isClause
      | other => cases isClause
    rw [const_hash_apart hash injective fields arg good same.symm] at proper
    cases proper
  simp only [classArg,getArgEclass_missing eclasses _ missing]
  rfl

/-- Arguments of one clause that are not constants have the same class. -/
theorem eclass_together (clause : Node) (member : clause ∈ clauselist) (v w : Int)
    (first : v ∈ eqArgHashes hash clause) (second : w ∈ eqArgHashes hash clause) :
    eclass hash clauselist v = eclass hash clauselist w :=
  eclass_linked hash clauselist v w
    (together_linked hash clauselist v w ⟨clause,member,first,second⟩)

end Classes

theorem Swapped.reordered {clause clause' : Node} (swapped : Swapped clause clause') :
    Reordered clause clause' := by
  cases swapped with
  | same => exact .same clause
  | swap type opno fields arg other location => exact .args _ _ _ _ _ _ _ _ (.swap _ _ _)

theorem isConst_fields (node : Node) (const : node.isConst = true) :
    ∃ fields, node = .const fields := by
  cases node with
  | const fields => exact ⟨fields,rfl⟩
  | var => cases const
  | param => cases const
  | clause => cases const
  | other => cases const

section Clause

variable (hash : HashAny) (clauselist : List Node) (eclasses : Eclasses)
  (found : getEclasses hash clauselist = some eclasses) (nonzero : ClassesNonzero hash clauselist)
  (type : ClauseType) (opno : Nat) (fields : Text) (arg other : Node) (location : Int)
  (member : .clause type opno fields arg [other] location ∈ clauselist)
  (equality : eqOperators.contains opno = true)

include equality in
theorem arg_hashed (node : Node) (among : node ∈ [arg,other]) (proper : node.isConst = false) :
    getNodeHash hash node ∈ eqArgHashes hash (.clause type opno fields arg [other] location) :=
  (mem_eqArgHashes hash _ _).mpr ⟨equality,_,rfl,node,among,proper,rfl⟩

include found nonzero member equality

/-- A clause without constants has the hash of its class. -/
theorem classes_hash (proper : arg.isConst = false) (proper' : other.isConst = false)
    (node node' : Node) (either : node = arg ∧ node' = other ∨ node = other ∧ node' = arg) :
    getClauseHash hash eclasses (.clause type opno fields node [node'] location) =
      getNodeHash hash (.param (eclass hash clauselist (getNodeHash hash arg))) := by
  have first := arg_hashed hash type opno fields arg other location equality arg (by simp) proper
  have second :=
    arg_hashed hash type opno fields arg other location equality other (by simp) proper'
  have classes := eclass_together hash clauselist _ member _ _ first second
  have param := classArg_param hash clauselist eclasses found nonzero _ member
  have left :
    classArg (getNodeHash hash) eclasses node = .param
      (eclass hash clauselist (getNodeHash hash arg)) := by
    rcases either with ⟨rfl,rfl⟩ | ⟨rfl,rfl⟩
    · exact param _ first
    · rw [param _ second,classes]
  have right :
    classArg (getNodeHash hash) eclasses node' = .param
      (eclass hash clauselist (getNodeHash hash arg)) := by
    rcases either with ⟨rfl,rfl⟩ | ⟨rfl,rfl⟩
    · rw [param _ second,classes]
    · exact param _ first
  rw [getClauseHash,hashedNode_clause,List.map_singleton,left,right,equality]
  rfl

/-- Unless it compares a constant with something else, a clause is hashed the same both ways. -/
theorem swap_hash (printed : WellPrinted (.clause type opno fields arg [other] location))
    (pure : arg.isConst = other.isConst) :
    getClauseHash hash eclasses (.clause type opno fields arg [other] location) =
      getClauseHash hash eclasses (.clause type opno fields other [arg] location) := by
  by_cases const : arg.isConst = true
  · obtain ⟨constFields,rfl⟩ := isConst_fields arg const
    obtain ⟨constFields',rfl⟩ := isConst_fields other (pure ▸ const)
    have free : constFields.any isBrace = false := printed.2 (.const constFields) (by simp)
    have free' : constFields'.any isBrace = false := printed.2 (.const constFields') (by simp)
    exact Agree.clauseHash hash (.clause _ _ _ _ _ _ _ _ _ (.const _ _ free free')
      (.cons _ _ _ _ (.const _ _ free' free) .nil)) eclasses
  · have proper := eq_false_of_ne_true const
    have same :=
      classes_hash hash clauselist eclasses found nonzero type opno fields arg other
        location member equality
      proper (pure ▸ proper)
    rw [same arg other (.inl ⟨rfl,rfl⟩),same other arg (.inr ⟨rfl,rfl⟩)]

/-- A constant compared with something else is hashed by its place. -/
theorem mixed_hash (injective : Function.Injective hash.str)
    (printed : ∀ clause ∈ clauselist, WellPrinted clause) (mixed : arg.isConst ≠ other.isConst) :
    getClauseHash hash eclasses (.clause type opno fields arg [other] location) ≠
      getClauseHash hash eclasses (.clause type opno fields other [arg] location) := by
  have free : fields.any isBrace = false := (printed _ member).1
  have const := classArg_const hash clauselist eclasses injective found printed
  have param := classArg_param hash clauselist eclasses found nonzero _ member
  have hashed := arg_hashed hash type opno fields arg other location equality
  have apart := clause_hash_apart hash injective type opno fields
  rw [getClauseHash,getClauseHash,hashedNode_clause,hashedNode_clause,List.map_singleton,
    List.map_singleton]
  by_cases first : arg.isConst = true
  · have proper : other.isConst = false :=
      eq_false_of_ne_true fun second => mixed (first.trans second.symm)
    obtain ⟨constFields,rfl⟩ := isConst_fields arg first
    rw [const constFields,param other (hashed other (by simp) proper),
      if_pos (by simp [hasConsts,Node.isConst]),if_pos (by simp [hasConsts,Node.isConst])]
    exact (apart _ free _ _ _ _).symm
  · have proper := eq_false_of_ne_true first
    have second : other.isConst = true := by
      by_contra differs
      exact mixed (proper.trans (eq_false_of_ne_true differs).symm)
    obtain ⟨constFields,rfl⟩ := isConst_fields other second
    rw [const constFields,param arg (hashed arg (by simp) proper),
      if_pos (by simp [hasConsts,Node.isConst]),if_pos (by simp [hasConsts,Node.isConst])]
    exact apart _ free _ _ _ _

end Clause

/-! The feature subspace. -/

section Object

variable (hash : HashAny)

theorem Swapped.consts {clause clause' : Node} (swapped : Swapped clause clause') :
    clauseHasConsts clause = clauseHasConsts clause' := by
  cases swapped with
  | same => rfl
  | swap type opno fields arg other location =>
    simp only [clauseHasConsts,Node.clauseArgs,hasConsts,List.any_cons,List.any_nil,Bool.or_false]
    exact Bool.or_comm _ _

theorem Swapped.alike {clause clause' : Node} (swapped : Swapped clause clause')
    (clauselist : List Node) (eclasses : Eclasses)
    (found : getEclasses hash clauselist = some eclasses) (nonzero : ClassesNonzero hash clauselist)
    (member : clause ∈ clauselist) (printed : WellPrinted clause) (pure : isMixed clause = false) :
    AlikeHashed hash eclasses clause clause' := by
  refine ⟨?_,swapped.consts⟩
  cases swapped with
  | same => rfl
  | swap type opno fields arg other location equality =>
    refine swap_hash hash clauselist eclasses found nonzero type opno fields arg other location
      member equality printed ?_
    rw [isMixed,equality,Bool.true_and] at pure
    simpa using pure

/-- Clauses with their selectivities, some of the clauses with their arguments the other way
round. -/
def SwappedObjects : List (Node × ℚ) → List (Node × ℚ) → Prop :=
  List.Forall₂ fun object object' => Swapped object.1 object'.1 ∧ object.2 = object'.2

theorem getEclasses_swapped (objects objects' : List (Node × ℚ))
    (swapped : SwappedObjects objects objects') :
    getEclasses hash (objects'.map Prod.fst) = getEclasses hash (objects.map Prod.fst) := by
  refine (getEclasses_together hash _ _ (together_reordered hash _ _ ?_)).symm
  rw [List.forall₂_map_left_iff,List.forall₂_map_right_iff]
  exact swapped.imp fun _ _ both => both.1.reordered

theorem orderedCells_swapped (log : ℚ → ℚ) (eclasses : Eclasses)
    (objects objects' : List (Node × ℚ))
    (found : getEclasses hash (objects.map Prod.fst) = some eclasses)
    (printed : ∀ object ∈ objects, WellPrinted object.1)
    (nonzero : ClassesNonzero hash (objects.map Prod.fst))
    (pure : ∀ object ∈ objects, isMixed object.1 = false)
    (swapped : SwappedObjects objects objects') :
    orderedCells hash log eclasses objects' = orderedCells hash log eclasses objects := by
  have members : ∀ object ∈ objects, object.1 ∈ objects.map Prod.fst ∧ WellPrinted object.1 ∧
    isMixed object.1 = false :=
    fun object member => ⟨List.mem_map_of_mem member,printed object member,pure object member⟩
  have both := (List.forall₂_and_left _ _).mpr ⟨members,swapped⟩
  have kept := keptObjects_alike hash eclasses (objectCell hash log eclasses) objects objects'
    (both.imp fun object object' ⟨⟨member,good,here⟩,swap,selectivity⟩ => by
      have alike := swap.alike hash _ eclasses found nonzero member good here
      refine ⟨alike,?_⟩
      rw [objectCell,objectCell,alike.clauseHash,selectivity])
  rw [orderedCells,orderedCells,kept]

/-- Exchanging one clause that has constants for another changes only that clause's hash. -/
theorem kept_replace (eclasses : Eclasses) (before after : List (Node × ℚ))
    (object object' : Node × ℚ) (consts : clauseHasConsts object.1 = true)
    (consts' : clauseHasConsts object'.1 = true) :
    ∃ front back, keptObjects hash eclasses (before ++ object :: after) = front ++ object :: back ∧
      keptObjects hash eclasses (before ++ object' :: after) = front ++ object' :: back := by
  have same : isKept hash eclasses (before ++ object' :: after) = isKept hash eclasses
    (before ++ object :: after) := by
    funext other
    simp only [isKept,List.countP_append,List.countP_cons,withoutConsts,consts,consts',
      Bool.not_true,Bool.and_false]
  refine ⟨before.filter (isKept hash eclasses (before ++ object :: after)),
    after.filter (isKept hash eclasses (before ++ object :: after)),?_,?_⟩
  · rw [keptObjects,List.filter_append,List.filter_cons,if_pos (by rw [isKept,consts,Bool.true_or])]
  · rw [keptObjects,same,List.filter_append,List.filter_cons,
      if_pos (by rw [isKept,consts',Bool.true_or])]

theorem fssOf_apart (injective : Function.Injective hash.intArray) (log : ℚ → ℚ)
    (eclasses : Eclasses) (before after : List (Node × ℚ)) (object object' : Node × ℚ)
    (consts : clauseHasConsts object.1 = true) (consts' : clauseHasConsts object'.1 = true)
    (relidslist : List Int) (apart : getClauseHash hash eclasses object.1 ≠ getClauseHash hash
      eclasses object'.1) :
    fssOf hash eclasses (orderedCells hash log eclasses (before ++ object' :: after)) relidslist ≠
      fssOf hash eclasses (orderedCells hash log eclasses (before ++ object :: after))
      relidslist := by
  intro same
  have hashes := injective (congrArg Fss.fssHash same)
  have clauses := injective (List.cons.inj hashes).1
  obtain ⟨front,back,kept,kept'⟩ :=
    kept_replace hash eclasses before after object object' consts consts'
  rw [orderedCells_hashes,orderedCells_hashes,kept,kept'] at clauses
  have perm :=
    ((List.perm_insertionSort _ _).symm.trans (clauses ▸ List.perm_insertionSort _ _)).count_eq
      (getClauseHash hash eclasses object.1)
  simp only [List.map_append,List.map_cons,List.count_append,List.count_cons] at perm
  simp [apart.symm] at perm

end Object

theorem mixed_clause (clause : Node) (mixed : isMixed clause = true) :
    ∃ type opno fields arg other location, clause = .clause type opno fields arg [other] location ∧
      eqOperators.contains opno = true ∧ arg.isConst ≠ other.isConst := by
  cases clause with
  | clause type opno fields arg args location =>
    match args with
    | [other] =>
      rw [isMixed,Bool.and_eq_true] at mixed
      exact ⟨type,opno,fields,arg,other,location,rfl,mixed.1,by simpa using mixed.2⟩
    | [] => cases mixed
    | _ :: _ :: _ => cases mixed
  | var => cases mixed
  | const => cases mixed
  | param => cases mixed
  | other => cases mixed

/-- Without equalities between a constant and something else the arguments of equality clauses may
be exchanged at will, and for a hash without collisions only then. -/
theorem getFssForObject_swap_free_iff (sorter : Sorter) (hash : HashAny) (log : ℚ → ℚ)
    (objects : List (Node × ℚ)) (relidslist : List Int)
    (printed : ∀ object ∈ objects, WellPrinted object.1)
    (nonzero : ClassesNonzero hash (objects.map Prod.fst)) :
    ∃ fss, getFssForObject sorter hash log (objects.map Prod.fst)
      (objects.map Prod.snd) relidslist = some fss ∧
      ((∀ object ∈ objects, isMixed object.1 = false) →
          ∀ objects', SwappedObjects objects objects' →
        getFssForObject sorter hash log (objects'.map Prod.fst)
          (objects'.map Prod.snd) relidslist = some fss) ∧
      (Function.Injective hash.str → Function.Injective hash.intArray →
        ((∀ objects', SwappedObjects objects objects' →
          getFssForObject sorter hash log (objects'.map Prod.fst)
          (objects'.map Prod.snd) relidslist = some fss) ↔
            ∀ object ∈ objects, isMixed object.1 = false)) := by
  obtain ⟨eclasses,found,result⟩ := getFssForObject_some sorter hash log objects relidslist
  have enough (pure : ∀ object ∈ objects, isMixed object.1 = false) (objects' : List (Node × ℚ))
      (swapped : SwappedObjects objects objects') :
      getFssForObject sorter hash log (objects'.map Prod.fst) (objects'.map Prod.snd) relidslist =
        some (fssOf hash eclasses (orderedCells hash log eclasses objects) relidslist) := by
    rw [getFssForObject_eq,getEclasses_swapped hash objects objects' swapped,found,Option.map_some,
      orderedCells_swapped hash log eclasses objects objects' found printed nonzero pure swapped]
  refine ⟨_,result,enough,fun texts arrays => ⟨fun unchanged object member => ?_,enough⟩⟩
  by_contra impure
  rw [Bool.not_eq_false] at impure
  obtain ⟨clause,selectivity⟩ := object
  obtain ⟨type,opno,fields,arg,other,location,rfl,equality,mixed⟩ := mixed_clause clause impure
  obtain ⟨before,after,rfl⟩ := List.append_of_mem member
  -- The list with this one clause exchanged.
  have refl (list : List (Node × ℚ)) : SwappedObjects list list :=
    List.forall₂_same.mpr fun object _ => ⟨.same object.1,rfl⟩
  have swapped :
    SwappedObjects (before ++ (.clause type opno fields arg [other] location,selectivity) :: after)
      (before ++ (.clause type opno fields other [arg] location,selectivity) :: after) :=
    List.rel_append (refl before) (.cons ⟨.swap _ _ _ _ _ _ equality,rfl⟩ (refl after))
  have same := unchanged _ swapped
  rw [getFssForObject_eq,getEclasses_swapped hash _ _ swapped,found,Option.map_some] at same
  have consts (first second : Node) (differ : first.isConst ≠ second.isConst) :
      clauseHasConsts (.clause type opno fields first [second] location) = true := by
    simp only [clauseHasConsts,Node.clauseArgs,hasConsts,List.any_cons,List.any_nil,Bool.or_false]
    cases h : first.isConst
    · rw [h] at differ
      simpa using differ.symm
    · rfl
  refine fssOf_apart hash arrays log eclasses before after _ _ (consts arg other mixed)
    (consts other arg mixed.symm) relidslist ?_ (Option.some.inj same)
  refine mixed_hash hash _ eclasses found nonzero type opno fields arg other location ?_
    equality texts ?_ mixed
  · exact List.mem_map_of_mem member
  · intro clause among
    obtain ⟨object,inside,rfl⟩ := List.mem_map.mp among
    exact printed object inside

theorem faithfulHash_nonzero (clauselist : List Node) : ClassesNonzero faithfulHash clauselist := by
  intro eclasses found eclassHash member
  rw [getEclasses_eq] at found
  obtain rfl := Option.some.inj found
  obtain ⟨val,_,rfl⟩ := List.mem_map.mp member
  simp only [eclass,getUnorderedIntListHash,faithfulHash]
  omega

theorem faithfulHash_str : Function.Injective faithfulHash.str :=
  fun _ _ equal => textCode_injective (Int.ofNat_inj.mp (add_right_cancel equal))

theorem getFssForObject_swap_free_iff_columns :
    ∃ fss, getFssForObject insertionSorter faithfulHash id [columnsEqual] [1/2] [1,2] = some fss ∧
      getFssForObject insertionSorter faithfulHash id
      [int4Clause 96 65 (int4Var 2 1 4) (int4Var 1 1 0) 2] [1/2] [1,2] =
        some fss := by
  have printed : ∀ object ∈ [(columnsEqual,(1/2 : ℚ))], WellPrinted object.1 := by
    intro object member
    rw [List.mem_singleton.mp member]
    refine ⟨by decide +kernel,fun node among => ?_⟩
    rcases List.mem_cons.mp among with rfl | among
    · trivial
    · rw [List.mem_singleton.mp among]
      trivial
  obtain ⟨fss,result,_,exactly⟩ :=
    getFssForObject_swap_free_iff insertionSorter faithfulHash id [(columnsEqual,1/2)] [1,2] printed
      (faithfulHash_nonzero _)
  refine ⟨fss,result,(exactly faithfulHash_str faithfulHash_intArray).mpr
    (by decide +kernel) [(_,1/2)] (.cons ⟨.swap _ _ _ _ _ _ (by decide),rfl⟩ .nil)⟩

/-- A column compared with 5 and 5 compared with the column. -/
theorem getFssForObject_sees_swap :
    Swapped (columnIs 5 0) (int4Clause 96 65 (int4Const 5 4) (int4Var 1 1 0) 0) ∧
      (getEclasses hashAnyBytes [columnIs 5 0]).map
      (fun eclasses => eclasses.eclassHash.all (· ≠ 0)) = some true ∧
      (getFssForObject insertionSorter hashAnyBytes id [columnIs 5 0] [1/2] [1]).map Fss.fssHash ≠
        (getFssForObject insertionSorter hashAnyBytes id
          [int4Clause 96 65 (int4Const 5 4) (int4Var 1 1 0) 0] [1/2] [1]).map Fss.fssHash :=
  ⟨.swap _ _ _ _ _ _ (by decide),by decide +kernel,by decide +kernel⟩

end ExploratoryOptimizer.Aqo.FeatureSwap
