import ExploratoryOptimizer.Library.DisjointSet
import Mathlib.Data.List.Sort
import Mathlib.Order.Basic

/-! Clause hashes of contrib/aqo/hash.c. Expressions are hashed through the text `nodeToString`
prints for them; the hash of a text and of an array of integers are parameters. -/
namespace ExploratoryOptimizer.Aqo.Hash
open Library

abbrev Text := List Char

inductive ClauseType where
  | opExpr
  | distinctExpr
  | nullIfExpr
  | scalarArrayOpExpr
  deriving DecidableEq

/-- Expressions as far as the hash functions look into them. The fields of an operator between its
number and its arguments are kept as they are printed, and so are the fields of a constant and any
other expression. A Param is one made by `makeNode`. -/
inductive Node where
  | var (varno : Nat) (varattno : Int) (vartype : Nat) (vartypmod : Int)
      (varcollid varlevelsup varnoold : Nat) (varoattno location : Int)
  | const (fields : Text)
  | param (paramid : Int)
  | clause (type : ClauseType) (opno : Nat) (fields : Text) (arg : Node) (args : List Node)
      (location : Int)
  | other (text : Text)

def number (value : Int) : Text := (toString value).toList

def field (name : String) (value : Text) : Text := " :".toList ++ name.toList ++ ' ' :: value

def ClauseType.label : ClauseType → Text
  | .opExpr => "OPEXPR".toList
  | .distinctExpr => "DISTINCTEXPR".toList
  | .nullIfExpr => "NULLIFEXPR".toList
  | .scalarArrayOpExpr => "SCALARARRAYOPEXPR".toList

def braced (text : Text) : Text := "\x7b".toList ++ text ++ "\x7d".toList

mutual

def nodeToString : Node → Text
  | .var varno varattno vartype vartypmod varcollid varlevelsup varnoold varoattno location =>
    braced ("VAR".toList ++ field "varno" (number varno) ++ field "varattno" (number varattno) ++
      field "vartype" (number vartype) ++ field "vartypmod" (number vartypmod) ++
      field "varcollid" (number varcollid) ++ field "varlevelsup" (number varlevelsup) ++
      field "varnoold" (number varnoold) ++ field "varoattno" (number varoattno) ++
      field "location" (number location))
  | .const fields => braced ("CONST".toList ++ fields)
  | .param paramid =>
    braced ("PARAM".toList ++ field "paramkind" (number 0) ++ field "paramid" (number paramid) ++
      field "paramtype" (number 0) ++ field "paramtypmod" (number 0) ++
      field "paramcollid" (number 0) ++ field "location" (number 0))
  | .clause type opno fields arg args location =>
    braced (type.label ++ field "opno" (number opno) ++ fields ++
      field "args" ('(' :: (nodeToString arg ++ moreToString args)) ++ field "location"
        (number location))
  | .other text => text

def moreToString : List Node → Text
  | [] => [')']
  | arg :: args => ' ' :: (nodeToString arg ++ moreToString args)

end

/-- The loop of `replace_patterns` with the text already read, last character first: after the
start pattern everything up to a stop character is left out. -/
def replaceFrom (start : Text) (stop : Char → Bool) : Text → Bool → Text → Text
  | _,_,[] => []
  | seen,skipping,c :: rest =>
    if (skipping || start.reverse.isPrefixOf seen) && !stop c then replaceFrom start stop
      (c :: seen) true rest
    else c :: replaceFrom start stop (c :: seen) false rest

def replacePatterns (str : Text) (start : String) (stop : Char → Bool) : Text :=
  replaceFrom start.toList stop [] false str

def isBrace (ch : Char) : Bool := ch = '\x7b' || ch = '\x7d'

def isColon (ch : Char) : Bool := ch = ':'

def removeConsts (str : Text) : Text := replacePatterns str "\x7bCONST" isBrace

def removeLocations (str : Text) : Text := replacePatterns str " :location" isBrace

def removeVarno (str : Text) : Text := replacePatterns str " :varno" isColon

def removeVarnoold (str : Text) : Text := replacePatterns str " :varnoold" isColon

/-- `hash_any` on the bytes of a text and of an array of integers. -/
structure HashAny where
  str : Text → Int
  intArray : List Int → Int

namespace Node

def isConst : Node → Bool
  | .const _ => true
  | _ => false

def clauseArgs : Node → Option (List Node)
  | .clause _ _ _ arg args _ => some (arg :: args)
  | _ => none

end Node

def eqOperators : List Nat :=
  [96,91,98,387,1070,2988,15,92,93,94,352,353,385,386,410,416,503,532,533,560,566,607,649,620,670,
    792,811,900,1093,1108,1550,1120,1130,1320,1330,1500,1535,1616,1220,1201,1752,1784,1804,1862,
    1868,1955,2060,2542,2972,3222,3516,3629,3676,3882,3240,3240]

def clauseIsEqClause : Node → Bool
  | .clause _ opno _ _ _ _ => eqOperators.contains opno
  | _ => false

def hasConsts (lst : List Node) : Bool := lst.any Node.isConst

def getIdInSortedIntArray (val : Int) (arr : List Int) : Option Nat := arr.idxOf? val

def dedupSorted : List Int → List Int
  | [] => []
  | [val] => [val]
  | val :: next :: rest =>
    if val = next then dedupSorted (next :: rest) else val :: dedupSorted (next :: rest)

-- Which way `disjoint_set_merge_eclasses` links two classes.
def linksBelow (v w : Nat) : Bool := (v + w) % 2 = 1

structure Eclasses where
  argsHash : List Int
  eclassHash : List Int

def getArgEclass (argHash : Int) (eclasses : Eclasses) : Int :=
  match getIdInSortedIntArray argHash eclasses.argsHash with
  | none => 0
  | some di => eclasses.eclassHash.getD di 0

section Hashes

variable (hash : HashAny)

def getNodeHash (node : Node) : Int :=
  hash.str (removeVarnoold (removeVarno (removeLocations (removeConsts (nodeToString node)))))

def getNodeHash2 (node : Node) : Int := hash.str (nodeToString node)

def getUnorderedIntListHash (lst : List Int) : Int := hash.intArray (lst.insertionSort (· ≤ ·))

def eqArgHashes (clause : Node) : List Int :=
  match clause.clauseArgs with
  | none => []
  | some args =>
    if clauseIsEqClause clause then (args.filter fun arg => !arg.isConst).map (getNodeHash hash)
    else []

def getClauselistArgs (clauselist : List Node) : List Int :=
  dedupSorted ((clauselist.flatMap (eqArgHashes hash)).insertionSort (· ≤ ·))

def joinArgs (argsHash : List Int) : List Int → Option Nat → (Nat → Option Nat) → Option
    (Nat → Option Nat)
  | [],_,p => some p
  | h2 :: rest,i3,p =>
    (getIdInSortedIntArray h2 argsHash).bind fun i2 =>
      match i3 with
      | none => joinArgs argsHash rest (some i2) p
      | some i3 => (DisjointSet.merge argsHash.length linksBelow p i2 i3).bind fun p' =>
          joinArgs argsHash rest (some i2) p'

def joinClauses (argsHash : List Int) : List Node → (Nat → Option Nat) → Option (Nat → Option Nat)
  | [],p => some p
  | clause :: clauselist,p =>
    (joinArgs argsHash (eqArgHashes hash clause) none p).bind fun p' =>
      joinClauses argsHash clauselist p'

def performEclassesJoin (clauselist : List Node) (argsHash : List Int) : Option
    (Nat → Option Nat) :=
  joinClauses hash argsHash clauselist fun _ => none

/-- Classes are numbered by their roots; `none` stands for an index outside the arrays or a parent
chain that does not end. -/
def getEclasses (clauselist : List Node) : Option Eclasses :=
  let argsHash := getClauselistArgs hash clauselist
  let indexes := List.range argsHash.length
  (performEclassesJoin hash clauselist argsHash).bind fun p =>
    (DisjointSet.getParents argsHash.length p indexes).bind fun first =>
      let lsts (v : Nat) := ((indexes.zip first.1).filter fun entry => entry.2 = v).map fun entry =>
        argsHash.getD entry.1 0
      (DisjointSet.getParents argsHash.length first.2 indexes).map fun second =>
        ⟨argsHash,second.1.map fun v => getUnorderedIntListHash hash (lsts v)⟩

end Hashes

section ClauseHash

variable (nodeHash : Node → Int) (eclasses : Eclasses)

def classArg (arg : Node) : Node :=
  let argEclass := getArgEclass (nodeHash arg) eclasses
  if argEclass ≠ 0 then .param argEclass else arg

def hashedNode (clause : Node) : Node :=
  match clause with
  | .clause type opno fields arg args location =>
    let arg' := classArg nodeHash eclasses arg
    let args' := args.map (classArg nodeHash eclasses)
    if !clauseIsEqClause clause || hasConsts (arg' :: args') then
      .clause type opno fields arg' args' location
    else arg'
  | node => node

theorem hashedNode_clause (type : ClauseType) (opno : Nat) (fields : Text) (arg : Node)
    (args : List Node) (location : Int) :
    hashedNode nodeHash eclasses (.clause type opno fields arg args location) =
      if (!eqOperators.contains opno ||
          hasConsts (classArg nodeHash eclasses arg :: args.map (classArg nodeHash eclasses))) =
          true then
        .clause type opno fields (classArg nodeHash eclasses arg)
          (args.map (classArg nodeHash eclasses)) location
      else classArg nodeHash eclasses arg :=
  rfl

end ClauseHash

def getClauseHash (hash : HashAny) (eclasses : Eclasses) (clause : Node) : Int :=
  getNodeHash hash (hashedNode (getNodeHash hash) eclasses clause)

def getClauseHash2 (hash : HashAny) (eclasses : Eclasses) (clause : Node) : Int :=
  getNodeHash2 hash (hashedNode (getNodeHash2 hash) eclasses clause)

/-! Equivalence classes: the lookups succeed, the searches end, and a class is what a chain of
equality clauses links. -/

theorem mem_dedupSorted (val : Int) (arr : List Int) : val ∈ dedupSorted arr ↔ val ∈ arr := by
  fun_induction dedupSorted arr with
  | case1 => rfl
  | case2 => rfl
  | case3 next rest ih => simp [ih]
  | case4 first next rest _ ih => simp [ih]

theorem dedupSorted_increasing (arr : List Int) (sorted : arr.Pairwise (· ≤ ·)) :
    (dedupSorted arr).Pairwise (· < ·) := by
  fun_induction dedupSorted arr with
  | case1 => exact .nil
  | case2 val => exact List.pairwise_singleton ..
  | case3 next rest ih => exact ih sorted.tail
  | case4 first next rest differs ih =>
    obtain ⟨least,sorted'⟩ := List.pairwise_cons.mp sorted
    refine List.pairwise_cons.mpr ⟨fun val mem => ?_,ih sorted'⟩
    have smaller := lt_of_le_of_ne (least next (List.mem_cons_self ..)) differs
    obtain rfl | later := List.mem_cons.mp ((mem_dedupSorted val _).mp mem)
    · exact smaller
    · exact lt_of_lt_of_le smaller ((List.pairwise_cons.mp sorted').1 val later)

theorem getIdInSortedIntArray_mem (val : Int) (arr : List Int) (mem : val ∈ arr) :
    getIdInSortedIntArray val arr = some (arr.idxOf val) := by
  obtain ⟨di,found⟩ := Option.isSome_iff_exists.mp (List.isSome_idxOf?.mpr mem)
  rw [List.idxOf_eq_getD_idxOf?,getIdInSortedIntArray,found,Option.getD_some]

section Eclasses

variable (hash : HashAny)

theorem getClauselistArgs_increasing (clauselist : List Node) :
    (getClauselistArgs hash clauselist).Pairwise (· < ·) :=
  dedupSorted_increasing _ (List.pairwise_insertionSort (· ≤ ·) _)

theorem getClauselistArgs_nodup (clauselist : List Node) :
    (getClauselistArgs hash clauselist).Nodup :=
  (getClauselistArgs_increasing hash clauselist).imp ne_of_lt

theorem mem_getClauselistArgs (clauselist : List Node) (val : Int) :
    val ∈ getClauselistArgs hash clauselist ↔ ∃ clause ∈ clauselist,
      val ∈ eqArgHashes hash clause := by
  rw [getClauselistArgs,mem_dedupSorted,(List.perm_insertionSort _ _).mem_iff,List.mem_flatMap]

def neighbours : List Int → List (Int × Int)
  | h3 :: h2 :: rest => (h2,h3) :: neighbours (h2 :: rest)
  | _ => []

def linkedPairs (clauselist : List Node) : List (Int × Int) :=
  clauselist.flatMap fun clause => neighbours (eqArgHashes hash clause)

theorem neighbours_mem (hashes : List Int) (pair : Int × Int) (mem : pair ∈ neighbours hashes) :
    pair.1 ∈ hashes ∧ pair.2 ∈ hashes := by
  fun_induction neighbours hashes with
  | case1 h3 h2 rest ih =>
    obtain rfl | later := List.mem_cons.mp mem
    · simp
    · exact (ih later).imp (List.mem_cons_of_mem _) (List.mem_cons_of_mem _)
  | case2 => simp at mem

theorem linkedPairs_mem (clauselist : List Node) (pair : Int × Int)
    (mem : pair ∈ linkedPairs hash clauselist) :
    pair.1 ∈ getClauselistArgs hash clauselist ∧ pair.2 ∈ getClauselistArgs hash clauselist := by
  obtain ⟨clause,member,neighbour⟩ := List.mem_flatMap.mp mem
  obtain ⟨first,second⟩ := neighbours_mem _ pair neighbour
  exact ⟨(mem_getClauselistArgs hash clauselist _).mpr ⟨clause,member,first⟩,
    (mem_getClauselistArgs hash clauselist _).mpr ⟨clause,member,second⟩⟩

theorem joinArgs_after (argsHash : List Int) (h3 : Int) (rest : List Int) (subset : rest ⊆ argsHash)
    (p : Nat → Option Nat) :
    joinArgs argsHash rest (some (argsHash.idxOf h3)) p =
      DisjointSet.mergeAll argsHash.length linksBelow p
        ((neighbours (h3 :: rest)).map (Prod.map argsHash.idxOf argsHash.idxOf)) := by
  induction rest generalizing h3 p with
  | nil => rfl
  | cons h2 rest ih =>
    obtain ⟨first,later⟩ := List.cons_subset.mp subset
    rw [joinArgs,getIdInSortedIntArray_mem h2 argsHash first,Option.bind_some,neighbours,
      List.map_cons,Prod.map_apply,DisjointSet.mergeAll]
    exact congrArg (DisjointSet.merge argsHash.length linksBelow p (argsHash.idxOf h2)
        (argsHash.idxOf h3)).bind
      (funext fun p' => ih h2 later p')

theorem joinArgs_eq (argsHash hashes : List Int) (subset : hashes ⊆ argsHash)
    (p : Nat → Option Nat) :
    joinArgs argsHash hashes none p =
      DisjointSet.mergeAll argsHash.length linksBelow p
        ((neighbours hashes).map (Prod.map argsHash.idxOf argsHash.idxOf)) := by
  cases hashes with
  | nil => rfl
  | cons h2 rest =>
    obtain ⟨first,later⟩ := List.cons_subset.mp subset
    rw [joinArgs,getIdInSortedIntArray_mem h2 argsHash first,Option.bind_some]
    exact joinArgs_after argsHash h2 rest later p

theorem joinClauses_eq (argsHash : List Int) (clauselist : List Node)
    (subset : ∀ clause ∈ clauselist, eqArgHashes hash clause ⊆ argsHash) (p : Nat → Option Nat) :
    joinClauses hash argsHash clauselist p =
      DisjointSet.mergeAll argsHash.length linksBelow p
        ((linkedPairs hash clauselist).map (Prod.map argsHash.idxOf argsHash.idxOf)) := by
  induction clauselist generalizing p with
  | nil => rfl
  | cons clause clauselist ih =>
    obtain ⟨first,later⟩ := List.forall_mem_cons.mp subset
    rw [joinClauses,joinArgs_eq argsHash _ first p,linkedPairs,List.flatMap_cons,List.map_append,
      DisjointSet.mergeAll_append]
    exact congrArg _ (funext fun p' => ih later p')

theorem performEclassesJoin_represents (clauselist : List Node) :
    ∃ p, performEclassesJoin hash clauselist (getClauselistArgs hash clauselist) = some p ∧
      DisjointSet.Represents p ((linkedPairs hash clauselist).map
        (Prod.map (getClauselistArgs hash clauselist).idxOf
          (getClauselistArgs hash clauselist).idxOf)) ∧
      DisjointSet.Within (List.range (getClauselistArgs hash clauselist).length) p := by
  have subset :
    ∀ clause ∈ clauselist, eqArgHashes hash clause ⊆ getClauselistArgs hash clauselist :=
    fun clause mem val arg => (mem_getClauselistArgs hash clauselist val).mpr ⟨clause,mem,arg⟩
  rw [performEclassesJoin,joinClauses_eq hash _ clauselist subset]
  have merged :=
    DisjointSet.mergeAll_represents
      (List.range (getClauselistArgs hash clauselist).length) linksBelow
    ((linkedPairs hash clauselist).map
      (Prod.map (getClauselistArgs hash clauselist).idxOf
        (getClauselistArgs hash clauselist).idxOf)) ?_
  · rwa [List.length_range] at merged
  · intro pair mem
    obtain ⟨args,member,rfl⟩ := List.mem_map.mp mem
    obtain ⟨first,second⟩ := linkedPairs_mem hash clauselist args member
    simp only [Prod.map_fst,Prod.map_snd,List.mem_range]
    exact ⟨List.idxOf_lt_length_iff.mpr first,List.idxOf_lt_length_iff.mpr second⟩

theorem getD_idxOf (argsHash : List Int) (val : Int) (mem : val ∈ argsHash) :
    argsHash.getD (argsHash.idxOf val) 0 = val := by
  have bound := List.idxOf_lt_length_iff.mpr mem
  rw [List.getD_eq_getElem?_getD,List.getElem?_eq_getElem bound,Option.getD_some,
    List.getElem_idxOf bound]

theorem idxOf_getD (argsHash : List Int) (nodup : argsHash.Nodup) (i : Nat)
    (bound : i < argsHash.length) :
    argsHash.idxOf (argsHash.getD i 0) = i := by
  rw [List.getD_eq_getElem?_getD,List.getElem?_eq_getElem bound,Option.getD_some]
  exact nodup.idxOf_getElem i bound

theorem map_getD_range (argsHash : List Int) :
    (List.range argsHash.length).map (argsHash.getD · 0) = argsHash := by
  refine List.ext_getElem (by simp) fun i _ bound => ?_
  rw [List.getElem_map,List.getElem_range,List.getD_eq_getElem?_getD,List.getElem?_eq_getElem bound,
    Option.getD_some]

theorem linked_indexes (clauselist : List Node) (i j : Nat)
    (bound : i < (getClauselistArgs hash clauselist).length)
    (bound' : j < (getClauselistArgs hash clauselist).length) :
    DisjointSet.Linked ((linkedPairs hash clauselist).map
        (Prod.map (getClauselistArgs hash clauselist).idxOf
          (getClauselistArgs hash clauselist).idxOf)) i j ↔
      DisjointSet.Linked (linkedPairs hash clauselist)
      ((getClauselistArgs hash clauselist).getD i 0)
        ((getClauselistArgs hash clauselist).getD j 0) := by
  have nodup := getClauselistArgs_nodup hash clauselist
  have mem := linkedPairs_mem hash clauselist
  generalize getClauselistArgs hash clauselist = argsHash at *
  constructor
  · intro linked
    have back : ((linkedPairs hash clauselist).map (Prod.map argsHash.idxOf argsHash.idxOf)).map
        (Prod.map (argsHash.getD · 0) (argsHash.getD · 0)) = linkedPairs hash clauselist := by
      rw [List.map_map]
      refine (List.map_congr_left fun pair member => ?_).trans (List.map_id _)
      obtain ⟨first,second⟩ := mem pair member
      exact Prod.ext (getD_idxOf argsHash pair.1 first) (getD_idxOf argsHash pair.2 second)
    have mapped := DisjointSet.Linked.map (argsHash.getD · 0) _ i j linked
    rwa [back] at mapped
  · intro linked
    have mapped := DisjointSet.Linked.map argsHash.idxOf _ _ _ linked
    rwa [idxOf_getD argsHash nodup i bound,idxOf_getD argsHash nodup j bound'] at mapped

open Classical in
/-- Hash of the class of an argument: all arguments that a chain of clauses links to it. -/
noncomputable def eclass (clauselist : List Node) (val : Int) : Int :=
  getUnorderedIntListHash hash ((getClauselistArgs hash clauselist).filter fun other =>
    DisjointSet.Linked (linkedPairs hash clauselist) other val)

theorem map_of_forall₂ {α β γ : Type} (R : α → β → Prop) (f : α → γ) (g : β → γ)
    (xs : List α) (ys : List β) (related : List.Forall₂ R xs ys)
    (agree : ∀ x ∈ xs, ∀ y, R x y → g y = f x) : ys.map g = xs.map f := by
  induction related with
  | nil => rfl
  | @cons x y xs ys first rest ih =>
    obtain ⟨head,tail⟩ := List.forall_mem_cons.mp agree
    rw [List.map_cons,List.map_cons,head y first,ih tail]

theorem getEclasses_eq (clauselist : List Node) :
    getEclasses hash clauselist = some ⟨getClauselistArgs hash clauselist,
      (getClauselistArgs hash clauselist).map (eclass hash clauselist)⟩ := by
  obtain ⟨p,joined,represents,within⟩ := performEclassesJoin_represents hash clauselist
  have linked := linked_indexes hash clauselist
  obtain ⟨roots,p',found,rooted,keeps,within'⟩ :=
    DisjointSet.getParents_finds _ p within represents.forest
      (List.range (getClauselistArgs hash clauselist).length) (List.Subset.refl _)
  have represents' := represents.keeps p p' _ keeps
  obtain ⟨roots',p'',found',rooted',-,-⟩ :=
    DisjointSet.getParents_finds _ p' within' represents'.forest
      (List.range (getClauselistArgs hash clauselist).length) (List.Subset.refl _)
  rw [List.length_range] at found found'
  simp only [getEclasses,joined,found,found',Option.bind_some,Option.map_some,Option.some.injEq,
    Eclasses.mk.injEq,true_and]
  rw [map_of_forall₂ _ (fun i =>
      eclass hash clauselist ((getClauselistArgs hash clauselist).getD i 0)) _ _ _ rooted' ?_]
  · conv_rhs => rw [← map_getD_range (getClauselistArgs hash clauselist),List.map_map]
    rfl
  · intro i mem root has
    -- The members listed for the root of argument i are the arguments linked to it.
    have rooted'' := rooted.imp fun v root has => keeps v root has
    rw [DisjointSet.members_of_root p' _ represents' _ roots rooted'' i root has
      ((getClauselistArgs hash clauselist).getD · 0),eclass]
    congr 1
    conv_rhs => rw [← map_getD_range (getClauselistArgs hash clauselist),List.filter_map]
    refine congrArg _ (List.filter_congr fun j member => ?_)
    rw [map_getD_range]
    exact decide_eq_decide.mpr (linked j i (List.mem_range.mp member) (List.mem_range.mp mem))

theorem getClauselistArgs_perm (clauselist clauselist' : List Node)
    (perm : clauselist.Perm clauselist') :
    getClauselistArgs hash clauselist = getClauselistArgs hash clauselist' := by
  have sorted := List.Perm.eq_of_pairwise'
    (List.pairwise_insertionSort (· ≤ ·) (clauselist.flatMap (eqArgHashes hash)))
    (List.pairwise_insertionSort (· ≤ ·) (clauselist'.flatMap (eqArgHashes hash)))
    ((List.perm_insertionSort ..).trans
      ((perm.flatMap_right _).trans (List.perm_insertionSort ..).symm))
  rw [getClauselistArgs,getClauselistArgs,sorted]

/-- The classes are determined by the arguments and by which of them are linked. -/
theorem getEclasses_congr (clauselist clauselist' : List Node)
    (args : getClauselistArgs hash clauselist = getClauselistArgs hash clauselist')
    (linked : ∀ v w, DisjointSet.Linked (linkedPairs hash clauselist) v w ↔
      DisjointSet.Linked (linkedPairs hash clauselist') v w) :
    getEclasses hash clauselist = getEclasses hash clauselist' := by
  have same : DisjointSet.Linked (linkedPairs hash clauselist) = DisjointSet.Linked
    (linkedPairs hash clauselist') := by
    funext v w
    exact propext (linked v w)
  have classes : eclass hash clauselist = eclass hash clauselist' := by
    funext val
    rw [eclass,eclass,args,same]
  rw [getEclasses_eq,getEclasses_eq,args,classes]

theorem getEclasses_perm (clauselist clauselist' : List Node) (perm : clauselist.Perm clauselist') :
    getEclasses hash clauselist = getEclasses hash clauselist' := by
  have pairs : (linkedPairs hash clauselist).Perm (linkedPairs hash clauselist') :=
    perm.flatMap_right _
  refine getEclasses_congr hash clauselist clauselist'
    (getClauselistArgs_perm hash clauselist clauselist' perm) ?_
  exact fun v w => ⟨DisjointSet.Linked.mono _ _ pairs.subset v w,
    DisjointSet.Linked.mono _ _ pairs.symm.subset v w⟩

end Eclasses

/-! A hash without collisions, and clauses on integer columns. -/

def textCode : Text → Nat
  | [] => 0
  | c :: rest => (c.toNat + 1) + 2097152 * textCode rest

theorem char_bound (c : Char) : c.toNat < 1114112 := by
  obtain low | high := c.valid
  · exact Nat.lt_trans low (by decide)
  · exact high.2

theorem textCode_injective : Function.Injective textCode := by
  intro text text' equal
  induction text generalizing text' with
  | nil =>
    cases text' with
    | nil => rfl
    | cons c rest =>
      rw [textCode,textCode] at equal
      omega
  | cons c rest ih =>
    cases text' with
    | nil =>
      rw [textCode,textCode] at equal
      omega
    | cons c' rest' =>
      have small := char_bound c
      have small' := char_bound c'
      simp only [textCode] at equal
      rw [ih (by omega : textCode rest = textCode rest'),
        Char.toNat_inj.mp (by omega : c.toNat = c'.toNat)]

def exactHash : HashAny :=
  ⟨fun text => textCode text,fun arr => arr.foldl (fun code val => code * 3 + val) 1⟩

theorem exactHash_injective : Function.Injective exactHash.str :=
  fun _ _ equal => textCode_injective (Int.ofNat_inj.mp equal)

def int4Var (varno : Nat) (varattno location : Int) : Node :=
  .var varno varattno 23 (-1) 0 0 varno varattno location

def int4Clause (opno opfuncid : Nat) (arg other : Node) (location : Int) : Node :=
  .clause .opExpr opno (field "opfuncid" (number opfuncid) ++ field "opresulttype" (number 16) ++
    field "opretset" "false".toList ++ field "opcollid" (number 0) ++ field "inputcollid"
    (number 0)) arg [other] location

end ExploratoryOptimizer.Aqo.Hash
