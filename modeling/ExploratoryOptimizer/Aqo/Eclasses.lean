import ExploratoryOptimizer.Aqo.FeatureSubspace
import Mathlib.Logic.Equiv.List

/-! `get_eclasses` of contrib/aqo/hash.c: the arguments of the equality clauses, sorted and rid of
duplicates in place, the lookups in them, and the classes that the disjoint set ends with. -/
namespace ExploratoryOptimizer.Aqo.Eclasses
open Hash FeatureSubspace Library Library.Sorting

/-! The array of arguments. -/

def dedupLoop (cnt : Nat) : Nat → Nat → (Nat → Int) → Nat → (Nat → Int) × Nat
  | 0,_,argsHash,sh => (argsHash,sh)
  | fuel + 1,i,argsHash,sh =>
    if i < cnt then
      if argsHash (i - 1) = argsHash i then dedupLoop cnt fuel (i + 1) argsHash (sh + 1)
      else dedupLoop cnt fuel (i + 1) (Function.update argsHash (i - sh) (argsHash i)) sh
    else (argsHash,sh)

def dedupInPlace (arr : List Int) : List Int :=
  let (argsHash,sh) := dedupLoop arr.length arr.length 1 (arr.getD · 0) 0
  cells argsHash 0 (arr.length - sh)

/-- `get_clauselist_args` as it works on the array. -/
def clauselistArgs (sorter : Sorter) (hash : HashAny) (clauselist : List Node) : List Int :=
  dedupInPlace (sorter.run intCmp (clauselist.flatMap (eqArgHashes hash)))

/-- The usual binary search between lo and hi. -/
def bsearch (val : Int) (arr : Nat → Int) : Nat → Nat → Nat → Option Nat
  | 0,_,_ => none
  | fuel + 1,lo,hi =>
    if lo < hi then
      let mid := (lo + hi) / 2
      if intCmp val (arr mid) < 0 then bsearch val arr fuel lo mid
      else if 0 < intCmp val (arr mid) then bsearch val arr fuel (mid + 1) hi
      else some mid
    else none

def getId (val : Int) (arr : List Int) : Option Nat :=
  bsearch val (arr.getD · 0) arr.length 0 arr.length

section Dedup

variable {a : Nat → Int} {cnt : Nat}

/-- Differs from the cell before it. -/
def isNew (a : Nat → Int) (i : Nat) : Bool := a (i - 1) ≠ a i

theorem dedupLoop_squeezed (fuel i sh : Nat) (argsHash : Nat → Int) (enough : cnt ≤ i + fuel)
    (within : i ≤ cnt) (squeezed : Squeezed (isNew a) a 1 0 i argsHash sh)
    (last : argsHash (i - 1) = a (i - 1)) :
    ∃ argsHash' sh', dedupLoop cnt fuel i argsHash sh = (argsHash',sh') ∧
      Squeezed (isNew a) a 1 0 cnt argsHash' sh' := by
  induction fuel generalizing i sh argsHash with
  | zero =>
    have done : i = cnt := by omega
    exact ⟨argsHash,sh,rfl,done ▸ squeezed⟩
  | succ fuel ih =>
    have current : argsHash i = a i := squeezed.outside i (.inr (Nat.sub_le i sh))
    rw [dedupLoop]
    split
    next more =>
      rw [last,current]
      split
      next same =>
        exact ih (i + 1) (sh + 1) argsHash (by omega) (by omega)
          (squeezed.drop (by simp [isNew,same])) current
      next differs =>
        have moved := squeezed.keep (by simpa [isNew] using differs)
        rw [current] at moved
        refine ih (i + 1) sh _ (by omega) (by omega) moved ?_
        -- The cell is either untouched or has just been copied onto itself.
        by_cases here : i = i - sh
        · rw [Nat.add_sub_cancel,← here,Function.update_self]
        · rw [Nat.add_sub_cancel,Function.update_of_ne here,current]
    next =>
      have done : i = cnt := by omega
      exact ⟨argsHash,sh,rfl,done ▸ squeezed⟩

theorem new_increasing (sorted : ∀ p q, p ≤ q → q < cnt → a p ≤ a q) :
    (a 0 :: ((List.Ico 1 cnt).filter (isNew a)).map a).Pairwise (· < ·) := by
  have step (p q : Nat) (less : p < q) (bound : q < cnt) (new : isNew a q = true) : a p < a q := by
    have differs : a (q - 1) ≠ a q := by simpa [isNew] using new
    exact (sorted p (q - 1) (by omega) (by omega)).trans_lt
      (lt_of_le_of_ne (sorted _ _ (by omega) bound) differs)
  refine List.pairwise_cons.mpr ⟨fun value member => ?_,?_⟩
  · obtain ⟨q,among,rfl⟩ := List.mem_map.mp member
    obtain ⟨range,new⟩ := List.mem_filter.mp among
    obtain ⟨low,bound⟩ := List.Ico.mem.mp range
    exact step 0 q (by omega) bound new
  · rw [List.pairwise_map]
    refine ((List.Ico.pairwise_lt 1 cnt).filter _).imp_of_mem fun {p q} _ among less => ?_
    obtain ⟨range,new⟩ := List.mem_filter.mp among
    exact step p q less (List.Ico.mem.mp range).2 new

theorem new_covers (p : Nat) (bound : p < cnt) :
    a p ∈ a 0 :: ((List.Ico 1 cnt).filter (isNew a)).map a := by
  induction p with
  | zero => exact List.mem_cons_self
  | succ p ih =>
    by_cases same : a p = a (p + 1)
    · rw [← same]
      exact ih (by omega)
    · refine List.mem_cons_of_mem _
        (List.mem_map_of_mem (List.mem_filter.mpr ⟨List.Ico.mem.mpr ⟨by omega,bound⟩,?_⟩))
      simpa [isNew] using same

end Dedup

theorem eq_of_increasing (first second : List Int) (increasing : first.Pairwise (· < ·))
    (increasing' : second.Pairwise (· < ·)) (members : ∀ val, val ∈ first ↔ val ∈ second) :
    first = second := by
  refine eq_of_sorted_perm _ _ (increasing.imp le_of_lt) (increasing'.imp le_of_lt) ?_
  exact (List.perm_ext_iff_of_nodup (increasing.imp ne_of_lt) (increasing'.imp ne_of_lt)).mpr
    members

theorem dedupInPlace_eq (arr : List Int) (increasing : arr.Pairwise (· ≤ ·)) :
    dedupInPlace arr = dedupSorted arr := by
  by_cases empty : arr = []
  · subst empty
    rfl
  have nonempty : 1 ≤ arr.length := List.length_pos_iff.mpr empty
  have monotone (p q : Nat) (le : p ≤ q) (bound : q < arr.length) : arr.getD p 0 ≤
    arr.getD q 0 := by
    rw [List.getD_eq_getElem _ _ (by omega),List.getD_eq_getElem _ _ bound]
    rcases Nat.lt_or_eq_of_le le with less | rfl
    · exact List.pairwise_iff_getElem.mp increasing p q _ _ less
    · exact le_refl _
  obtain ⟨argsHash,sh,looped,squeezed⟩ :=
    dedupLoop_squeezed arr.length 1 0 (arr.getD · 0) (Nat.le_add_left _ 1) nonempty
      (.start (Nat.zero_le 1)) rfl
  have front : cells argsHash 0 (arr.length - sh) =
      arr.getD 0 0 :: ((List.Ico 1 arr.length).filter (isNew (arr.getD · 0))).map
      (arr.getD · 0) := by
    have first : argsHash 0 = arr.getD 0 0 := squeezed.outside 0 (by omega)
    have inside := squeezed.inside
    rw [Nat.sub_zero] at inside
    rw [cells_append argsHash 0 1 _ (Nat.zero_le 1) squeezed.room.2.1,inside,← first]
    rfl
  rw [dedupInPlace,looped]
  dsimp only
  rw [front]
  refine eq_of_increasing _ _ (new_increasing monotone)
    (dedupSorted_increasing arr increasing) fun val => ?_
  rw [mem_dedupSorted]
  constructor
  · intro member
    rcases List.mem_cons.mp member with rfl | later
    · rw [List.getD_eq_getElem _ _ nonempty]
      exact List.getElem_mem nonempty
    · obtain ⟨q,among,rfl⟩ := List.mem_map.mp later
      have bound := (List.Ico.mem.mp (List.mem_filter.mp among).1).2
      rw [List.getD_eq_getElem _ _ bound]
      exact List.getElem_mem bound
  · intro member
    obtain ⟨p,bound,rfl⟩ := List.getElem_of_mem member
    have covered := new_covers (a := (arr.getD · 0)) p bound
    rwa [List.getD_eq_getElem _ _ bound] at covered

theorem clauselistArgs_eq (sorter : Sorter) (hash : HashAny) (clauselist : List Node) :
    clauselistArgs sorter hash clauselist = getClauselistArgs hash clauselist := by
  have sorted : sorter.run intCmp (clauselist.flatMap (eqArgHashes hash)) =
      (clauselist.flatMap (eqArgHashes hash)).insertionSort (· ≤ ·) := sorter.run_values _
  rw [clauselistArgs,sorted]
  exact dedupInPlace_eq _ (List.pairwise_insertionSort _ _)

/-! The lookups. -/

theorem intCmp_neg (a b : Int) : intCmp a b < 0 ↔ a < b := by
  unfold intCmp orderCmp
  split
  · simp_all
  · split
    · simp_all
    · simp_all

theorem intCmp_pos (a b : Int) : 0 < intCmp a b ↔ b < a := by
  unfold intCmp orderCmp
  split
  · simp
    omega
  · split
    · simp_all
    · simp_all

theorem bsearch_spec (val : Int) (arr : Nat → Int) (n : Nat)
    (increasing : ∀ p q, p < q → q < n → arr p < arr q) (fuel lo hi : Nat) (enough : hi ≤ lo + fuel)
    (within : hi ≤ n) (narrowed : ∀ i < n, arr i = val → lo ≤ i ∧ i < hi) :
    (∀ i, bsearch val arr fuel lo hi = some i → i < n ∧ arr i = val) ∧
      (bsearch val arr fuel lo hi = none → ∀ i < n, arr i ≠ val) := by
  induction fuel generalizing lo hi with
  | zero =>
    refine ⟨nofun,fun _ i bound same => ?_⟩
    have between := narrowed i bound same
    omega
  | succ fuel ih =>
    rw [bsearch]
    split
    next open_ =>
      have monotone (p q : Nat) (le : p ≤ q) (bound : q < n) : arr p ≤ arr q := by
        rcases Nat.lt_or_eq_of_le le with less | rfl
        · exact (increasing p q less bound).le
        · exact le_refl _
      dsimp only
      split
      next below =>
        rw [intCmp_neg] at below
        refine ih lo ((lo + hi) / 2) (by omega) (by omega) fun i bound same =>
          ⟨(narrowed i bound same).1,?_⟩
        by_contra above
        have := monotone ((lo + hi) / 2) i (by omega) bound
        omega
      next =>
        split
        next above =>
          rw [intCmp_pos] at above
          refine ih ((lo + hi) / 2 + 1) hi (by omega) within fun i bound same =>
            ⟨?_,(narrowed i bound same).2⟩
          by_contra below
          have := monotone i ((lo + hi) / 2) (by omega) (by omega)
          omega
        next notBelow notAbove =>
          rw [intCmp_neg] at notBelow
          rw [intCmp_pos] at notAbove
          refine ⟨fun i found => ?_,nofun⟩
          cases found
          exact ⟨by omega,by omega⟩
    next closed =>
      refine ⟨nofun,fun _ i bound same => ?_⟩
      have between := narrowed i bound same
      omega

/-- On the increasing array the binary search finds what the model of the lookup finds. -/
theorem getId_eq (val : Int) (arr : List Int) (increasing : arr.Pairwise (· < ·)) :
    getId val arr = getIdInSortedIntArray val arr := by
  have distinct : arr.Nodup := increasing.imp ne_of_lt
  obtain ⟨found,missing⟩ := bsearch_spec val (arr.getD · 0) arr.length (fun p q less bound => by
    rw [List.getD_eq_getElem _ _ (by omega),List.getD_eq_getElem _ _ bound]
    exact List.pairwise_iff_getElem.mp increasing p q _ _ less) arr.length 0 arr.length
      (by omega) (Nat.le_refl _) (fun i bound _ => ⟨Nat.zero_le i,bound⟩)
  cases outcome : getId val arr with
  | none =>
    have absent : val ∉ arr := fun member => by
      obtain ⟨i,bound,same⟩ := List.getElem_of_mem member
      exact missing outcome i bound (by rw [List.getD_eq_getElem _ _ bound,same])
    exact (List.idxOf?_eq_none_iff.mpr absent).symm
  | some i =>
    obtain ⟨bound,same⟩ := found i outcome
    rw [List.getD_eq_getElem _ _ bound] at same
    rw [getIdInSortedIntArray_mem val arr (same ▸ List.getElem_mem bound),← same,
      distinct.idxOf_getElem i bound]

/-! The classes. -/

section Classes

variable (hash : HashAny)

/-- Both are arguments of one equality clause. -/
def Together (clauselist : List Node) (v w : Int) : Prop :=
  ∃ clause ∈ clauselist, v ∈ eqArgHashes hash clause ∧ w ∈ eqArgHashes hash clause

theorem neighbours_linked (first : Int) (rest : List Int) (v : Int) (member : v ∈ first :: rest) :
    DisjointSet.Linked (neighbours (first :: rest)) first v := by
  induction rest generalizing first with
  | nil =>
    rw [List.mem_singleton.mp member]
    exact .refl first
  | cons second rest ih =>
    rcases List.mem_cons.mp member with rfl | later
    · exact .refl v
    · have step : DisjointSet.Linked (neighbours (first :: second :: rest)) second first :=
        .rel _ _ (List.mem_cons_self ..)
      exact (step.symm _ _).trans _ _ _
        (DisjointSet.Linked.mono _ _ (List.subset_cons_self ..) _ _ (ih second later))

theorem together_linked (clauselist : List Node) (v w : Int)
    (together : Together hash clauselist v w) :
    DisjointSet.Linked (linkedPairs hash clauselist) v w := by
  obtain ⟨clause,member,left,right⟩ := together
  have within : neighbours (eqArgHashes hash clause) ⊆ linkedPairs hash clauselist :=
    fun pair among => List.mem_flatMap.mpr ⟨clause,member,among⟩
  cases args : eqArgHashes hash clause with
  | nil =>
    rw [args] at left
    cases left
  | cons first rest =>
    rw [args] at left right within
    have both :=
      ((neighbours_linked first rest v left).symm _ _).trans _ _ _
        (neighbours_linked first rest w right)
    exact DisjointSet.Linked.mono _ _ within v w both

theorem linked_iff_together (clauselist : List Node) (v w : Int) :
    DisjointSet.Linked (linkedPairs hash clauselist) v w ↔
      Relation.EqvGen (Together hash clauselist) v w := by
  constructor
  · refine Relation.EqvGen.mono (fun v w pair => ?_) v w
    obtain ⟨clause,member,neighbour⟩ := List.mem_flatMap.mp pair
    exact ⟨clause,member,neighbours_mem _ _ neighbour⟩
  · intro chain
    induction chain with
    | rel v w together => exact together_linked hash clauselist v w together
    | refl v => exact .refl v
    | symm v w _ ih => exact ih.symm _ _
    | trans u v w _ _ first second => exact first.trans _ _ _ second

/-- The classes depend only on which arguments stand together in a clause. -/
theorem getEclasses_together (clauselist clauselist' : List Node)
    (same : ∀ v w, Together hash clauselist v w ↔ Together hash clauselist' v w) :
    getEclasses hash clauselist = getEclasses hash clauselist' := by
  refine getEclasses_congr hash clauselist clauselist' ?_ fun v w => ?_
  · refine eq_of_increasing _ _ (getClauselistArgs_increasing hash clauselist)
      (getClauselistArgs_increasing hash clauselist') fun val => ?_
    have alone := same val val
    simp only [Together,and_self] at alone
    rw [mem_getClauselistArgs,mem_getClauselistArgs,alone]
  · rw [linked_iff_together,linked_iff_together]
    exact ⟨Relation.EqvGen.mono (fun v w => (same v w).mp) v w,
      Relation.EqvGen.mono (fun v w => (same v w).mpr) v w⟩

/-- The same clause with its arguments in another order. -/
inductive Reordered : Node → Node → Prop where
  | same (clause : Node) : Reordered clause clause
  | args (type : ClauseType) (opno : Nat) (fields : Text) (arg arg' : Node) (args args' : List Node)
      (location : Int) (perm : (arg :: args).Perm (arg' :: args')) :
      Reordered (.clause type opno fields arg args location)
        (.clause type opno fields arg' args' location)

theorem Reordered.eqArgHashes {clause clause' : Node} (reordered : Reordered clause clause') :
    (eqArgHashes hash clause).Perm (eqArgHashes hash clause') := by
  cases reordered with
  | same => exact .refl _
  | args type opno fields arg arg' args args' location perm =>
    have same : clauseIsEqClause (.clause type opno fields arg args location) =
        clauseIsEqClause (.clause type opno fields arg' args' location) := rfl
    simp only [Hash.eqArgHashes,Node.clauseArgs,same]
    by_cases equality : clauseIsEqClause (.clause type opno fields arg' args' location) = true
    · rw [if_pos equality,if_pos equality]
      exact (perm.filter _).map _
    · rw [if_neg equality,if_neg equality]

theorem together_reordered (clauselist clauselist' : List Node)
    (reordered : List.Forall₂ Reordered clauselist clauselist') (v w : Int) :
    Together hash clauselist v w ↔ Together hash clauselist' v w := by
  induction reordered with
  | nil => rfl
  | @cons clause clause' _ _ first _ ih =>
    have perm := first.eqArgHashes hash
    simp only [Together,List.exists_mem_cons_iff,perm.mem_iff] at ih ⊢
    rw [ih]

theorem together_perm (clauselist clauselist' : List Node)
    (perm : clauselist.Perm clauselist') (v w : Int) :
    Together hash clauselist v w ↔ Together hash clauselist' v w := by
  simp only [Together,perm.mem_iff]

theorem eclass_linked (clauselist : List Node) (v w : Int)
    (linked : DisjointSet.Linked (linkedPairs hash clauselist) v w) :
    eclass hash clauselist v = eclass hash clauselist w := by
  rw [eclass,eclass]
  congr 2
  funext other
  refine decide_eq_decide.mpr ⟨fun first => first.trans _ _ _ linked,fun first =>
    first.trans _ _ _ (linked.symm _ _)⟩

theorem eclass_eq_iff (injective : Function.Injective hash.intArray)
    (clauselist : List Node) (v w : Int) (member : v ∈ getClauselistArgs hash clauselist) :
    eclass hash clauselist v = eclass hash clauselist w ↔
      DisjointSet.Linked (linkedPairs hash clauselist) v w := by
  classical
  refine ⟨fun same => ?_,eclass_linked hash clauselist v w⟩
  have lists := injective same
  have among : v ∈ ((getClauselistArgs hash clauselist).filter fun other =>
      DisjointSet.Linked (linkedPairs hash clauselist) other v).insertionSort (· ≤ ·) := by
    rw [(List.perm_insertionSort _ _).mem_iff,List.mem_filter]
    exact ⟨member,decide_eq_true (Relation.EqvGen.refl v)⟩
  have moved := lists ▸ among
  rw [(List.perm_insertionSort _ _).mem_iff,List.mem_filter] at moved
  exact of_decide_eq_true moved.2

theorem getArgEclass_member (clauselist : List Node) (eclasses : Eclasses)
    (found : getEclasses hash clauselist = some eclasses) (val : Int)
    (member : val ∈ eclasses.argsHash) :
    getArgEclass val eclasses = eclass hash clauselist val ∧
      getArgEclass val eclasses ∈ eclasses.eclassHash := by
  rw [getEclasses_eq] at found
  obtain rfl := Option.some.inj found
  have bound : (getClauselistArgs hash clauselist).idxOf val <
      ((getClauselistArgs hash clauselist).map (eclass hash clauselist)).length := by
    rw [List.length_map]
    exact List.idxOf_lt_length_iff.mpr member
  have value : getArgEclass val ⟨getClauselistArgs hash clauselist,
      (getClauselistArgs hash clauselist).map (eclass hash clauselist)⟩ =
      eclass hash clauselist val := by
    simp only [getArgEclass,getIdInSortedIntArray_mem val _ member]
    rw [List.getD_eq_getElem _ _ bound,List.getElem_map,List.getElem_idxOf]
  rw [value]
  exact ⟨rfl,List.mem_map_of_mem member⟩

theorem getArgEclass_missing (eclasses : Eclasses) (val : Int) (missing : val ∉ eclasses.argsHash) :
    getArgEclass val eclasses = 0 := by
  have absent : getIdInSortedIntArray val eclasses.argsHash = none :=
    List.idxOf?_eq_none_iff.mpr missing
  rw [getArgEclass,absent]

/-- Merging any first part of the pairs leaves a forest, so every search for a root ends. -/
theorem merged_forest (clauselist : List Node) (earlier later : List (Int × Int))
    (split : linkedPairs hash clauselist = earlier ++ later) :
    ∃ p, DisjointSet.mergeAll (getClauselistArgs hash clauselist).length linksBelow (fun _ => none)
        (earlier.map (Prod.map (getClauselistArgs hash clauselist).idxOf
            (getClauselistArgs hash clauselist).idxOf)) =
          some p ∧ DisjointSet.Forest p ∧
      ∀ v < (getClauselistArgs hash clauselist).length, ∃ root p',
        DisjointSet.getParent (getClauselistArgs hash clauselist).length p v = some (root,p') ∧
          DisjointSet.HasRoot p v root := by
  have merged :=
    DisjointSet.mergeAll_represents
      (List.range (getClauselistArgs hash clauselist).length) linksBelow
    (earlier.map (Prod.map (getClauselistArgs hash clauselist).idxOf
          (getClauselistArgs hash clauselist).idxOf)) ?_
  · rw [List.length_range] at merged
    obtain ⟨p,ran,represents,within⟩ := merged
    refine ⟨p,ran,represents.forest,fun v bound => ?_⟩
    obtain ⟨root,depth,rooted⟩ := represents.forest v
    have low :=
      DisjointSet.RootAt.depth_lt p _ within depth v root rooted (List.mem_range.mpr bound)
    rw [List.length_range] at low
    obtain ⟨p',found,_,_⟩ :=
      DisjointSet.getParent_finds _ p within depth _ v root rooted (List.mem_range.mpr bound) low
    exact ⟨root,p',found,depth,rooted⟩
  · intro pair member
    obtain ⟨args,among,rfl⟩ := List.mem_map.mp member
    obtain ⟨first,second⟩ :=
      linkedPairs_mem hash clauselist args (split ▸ List.mem_append_left later among)
    simp only [Prod.map_fst,Prod.map_snd,List.mem_range]
    exact ⟨List.idxOf_lt_length_iff.mpr first,List.idxOf_lt_length_iff.mpr second⟩

theorem performEclassesJoin_merges (clauselist : List Node) :
    performEclassesJoin hash clauselist (getClauselistArgs hash clauselist) =
      DisjointSet.mergeAll (getClauselistArgs hash clauselist).length linksBelow (fun _ => none)
        ((linkedPairs hash clauselist).map
          (Prod.map (getClauselistArgs hash clauselist).idxOf
            (getClauselistArgs hash clauselist).idxOf)) :=
  joinClauses_eq hash _ clauselist
    (fun clause member val arg => (mem_getClauselistArgs hash clauselist val).mpr
      ⟨clause,member,arg⟩) _

theorem mem_eqArgHashes (clause : Node) (val : Int) :
    val ∈ eqArgHashes hash clause ↔ clauseIsEqClause clause = true ∧
      ∃ args, clause.clauseArgs = some args ∧ ∃ arg ∈ args, arg.isConst = false ∧
      getNodeHash hash arg = val := by
  unfold eqArgHashes
  cases clause.clauseArgs with
  | none => simp
  | some args =>
    by_cases equality : clauseIsEqClause clause = true
    · simp [equality,and_assoc]
    · simp [equality]

/-- What the array lookups, the disjoint set and the relabelling of `get_eclasses` come to. -/
theorem getEclasses_correct (sorter : Sorter) (clauselist : List Node) :
    ∃ eclasses : Eclasses, getEclasses hash clauselist = some eclasses ∧
      eclasses.argsHash = clauselistArgs sorter hash clauselist ∧
      eclasses.argsHash.Pairwise (· < ·) ∧
      (∀ val, val ∈ eclasses.argsHash ↔ ∃ clause ∈ clauselist, clauseIsEqClause clause = true ∧
        ∃ args, clause.clauseArgs = some args ∧ ∃ arg ∈ args, arg.isConst = false ∧
        getNodeHash hash arg = val) ∧
      (∀ clause ∈ clauselist, ∀ val ∈ eqArgHashes hash clause, ∃ i < eclasses.argsHash.length,
        getId val eclasses.argsHash = some i ∧
        getIdInSortedIntArray val eclasses.argsHash = some i) ∧
      performEclassesJoin hash clauselist eclasses.argsHash =
        DisjointSet.mergeAll eclasses.argsHash.length linksBelow (fun _ => none)
          ((linkedPairs hash clauselist).map
            (Prod.map eclasses.argsHash.idxOf eclasses.argsHash.idxOf)) ∧
      (∀ earlier later, linkedPairs hash clauselist = earlier ++ later →
        ∃ p, DisjointSet.mergeAll eclasses.argsHash.length linksBelow (fun _ => none)
            (earlier.map (Prod.map eclasses.argsHash.idxOf eclasses.argsHash.idxOf)) = some p ∧
          DisjointSet.Forest p ∧ ∀ v < eclasses.argsHash.length, ∃ root p',
            DisjointSet.getParent eclasses.argsHash.length p v = some (root,p') ∧
            DisjointSet.HasRoot p v root) ∧
      eclasses.eclassHash.length = eclasses.argsHash.length ∧
      (Function.Injective hash.intArray → ∀ i < eclasses.argsHash.length,
        ∀ j < eclasses.argsHash.length,eclasses.eclassHash.getD i 0 = eclasses.eclassHash.getD j 0 ↔
          Relation.EqvGen (Together hash clauselist) (eclasses.argsHash.getD i 0)
          (eclasses.argsHash.getD j 0)) ∧
      ∀ permuted clauselist', clauselist.Perm permuted →
      List.Forall₂ Reordered permuted clauselist' →
        getEclasses hash clauselist' = some eclasses := by
  have increasing := getClauselistArgs_increasing hash clauselist
  refine ⟨_,getEclasses_eq hash clauselist,(clauselistArgs_eq sorter hash clauselist).symm,
    increasing,fun val => ?_,fun clause among val arg => ?_,
    performEclassesJoin_merges hash clauselist,merged_forest hash clauselist,List.length_map _,
    fun injective i low j high => ?_,fun permuted clauselist' perm reordered => ?_⟩
  · rw [mem_getClauselistArgs]
    simp only [mem_eqArgHashes]
  · have member := (mem_getClauselistArgs hash clauselist val).mpr ⟨clause,among,arg⟩
    have found := getIdInSortedIntArray_mem val _ member
    exact ⟨_,List.idxOf_lt_length_iff.mpr member,(getId_eq val _ increasing).trans found,found⟩
  · have bound (k : Nat) (low : k < (getClauselistArgs hash clauselist).length) :
        ((getClauselistArgs hash clauselist).map (eclass hash clauselist)).getD k 0 =
          eclass hash clauselist ((getClauselistArgs hash clauselist).getD k 0) := by
      rw [List.getD_eq_getElem _ _ (by rwa [List.length_map]),List.getElem_map,
        List.getD_eq_getElem _ _ low]
    have member :
      (getClauselistArgs hash clauselist).getD i 0 ∈ getClauselistArgs hash clauselist := by
      rw [List.getD_eq_getElem _ _ low]
      exact List.getElem_mem low
    rw [bound i low,bound j high,eclass_eq_iff hash injective clauselist _ _ member,
      linked_iff_together]
  · rw [← getEclasses_eq hash clauselist]
    refine getEclasses_together hash clauselist' clauselist fun v w => ?_
    rw [← together_reordered hash permuted clauselist' reordered,
      ← together_perm hash clauselist permuted perm]

end Classes

/-- No two texts and no two lists share a hash, and none has the hash 0. -/
def faithfulHash : HashAny :=
  ⟨fun text => textCode text + 1,fun arr => (Encodable.encode arr : Nat) + 1⟩

theorem faithfulHash_intArray : Function.Injective faithfulHash.intArray :=
  fun _ _ equal => Encodable.encode_injective (Int.ofNat_inj.mp (add_right_cancel equal))

theorem getEclasses_correct_chain :
    ∃ eclasses : Eclasses,
      getEclasses faithfulHash [int4Clause 96 65 (int4Var 1 1 7) (int4Var 2 1 9) 8,
        int4Clause 96 65 (int4Var 2 1 11) (int4Var 3 1 13) 12] = some eclasses ∧
      getEclasses faithfulHash [int4Clause 96 65 (int4Var 3 1 13) (int4Var 2 1 11) 12,
        int4Clause 96 65 (int4Var 1 1 7) (int4Var 2 1 9) 8] = some eclasses ∧
      ∀ i < eclasses.argsHash.length, ∀ j < eclasses.argsHash.length,
        eclasses.eclassHash.getD i 0 = eclasses.eclassHash.getD j 0 ↔
          Relation.EqvGen (Together faithfulHash
            [int4Clause 96 65 (int4Var 1 1 7) (int4Var 2 1 9) 8,int4Clause 96 65 (int4Var 2 1 11)
            (int4Var 3 1 13) 12]) (eclasses.argsHash.getD i 0) (eclasses.argsHash.getD j 0) := by
  obtain ⟨eclasses,found,_,_,_,_,_,_,_,linked,order⟩ :=
    getEclasses_correct faithfulHash insertionSorter
      [int4Clause 96 65 (int4Var 1 1 7) (int4Var 2 1 9) 8,int4Clause 96 65 (int4Var 2 1 11)
      (int4Var 3 1 13) 12]
  refine ⟨eclasses,found,order _ _ (.swap _ _ _)
    (.cons (.args _ _ _ _ _ _ _ _ (.swap _ _ _)) (.cons (.same _) .nil)),
    linked faithfulHash_intArray⟩

end ExploratoryOptimizer.Aqo.Eclasses
