import ExploratoryOptimizer.Aqo.FeatureSubspace.Compaction

/-! What `get_fss_for_object` returns, in terms of the clauses with their selectivities. -/
namespace ExploratoryOptimizer.Aqo.FeatureSubspace
open Hash Library.Sorting

section Object

variable (hash : HashAny) (log : ℚ → ℚ) (eclasses : Eclasses)

def withoutConsts (clauseHash : Int) (object : Node × ℚ) : Bool :=
  getClauseHash hash eclasses object.1 = clauseHash && !clauseHasConsts object.1

/-- The clause has a constant, or it is the only one of its hash without constants. -/
def isKept (objects : List (Node × ℚ)) (object : Node × ℚ) : Bool :=
  clauseHasConsts object.1 ||
    objects.countP (withoutConsts hash eclasses (getClauseHash hash eclasses object.1)) = 1

def keptObjects (objects : List (Node × ℚ)) : List (Node × ℚ) :=
  objects.filter (isKept hash eclasses objects)

def objectCell (object : Node × ℚ) : Int ×ₗ ℚ :=
  toLex (getClauseHash hash eclasses object.1,featureOf log object.2)

def orderedCells (objects : List (Node × ℚ)) : List (Int ×ₗ ℚ) :=
  ((keptObjects hash eclasses objects).map (objectCell hash log eclasses)).insertionSort (· ≤ ·)

/-- The clauses in the order of their hashes, as the arrays hold them before the compaction. -/
structure Placed (objects : List (Node × ℚ)) (arrangement : Nat → Node × ℚ) (placed : Subspace)
    (consts : Nat → Bool) :
    Prop where
  perm : (cells arrangement 0 objects.length).Perm objects
  cell : ∀ p < objects.length, placed.cell p = objectCell hash log eclasses (arrangement p)
  consts : ∀ p < objects.length, consts p = clauseHasConsts (arrangement p).1
  sorted : ∀ p q, p ≤ q → q < objects.length → placed.sortedClauses p ≤ placed.sortedClauses q
  empty : placed.sh = 0

variable {hash log eclasses} {objects : List (Node × ℚ)} {arrangement : Nat → Node × ℚ}
  {placed : Subspace} {consts : Nat → Bool}

theorem isKept_perm (objects objects' : List (Node × ℚ)) (perm : objects.Perm objects') :
    isKept hash eclasses objects = isKept hash eclasses objects' := by
  funext object
  rw [isKept,isKept,perm.countP_eq]

theorem Placed.hashes (isPlaced : Placed hash log eclasses objects arrangement placed consts)
    (p : Nat) (bound : p < objects.length) : placed.sortedClauses p = getClauseHash hash eclasses
    (arrangement p).1 :=
  congrArg (fun cell => (ofLex cell).1) (isPlaced.cell p bound)

theorem Placed.keptAt (isPlaced : Placed hash log eclasses objects arrangement placed consts)
    (p : Nat) (bound : p < objects.length) :
    keptAt objects.length consts placed.sortedClauses p = isKept hash eclasses objects
      (arrangement p) := by
  have alone : (List.Ico 0 objects.length).filter
      (fun q => decide (placed.sortedClauses q = placed.sortedClauses p) && !consts q) =
        (List.Ico 0 objects.length).filter
          (withoutConsts hash eclasses (getClauseHash hash eclasses (arrangement p).1) ∘
            arrangement) := by
    refine List.filter_congr fun q member => ?_
    have within := (List.Ico.mem.mp member).2
    rw [Function.comp_apply,withoutConsts,isPlaced.hashes q within,isPlaced.hashes p bound,
      isPlaced.consts q within]
  rw [FeatureSubspace.keptAt,alone,isKept,isPlaced.consts p bound,← isPlaced.perm.countP_eq,cells,
    List.countP_map,List.countP_eq_length_filter]

/-- The positions that the compaction keeps are those of the clauses that are kept. -/
theorem Placed.kept (isPlaced : Placed hash log eclasses objects arrangement placed consts) :
    (((List.Ico 0 objects.length).filter
          (FeatureSubspace.keptAt objects.length consts placed.sortedClauses)).map
      placed.cell).Perm ((keptObjects hash eclasses objects).map
          (objectCell hash log eclasses)) := by
  refine List.Perm.trans (List.Perm.of_eq ?_)
    ((isPlaced.perm.filter (isKept hash eclasses objects)).map _)
  rw [cells,List.filter_map,List.map_map]
  have filtered :
    (List.Ico 0 objects.length).filter
      (FeatureSubspace.keptAt objects.length consts placed.sortedClauses) =
      (List.Ico 0 objects.length).filter (isKept hash eclasses objects ∘ arrangement) :=
    List.filter_congr fun p member => isPlaced.keptAt p (List.Ico.mem.mp member).2
  rw [filtered]
  refine List.map_congr_left fun p member => ?_
  exact isPlaced.cell p (List.Ico.mem.mp (List.mem_filter.mp member).1).2

theorem Placed.compacted (isPlaced : Placed hash log eclasses objects arrangement placed consts)
    (sorter : Sorter) :
    cells (compactGroups sorter objects.length consts objects.length 0 placed).cell 0
        (objects.length - (compactGroups sorter objects.length consts objects.length 0 placed).sh) =
      orderedCells hash log eclasses objects := by
  have empty := isPlaced.empty
  have start : Compacted objects.length consts placed 0 placed :=
    ⟨by omega,by omega,fun _ _ => rfl,by simp [cells],by simp [cells]⟩
  have compacted :=
    compactGroups_compacted isPlaced.sorted sorter objects.length 0 placed (by omega) start
  refine eq_of_sorted_perm _ _ compacted.ordered (List.pairwise_insertionSort _ _) ?_
  exact compacted.perm.trans (isPlaced.kept.trans (List.perm_insertionSort _ _).symm)

end Object

section Place

variable (sorter : Sorter) (hash : HashAny) (log : ℚ → ℚ) (eclasses : Eclasses)
  (objects : List (Node × ℚ))

def clauseHashAt (i : Nat) : Int :=
  ((objects.map Prod.fst).map (getClauseHash hash eclasses)).getD i 0

def hasConstsAt (i : Nat) : Bool := ((objects.map Prod.fst).map clauseHasConsts).getD i false

def sortedIndex (i : Nat) : Nat :=
  (argsort sorter (clauseHashAt hash eclasses objects) objects.length intCmp).getD i 0

def placedObject (objects : List (Node × ℚ)) (i : Nat) : Node × ℚ := objects.getD i (.other [],0)

theorem placedObject_hash (i : Nat) (bound : i < objects.length) :
    clauseHashAt hash eclasses objects i = getClauseHash hash eclasses
      (placedObject objects i).1 := by
  rw [clauseHashAt,placedObject,List.getD_eq_getElem _ _ (by simpa using bound),
    List.getD_eq_getElem _ _ bound]
  simp

theorem placedObject_consts (i : Nat) (bound : i < objects.length) :
    hasConstsAt objects i = clauseHasConsts (placedObject objects i).1 := by
  rw [hasConstsAt,placedObject,List.getD_eq_getElem _ _ (by simpa using bound),
    List.getD_eq_getElem _ _ bound]
  simp

def placedSubspace : Subspace :=
  placeClauses log (inversePermutation (sortedIndex sorter hash eclasses objects) objects.length)
    (clauseHashAt hash eclasses objects) (objects.map Prod.snd) 0 ⟨fun _ => 0,fun _ => 0,0⟩

theorem sortedIndex_perm :
    (argsort sorter (clauseHashAt hash eclasses objects) objects.length intCmp).Perm
      (List.range objects.length) :=
  sorter.perm _ _

theorem placedSubspace_at (p : Nat) (bound : p < objects.length) :
    (placedSubspace sorter hash log eclasses objects).features p =
        featureOf log (placedObject objects (sortedIndex sorter hash eclasses objects p)).2 ∧
      (placedSubspace sorter hash log eclasses objects).sortedClauses p =
        clauseHashAt hash eclasses objects (sortedIndex sorter hash eclasses objects p) := by
  have perm := sortedIndex_perm sorter hash eclasses objects
  have low : sortedIndex sorter hash eclasses objects p < objects.length := index_lt perm p bound
  have found :=
    placeClauses_at log (inversePermutation
        (sortedIndex sorter hash eclasses objects) objects.length)
    (clauseHashAt hash eclasses objects) (objects.map Prod.snd) 0 ⟨fun _ => 0,fun _ => 0,0⟩
    (fun k k' _ below _ below' same => inverse_injective perm k (by simpa using below) k'
        (by simpa using below') same)
    (sortedIndex sorter hash eclasses objects p) (by simpa using low)
  have back : inversePermutation (sortedIndex sorter hash eclasses objects) objects.length
      (sortedIndex sorter hash eclasses objects p) = p :=
        inversePermutation_idx _ _ (index_injective perm) p bound
  rw [Nat.zero_add,back,List.getElem_map] at found
  rwa [placedObject,List.getD_eq_getElem _ _ low]

theorem placedSubspace_placed :
    Placed hash log eclasses objects
      (fun p => placedObject objects (sortedIndex sorter hash eclasses objects p))
      (placedSubspace sorter hash log eclasses objects)
      (fun p => hasConstsAt objects (sortedIndex sorter hash eclasses objects p)) := by
  have perm := sortedIndex_perm sorter hash eclasses objects
  have low (p : Nat) (bound : p < objects.length) : sortedIndex sorter hash eclasses objects p <
    objects.length :=
    index_lt perm p bound
  have stored := placedSubspace_at sorter hash log eclasses objects
  refine ⟨cells_index perm objects (.other [],0) rfl,?_,?_,?_,placeClauses_sh ..⟩
  · intro p bound
    rw [Subspace.cell,(stored p bound).1,(stored p bound).2,
      placedObject_hash hash eclasses objects _ (low p bound)]
    rfl
  · intro p bound
    exact placedObject_consts objects _ (low p bound)
  · intro p q le bound
    rw [(stored p (by omega)).2,(stored q bound).2]
    have increasing :
      (argsort sorter (clauseHashAt hash eclasses objects) objects.length intCmp).Pairwise
        fun i j =>
        clauseHashAt hash eclasses objects i ≤ clauseHashAt hash eclasses objects j :=
          sorter.sorted_key _ _
    have length := perm.length_eq.trans List.length_range
    rcases Nat.lt_or_eq_of_le le with lt | rfl
    · have ordered :=
        List.pairwise_iff_getElem.mp increasing p q (by rw [length]; omega)
          (by rw [length]; omega) lt
      rw [sortedIndex,sortedIndex,List.getD_eq_getElem _ _ (by omega),
        List.getD_eq_getElem _ _ (by omega)]
      exact ordered
    · exact le_refl _

end Place

section Result

variable (sorter : Sorter) (hash : HashAny) (log : ℚ → ℚ)

def fssOf (eclasses : Eclasses) (ordered : List (Int ×ₗ ℚ)) (relidslist : List Int) : Fss :=
  ⟨ordered.length,
    getFssHash hash (hash.intArray (ordered.map fun cell => (ofLex cell).1))
    (hash.intArray eclasses.eclassHash)
      (getUnorderedIntListHash hash relidslist),
    ordered.map fun cell => (ofLex cell).2⟩

theorem getFssForObject_eq (objects : List (Node × ℚ)) (relidslist : List Int) :
    getFssForObject sorter hash log (objects.map Prod.fst) (objects.map Prod.snd) relidslist =
      (getEclasses hash (objects.map Prod.fst)).map fun eclasses =>
        fssOf hash eclasses (orderedCells hash log eclasses objects) relidslist := by
  unfold getFssForObject
  congr 1
  funext eclasses
  have compacted := (placedSubspace_placed sorter hash log eclasses objects).compacted sorter
  have relids :
    getRelidslistHash sorter hash relidslist = getUnorderedIntListHash hash relidslist := by
    rw [getRelidslistHash,getUnorderedIntListHash]
    exact congrArg hash.intArray (sorter.run_values relidslist)
  rw [fssOf,← compacted,map_cells,map_cells,length_cells,Nat.sub_zero,relids,
    List.length_map Prod.fst]
  rfl

theorem getFssForObject_some (objects : List (Node × ℚ)) (relidslist : List Int) :
    ∃ eclasses, getEclasses hash (objects.map Prod.fst) = some eclasses ∧
      getFssForObject sorter hash log (objects.map Prod.fst) (objects.map Prod.snd) relidslist =
        some (fssOf hash eclasses (orderedCells hash log eclasses objects) relidslist) := by
  have found := getEclasses_eq hash (objects.map Prod.fst)
  refine ⟨_,found,?_⟩
  rw [getFssForObject_eq,found,Option.map_some]

theorem orderedCells_perm (eclasses : Eclasses) (objects objects' : List (Node × ℚ))
    (perm : objects.Perm objects') :
    orderedCells hash log eclasses objects = orderedCells hash log eclasses objects' := by
  apply insertionSort_perm
  refine List.Perm.map _ ?_
  rw [keptObjects,keptObjects,isKept_perm objects objects' perm]
  exact perm.filter _

/-- The kept clauses themselves, in the order of their cells. -/
theorem orderedCells_kept (eclasses : Eclasses) (objects : List (Node × ℚ)) :
    ∃ kept : List (Node × ℚ), kept.Perm (keptObjects hash eclasses objects) ∧
      kept.map (objectCell hash log eclasses) = orderedCells hash log eclasses objects := by
  let key := objectCell hash log eclasses
  refine ⟨insertionSorter.run (fun a b => orderCmp (key a) (key b))
    (keptObjects hash eclasses objects),insertionSorter.perm _ _,?_⟩
  refine eq_of_sorted_perm _ _ ?_ (List.pairwise_insertionSort _ _) ?_
  · rw [List.pairwise_map]
    exact insertionSorter.sorted_key key _
  · exact ((insertionSorter.perm _ _).map key).trans (List.perm_insertionSort _ _).symm

/-- Clauses that are hashed and tested for constants alike. -/
structure AlikeHashed (eclasses : Eclasses) (clause clause' : Node) : Prop where
  clauseHash : getClauseHash hash eclasses clause = getClauseHash hash eclasses clause'
  consts : clauseHasConsts clause = clauseHasConsts clause'

theorem isKept_alike (eclasses : Eclasses) (objects objects' : List (Node × ℚ))
    (alike : List.Forall₂ (fun object object' => AlikeHashed hash eclasses object.1 object'.1)
      objects objects')
    (object object' : Node × ℚ) (here : AlikeHashed hash eclasses object.1 object'.1) :
    isKept hash eclasses objects object = isKept hash eclasses objects' object' := by
  have counted (clauseHash : Int) : objects.countP (withoutConsts hash eclasses clauseHash) =
      objects'.countP (withoutConsts hash eclasses clauseHash) := by
    induction alike with
    | nil => rfl
    | cons first _ ih =>
      rw [List.countP_cons,List.countP_cons,ih,withoutConsts,withoutConsts,
        first.clauseHash,first.consts]
  rw [isKept,isKept,counted,here.clauseHash,here.consts]

theorem keptObjects_alike {β : Type} (eclasses : Eclasses) (f : Node × ℚ → β)
    (objects objects' : List (Node × ℚ))
    (alike : List.Forall₂ (fun object object' => AlikeHashed hash eclasses object.1 object'.1 ∧
        f object = f object')
      objects objects') :
    (keptObjects hash eclasses objects).map f = (keptObjects hash eclasses objects').map f := by
  have kept (object object' : Node × ℚ) :=
    isKept_alike hash eclasses objects objects' (alike.imp fun _ _ both => both.1) object object'
  unfold keptObjects
  generalize isKept hash eclasses objects = first at kept ⊢
  generalize isKept hash eclasses objects' = second at kept ⊢
  induction alike with
  | nil => rfl
  | cons here _ ih =>
    rw [List.filter_cons,List.filter_cons,kept _ _ here.1]
    split
    · rw [List.map_cons,List.map_cons,here.2,ih]
    · exact ih

theorem orderedCells_hashes (eclasses : Eclasses) (objects : List (Node × ℚ)) :
    (orderedCells hash log eclasses objects).map (fun cell => (ofLex cell).1) =
      ((keptObjects hash eclasses objects).map fun object =>
        getClauseHash hash eclasses object.1).insertionSort
        (· ≤ ·) := by
  refine eq_of_sorted_perm _ _ ?_ (List.pairwise_insertionSort _ _) ?_
  · rw [List.pairwise_map]
    refine (List.pairwise_insertionSort (· ≤ ·) _).imp fun {a b} le => ?_
    rcases Prod.Lex.le_iff.mp le with less | same
    · exact less.le
    · exact same.1.le
  · refine ((List.perm_insertionSort _ _).map _).trans ?_
    rw [List.map_map]
    exact (List.perm_insertionSort _ _).symm

theorem length_orderedCells (eclasses : Eclasses) (objects : List (Node × ℚ)) :
    (orderedCells hash log eclasses objects).length =
      (keptObjects hash eclasses objects).length := by
  rw [orderedCells,List.length_insertionSort,List.length_map]

/-- Neither the order of the clauses, nor that of the relations, nor the sorting procedure matters.
Kept are the clauses with a constant, and a clause without one only if no other such clause has its
hash. -/
theorem getFssForObject_order_free (sorter' : Sorter) (objects objects' : List (Node × ℚ))
    (relidslist relidslist' : List Int) (perm : objects.Perm objects')
    (permIds : relidslist.Perm relidslist') :
    getFssForObject sorter hash log (objects.map Prod.fst) (objects.map Prod.snd) relidslist =
      getFssForObject sorter' hash log (objects'.map Prod.fst) (objects'.map Prod.snd) relidslist' ∧
    ∃ (eclasses : Eclasses) (kept : List (Node × ℚ)),
    getEclasses hash (objects.map Prod.fst) = some eclasses ∧
      kept.Perm (objects.filter fun object => clauseHasConsts object.1 ||
        objects.countP (fun other => getClauseHash hash eclasses other.1 =
          getClauseHash hash eclasses object.1 && !clauseHasConsts other.1) = 1) ∧
      getFssForObject sorter hash log (objects.map Prod.fst) (objects.map Prod.snd) relidslist =
        some ⟨kept.length,
          getFssHash hash (hash.intArray
            (kept.map fun object => getClauseHash hash eclasses object.1))
            (hash.intArray eclasses.eclassHash) (getUnorderedIntListHash hash relidslist),
          kept.map fun object => featureOf log object.2⟩ := by
  constructor
  · have relids :
      getUnorderedIntListHash hash relidslist = getUnorderedIntListHash hash relidslist' :=
      congrArg hash.intArray (insertionSort_perm _ _ permIds)
    rw [getFssForObject_eq,getFssForObject_eq,getEclasses_perm hash _ _ (perm.map Prod.fst)]
    congr 1
    funext eclasses
    rw [fssOf,fssOf,orderedCells_perm hash log eclasses objects objects' perm,relids]
  · obtain ⟨eclasses,found,result⟩ := getFssForObject_some sorter hash log objects relidslist
    obtain ⟨kept,among,cells⟩ := orderedCells_kept hash log eclasses objects
    refine ⟨eclasses,kept,found,among,?_⟩
    rw [result,← cells,fssOf,List.length_map,List.map_map,List.map_map]
    rfl

end Result

def columnsEqual : Node := int4Clause 96 65 (int4Var 1 1 0) (int4Var 2 1 4) 2

def columnsLess : Node := int4Clause 97 66 (int4Var 1 2 9) (int4Var 2 2 13) 11

theorem getFssForObject_order_free_pair :
    getFssForObject insertionSorter exactHash id [columnsEqual,columnsLess] [1/2,1/3] [1,2] =
      getFssForObject insertionSorter exactHash id [columnsLess,columnsEqual] [1/3,1/2] [2,1] :=
  (getFssForObject_order_free insertionSorter exactHash id insertionSorter
      [(columnsEqual,1/2),(columnsLess,1/3)]
    [(columnsLess,1/3),(columnsEqual,1/2)] [1,2] [2,1] (.swap ..) (.swap ..)).1

end ExploratoryOptimizer.Aqo.FeatureSubspace
