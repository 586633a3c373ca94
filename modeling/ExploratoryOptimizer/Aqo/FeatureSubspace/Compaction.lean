import ExploratoryOptimizer.Aqo.Hash
import ExploratoryOptimizer.Library.Sorting
import Mathlib.Algebra.Order.Field.Rat
import Mathlib.Data.List.GetD
import Mathlib.Data.Prod.Lex

/-! `get_fss_for_object` of contrib/aqo/hash.c, with `argsort` and `inverse_permutation` of utils.c.
Arrays are functions of the index, `qsort` is any correct sorting procedure. -/
namespace ExploratoryOptimizer.Aqo.FeatureSubspace
open Hash Library.Sorting

def intCmp (a b : Int) : Int := orderCmp a b

def doubleCmp (a b : ℚ) : Int := orderCmp a b

def logSelectivityLowerBound : ℚ := -30

section Arrays

variable (sorter : Sorter)

def argsort {α : Type} (a : Nat → α) (n : Nat) (cmp : α → α → Int) : List Nat :=
  sorter.run (fun i j => cmp (a i) (a j)) (List.range n)

def inversePermutation (idx : Nat → Nat) (n : Nat) : Nat → Nat :=
  (List.range n).foldl (fun inv i => Function.update inv (idx i) i) fun _ => 0

/-- The arrays of features and of clause hashes, and how many clauses have been dropped from
them. -/
structure Subspace where
  features : Nat → ℚ
  sortedClauses : Nat → Int
  sh : Nat

def placeClauses (log : ℚ → ℚ) (inverseIdx : Nat → Nat) (clauseHashes : Nat → Int) :
    List ℚ → Nat → Subspace → Subspace
  | [],_,subspace => subspace
  | selectivity :: rest,i,subspace =>
    let feature := log selectivity
    placeClauses log inverseIdx clauseHashes rest (i + 1)
      {subspace with
        features := Function.update subspace.features (inverseIdx i)
          (if feature < logSelectivityLowerBound then logSelectivityLowerBound else feature)
        sortedClauses := Function.update subspace.sortedClauses (inverseIdx i) (clauseHashes i)}

/-- The end of the group of equal hashes that starts at i, and how many of its clauses have
constants. -/
def countConsts (n : Nat) (hasConsts : Nat → Bool) (sortedClauses : Nat → Int) (i : Nat) : Nat →
    Nat → Nat → Nat × Nat
  | 0,j,k => (j,k)
  | fuel + 1,j,k =>
    if j < n ∧ sortedClauses j = sortedClauses i then
      countConsts n hasConsts sortedClauses i fuel (j + 1) (k + (hasConsts j).toNat)
    else (j,k)

/-- Moves the clauses of a group down over the dropped ones; the hash of the group is read from a
cell that may be overwritten on the way. -/
def compactGroup (n : Nat) (hasConsts : Nat → Bool) (i k m : Nat) : Nat → Nat →
    Subspace → Nat × Subspace
  | 0,j,subspace => (j,subspace)
  | fuel + 1,j,subspace =>
    if j < n ∧ subspace.sortedClauses j = subspace.sortedClauses i then
      if hasConsts j || k + 1 = m - i then
        compactGroup n hasConsts i k m fuel (j + 1)
          {subspace with
            features := Function.update subspace.features (j - subspace.sh) (subspace.features j)
            sortedClauses :=
              Function.update subspace.sortedClauses (j - subspace.sh) (subspace.sortedClauses j)}
      else compactGroup n hasConsts i k m fuel (j + 1) {subspace with sh := subspace.sh + 1}
    else (j,subspace)

def sortFeatures (lo hi : Nat) (subspace : Subspace) : Subspace :=
  {subspace with
    features := write subspace.features lo (sorter.run doubleCmp (cells subspace.features lo hi))}

def compactGroups (n : Nat) (hasConsts : Nat → Bool) : Nat → Nat → Subspace → Subspace
  | 0,_,subspace => subspace
  | fuel + 1,i,subspace =>
    if i < n then
      let (m,k) := countConsts n hasConsts subspace.sortedClauses i (n - i) i 0
      let (j,compacted) := compactGroup n hasConsts i k m (n - i) i subspace
      compactGroups n hasConsts fuel j
        (sortFeatures sorter (i - subspace.sh) (j - compacted.sh) compacted)
    else subspace

end Arrays

def clauseHasConsts (clause : Node) : Bool :=
  match clause.clauseArgs with
  | none => false
  | some args => hasConsts args

def getRelidslistHash (sorter : Sorter) (hash : HashAny) (relidslist : List Int) : Int :=
  hash.intArray (sorter.run intCmp relidslist)

def getFssHash (hash : HashAny) (clausesHash eclassesHash relidslistHash : Int) : Int :=
  hash.intArray [clausesHash,eclassesHash,relidslistHash]

structure Fss where
  nfeatures : Nat
  fssHash : Int
  features : List ℚ
  deriving DecidableEq

def getFssForObject (sorter : Sorter) (hash : HashAny) (log : ℚ → ℚ) (clauselist : List Node)
    (selectivities : List ℚ) (relidslist : List Int) : Option Fss :=
  (getEclasses hash clauselist).map fun eclasses =>
    let n := clauselist.length
    let clauseHashes (i : Nat) := (clauselist.map (getClauseHash hash eclasses)).getD i 0
    let hasConsts (i : Nat) := (clauselist.map clauseHasConsts).getD i false
    let idx (i : Nat) := (argsort sorter clauseHashes n intCmp).getD i 0
    let inverseIdx := inversePermutation idx n
    let placed := placeClauses log inverseIdx clauseHashes selectivities 0 ⟨fun _ => 0,fun _ => 0,0⟩
    let compacted := compactGroups sorter n (fun j => hasConsts (idx j)) n 0 placed
    let nfeatures := n - compacted.sh
    let clausesHash := hash.intArray (cells compacted.sortedClauses 0 nfeatures)
    let eclassesHash := hash.intArray eclasses.eclassHash
    ⟨nfeatures,getFssHash hash clausesHash eclassesHash (getRelidslistHash sorter hash relidslist),
      cells compacted.features 0 nfeatures⟩

/-! The permutation that sorts the clauses, and its inverse. -/

section Permutation

theorem inversePermutation_idx (idx : Nat → Nat) (n : Nat)
    (injective : ∀ i < n, ∀ j < n, idx i = idx j → i = j) (i : Nat) (bound : i < n) :
    inversePermutation idx n (idx i) = i := by
  induction n with
  | zero => exact absurd bound (Nat.not_lt_zero i)
  | succ n ih =>
    rw [inversePermutation,List.range_succ,List.foldl_append,List.foldl_cons,List.foldl_nil,
      ← inversePermutation]
    by_cases last : i = n
    · rw [last,Function.update_self]
    · have below : i < n := by omega
      rw [Function.update_of_ne fun same => last (injective i bound n (Nat.lt_succ_self n) same)]
      exact ih (fun i lt j lt' => injective i (by omega) j (by omega)) below

variable {order : List Nat} {n : Nat} (perm : order.Perm (List.range n))
include perm

theorem index_lt (i : Nat) (bound : i < n) : order.getD i 0 < n := by
  have within : i < order.length := by rwa [perm.length_eq,List.length_range]
  rw [List.getD_eq_getElem _ _ within]
  exact List.mem_range.mp (perm.mem_iff.mp (List.getElem_mem within))

theorem index_injective (i : Nat) (bound : i < n) (j : Nat) (bound' : j < n)
    (same : order.getD i 0 = order.getD j 0) :
    i = j := by
  have length : order.length = n := by rw [perm.length_eq,List.length_range]
  rw [List.getD_eq_getElem _ _ (by omega),List.getD_eq_getElem _ _ (by omega)] at same
  exact (perm.nodup_iff.mpr List.nodup_range).getElem_inj_iff.mp same

theorem index_surjective (v : Nat) (bound : v < n) : ∃ i < n, order.getD i 0 = v := by
  obtain ⟨i,within,found⟩ := List.getElem_of_mem (perm.mem_iff.mpr (List.mem_range.mpr bound))
  refine ⟨i,by rwa [perm.length_eq,List.length_range] at within,?_⟩
  rw [List.getD_eq_getElem _ _ within,found]

theorem inverse_injective (v : Nat) (bound : v < n) (w : Nat) (bound' : w < n)
    (same : inversePermutation (order.getD · 0) n v = inversePermutation (order.getD · 0) n w) :
    v = w := by
  obtain ⟨i,low,rfl⟩ := index_surjective perm v bound
  obtain ⟨j,low',rfl⟩ := index_surjective perm w bound'
  rw [inversePermutation_idx _ n (index_injective perm) i low,
    inversePermutation_idx _ n (index_injective perm) j low'] at same
  rw [same]

theorem cells_index {α : Type} (items : List α) (default : α) (length : items.length = n) :
    (cells (fun i => items.getD (order.getD i 0) default) 0 n).Perm items := by
  have indexes : cells (order.getD · 0) 0 n = order := by
    have whole := cells_getElem order (order.getD · 0) 0 fun p bound => by
      rw [Nat.zero_add,List.getD_eq_getElem _ _ bound]
    rwa [Nat.zero_add,perm.length_eq,List.length_range] at whole
  have values : (List.range n).map (items.getD · default) = items := by
    refine List.ext_getElem (by simp [length]) fun i _ bound => ?_
    rw [List.getElem_map,List.getElem_range,List.getD_eq_getElem _ _ bound]
  have mapped := perm.map (items.getD · default)
  rw [values,← indexes,map_cells] at mapped
  exact mapped

end Permutation

theorem placeClauses_frame (log : ℚ → ℚ) (inverseIdx : Nat → Nat) (clauseHashes : Nat → Int)
    (selectivities : List ℚ) (i : Nat) (subspace : Subspace) (p : Nat)
    (apart : ∀ k, i ≤ k → k < i + selectivities.length → inverseIdx k ≠ p) :
    (placeClauses log inverseIdx clauseHashes selectivities i subspace).features p =
      subspace.features p ∧
      (placeClauses log inverseIdx clauseHashes selectivities i subspace).sortedClauses p =
        subspace.sortedClauses p := by
  induction selectivities generalizing i subspace with
  | nil => exact ⟨rfl,rfl⟩
  | cons selectivity rest ih =>
    have here : p ≠ inverseIdx i := (apart i (Nat.le_refl i) (by simp)).symm
    obtain ⟨features,sorted⟩ :=
      ih (i + 1) _ fun k above below => apart k (by omega) (by rw [List.length_cons]; omega)
    rw [placeClauses,features,sorted]
    exact ⟨Function.update_of_ne here _ _,Function.update_of_ne here _ _⟩

theorem placeClauses_sh (log : ℚ → ℚ) (inverseIdx : Nat → Nat) (clauseHashes : Nat → Int)
    (selectivities : List ℚ) (i : Nat) (subspace : Subspace) :
    (placeClauses log inverseIdx clauseHashes selectivities i subspace).sh = subspace.sh := by
  induction selectivities generalizing i subspace with
  | nil => rfl
  | cons selectivity rest ih => exact ih (i + 1) _

def featureOf (log : ℚ → ℚ) (selectivity : ℚ) : ℚ := max logSelectivityLowerBound (log selectivity)

theorem placeClauses_at (log : ℚ → ℚ) (inverseIdx : Nat → Nat) (clauseHashes : Nat → Int)
    (selectivities : List ℚ) (i : Nat) (subspace : Subspace)
    (injective : ∀ k k', i ≤ k → k < i + selectivities.length → i ≤ k' →
      k' < i + selectivities.length →
      inverseIdx k = inverseIdx k' → k = k') (k : Nat) (bound : k < selectivities.length) :
    (placeClauses log inverseIdx clauseHashes selectivities i subspace).features
      (inverseIdx (i + k)) =
        featureOf log selectivities[k] ∧
      (placeClauses log inverseIdx clauseHashes selectivities i subspace).sortedClauses
      (inverseIdx (i + k)) =
        clauseHashes (i + k) := by
  induction selectivities generalizing i subspace k with
  | nil => exact absurd bound (Nat.not_lt_zero k)
  | cons selectivity rest ih =>
    rw [List.length_cons] at injective
    rw [placeClauses]
    cases k with
    | zero =>
      have later (subspace : Subspace) :=
        placeClauses_frame log inverseIdx clauseHashes rest (i + 1) subspace (inverseIdx i)
          fun k above below same =>
          absurd (injective k i (by omega) (by omega) (by omega) (by omega) same) (by omega)
      refine ⟨(later _).1.trans ((Function.update_self ..).trans ?_),
        (later _).2.trans (Function.update_self ..)⟩
      rw [featureOf,List.getElem_cons_zero]
      split
      next low => exact (max_eq_left low.le).symm
      next high => exact (max_eq_right (not_lt.mp high)).symm
    | succ k =>
      have shifted : i + (k + 1) = i + 1 + k := by omega
      rw [shifted]
      exact ih (i + 1) _ (fun k k' a b c d => injective k k' (by omega) (by omega)
          (by omega) (by omega)) k
        (by simpa using bound)

/-! The compaction, group by group. -/

def Subspace.cell (subspace : Subspace) (p : Nat) : Int ×ₗ ℚ :=
  toLex (subspace.sortedClauses p,subspace.features p)

section Compaction

variable (n : Nat) (consts : Nat → Bool)

/-- A group of equal hashes ends where another hash or the end of the array begins. -/
structure GroupEnd (hashes : Nat → Int) (i m : Nat) : Prop where
  within : i ≤ m ∧ m ≤ n
  same : ∀ p, i ≤ p → p < m → hashes p = hashes i
  next : m < n → hashes m ≠ hashes i

theorem countConsts_groupEnd (hashes : Nat → Int) (i : Nat) (fuel j k : Nat)
    (enough : j + fuel = n) (above : i ≤ j) (same : ∀ p, i ≤ p → p < j → hashes p = hashes i) :
    ∃ m, j ≤ m ∧ GroupEnd n hashes i m ∧
      countConsts n consts hashes i fuel j k = (m,k + ((List.Ico j m).filter consts).length) := by
  induction fuel generalizing j k with
  | zero => exact ⟨j,Nat.le_refl j,⟨⟨above,by omega⟩,same,by omega⟩,by simp [countConsts]⟩
  | succ fuel ih =>
    rw [countConsts]
    split
    next within =>
      obtain ⟨m,later,ends,counted⟩ :=
        ih (j + 1) (k + (consts j).toNat) (by omega) (by omega) fun p low high => by
        by_cases last : p = j
        · rw [last,within.2]
        · exact same p low (by omega)
      refine ⟨m,by omega,ends,?_⟩
      rw [counted,List.Ico.eq_cons (by omega : j < m),List.filter_cons]
      cases consts j with
      | false => simp
      | true =>
        simp
        omega
    next stopped =>
      exact ⟨j,Nat.le_refl j,⟨⟨above,by omega⟩,same,fun bound equal => stopped ⟨bound,equal⟩⟩,
        by simp⟩

variable {n consts}

theorem squeezed_keepCell {keeps : Nat → Bool} {lo sh hi : Nat} {start : Nat → Int ×ₗ ℚ}
    {subspace : Subspace} (squeezed : Squeezed keeps start lo sh hi subspace.cell subspace.sh)
    (kept : keeps hi = true) :
    Squeezed keeps start lo sh (hi + 1)
      (Subspace.cell {subspace with
        features := Function.update subspace.features (hi - subspace.sh) (subspace.features hi)
        sortedClauses :=
          Function.update subspace.sortedClauses (hi - subspace.sh) (subspace.sortedClauses hi)})
      subspace.sh := by
  have moved := squeezed.keep kept
  convert moved using 1
  funext p
  by_cases here : p = hi - subspace.sh
  · subst here
    simp [Subspace.cell]
  · simp [Subspace.cell,here]

theorem compactGroup_squeezed (i k m : Nat) (start subspace : Subspace)
    (ends : GroupEnd n start.sortedClauses i m) (fuel j : Nat) (enough : j + fuel = n)
    (before : j ≤ m) (squeezed : Squeezed (fun p => consts p || decide (k + 1 = m - i)) start.cell i
      start.sh j subspace.cell subspace.sh) :
    ∃ compacted, compactGroup n consts i k m fuel j subspace = (m,compacted) ∧
      Squeezed (fun p => consts p || decide (k + 1 = m - i)) start.cell i start.sh m compacted.cell
      compacted.sh := by
  induction fuel generalizing j subspace with
  | zero =>
    have last : j = m := by have := ends.within.2; omega
    exact ⟨subspace,by rw [compactGroup,last],last ▸ squeezed⟩
  | succ fuel ih =>
    have current : subspace.sortedClauses j = start.sortedClauses j :=
      congrArg (fun cell => (ofLex cell).1) (squeezed.outside j (by omega))
    -- The first cell of the group holds its hash even if it was overwritten.
    have first : subspace.sortedClauses i = start.sortedClauses i := by
      by_cases untouched : j - subspace.sh ≤ i
      · exact congrArg (fun cell => (ofLex cell).1) (squeezed.outside i (.inr untouched))
      · have member : subspace.cell i ∈ cells subspace.cell (i - start.sh) (j - subspace.sh) :=
          List.mem_map_of_mem (List.Ico.mem.mpr (by omega))
        rw [squeezed.inside] at member
        obtain ⟨q,among,same⟩ := List.mem_map.mp member
        obtain ⟨low,high⟩ := List.Ico.mem.mp (List.mem_filter.mp among).1
        have hashes : start.sortedClauses q = subspace.sortedClauses i :=
          congrArg (fun cell => (ofLex cell).1) same
        rw [← hashes,ends.same q low (by omega)]
    rw [compactGroup,current,first]
    by_cases last : j = m
    · subst last
      rw [if_neg fun guard => ends.next guard.1 guard.2]
      exact ⟨subspace,rfl,squeezed⟩
    · have inside : j < m := by omega
      rw [if_pos ⟨by omega,ends.same j squeezed.within.2 inside⟩]
      split
      next kept =>
        exact ih _ (j + 1) (by omega) (by omega) (current ▸ squeezed_keepCell squeezed kept)
      next dropped =>
        exact ih _ (j + 1) (by omega) (by omega) (squeezed.drop (eq_false_of_ne_true dropped))

variable (n consts) in
/-- A clause stays if it has a constant or is the only one of its hash without constants. -/
def keptAt (hashes : Nat → Int) (p : Nat) : Bool :=
  consts p || ((List.Ico 0 n).filter fun q => decide (hashes q = hashes p) && !consts q).length = 1

theorem keptAt_group (hashes : Nat → Int) (i m : Nat) (ends : GroupEnd n hashes i m)
    (before : ∀ p < i, hashes p ≠ hashes i) (after : ∀ p, m ≤ p → p < n → hashes p ≠ hashes i)
    (p : Nat) (low : i ≤ p) (high : p < m) :
    keptAt n consts hashes p =
      (consts p || decide (((List.Ico i m).filter consts).length + 1 = m - i)) := by
  have alone : (List.Ico 0 n).filter (fun q => decide (hashes q = hashes p) && !consts q) =
      (List.Ico i m).filter fun q => !consts q := by
    rw [ends.same p low high,← List.Ico.append_consecutive (Nat.zero_le i)
      (ends.within.1.trans ends.within.2),← List.Ico.append_consecutive ends.within.1 ends.within.2,
      List.filter_append,List.filter_append]
    have first :
      (List.Ico 0 i).filter (fun q => decide (hashes q = hashes i) && !consts q) = [] := by
      refine List.filter_eq_nil_iff.mpr fun q member => ?_
      simp [before q (List.Ico.mem.mp member).2]
    have last :
      (List.Ico m n).filter (fun q => decide (hashes q = hashes i) && !consts q) = [] := by
      refine List.filter_eq_nil_iff.mpr fun q member => ?_
      obtain ⟨above,below⟩ := List.Ico.mem.mp member
      simp [after q above below]
    rw [first,last,List.nil_append,List.append_nil]
    refine List.filter_congr fun q member => ?_
    obtain ⟨above,below⟩ := List.Ico.mem.mp member
    simp [ends.same q above below]
  have parts :
    ((List.Ico i m).filter consts).length + ((List.Ico i m).filter fun q => !consts q).length =
      m - i := by
    rw [← List.Ico.length i m]
    exact List.length_eq_length_filter_add consts |>.symm
  rw [keptAt,alone]
  congr 1
  exact decide_eq_decide.mpr (by omega)

theorem sortFeatures_cells (sorter : Sorter) (lo hi : Nat) (subspace : Subspace)
    (ordered : lo ≤ hi) (hash : Int)
    (same : ∀ p, lo ≤ p → p < hi → subspace.sortedClauses p = hash) :
    (cells (sortFeatures sorter lo hi subspace).cell lo hi).Perm (cells subspace.cell lo hi) ∧
      (cells (sortFeatures sorter lo hi subspace).cell lo hi).Pairwise (· ≤ ·) := by
  have length : lo + (sorter.run doubleCmp (cells subspace.features lo hi)).length = hi := by
    rw [(sorter.perm _ _).length_eq,length_cells]
    omega
  have features : cells (sortFeatures sorter lo hi subspace).features lo hi =
      sorter.run doubleCmp (cells subspace.features lo hi) := by
    have written :=
      cells_write subspace.features lo (sorter.run doubleCmp (cells subspace.features lo hi))
    rwa [length] at written
  -- Within a group the hash is the same, so only the features decide the order.
  have tagged (other : Subspace) (clauses : other.sortedClauses = subspace.sortedClauses) :
      cells other.cell lo hi = (cells other.features lo hi).map fun feature =>
        toLex (hash,feature) := by
    rw [map_cells]
    refine cells_congr _ _ lo hi fun p above below => ?_
    rw [Subspace.cell,clauses,same p above below]
    rfl
  rw [tagged (sortFeatures sorter lo hi subspace) rfl,tagged subspace rfl,features]
  refine ⟨(sorter.perm _ _).map _,?_⟩
  rw [List.pairwise_map]
  refine (sorter.sorted_key id _).imp fun {a b} le => ?_
  exact Prod.Lex.toLex_le_toLex.mpr (.inr ⟨rfl,le⟩)

theorem sortFeatures_outside (sorter : Sorter) (lo hi : Nat) (subspace : Subspace)
    (ordered : lo ≤ hi) (p : Nat) (outside : p < lo ∨ hi ≤ p) :
    (sortFeatures sorter lo hi subspace).cell p = subspace.cell p := by
  have length : (sorter.run doubleCmp (cells subspace.features lo hi)).length = hi - lo := by
    rw [(sorter.perm _ _).length_eq,length_cells]
  have same :=
    write_outside subspace.features lo (sorter.run doubleCmp (cells subspace.features lo hi)) p
      (by omega)
  exact congrArg (fun feature => toLex (subspace.sortedClauses p,feature)) same

variable (n consts) in
/-- The groups before i are done: their clauses that stay are in front, by hash and then by
feature. -/
structure Compacted (start : Subspace) (i : Nat) (subspace : Subspace) : Prop where
  within : subspace.sh ≤ i ∧ i ≤ n
  groups : ∀ p < i, ∀ q, i ≤ q → q < n → start.sortedClauses p < start.sortedClauses q
  rest : ∀ p, i ≤ p → subspace.cell p = start.cell p
  perm : (cells subspace.cell 0 (i - subspace.sh)).Perm
    (((List.Ico 0 i).filter (keptAt n consts start.sortedClauses)).map start.cell)
  ordered : (cells subspace.cell 0 (i - subspace.sh)).Pairwise (· ≤ ·)

variable {start : Subspace} (sorted : ∀ p q, p ≤ q → q < n →
    start.sortedClauses p ≤ start.sortedClauses q)
include sorted

omit sorted in
theorem Compacted.groupEnd {i m : Nat} {subspace : Subspace}
    (compacted : Compacted n consts start i subspace)
    (ends : GroupEnd n subspace.sortedClauses i m) : GroupEnd n start.sortedClauses i m := by
  have hashes (p : Nat) (above : i ≤ p) : subspace.sortedClauses p = start.sortedClauses p :=
    congrArg (fun cell => (ofLex cell).1) (compacted.rest p above)
  refine ⟨ends.within,fun p above below => ?_,fun bound => ?_⟩
  · rw [← hashes p above,← hashes i (Nat.le_refl i),ends.same p above below]
  · rw [← hashes m ends.within.1,← hashes i (Nat.le_refl i)]
    exact ends.next bound

theorem GroupEnd.later {i m : Nat} (ends : GroupEnd n start.sortedClauses i m) (q : Nat)
    (above : m ≤ q) (below : q < n) :
    start.sortedClauses i < start.sortedClauses q := by
  have distinct := ends.next (by omega)
  exact (lt_of_le_of_ne (sorted i m ends.within.1 (by omega)) distinct.symm).trans_le
    (sorted m q above below)

/-- What the loop over a group moves to the front are its clauses that stay. -/
theorem Compacted.segment {i m : Nat} {subspace after : Subspace}
    (compacted : Compacted n consts start i subspace)
    (ends : GroupEnd n start.sortedClauses i m) (more : i < n)
    (squeezed : Squeezed (fun p => consts p ||
        decide (((List.Ico i m).filter consts).length + 1 = m - i)) subspace.cell i
      subspace.sh m after.cell after.sh) :
    cells after.cell (i - subspace.sh) (m - after.sh) =
      ((List.Ico i m).filter (keptAt n consts start.sortedClauses)).map start.cell := by
  have kept :
    (List.Ico i m).filter (fun p => consts p ||
        decide (((List.Ico i m).filter consts).length + 1 = m - i)) =
      (List.Ico i m).filter (keptAt n consts start.sortedClauses) := by
    refine List.filter_congr fun p member => ?_
    obtain ⟨above,below⟩ := List.Ico.mem.mp member
    exact (keptAt_group start.sortedClauses i m ends
      (fun p before => (compacted.groups p before i (Nat.le_refl i) more).ne)
      (fun q above below => (ends.later sorted q above below).ne') p above below).symm
  rw [squeezed.inside,kept]
  refine List.map_congr_left fun p member => ?_
  exact compacted.rest p (List.Ico.mem.mp (List.mem_filter.mp member).1).1

omit sorted in
theorem segment_hash {i m lo hi : Nat} {after : Subspace}
    (ends : GroupEnd n start.sortedClauses i m)
    (segment : cells after.cell lo hi =
      ((List.Ico i m).filter (keptAt n consts start.sortedClauses)).map start.cell)
    (p : Nat) (above : lo ≤ p) (below : p < hi) :
    after.sortedClauses p = start.sortedClauses i := by
  have member : after.cell p ∈ cells after.cell lo hi :=
    List.mem_map_of_mem (List.Ico.mem.mpr ⟨above,below⟩)
  rw [segment] at member
  obtain ⟨q,among,same⟩ := List.mem_map.mp member
  obtain ⟨within,beyond⟩ := List.Ico.mem.mp (List.mem_filter.mp among).1
  have hash : start.sortedClauses q = after.sortedClauses p :=
    congrArg (fun cell => (ofLex cell).1) same
  rw [← hash,ends.same q within beyond]

theorem Compacted.group (sorter : Sorter) {i : Nat} {subspace : Subspace}
    (compacted : Compacted n consts start i subspace) (more : i < n) :
    ∃ m k after, countConsts n consts subspace.sortedClauses i (n - i) i 0 = (m,k) ∧
      compactGroup n consts i k m (n - i) i subspace = (m,after) ∧ i < m ∧
      Compacted n consts start m (sortFeatures sorter (i - subspace.sh) (m - after.sh) after) := by
  obtain ⟨m,above,ends,counted⟩ :=
    countConsts_groupEnd n consts subspace.sortedClauses i (n - i) i 0 (by omega)
      (Nat.le_refl i) (by omega)
  rw [Nat.zero_add] at counted
  obtain ⟨after,moved,squeezed⟩ :=
    compactGroup_squeezed i ((List.Ico i m).filter consts).length m subspace subspace ends (n - i) i
      (by omega) above (.start compacted.within.1)
  have nonempty : i < m := by
    by_contra empty
    have last : m = i := by omega
    exact ends.next (by omega) (by rw [last])
  have group := compacted.groupEnd ends
  obtain ⟨_,low,room⟩ := squeezed.room
  have segment := compacted.segment sorted group more squeezed
  obtain ⟨permuted,increasing⟩ := sortFeatures_cells sorter _ _ after low (start.sortedClauses i)
    (segment_hash group segment)
  have front : cells (sortFeatures sorter (i - subspace.sh) (m - after.sh) after).cell 0
    (i - subspace.sh) =
      cells subspace.cell 0 (i - subspace.sh) := by
    refine cells_congr _ _ _ _ fun p _ below => ?_
    rw [sortFeatures_outside sorter _ _ after low p (.inl below),squeezed.outside p (.inl below)]
  have whole :=
    (cells_append (sortFeatures sorter (i - subspace.sh) (m - after.sh) after).cell 0
        (i - subspace.sh) _
    (Nat.zero_le _) low).trans (congrArg (· ++ _) front)
  refine ⟨m,_,after,counted,moved,nonempty,⟨room,ends.within.2⟩,?_,?_,?_,?_⟩
  · intro p below q above bound
    by_cases before : p < i
    · exact compacted.groups p before q (by omega) bound
    · rw [group.same p (by omega) below]
      exact group.later sorted q above bound
  · intro p above
    rw [sortFeatures_outside sorter _ _ after low p (.inr (by omega)),
      squeezed.outside p (.inr (by omega))]
    exact compacted.rest p (by omega)
  · rw [← List.Ico.append_consecutive (Nat.zero_le i) ends.within.1,List.filter_append,
      List.map_append,← segment]
    exact (List.Perm.of_eq whole).trans (compacted.perm.append permuted)
  · refine (congrArg (List.Pairwise (· ≤ ·)) whole).mpr ?_
    refine List.pairwise_append.mpr ⟨compacted.ordered,increasing,
      fun first among second among' => ?_⟩
    obtain ⟨p,before,rfl⟩ := List.mem_map.mp (compacted.perm.mem_iff.mp among)
    have member := permuted.mem_iff.mp among'
    rw [segment] at member
    obtain ⟨q,within,rfl⟩ := List.mem_map.mp member
    obtain ⟨above,below⟩ := List.Ico.mem.mp (List.mem_filter.mp within).1
    refine Prod.Lex.toLex_le_toLex.mpr (.inl ?_)
    exact compacted.groups p (List.Ico.mem.mp (List.mem_filter.mp before).1).2 q above
      (below.trans_le ends.within.2)

theorem compactGroups_compacted (sorter : Sorter) (fuel i : Nat) (subspace : Subspace)
    (enough : n ≤ i + fuel) (compacted : Compacted n consts start i subspace) :
    Compacted n consts start n (compactGroups sorter n consts fuel i subspace) := by
  induction fuel generalizing i subspace with
  | zero =>
    have last : i = n := by have := compacted.within.2; omega
    exact last ▸ compacted
  | succ fuel ih =>
    rw [compactGroups]
    split
    next more =>
      obtain ⟨m,k,after,counted,moved,nonempty,next⟩ := compacted.group sorted sorter more
      rw [counted]
      dsimp only
      rw [moved]
      exact ih m _ (by omega) next
    next =>
      have last : i = n := by have := compacted.within.2; omega
      exact last ▸ compacted

end Compaction

end ExploratoryOptimizer.Aqo.FeatureSubspace
