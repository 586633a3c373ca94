import Mathlib.Data.List.Intervals
import Mathlib.Data.List.Sort
import Mathlib.Order.Basic

/-! Sorting with a comparison function, by any procedure that is correct, stable or not, and arrays
that are rewritten in place. An array is a function of the index. -/
namespace ExploratoryOptimizer.Library.Sorting

section Sorter

variable {α : Type}

/-- The comparison is a total preorder. -/
structure Consistent (cmp : α → α → Int) : Prop where
  total : ∀ a b, cmp a b ≤ 0 ∨ cmp b a ≤ 0
  trans : ∀ a b c, cmp a b ≤ 0 → cmp b c ≤ 0 → cmp a c ≤ 0

structure Sorter where
  run {α : Type} (cmp : α → α → Int) (items : List α) : List α
  perm {α : Type} (cmp : α → α → Int) (items : List α) : (run cmp items).Perm items
  sorted {α : Type} (cmp : α → α → Int) (items : List α) (consistent : Consistent cmp) :
    (run cmp items).Pairwise fun a b => cmp a b ≤ 0

def insertionSorter : Sorter where
  run cmp items := items.insertionSort fun a b => cmp a b ≤ 0
  perm cmp items := List.perm_insertionSort _ items
  sorted cmp items consistent := by
    have : Std.Total fun a b => cmp a b ≤ 0 := ⟨consistent.total⟩
    have : IsTrans _ fun a b => cmp a b ≤ 0 := ⟨consistent.trans⟩
    exact List.pairwise_insertionSort _ items

def orderCmp [LinearOrder α] (a b : α) : Int := if a < b then -1 else if b < a then 1 else 0

theorem orderCmp_le_zero [LinearOrder α] (a b : α) : orderCmp a b ≤ 0 ↔ a ≤ b := by
  unfold orderCmp
  rcases lt_trichotomy a b with less | rfl | more
  · simp [less,less.le]
  · simp
  · simp [more,not_lt_of_gt more]

/-- Comparing by a key in a linear order, as `argsort` does. -/
theorem consistent_key {β : Type} [LinearOrder β] (key : α → β) : Consistent fun a b => orderCmp
    (key a) (key b) where
  total a b := by
    rw [orderCmp_le_zero,orderCmp_le_zero]
    exact le_total _ _
  trans a b c := by
    rw [orderCmp_le_zero,orderCmp_le_zero,orderCmp_le_zero]
    exact le_trans

theorem Sorter.sorted_key {β : Type} [LinearOrder β] (sorter : Sorter) (key : α → β)
    (items : List α) :
    (sorter.run (fun a b => orderCmp (key a) (key b)) items).Pairwise fun a b => key a ≤ key b := by
  refine (sorter.sorted _ items (consistent_key key)).imp fun {a b} le => ?_
  exact (orderCmp_le_zero _ _).mp le

theorem eq_of_sorted_perm [LinearOrder α] (first second : List α) (sorted : first.Pairwise (· ≤ ·))
    (sorted' : second.Pairwise (· ≤ ·)) (perm : first.Perm second) : first = second :=
  List.Perm.eq_of_pairwise' sorted sorted' perm

/-- Values of a linear order have one sorted arrangement. -/
theorem Sorter.run_values [LinearOrder α] (sorter : Sorter) (items : List α) :
    sorter.run orderCmp items = items.insertionSort (· ≤ ·) := by
  refine eq_of_sorted_perm _ _ (sorter.sorted_key id items) (List.pairwise_insertionSort _ _) ?_
  exact (sorter.perm _ items).trans (List.perm_insertionSort _ items).symm

theorem insertionSort_perm [LinearOrder α] (first second : List α) (perm : first.Perm second) :
    first.insertionSort (· ≤ ·) = second.insertionSort (· ≤ ·) := by
  refine eq_of_sorted_perm _ _ (List.pairwise_insertionSort _ _)
    (List.pairwise_insertionSort _ _) ?_
  exact (List.perm_insertionSort _ first).trans (perm.trans (List.perm_insertionSort _ second).symm)

end Sorter

/-! Arrays. -/

section Cells

variable {α β : Type}

def cells (a : Nat → α) (lo hi : Nat) : List α := (List.Ico lo hi).map a

theorem length_cells (a : Nat → α) (lo hi : Nat) : (cells a lo hi).length = hi - lo := by
  rw [cells,List.length_map,List.Ico.length]

theorem cells_congr (a b : Nat → α) (lo hi : Nat) (same : ∀ p, lo ≤ p → p < hi → a p = b p) :
    cells a lo hi = cells b lo hi := by
  refine List.map_congr_left fun p member => ?_
  obtain ⟨above,below⟩ := List.Ico.mem.mp member
  exact same p above below

theorem cells_append (a : Nat → α) (lo mid hi : Nat) (first : lo ≤ mid) (second : mid ≤ hi) :
    cells a lo hi = cells a lo mid ++ cells a mid hi := by
  rw [cells,cells,cells,← List.map_append,List.Ico.append_consecutive first second]

theorem cells_succ (a : Nat → α) (lo hi : Nat) (ordered : lo ≤ hi) :
    cells a lo (hi + 1) = cells a lo hi ++ [a hi] := by
  rw [cells,cells,List.Ico.succ_top ordered,List.map_append,List.map_singleton]

theorem map_cells (f : α → β) (a : Nat → α) (lo hi : Nat) :
    (cells a lo hi).map f = cells (f ∘ a) lo hi :=
  List.map_map ..

theorem cells_getElem (items : List α) (a : Nat → α) (lo : Nat)
    (same : ∀ p, (bound : p < items.length) → a (lo + p) = items[p]) :
    cells a lo (lo + items.length) = items := by
  refine List.ext_getElem ?_ fun p bound bound' => ?_
  · rw [length_cells,Nat.add_sub_cancel_left]
  · simp only [cells,List.Ico,List.getElem_map,List.getElem_range',Nat.one_mul]
    exact same p bound'

/-- The array with the items from an index on. -/
def write (a : Nat → α) (lo : Nat) (items : List α) (p : Nat) : α :=
  if lo ≤ p then items[p - lo]?.getD (a p) else a p

theorem write_outside (a : Nat → α) (lo : Nat) (items : List α) (p : Nat)
    (outside : p < lo ∨ lo + items.length ≤ p) : write a lo items p = a p := by
  unfold write
  split
  next above =>
    rw [List.getElem?_eq_none (by omega),Option.getD_none]
  next => rfl

theorem cells_write (a : Nat → α) (lo : Nat) (items : List α) :
    cells (write a lo items) lo (lo + items.length) = items := by
  refine cells_getElem items _ lo fun p bound => ?_
  rw [write,if_pos (Nat.le_add_right lo p),Nat.add_sub_cancel_left,List.getElem?_eq_getElem bound,
    Option.getD_some]

/-- What moving the kept cells of a stretch down over the dropped ones leaves. The stretch starts at
lo and is done up to hi; sh cells had been dropped before it, and sh' have been by now. -/
structure Squeezed (keeps : Nat → Bool) (a : Nat → α) (lo sh hi : Nat) (a' : Nat → α)
    (sh' : Nat) : Prop where
  within : sh ≤ lo ∧ lo ≤ hi
  shift : sh' + ((List.Ico lo hi).filter keeps).length = sh + (hi - lo)
  outside : ∀ p, p < lo - sh ∨ hi - sh' ≤ p → a' p = a p
  inside : cells a' (lo - sh) (hi - sh') = ((List.Ico lo hi).filter keeps).map a

section Squeeze

variable {keeps : Nat → Bool} {a a' : Nat → α} {lo sh hi sh' : Nat}

theorem Squeezed.start (room : sh ≤ lo) : Squeezed keeps a lo sh lo a sh where
  within := ⟨room,Nat.le_refl lo⟩
  shift := by simp
  outside _ _ := rfl
  inside := by simp [cells]

theorem Squeezed.room (squeezed : Squeezed keeps a lo sh hi a' sh') :
    sh ≤ sh' ∧ lo - sh ≤ hi - sh' ∧ sh' ≤ hi := by
  have kept := (List.length_filter_le keeps (List.Ico lo hi)).trans_eq (List.Ico.length lo hi)
  have shift := squeezed.shift
  have within := squeezed.within
  omega

theorem filter_succ_top (keeps : Nat → Bool) (ordered : lo ≤ hi) :
    (List.Ico lo (hi + 1)).filter keeps = (List.Ico lo hi).filter keeps ++ if keeps hi then
      [hi] else [] := by
  rw [List.Ico.succ_top ordered,List.filter_append,List.filter_singleton,Bool.cond_eq_ite]

theorem Squeezed.keep (squeezed : Squeezed keeps a lo sh hi a' sh') (kept : keeps hi = true) :
    Squeezed keeps a lo sh (hi + 1) (Function.update a' (hi - sh') (a' hi)) sh' := by
  obtain ⟨_,low,room⟩ := squeezed.room
  have ordered := squeezed.within.2
  have shift := squeezed.shift
  have next : hi + 1 - sh' = hi - sh' + 1 := by omega
  have filtered := filter_succ_top keeps ordered
  rw [kept,if_pos rfl] at filtered
  refine ⟨⟨squeezed.within.1,by omega⟩,?_,?_,?_⟩
  · rw [filtered,List.length_append,List.length_singleton]
    omega
  · intro p outside
    rw [Function.update_of_ne (by omega)]
    exact squeezed.outside p (by omega)
  · rw [filtered,List.map_append,List.map_singleton,next,cells_succ _ _ _ low,Function.update_self,
      squeezed.outside hi (by omega),← squeezed.inside]
    congr 1
    refine cells_congr _ _ _ _ fun p _ below => ?_
    exact Function.update_of_ne (by omega) _ _

theorem Squeezed.drop (squeezed : Squeezed keeps a lo sh hi a' sh') (dropped : keeps hi = false) :
    Squeezed keeps a lo sh (hi + 1) a' (sh' + 1) := by
  have ordered := squeezed.within.2
  have shift := squeezed.shift
  have same : hi + 1 - (sh' + 1) = hi - sh' := by omega
  have filtered := filter_succ_top keeps ordered
  rw [dropped,if_neg Bool.false_ne_true,List.append_nil] at filtered
  refine ⟨⟨squeezed.within.1,by omega⟩,?_,?_,?_⟩
  · rw [filtered]
    omega
  · rw [same]
    exact squeezed.outside
  · rw [filtered,same]
    exact squeezed.inside

end Squeeze

end Cells

end ExploratoryOptimizer.Library.Sorting
