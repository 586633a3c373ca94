import Mathlib.Data.List.GetD
import Mathlib.Tactic.Ring

/-! Arrays of a fixed number of cells, and matrices of such rows stored row by row in one array. -/
namespace ExploratoryOptimizer.Library.FixedArray

structure Cells (α : Type) (size : Nat) where
  toList : List α
  length_toList : toList.length = size
  deriving DecidableEq

namespace Cells

variable {α : Type} [Zero α] {size : Nat}

def get (cells : Cells α size) (i : Nat) : α := cells.toList.getD i 0

def fill (f : Nat → α) : Cells α size := ⟨(List.range size).map f,by simp⟩

def zero : Cells α size := fill fun _ => 0

instance : Zero (Cells α size) := ⟨zero⟩

def set (cells : Cells α size) (i : Nat) (value : α) : Cells α size :=
  fill fun k => if k = i then value else cells.get k

/-- Copies the cells that both sizes have. -/
def resize {other : Nat} (cells : Cells α size) : Cells α other := fill cells.get

theorem get_fill (f : Nat → α) (i : Nat) (bound : i < size) :
    (fill f : Cells α size).get i = f i := by
  rw [get,fill,List.getD_eq_getElem _ _ (by simpa using bound),List.getElem_map,List.getElem_range]

theorem get_set (cells : Cells α size) (i : Nat) (value : α) (k : Nat) (bound : k < size) :
    (cells.set i value).get k = if k = i then value else cells.get k :=
  get_fill _ k bound

theorem get_of_le (cells : Cells α size) (i : Nat) (beyond : size ≤ i) : cells.get i = 0 := by
  rw [get]
  apply List.getD_eq_default
  rw [length_toList]
  exact beyond

/-- Cells that are written only below a bound are zero beyond it if they were before. -/
theorem get_fill_beyond (bound : Nat) (value old : Nat → α)
    (zero : ∀ i, bound ≤ i → old i = 0) (i : Nat) (beyond : bound ≤ i) :
    (fill fun i => if i < bound then value i else old i : Cells α size).get i = 0 := by
  by_cases within : i < size
  · rw [get_fill _ i within,if_neg (not_lt.mpr beyond),zero i beyond]
  · exact get_of_le _ i (not_lt.mp within)

theorem ext_get {first second : Cells α size} (same : ∀ i < size, first.get i = second.get i) :
    first = second := by
  obtain ⟨first,length⟩ := first
  obtain ⟨second,length'⟩ := second
  congr 1
  apply List.ext_getElem (length.trans length'.symm)
  intro i bound bound'
  have cell := same i (length ▸ bound)
  rwa [get,get,List.getD_eq_getElem _ _ bound,List.getD_eq_getElem _ _ bound'] at cell

theorem fill_get (cells : Cells α size) : fill cells.get = cells :=
  ext_get fun i bound => get_fill cells.get i bound

theorem get_zero (i : Nat) : (zero : Cells α size).get i = 0 := by
  by_cases bound : i < size
  · exact get_fill _ i bound
  · exact get_of_le _ i (by omega)

theorem set_get (cells : Cells α size) (i : Nat) : cells.set i (cells.get i) = cells := by
  apply ext_get
  intro k bound
  rw [get_set _ _ _ k bound]
  split_ifs with same
  · rw [same]
  · rfl

theorem resize_resize {other : Nat} (cells : Cells α size)
    (beyond : ∀ i, other ≤ i → cells.get i = 0) :
    (cells.resize : Cells α other).resize = cells := by
  apply ext_get
  intro i bound
  rw [resize,get_fill _ i bound,resize]
  by_cases within : i < other
  · exact get_fill _ i within
  · rw [get_of_le _ i (by omega),beyond i (by omega)]

/-! Loops that write a block of cells in ascending order. -/

def writeBlock (cells : Cells α size) (start count : Nat) (f : Nat → α) : Cells α size :=
  (List.range count).foldl (fun cells j => cells.set (start + j) (f j)) cells

def copyBlock (cells : Cells α size) (target source count : Nat) : Cells α size :=
  (List.range count).foldl (fun cells j => cells.set (target + j) (cells.get (source + j))) cells

theorem writeBlock_succ (cells : Cells α size) (start count : Nat) (f : Nat → α) :
    cells.writeBlock start (count + 1) f = (cells.writeBlock start count f).set
      (start + count) (f count) := by
  rw [writeBlock,List.range_succ,List.foldl_append,writeBlock]
  rfl

theorem get_writeBlock (cells : Cells α size) (start count : Nat) (f : Nat → α) (i : Nat)
    (bound : i < size) :
    (cells.writeBlock start count f).get i =
      if start ≤ i ∧ i < start + count then f (i - start) else cells.get i := by
  induction count with
  | zero =>
    rw [if_neg (by omega)]
    rfl
  | succ count ih =>
    rw [writeBlock_succ,get_set _ _ _ i bound,ih]
    by_cases last : i = start + count
    · rw [if_pos last,if_pos (by omega),last,Nat.add_sub_cancel_left]
    · rw [if_neg last]
      exact if_congr (by omega) rfl rfl

/-- A block that is read behind where it is written is read as it was. -/
theorem copyBlock_eq (cells : Cells α size) (target source count : Nat)
    (apart : target + count ≤ source) :
    cells.copyBlock target source count = cells.writeBlock target count fun j =>
      cells.get (source + j) := by
  induction count with
  | zero => rfl
  | succ count ih =>
    have unread :
      (cells.writeBlock target count fun j => cells.get (source + j)).get (source + count) =
        cells.get (source + count) := by
      by_cases bound : source + count < size
      · rw [get_writeBlock _ _ _ _ _ bound,if_neg (by omega)]
      · rw [get_of_le _ _ (not_lt.mp bound),get_of_le _ _ (not_lt.mp bound)]
    rw [writeBlock_succ,← unread,← ih (by omega),copyBlock,List.range_succ,List.foldl_append]
    rfl

end Cells

/-! Stored arrays. -/

structure StoredArray (α : Type) where
  dims : List Nat
  elems : List α
  deriving DecidableEq

section Stored

variable {α : Type}

def formVector (vector : List α) : StoredArray α := ⟨[vector.length],vector⟩

def formMatrix {cols : Nat} (matrix : List (Cells α cols)) : StoredArray α :=
  ⟨[matrix.length,cols],matrix.flatMap Cells.toList⟩

def deformVector (datum : StoredArray α) : List α := datum.elems

variable [Zero α]

/-- The matrix has been allocated with zeros; cells the array does not hold stay as they are. -/
def deformMatrix (datum : StoredArray α) (rows cols : Nat) : List (Cells α cols) :=
  let storedRows := datum.dims.getD 0 0
  let storedCols := datum.dims.getD 1 0
  (List.range rows).map fun i => Cells.fill fun j =>
    if i < storedRows ∧ j < storedCols then datum.elems.getD (i * storedCols + j) 0 else 0

theorem getD_flatMap_toList {cols : Nat} (matrix : List (Cells α cols)) (i j : Nat)
    (row : i < matrix.length) (col : j < cols) :
    (matrix.flatMap Cells.toList).getD (i * cols + j) 0 = matrix[i].get j := by
  induction matrix generalizing i with
  | nil => exact absurd row (Nat.not_lt_zero i)
  | cons first rest ih =>
    rw [List.flatMap_cons]
    cases i with
    | zero =>
      rw [Nat.zero_mul,Nat.zero_add,
        List.getD_append _ _ _ _ (by rw [Cells.length_toList]; exact col)]
      rfl
    | succ i =>
      have skip : (i + 1) * cols + j = first.toList.length + (i * cols + j) := by
        rw [Cells.length_toList]
        ring
      rw [skip,List.getD_append_right _ _ _ _ (Nat.le_add_right _ _),Nat.add_sub_cancel_left,
        ih i (by simpa using row)]
      rfl

theorem deformMatrix_formMatrix {cols : Nat} (matrix : List (Cells α cols)) :
    deformMatrix (formMatrix matrix) matrix.length cols = matrix := by
  apply List.ext_getElem
  · simp [deformMatrix]
  · intro i _ row
    apply Cells.ext_get
    intro j col
    simp only [deformMatrix,formMatrix,List.getElem_map,List.getElem_range]
    rw [Cells.get_fill _ j col]
    simp only [List.getD_cons_zero,List.getD_cons_succ,row,col,and_self,if_true]
    exact getD_flatMap_toList matrix i j row col

theorem getD_deformMatrix_formMatrix {β : Type} {cols : Nat} (items : List β)
    (f : β → Cells α cols) (i : Nat) (bound : i < items.length) :
    (deformMatrix (formMatrix (items.map f)) items.length cols).getD i 0 = f items[i] := by
  have whole := deformMatrix_formMatrix (items.map f)
  rw [List.length_map] at whole
  rw [whole,List.getD_eq_getElem _ _ (by simpa using bound),List.getElem_map]

theorem getD_deformVector_formVector {β : Type} (items : List β) (f : β → α) (i : Nat)
    (bound : i < items.length) :
    (deformVector (formVector (items.map f))).getD i 0 = f items[i] := by
  rw [deformVector,formVector,List.getD_eq_getElem _ _ (by simpa using bound),List.getElem_map]

end Stored

end ExploratoryOptimizer.Library.FixedArray
