import Mathlib.Data.List.Range
import Mathlib.Data.List.Perm.Basic
import Mathlib.Algebra.GroupWithZero.Nat

/-! Loops unrolled by hand: blocks of lines while enough rounds are left, then a switch that falls
through the lines of the remaining rounds, the last line first. -/
namespace ExploratoryOptimizer.Library.Unrolled

section Loop

variable {σ π : Type} (width : Nat) (advance : π → π) (line : π → Nat → σ → σ)

def lines (pointers : π) (order : List Nat) (state : σ) : σ :=
  order.foldl (fun state i => line pointers i state) state

theorem lines_append (pointers : π) (order order' : List Nat) (state : σ) :
    lines line pointers (order ++ order') state = lines line pointers order'
      (lines line pointers order state) :=
  List.foldl_append ..

theorem lines_advance (shifts : ∀ pointers i, line (advance pointers) i = line pointers (width + i))
    (pointers : π) (order : List Nat) (state : σ) :
    lines line (advance pointers) order state = lines line pointers
      (order.map (width + ·)) state := by
  simp only [lines,List.foldl_map,shifts]

/-- `while (n >= width) {line 0; … line (width - 1); n -= width; advance the pointers;}` and then
`switch (n) {case width - 1: line (width - 2); … case 1: line 0;}`. -/
def unrolled [NeZero width] (pointers : π) (n : Nat) (state : σ) : σ :=
  if width ≤ n then unrolled (advance pointers) (n - width)
    (lines line pointers (List.range width) state)
  else lines line pointers (List.range n).reverse state
termination_by n
decreasing_by
  have positive := NeZero.ne width
  omega

variable [NeZero width]

theorem unrolled_block (pointers : π) (n : Nat) (state : σ) (enough : width ≤ n) :
    unrolled width advance line pointers n state =
      unrolled width advance line (advance pointers) (n - width)
      (lines line pointers (List.range width) state) := by
  rw [unrolled,if_pos enough]

theorem unrolled_rest (pointers : π) (n : Nat) (state : σ) (rest : n < width) :
    unrolled width advance line pointers n state = lines line pointers
      (List.range n).reverse state := by
  rw [unrolled,if_neg (Nat.not_le.mpr rest)]

/-- When moving the pointers shifts the lines by one block, the loop runs each of the lines below
`n` exactly once. -/
theorem unrolled_order (shifts : ∀ pointers i, line (advance pointers) i = line pointers
      (width + i)) (n : Nat) :
    ∃ order : List Nat, order.Perm (List.range n) ∧
      ∀ pointers state, unrolled width advance line pointers n state =
      lines line pointers order state := by
  induction n using Nat.strong_induction_on with
  | h n ih =>
    by_cases enough : width ≤ n
    · have positive := NeZero.ne width
      obtain ⟨order,permuted,rest⟩ := ih (n - width) (by omega)
      refine ⟨List.range width ++ order.map (width + ·),?_,?_⟩
      · have split :
          List.range n = List.range width ++ (List.range (n - width)).map (width + ·) := by
          rw [← List.range_add,Nat.add_sub_cancel' enough]
        rw [split]
        exact (permuted.map _).append_left _
      · intro pointers state
        rw [unrolled_block width advance line pointers n state enough,rest,
          lines_advance width advance line shifts,lines_append]
    · refine ⟨(List.range n).reverse,List.reverse_perm _,?_⟩
      intro pointers state
      exact unrolled_rest width advance line pointers n state (Nat.lt_of_not_le enough)

end Loop

section Writes

variable {α β : Type} [DecidableEq α] (place : Nat → α) (value : Nat → (α → β) → β)

def writes (order : List Nat) (memory : α → β) : α → β :=
  order.foldl (fun memory i => Function.update memory (place i) (value i memory)) memory

theorem writes_other (order : List Nat) (memory : α → β) (address : α)
    (other : ∀ i ∈ order, address ≠ place i) :
    writes place value order memory address = memory address := by
  induction order generalizing memory with
  | nil => rfl
  | cons i order ih =>
    have rest :=
      ih (Function.update memory (place i) (value i memory)) fun j member =>
        other j (by simp [member])
    rw [Function.update_of_ne (other i (by simp))] at rest
    exact rest

/-- Writes to different places, none of which changes what a later one writes, can be read off one
by one. -/
theorem writes_place (order : List Nat) (distinct : order.Nodup)
    (apart : ∀ i ∈ order, ∀ j ∈ order, place i = place j → i = j)
    (steady : ∀ i ∈ order, ∀ j ∈ order, i ≠ j → ∀ memory new,
      value i (Function.update memory (place j) new) = value i memory)
    (memory : α → β) (k : Nat) (member : k ∈ order) :
    writes place value order memory (place k) = value k memory := by
  induction order generalizing memory with
  | nil => exact absurd member List.not_mem_nil
  | cons i order ih =>
    obtain ⟨fresh,distinct⟩ := List.nodup_cons.mp distinct
    change writes place value order (Function.update memory (place i) (value i memory)) (place k) =
      _
    by_cases first : k = i
    · subst first
      rw [writes_other place value order,Function.update_self]
      intro j later same
      exact fresh (apart k (by simp) j (by simp [later]) same ▸ later)
    · have later : k ∈ order := (List.mem_cons.mp member).resolve_left first
      rw [ih distinct _ _ _ later,steady k member i (by simp) first]
      · intro i' first' j' second'
        exact apart i' (by simp [first']) j' (by simp [second'])
      · intro i' first' j' second'
        exact steady i' (by simp [first']) j' (by simp [second'])

end Writes

end ExploratoryOptimizer.Library.Unrolled
