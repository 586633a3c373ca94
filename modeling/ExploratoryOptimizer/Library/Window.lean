import Mathlib.Data.List.DropRight

/-! Sliding windows: the last items of a growing sequence, and a buffer of fixed length whose used
part is such a window. -/
namespace ExploratoryOptimizer.Library.Window

variable {α : Type}

theorem length_rtake (items : List α) (size : Nat) :
    (items.rtake size).length = min items.length size := by
  rw [List.rtake,List.length_drop]
  omega

theorem rtake_of_le (items : List α) (size : Nat) (short : items.length ≤ size) :
    items.rtake size = items := by
  rw [List.rtake,Nat.sub_eq_zero_of_le short,List.drop_zero]

theorem rtake_push_full (items : List α) (item : α) (size : Nat) (positive : 0 < size)
    (full : size ≤ items.length) :
    (items ++ [item]).rtake size = (items.rtake size).tail ++ [item] := by
  obtain ⟨rest,rfl⟩ := Nat.exists_eq_add_of_lt positive
  rw [Nat.zero_add,List.rtake_concat_succ,List.rtake,List.rtake,List.tail_drop]
  congr 2
  omega

theorem take_set_next (buffer : List α) (item : α) (used : Nat) (room : used < buffer.length) :
    (buffer.set used item).take (used + 1) = buffer.take used ++ [item] := by
  rw [List.take_add_one,List.take_set_of_le (Nat.le_refl used),List.getElem?_set_self room,
    Option.toList_some]

theorem set_last (buffer : List α) (item : α) (nonempty : buffer ≠ []) :
    buffer.set (buffer.length - 1) item = buffer.dropLast ++ [item] := by
  obtain ⟨front,last,rfl⟩ := (List.eq_nil_or_concat' buffer).resolve_left nonempty
  rw [List.length_append,List.length_singleton,Nat.add_sub_cancel,
    List.set_append_right _ _ (Nat.le_refl _),Nat.sub_self,List.dropLast_concat]
  rfl

/-- Moving every item one place to the front and writing the last place. -/
theorem shift_set_last (buffer : List α) (item : α) (nonempty : buffer ≠ []) :
    (buffer.drop 1 ++ buffer.drop (buffer.length - 1)).set (buffer.length - 1) item =
      buffer.tail ++ [item] := by
  have moved :
    buffer.drop 1 ++ buffer.drop (buffer.length - 1) = buffer.tail ++
      [buffer.getLast nonempty] := by
    rw [List.drop_one]
    obtain ⟨front,last,rfl⟩ := (List.eq_nil_or_concat' buffer).resolve_left nonempty
    simp
  have size : buffer.length - 1 = (buffer.tail ++ [buffer.getLast nonempty]).length - 1 := by simp
  rw [moved,size,set_last _ _ (by simp),List.dropLast_concat]

end ExploratoryOptimizer.Library.Window
