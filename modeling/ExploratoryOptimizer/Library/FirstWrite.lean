import Mathlib.Data.List.Basic
import Mathlib.Data.List.Induction
import Mathlib.Data.List.Nodup

/-! Lists of entries in which the first entry of a key is kept and later ones are dropped. -/
namespace ExploratoryOptimizer.Library.FirstWrite

variable {α : Type} (same : α → α → Bool)

def insert (stored : List α) (entry : α) : List α :=
  if stored.any (same entry) then stored else stored ++ [entry]

def insertAll (stored entries : List α) : List α := entries.foldl (insert same) stored

theorem insertAll_append (stored entries entries' : List α) :
    insertAll same stored (entries ++ entries') = insertAll same
      (insertAll same stored entries) entries' :=
  List.foldl_append ..

/-- A search that does not tell entries of one key apart finds what was written first. -/
theorem find?_insert (wanted : α → Bool) (respects : ∀ a b, same a b = true → wanted a = wanted b)
    (stored : List α) (entry : α) :
    (insert same stored entry).find? wanted = (stored ++ [entry]).find? wanted := by
  unfold insert
  split_ifs with present
  · obtain ⟨earlier,mem,equal⟩ := List.any_eq_true.mp present
    rw [List.find?_append]
    cases found : stored.find? wanted with
    | some first => rfl
    | none =>
      have missed := List.find?_eq_none.mp found earlier mem
      rw [← respects entry earlier equal,Bool.not_eq_true] at missed
      simp [missed]
  · rfl

theorem find?_insertAll (wanted : α → Bool)
    (respects : ∀ a b, same a b = true → wanted a = wanted b) (stored entries : List α) :
    (insertAll same stored entries).find? wanted = (stored ++ entries).find? wanted := by
  induction entries generalizing stored with
  | nil => rw [List.append_nil,insertAll,List.foldl_nil]
  | cons entry entries ih =>
    have step := ih (insert same stored entry)
    rw [List.find?_append,find?_insert same wanted respects,← List.find?_append,
      List.append_assoc] at step
    exact step

section Distinct

variable [DecidableEq α]

/-- The different entries, in the order of their first writes. -/
def distinct (entries : List α) : List α := insertAll (fun a b => decide (a = b)) [] entries

theorem distinct_concat (entries : List α) (entry : α) :
    distinct (entries ++ [entry]) =
      if entry ∈ distinct entries then distinct entries else distinct entries ++ [entry] := by
  have present : (distinct entries).any (fun b => decide (entry = b)) = true ↔
    entry ∈ distinct entries := by simp
  rw [distinct,insertAll_append]
  change (if (distinct entries).any (fun b => decide (entry = b)) then _ else _) = _
  simp only [present]
  rfl

theorem mem_distinct (entries : List α) (a : α) : a ∈ distinct entries ↔ a ∈ entries := by
  induction entries using List.reverseRecOn with
  | nil => rfl
  | append_singleton entries entry ih =>
    rw [distinct_concat,List.mem_append,List.mem_singleton,← ih]
    split_ifs with present
    · exact ⟨.inl,fun either => either.elim id fun same => same ▸ present⟩
    · rw [List.mem_append,List.mem_singleton]

theorem nodup_distinct (entries : List α) : (distinct entries).Nodup := by
  induction entries using List.reverseRecOn with
  | nil => exact List.nodup_nil
  | append_singleton entries entry ih =>
    rw [distinct_concat]
    split_ifs with present
    · exact ih
    · exact ih.append (List.nodup_singleton entry) (List.disjoint_singleton.mpr present)

end Distinct

end ExploratoryOptimizer.Library.FirstWrite
