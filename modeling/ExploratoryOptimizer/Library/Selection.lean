import Mathlib.Data.List.Sort

/-! Selection of the first items of an order, in one pass: each item is inserted into a fixed number
of slots, and what does not fit falls out at the end. -/
namespace ExploratoryOptimizer.Library.Selection

variable {α : Type}

/-! The slots. -/

/-- The first `k` items, and empty slots behind them if there are fewer. -/
def slots (k : Nat) (items : List α) : List (Option α) := (items.take k).map some ++ List.replicate
    (k - items.length) none

theorem slots_zero (items : List α) : slots 0 items = [] := by
  rw [slots,List.take_zero,List.map_nil,List.nil_append,Nat.zero_sub,List.replicate_zero]

theorem slots_nil (k : Nat) : slots k ([] : List α) = List.replicate k none := by
  rw [slots,List.take_nil,List.map_nil,List.nil_append,List.length_nil,Nat.sub_zero]

theorem slots_succ (k : Nat) (item : α) (items : List α) :
    slots (k + 1) (item :: items) = some item :: slots k items := by
  rw [slots,slots,List.take_succ_cons,List.map_cons,List.cons_append,List.length_cons,
    Nat.add_sub_add_right]

theorem length_slots (k : Nat) (items : List α) : (slots k items).length = k := by
  rw [slots,List.length_append,List.length_map,List.length_take,List.length_replicate]
  omega

theorem dropLast_slots (k : Nat) (items : List α) :
    (slots (k + 1) items).dropLast = slots k items := by
  induction items generalizing k with
  | nil => rw [slots_nil,slots_nil,List.dropLast_replicate,Nat.add_sub_cancel]
  | cons item items ih =>
    cases k with
    | zero => rw [slots_succ,slots_zero,slots_zero,List.dropLast_singleton]
    | succ k =>
      have some : slots (k + 1) items ≠ [] :=
        List.ne_nil_of_length_pos ((length_slots _ _).symm ▸ Nat.zero_lt_succ k)
      rw [slots_succ,List.dropLast_cons_of_ne_nil some,ih,slots_succ]

/-- What is read off the filled slots. -/
theorem filterMap_slots {β : Type} (value : α → β) (k : Nat) (items : List α) :
    (slots k items).filterMap (Option.map value) = (items.take k).map value := by
  have empty : (List.replicate (k - items.length) (none : Option α)).filterMap (Option.map value) =
      [] := by
    rw [List.filterMap_replicate_of_none]
    rfl
  rw [slots,List.filterMap_append,List.filterMap_map,empty,List.append_nil]
  exact congrFun List.filterMap_eq_map' (items.take k)

/-! One item is inserted, before the first one that it must come before. -/

section Insert

variable (lt : α → α → Prop) [DecidableRel lt]

def insertSlot (item : α) : List (Option α) → List (Option α)
  | [] => []
  | none :: rest => (some item :: none :: rest).dropLast
  | some other :: rest =>
    if lt item other then (some item :: some other :: rest).dropLast
    else some other :: insertSlot item rest

theorem insertSlot_slots (k : Nat) (item : α) (items : List α) :
    insertSlot lt item (slots k items) = slots k (items.orderedInsert lt item) := by
  induction items generalizing k with
  | nil =>
    cases k with
    | zero => rw [slots_zero,slots_zero,insertSlot]
    | succ k =>
      rw [slots_nil,List.orderedInsert_nil,slots_succ,slots_nil,List.replicate_succ,insertSlot,
        List.dropLast_cons_of_ne_nil (List.cons_ne_nil _ _),← List.replicate_succ,
        List.dropLast_replicate,Nat.add_sub_cancel]
  | cons other items ih =>
    cases k with
    | zero => rw [slots_zero,slots_zero,insertSlot]
    | succ k =>
      rw [slots_succ,insertSlot,List.orderedInsert_cons]
      split_ifs
      · rw [← slots_succ,← slots_succ,dropLast_slots]
      · rw [ih,slots_succ]

theorem foldl_insertSlot (k : Nat) (items start : List α) :
    items.foldl (fun idx item => insertSlot lt item idx) (slots k start) =
      slots k (items.foldl (fun sorted item => sorted.orderedInsert lt item) start) := by
  induction items generalizing start with
  | nil => rfl
  | cons item items ih => rw [List.foldl_cons,List.foldl_cons,insertSlot_slots,ih]

end Insert

/-! All items are inserted. The order that results may be finer than the one that is compared: it
says also in which order items come that do not have to come before one another. -/

section Order

variable (lt : α → α → Prop) [DecidableRel lt] (order : α → α → Prop)

/-- Where an item comes in the order that is compared with an earlier one. -/
def Decided (earlier item : α) : Prop :=
  (lt item earlier → order item earlier) ∧ (¬lt item earlier → order earlier item)

theorem perm_foldl_orderedInsert (items start : List α) :
    (items.foldl (fun sorted item => sorted.orderedInsert lt item) start).Perm
      (start ++ items) := by
  induction items generalizing start with
  | nil => rw [List.append_nil,List.foldl_nil]
  | cons item items ih =>
    refine (ih _).trans (((List.perm_orderedInsert lt item start).append_right items).trans ?_)
    exact List.perm_middle.symm

variable [IsTrans α order]

theorem pairwise_orderedInsert (item : α) (items : List α)
    (decided : ∀ other ∈ items, Decided lt order other item) (sorted : items.Pairwise order) :
    (items.orderedInsert lt item).Pairwise order := by
  induction items with
  | nil => exact List.pairwise_singleton order item
  | cons other items ih =>
    obtain ⟨first,rest⟩ := List.forall_mem_cons.mp decided
    obtain ⟨least,sorted⟩ := List.pairwise_cons.mp sorted
    rw [List.orderedInsert_cons]
    split_ifs with earlier
    · have before := first.1 earlier
      refine List.pairwise_cons.mpr ⟨?_,List.pairwise_cons.mpr ⟨least,sorted⟩⟩
      exact List.forall_mem_cons.mpr
        ⟨before,fun later member => IsTrans.trans _ _ _ before (least later member)⟩
    · refine List.pairwise_cons.mpr ⟨fun later member => ?_,ih rest sorted⟩
      rcases (List.mem_orderedInsert lt).mp member with rfl | old
      · exact first.2 earlier
      · exact least later old

theorem pairwise_foldl_orderedInsert (items start : List α)
    (decided : items.Pairwise (Decided lt order))
    (earlier : ∀ other ∈ start, ∀ item ∈ items, Decided lt order other item)
    (sorted : start.Pairwise order) :
    (items.foldl (fun sorted item => sorted.orderedInsert lt item) start).Pairwise order := by
  induction items generalizing start with
  | nil => exact sorted
  | cons item items ih =>
    obtain ⟨first,rest⟩ := List.pairwise_cons.mp decided
    refine ih _ rest (fun other member later within => ?_)
      (pairwise_orderedInsert lt order item start
        (fun other member => earlier other member item List.mem_cons_self) sorted)
    rcases (List.mem_orderedInsert lt).mp member with rfl | old
    · exact first later within
    · exact earlier other old later (List.mem_cons_of_mem _ within)

/-- The slots after all items hold the first ones of the order. -/
theorem select_slots (k : Nat) (items : List α) (decided : items.Pairwise (Decided lt order)) :
    ∃ sorted : List α, sorted.Perm items ∧ sorted.Pairwise order ∧
      items.foldl (fun idx item => insertSlot lt item idx) (List.replicate k none) =
      slots k sorted := by
  refine ⟨_,perm_foldl_orderedInsert lt items [],?_,?_⟩
  · exact pairwise_foldl_orderedInsert lt order items [] decided (List.forall_mem_nil _) .nil
  · rw [← slots_nil,foldl_insertSlot]

end Order

end ExploratoryOptimizer.Library.Selection
