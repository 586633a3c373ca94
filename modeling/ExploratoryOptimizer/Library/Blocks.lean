import Mathlib.Data.Finset.Lattice.Basic
import Mathlib.Data.Finset.Union
import Mathlib.Data.List.Nodup
import Mathlib.Algebra.BigOperators.Group.List.Basic

/-! Sets that are put together from disjoint blocks, and how many blocks they hold. -/
namespace ExploratoryOptimizer.Library.Blocks

variable {α : Type} [DecidableEq α]

/-- Blocks that are not empty and have nothing in common. -/
structure Apart (blocks : List (Finset α)) : Prop where
  disjoint : blocks.Pairwise Disjoint
  nonempty : ∀ block ∈ blocks, block.Nonempty

/-- Every element lies in a block that the set holds. -/
def whole (blocks : List (Finset α)) (set : Finset α) : Prop :=
  ∀ x ∈ set, ∃ block ∈ blocks, x ∈ block ∧ block ⊆ set

def size (blocks : List (Finset α)) (set : Finset α) : Nat := blocks.countP (· ⊆ set)

theorem whole_union (blocks : List (Finset α)) (first second : Finset α)
    (wholeFirst : whole blocks first) (wholeSecond : whole blocks second) :
    whole blocks (first ∪ second) := by
  intro x member
  rcases Finset.mem_union.mp member with left | right
  · obtain ⟨block,among,inside,within⟩ := wholeFirst x left
    exact ⟨block,among,inside,within.trans Finset.subset_union_left⟩
  · obtain ⟨block,among,inside,within⟩ := wholeSecond x right
    exact ⟨block,among,inside,within.trans Finset.subset_union_right⟩

omit [DecidableEq α] in
theorem whole_block (blocks : List (Finset α)) (block : Finset α) (member : block ∈ blocks) :
    whole blocks block :=
  fun _ inside => ⟨block,member,inside,Finset.Subset.refl _⟩

omit [DecidableEq α] in
/-- A set of coarse blocks is a set of the fine blocks they consist of. -/
theorem whole_trans (fine coarse : List (Finset α)) (set : Finset α)
    (each : ∀ block ∈ coarse, whole fine block) (wholeSet : whole coarse set) : whole fine set := by
  intro x inside
  obtain ⟨block,among,inBlock,within⟩ := wholeSet x inside
  obtain ⟨part,partIn,inPart,partWithin⟩ := each block among x inBlock
  exact ⟨part,partIn,inPart,partWithin.trans within⟩

theorem countP_split {β : Type} (items : List β) (both left right : β → Bool)
    (either : ∀ item ∈ items, both item = (left item || right item))
    (never : ∀ item ∈ items, ¬(left item = true ∧ right item = true)) :
    items.countP both = items.countP left + items.countP right := by
  induction items with
  | nil => rfl
  | cons item items ih =>
    rw [List.countP_cons,List.countP_cons,List.countP_cons,
      ih (fun later member => either later (List.mem_cons_of_mem _ member))
        (fun later member => never later (List.mem_cons_of_mem _ member)),
        either item (List.mem_cons_self ..)]
    have exclusive := never item (List.mem_cons_self ..)
    cases inLeft :
      left item <;> cases inRight : right item <;> simp [inLeft,inRight] at exclusive ⊢ <;> omega

/-- The product over the blocks that the set holds. -/
def total {M : Type} [CommMonoid M] (blocks : List (Finset α)) (f : Finset α → M)
    (set : Finset α) : M :=
  ((blocks.filter (· ⊆ set)).map f).prod

theorem prod_split {β M : Type} [CommMonoid M] (items : List β) (f : β → M)
    (both left right : β → Bool) (either : ∀ item ∈ items, both item = (left item || right item))
    (never : ∀ item ∈ items, ¬(left item = true ∧ right item = true)) :
    ((items.filter both).map f).prod = ((items.filter left).map f).prod *
      ((items.filter right).map f).prod := by
  induction items with
  | nil => simp
  | cons item items ih =>
    have rest := ih (fun later member => either later (List.mem_cons_of_mem _ member))
      (fun later member => never later (List.mem_cons_of_mem _ member))
    have here := either item (List.mem_cons_self ..)
    have exclusive := never item (List.mem_cons_self ..)
    cases inLeft : left item <;> cases inRight : right item <;>
      simp [here,inLeft,inRight,rest,mul_assoc,mul_left_comm] at exclusive ⊢

theorem size_pos (blocks : List (Finset α)) (set : Finset α) (wholeSet : whole blocks set)
    (inhabited : set.Nonempty) :
    0 < size blocks set := by
  obtain ⟨x,inside⟩ := inhabited
  obtain ⟨block,among,_,within⟩ := wholeSet x inside
  exact List.countP_pos_iff.mpr ⟨block,among,by simpa using within⟩

section Apart

variable {blocks : List (Finset α)} (apart : Apart blocks)

include apart

theorem block_unique (first second : Finset α) (firstIn : first ∈ blocks)
    (secondIn : second ∈ blocks) (x : α) (inFirst : x ∈ first) (inSecond : x ∈ second) :
    first = second := by
  by_contra different
  have : Std.Symm (Disjoint : Finset α → Finset α → Prop) := ⟨fun _ _ separate => separate.symm⟩
  have separate := apart.disjoint.forall firstIn secondIn different
  exact Finset.disjoint_left.mp separate inFirst inSecond

omit [DecidableEq α] in
theorem blocks_nodup : blocks.Nodup := by
  refine apart.disjoint.imp_of_mem fun {first second} firstIn _ separate same => ?_
  obtain ⟨x,inside⟩ := apart.nonempty first firstIn
  exact Finset.disjoint_left.mp separate inside (same ▸ inside)

/-- A block that touches a whole set lies in it. -/
theorem block_subset (set block : Finset α) (wholeSet : whole blocks set)
    (member : block ∈ blocks) (x : α) (inBlock : x ∈ block) (inSet : x ∈ set) : block ⊆ set := by
  obtain ⟨other,among,inside,within⟩ := wholeSet x inSet
  rwa [block_unique apart block other member among x inBlock inside]

/-- A block lies in the union of two disjoint whole sets if it lies in one of them, and never in
both. -/
theorem block_union (first second block : Finset α) (wholeFirst : whole blocks first)
    (wholeSecond : whole blocks second) (separate : Disjoint first second)
    (member : block ∈ blocks) :
    (block ⊆ first ∪ second ↔ block ⊆ first ∨ block ⊆ second) ∧
      ¬(block ⊆ first ∧ block ⊆ second) := by
  obtain ⟨x,inBlock⟩ := apart.nonempty block member
  refine ⟨⟨fun inside => ?_,?_⟩,fun ⟨left,right⟩ => Finset.disjoint_left.mp separate (left inBlock)
    (right inBlock)⟩
  · rcases Finset.mem_union.mp (inside inBlock) with left | right
    · exact .inl (block_subset apart first block wholeFirst member x inBlock left)
    · exact .inr (block_subset apart second block wholeSecond member x inBlock right)
  · rintro (left | right)
    · exact left.trans Finset.subset_union_left
    · exact right.trans Finset.subset_union_right

theorem size_union (first second : Finset α) (wholeFirst : whole blocks first)
    (wholeSecond : whole blocks second) (separate : Disjoint first second) :
    size blocks (first ∪ second) = size blocks first + size blocks second := by
  refine countP_split blocks _ _ _ (fun block member => ?_) (fun block member => ?_)
  · rw [← Bool.decide_or,decide_eq_decide]
    exact (block_union apart first second block wholeFirst wholeSecond separate member).1
  · simpa using (block_union apart first second block wholeFirst wholeSecond separate member).2

theorem total_union {M : Type} [CommMonoid M] (f : Finset α → M) (first second : Finset α)
    (wholeFirst : whole blocks first) (wholeSecond : whole blocks second)
    (separate : Disjoint first second) :
    total blocks f (first ∪ second) = total blocks f first * total blocks f second := by
  refine prod_split blocks f _ _ _ (fun block member => ?_) (fun block member => ?_)
  · rw [← Bool.decide_or,decide_eq_decide]
    exact (block_union apart first second block wholeFirst wholeSecond separate member).1
  · simpa using (block_union apart first second block wholeFirst wholeSecond separate member).2

theorem subset_block (block other : Finset α) (member : block ∈ blocks) (among : other ∈ blocks) :
    decide (other ⊆ block) = (other == block) := by
  rw [Bool.eq_iff_iff,decide_eq_true_iff,beq_iff_eq]
  constructor
  · intro inside
    obtain ⟨x,inOther⟩ := apart.nonempty other among
    exact block_unique apart other block among member x inOther (inside inOther)
  · rintro rfl
    exact Finset.Subset.refl _

theorem size_block (block : Finset α) (member : block ∈ blocks) : size blocks block = 1 := by
  unfold size
  rw [List.countP_congr fun other among => by rw [subset_block apart block other member among]]
  exact List.count_eq_one_of_mem (blocks_nodup apart) member

theorem total_block {M : Type} [CommMonoid M] (f : Finset α → M) (block : Finset α)
    (member : block ∈ blocks) :
    total blocks f block = f block := by
  unfold total
  rw [List.filter_congr fun other among => subset_block apart block other member among,
    List.filter_beq,List.count_eq_one_of_mem (blocks_nodup apart) member]
  exact List.prod_singleton

theorem size_empty : size blocks ∅ = 0 := by
  apply List.countP_eq_zero.mpr
  intro block member inside
  have empty : block = ∅ := Finset.subset_empty.mp (of_decide_eq_true inside)
  exact Finset.nonempty_iff_ne_empty.mp (apart.nonempty block member) empty

/-- A set inside a block, or away from all of them, holds at most one. -/
theorem size_inside (set block : Finset α) (member : block ∈ blocks) (inside : set ⊆ block) :
    size blocks set ≤ 1 := by
  rw [← size_block apart block member]
  refine List.countP_mono_left fun other _ within => ?_
  exact decide_eq_true ((of_decide_eq_true within).trans inside)

theorem size_away (set : Finset α) (away : ∀ block ∈ blocks, Disjoint set block) :
    size blocks set ≤ 1 := by
  refine (Nat.le_of_eq (List.countP_eq_zero.mpr fun block member inside => ?_)).trans zero_le_one
  obtain ⟨x,inBlock⟩ := apart.nonempty block member
  exact Finset.disjoint_left.mp (away block member) (of_decide_eq_true inside inBlock) inBlock

/-- A whole set that holds fewer than all the blocks leaves one of them out altogether. -/
theorem exists_outside (set : Finset α) (wholeSet : whole blocks set)
    (fewer : size blocks set < blocks.length) :
    ∃ block ∈ blocks, Disjoint block set := by
  have missing : ∃ block ∈ blocks, ¬block ⊆ set := by
    by_contra none
    push Not at none
    refine absurd (List.countP_eq_length.mpr fun block member => ?_) (Nat.ne_of_lt fewer)
    exact decide_eq_true (none block member)
  obtain ⟨block,member,absent⟩ := missing
  refine ⟨block,member,Finset.disjoint_left.mpr fun x inBlock inSet => absent ?_⟩
  exact block_subset apart set block wholeSet member x inBlock inSet

end Apart

/-- A whole set that holds all the blocks is their union. -/
theorem size_full (blocks : List (Finset α)) (set : Finset α) (wholeSet : whole blocks set)
    (full : size blocks set = blocks.length) : set = blocks.toFinset.biUnion id := by
  have all : ∀ block ∈ blocks, block ⊆ set := fun block member => by
    simpa using List.countP_eq_length.mp full block member
  ext x
  simp only [Finset.mem_biUnion,List.mem_toFinset,id]
  constructor
  · intro inside
    obtain ⟨block,among,inBlock,_⟩ := wholeSet x inside
    exact ⟨block,among,inBlock⟩
  · rintro ⟨block,among,inBlock⟩
    exact all block among inBlock

theorem size_le (blocks : List (Finset α)) (set : Finset α) : size blocks set ≤ blocks.length :=
  List.countP_le_length

theorem whole_subset (blocks : List (Finset α)) (set : Finset α) (wholeSet : whole blocks set) :
    set ⊆ blocks.toFinset.biUnion id := by
  intro x inside
  obtain ⟨block,among,inBlock,_⟩ := wholeSet x inside
  exact Finset.mem_biUnion.mpr ⟨block,List.mem_toFinset.mpr among,inBlock⟩

theorem block_subset_all (blocks : List (Finset α)) (block : Finset α) (member : block ∈ blocks) :
    block ⊆ blocks.toFinset.biUnion id :=
  Finset.subset_biUnion_of_mem id (List.mem_toFinset.mpr member)

theorem size_all (blocks : List (Finset α)) :
    size blocks (blocks.toFinset.biUnion id) = blocks.length :=
  List.countP_eq_length.mpr fun block member =>
    decide_eq_true (block_subset_all blocks block member)

theorem total_all {M : Type} [CommMonoid M] (blocks : List (Finset α)) (f : Finset α → M) :
    total blocks f (blocks.toFinset.biUnion id) = (blocks.map f).prod := by
  rw [total,List.filter_eq_self.mpr fun block member =>
    decide_eq_true (block_subset_all blocks block member)]

end ExploratoryOptimizer.Library.Blocks
