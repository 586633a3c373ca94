import ExploratoryOptimizer.Library.Blocks

/-! Sets of blocks that hang together: no part of them is cut off from the rest. Two such sets that
are linked hang together, and every such set of several blocks arises from a smaller one and a
block. -/
namespace ExploratoryOptimizer.Library.Blocks

variable {α : Type} [DecidableEq α]

def linked (near : α → α → Prop) (first second : Finset α) : Prop :=
  ∃ x ∈ first, ∃ y ∈ second, near x y

structure Connected (blocks : List (Finset α)) (near : α → α → Prop) (set : Finset α) : Prop where
  wholeSet : whole blocks set
  nonempty : set.Nonempty
  uncut : ∀ part, whole blocks part → part.Nonempty → part ⊂ set → linked near part (set \ part)

omit [DecidableEq α] in
theorem linked_mono (near : α → α → Prop) (first second larger larger' : Finset α)
    (inFirst : first ⊆ larger) (inSecond : second ⊆ larger') (link : linked near first second) :
    linked near larger larger' := by
  obtain ⟨x,inX,y,inY,close⟩ := link
  exact ⟨x,inFirst inX,y,inSecond inY,close⟩

omit [DecidableEq α] in
theorem linked_symm (near : α → α → Prop) (symmetric : ∀ x y, near x y → near y x)
    (first second : Finset α) (link : linked near first second) : linked near second first := by
  obtain ⟨x,inX,y,inY,close⟩ := link
  exact ⟨y,inY,x,inX,symmetric x y close⟩

section Connected

variable {blocks : List (Finset α)} (apart : Apart blocks)

include apart

theorem whole_inter (first second : Finset α) (wholeFirst : whole blocks first)
    (wholeSecond : whole blocks second) :
    whole blocks (first ∩ second) := by
  intro x member
  obtain ⟨inFirst,inSecond⟩ := Finset.mem_inter.mp member
  obtain ⟨block,among,inside,within⟩ := wholeFirst x inFirst
  exact ⟨block,among,inside,Finset.subset_inter within
    (block_subset apart second block wholeSecond among x inside inSecond)⟩

theorem whole_sdiff (first second : Finset α) (wholeFirst : whole blocks first)
    (wholeSecond : whole blocks second) :
    whole blocks (first \ second) := by
  intro x member
  obtain ⟨inFirst,outside⟩ := Finset.mem_sdiff.mp member
  obtain ⟨block,among,inside,within⟩ := wholeFirst x inFirst
  refine ⟨block,among,inside,
    Finset.subset_sdiff.mpr ⟨within,Finset.disjoint_left.mpr fun y inBlock inSecond => ?_⟩⟩
  exact outside (block_subset apart second block wholeSecond among y inBlock inSecond inside)

theorem size_sdiff (part set : Finset α) (wholePart : whole blocks part)
    (wholeSet : whole blocks set) (inside : part ⊆ set) :
    size blocks set = size blocks part + size blocks (set \ part) := by
  rw [← size_union apart part (set \ part) wholePart (whole_sdiff apart set part wholeSet wholePart)
    Finset.disjoint_sdiff,Finset.union_sdiff_of_subset inside]

/-- Of two whole sets the smaller one has fewer blocks. -/
theorem size_lt (part set : Finset α) (wholePart : whole blocks part) (wholeSet : whole blocks set)
    (proper : part ⊂ set) : size blocks part < size blocks set := by
  have rest := size_pos blocks (set \ part) (whole_sdiff apart set part wholeSet wholePart)
    (Finset.sdiff_nonempty.mpr proper.2)
  rw [size_sdiff apart part set wholePart wholeSet proper.1]
  omega

theorem whole_single (set : Finset α) (wholeSet : whole blocks set) (single : size blocks set = 1) :
    set ∈ blocks := by
  have inhabited : set.Nonempty := by
    rw [Finset.nonempty_iff_ne_empty]
    rintro rfl
    rw [size_empty apart] at single
    omega
  obtain ⟨x,inside⟩ := inhabited
  obtain ⟨block,among,_,within⟩ := wholeSet x inside
  by_contra other
  have smaller := size_lt apart block set (whole_block blocks block among) wholeSet
    (Finset.ssubset_iff_subset_ne.mpr ⟨within,fun same => other (same ▸ among)⟩)
  rw [size_block apart block among] at smaller
  omega

variable (near : α → α → Prop)

theorem connected_block (block : Finset α) (member : block ∈ blocks) :
    Connected blocks near block := by
  refine ⟨whole_block blocks block member,apart.nonempty block member,
    fun part wholePart inhabited proper => ?_⟩
  obtain ⟨x,inside⟩ := inhabited
  exact absurd (block_subset apart part block wholePart member x (proper.1 inside) inside) proper.2

theorem connected_union (symmetric : ∀ x y, near x y → near y x) (first second : Finset α)
    (connectedFirst : Connected blocks near first) (connectedSecond : Connected blocks near second)
    (link : linked near first second) : Connected blocks near (first ∪ second) := by
  refine ⟨whole_union blocks first second connectedFirst.wholeSet connectedSecond.wholeSet,
    connectedFirst.nonempty.mono Finset.subset_union_left,fun part wholePart inhabited proper => ?_⟩
  -- a part that cuts through one of the two sets is linked within that set
  have within (side : Finset α) (connected : Connected blocks near side)
    (inside : side ⊆ first ∪ second)
      (meets : (part ∩ side).Nonempty) (cut : ¬side ⊆ part) :
        linked near part ((first ∪ second) \ part) := by
    have smaller : part ∩ side ⊂ side := by
      refine ⟨Finset.inter_subset_right,fun all => cut ?_⟩
      exact all.trans Finset.inter_subset_left
    refine linked_mono near _ _ _ _ Finset.inter_subset_left ?_
      (connected.uncut _ (whole_inter apart part side wholePart connected.wholeSet) meets smaller)
    rw [Finset.sdiff_inter_self_right]
    exact Finset.sdiff_subset_sdiff inside (Finset.Subset.refl _)
  by_cases meetsFirst : (part ∩ first).Nonempty
  · by_cases coversFirst : first ⊆ part
    · by_cases meetsSecond : (part ∩ second).Nonempty
      · refine within second connectedSecond Finset.subset_union_right meetsSecond
          fun coversSecond => ?_
        exact proper.2 (Finset.union_subset coversFirst coversSecond)
      · refine linked_mono near _ _ _ _ coversFirst ?_ link
        have away : Disjoint second part := by
          rw [Finset.not_nonempty_iff_eq_empty,← Finset.disjoint_iff_inter_eq_empty] at meetsSecond
          exact meetsSecond.symm
        exact Finset.subset_sdiff.mpr ⟨Finset.subset_union_right,away⟩
    · exact within first connectedFirst Finset.subset_union_left meetsFirst coversFirst
  · have away : Disjoint first part := by
      rw [Finset.not_nonempty_iff_eq_empty,← Finset.disjoint_iff_inter_eq_empty] at meetsFirst
      exact meetsFirst.symm
    have inSecond : part ⊆ second := by
      intro x inPart
      rcases Finset.mem_union.mp (proper.1 inPart) with left | right
      · exact absurd inPart (Finset.disjoint_left.mp away left)
      · exact right
    by_cases coversSecond : second ⊆ part
    · refine linked_mono near _ _ _ _ coversSecond ?_ (linked_symm near symmetric _ _ link)
      exact Finset.subset_sdiff.mpr ⟨Finset.subset_union_left,away⟩
    · refine within second connectedSecond Finset.subset_union_right ?_ coversSecond
      rwa [Finset.inter_eq_left.mpr inSecond]

/-- A set that hangs together holds one of each smaller number of blocks. -/
theorem connected_grow (symmetric : ∀ x y, near x y → near y x) (set : Finset α)
    (connected : Connected blocks near set) (count : Nat) (some : 0 < count)
    (enough : count ≤ size blocks set) :
    ∃ part, Connected blocks near part ∧ part ⊆ set ∧ size blocks part = count := by
  induction count with
  | zero => omega
  | succ count ih =>
    rcases Nat.eq_zero_or_pos count with rfl | more
    · obtain ⟨x,inside⟩ := connected.nonempty
      obtain ⟨block,among,_,within⟩ := connected.wholeSet x inside
      exact ⟨block,connected_block apart near block among,within,size_block apart block among⟩
    · obtain ⟨part,connectedPart,inside,sized⟩ := ih more (by omega)
      have proper : part ⊂ set := by
        refine Finset.ssubset_iff_subset_ne.mpr ⟨inside,?_⟩
        rintro rfl
        omega
      obtain ⟨x,inPart,y,inRest,close⟩ :=
        connected.uncut part connectedPart.wholeSet connectedPart.nonempty proper
      obtain ⟨block,among,inBlock,within⟩ :=
        whole_sdiff apart set part connected.wholeSet connectedPart.wholeSet y inRest
      obtain ⟨inSet,separate⟩ := Finset.subset_sdiff.mp within
      refine ⟨part ∪ block,?_,Finset.union_subset inside inSet,?_⟩
      · exact connected_union apart near symmetric part block connectedPart
          (connected_block apart near block among) ⟨x,inPart,y,inBlock,close⟩
      · rw [size_union apart part block connectedPart.wholeSet (whole_block blocks block among)
          separate.symm,sized,size_block apart block among]

/-- It is a smaller one and a block that is linked to it. -/
theorem connected_split (symmetric : ∀ x y, near x y → near y x) (set : Finset α)
    (connected : Connected blocks near set) (several : 2 ≤ size blocks set) :
    ∃ part, ∃ block ∈ blocks, Connected blocks near part ∧ Disjoint part block ∧
      set = part ∪ block ∧ linked near part block := by
  obtain ⟨part,connectedPart,inside,sized⟩ :=
    connected_grow apart near symmetric set connected (size blocks set - 1) (by omega) (by omega)
  have proper : part ⊂ set := by
    refine Finset.ssubset_iff_subset_ne.mpr ⟨inside,?_⟩
    rintro rfl
    omega
  obtain ⟨x,inPart,y,inRest,close⟩ :=
    connected.uncut part connectedPart.wholeSet connectedPart.nonempty proper
  have wholeRest := whole_sdiff apart set part connected.wholeSet connectedPart.wholeSet
  obtain ⟨block,among,inBlock,within⟩ := wholeRest y inRest
  -- the rest has one block, so it is that block
  have rest : set \ part = block := by
    by_contra different
    have smaller := size_lt apart block (set \ part) (whole_block blocks block among) wholeRest
      (Finset.ssubset_iff_subset_ne.mpr ⟨within,Ne.symm different⟩)
    rw [size_block apart block among] at smaller
    have total := size_sdiff apart part set connectedPart.wholeSet connected.wholeSet inside
    omega
  refine ⟨part,block,among,connectedPart,rest ▸ Finset.disjoint_sdiff,?_,x,inPart,y,inBlock,close⟩
  rw [← rest,Finset.union_sdiff_of_subset inside]

end Connected

end ExploratoryOptimizer.Library.Blocks
