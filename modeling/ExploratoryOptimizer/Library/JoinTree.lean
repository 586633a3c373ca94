import Mathlib.Data.Finset.Disjoint
import Mathlib.Data.Finset.Lattice.Basic

/-! Binary trees over disjoint sets, and the one node at which a property of the covered set
begins. -/
namespace ExploratoryOptimizer.Library.JoinTree

variable {α β : Type} [DecidableEq α]

inductive Tree (α β : Type) where
  | leaf (set : Finset α)
  | node (label : β) (outer inner : Tree α β)

namespace Tree

def cover : Tree α β → Finset α
  | .leaf set => set
  | .node _ outer inner => outer.cover ∪ inner.cover

def everyLeaf (P : Finset α → Prop) : Tree α β → Prop
  | .leaf set => P set
  | .node _ outer inner => outer.everyLeaf P ∧ inner.everyLeaf P

/-- The label and what its two sides cover. -/
def everyNode (Q : β → Finset α → Finset α → Prop) : Tree α β → Prop
  | .leaf _ => True
  | .node label outer inner =>
    Q label outer.cover inner.cover ∧ outer.everyNode Q ∧ inner.everyNode Q

def countNodes (marked : β → Prop) [DecidablePred marked] : Tree α β → Nat
  | .leaf _ => 0
  | .node label outer inner =>
    (if marked label then 1 else 0) + (outer.countNodes marked + inner.countNodes marked)

/-- The property holds of the union and of neither side. -/
def begins (P : Finset α → Prop) (outer inner : Finset α) : Prop :=
  P (outer ∪ inner) ∧ ¬P outer ∧ ¬P inner

/-- A property that larger sets inherit, that disjoint sets do not share and that no leaf has begins
at exactly one node of a tree that has it. -/
theorem countNodes_begins (P : Finset α → Prop) [DecidablePred P]
    (upward : ∀ small large, small ⊆ large → P small → P large)
    (exclusive : ∀ first second, P first → P second → ¬Disjoint first second)
    (marked : β → Prop) [DecidablePred marked] (tree : Tree α β)
    (low : tree.everyLeaf fun set => ¬P set) (nodes : tree.everyNode fun label outer inner =>
      Disjoint outer inner ∧ (marked label ↔ begins P outer inner)) :
    tree.countNodes marked = if P tree.cover then 1 else 0 := by
  induction tree with
  | leaf set => exact (if_neg low).symm
  | node label outer inner ihOuter ihInner =>
    obtain ⟨⟨apart,exact⟩,outerNodes,innerNodes⟩ := nodes
    rw [countNodes,ihOuter low.1 outerNodes,ihInner low.2 innerNodes]
    have covered : (node label outer inner).cover = outer.cover ∪ inner.cover := rfl
    rw [covered]
    by_cases left : P outer.cover
    · have right : ¬P inner.cover := fun both => exclusive _ _ left both apart
      have here : P (outer.cover ∪ inner.cover) := upward _ _ Finset.subset_union_left left
      have unmarked : ¬marked label := fun mark => (exact.mp mark).2.1 left
      rw [if_neg unmarked,if_pos left,if_neg right,if_pos here]
    · by_cases right : P inner.cover
      · have here : P (outer.cover ∪ inner.cover) := upward _ _ Finset.subset_union_right right
        have unmarked : ¬marked label := fun mark => (exact.mp mark).2.2 right
        rw [if_neg unmarked,if_neg left,if_pos right,if_pos here]
      · rw [if_neg left,if_neg right]
        by_cases here : P (outer.cover ∪ inner.cover)
        · rw [if_pos (exact.mpr ⟨here,left,right⟩),if_pos here]
        · rw [if_neg fun mark => here (exact.mp mark).1,if_neg here]

end Tree

end ExploratoryOptimizer.Library.JoinTree
