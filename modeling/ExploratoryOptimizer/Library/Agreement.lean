import Mathlib.Data.List.Basic
import Mathlib.Data.List.Chain
import Mathlib.Logic.Relation

/-! Lists whose items are all related to each other, for a relation that is symmetric and transitive
but need not hold of an item and itself. -/
namespace ExploratoryOptimizer.Library.Agreement

variable {α : Type}

def agree (related : α → α → Prop) (items : List α) : Prop :=
  ∀ first ∈ items, ∀ second ∈ items, first ≠ second → related first second

theorem agree_subset (related : α → α → Prop) (items fewer : List α)
    (inside : ∀ item ∈ fewer, item ∈ items) (all : agree related items) : agree related fewer :=
  fun first firstIn second secondIn => all first (inside first firstIn) second
    (inside second secondIn)

variable {related : α → α → Prop} (symmetric : ∀ first second, related first second →
    related second first)
  (transitive : ∀ first second third, related first second → related second third →
      related first third)

include symmetric transitive

/-- Two such lists are one if an item of the first is related to an item of the second. -/
theorem agree_append (early late : List α) (allEarly : agree related early)
    (allLate : agree related late)
    (link : early = [] ∨ late = [] ∨ ∃ first ∈ early, ∃ second ∈ late, related first second) :
    agree related (early ++ late) := by
  rcases link with rfl | rfl | ⟨left,leftIn,right,rightIn,meets⟩
  · exact allLate
  · rw [List.append_nil]
    exact allEarly
  · have across : ∀ first ∈ early, ∀ second ∈ late, related first second := by
      intro first firstIn second secondIn
      have begun : related first right := by
        by_cases same : first = left
        · exact same ▸ meets
        · exact transitive first left right (allEarly first firstIn left leftIn same) meets
      by_cases same : right = second
      · exact same ▸ begun
      · exact transitive first right second begun (allLate right rightIn second secondIn same)
    intro first firstIn second secondIn different
    rcases List.mem_append.mp firstIn with inEarly | inLate <;>
      rcases List.mem_append.mp secondIn with also | also
    · exact allEarly first inEarly second also different
    · exact across first inEarly second also
    · exact symmetric second first (across second also first inLate)
    · exact allLate first inLate second also different

/-- A chain of related items. -/
theorem agree_chain (items : List α) (chain : items.IsChain related) : agree related items := by
  have : IsTrans α related := ⟨transitive⟩
  have : Std.Symm related := ⟨symmetric⟩
  exact fun first firstIn second secondIn different =>
    chain.pairwise.forall firstIn secondIn different

/-- Items that are tied by related pairs are related or the same. -/
theorem related_of_tied (tied : α → α → Prop)
    (each : ∀ first second, tied first second → related first second) (first second : α)
    (generated : Relation.EqvGen tied first second) : first = second ∨ related first second := by
  induction generated with
  | rel first second tie => exact .inr (each first second tie)
  | refl => exact .inl rfl
  | symm first second _ ih => exact ih.imp Eq.symm (symmetric first second)
  | trans first second third _ _ ihFirst ihSecond =>
    rcases ihFirst with rfl | begun
    · exact ihSecond
    · rcases ihSecond with rfl | ended
      · exact .inr begun
      · exact .inr (transitive first second third begun ended)

end ExploratoryOptimizer.Library.Agreement
