import Mathlib.Data.Finset.Basic

/-! Passes repeated until one of them changes nothing. A pass says whether it changed something; the
number of passes is bounded, and a measure that every change lowers makes the bound enough. -/
namespace ExploratoryOptimizer.Library.Saturation

variable {σ α : Type} (pass : σ → σ × Bool)

def saturate : Nat → σ → σ
  | 0, state => state
  | bound + 1, state => if (pass state).2 then saturate bound (pass state).1 else (pass state).1

theorem saturate_kept (P : σ → Prop) (kept : ∀ state, P state → P (pass state).1)
    (bound : Nat) (state : σ) (holds : P state) : P (saturate pass bound state) := by
  induction bound generalizing state with
  | zero => exact holds
  | succ bound ih =>
    unfold saturate
    split
    · exact ih _ (kept state holds)
    · exact kept state holds

theorem saturate_settled (measure : σ → Nat) (lowers : ∀ state, (pass state).2 = true →
      measure (pass state).1 < measure state)
    (idle : ∀ state, (pass state).2 = false → (pass state).1 = state) (bound : Nat) (state : σ)
    (enough : measure state < bound) : (pass (saturate pass bound state)).2 = false := by
  induction bound generalizing state with
  | zero => omega
  | succ bound ih =>
    unfold saturate
    split
    next changed =>
      have lower := lowers state changed
      exact ih _ (by omega)
    next unchanged =>
      have still : (pass state).2 = false := by simpa using unchanged
      rw [idle state still]
      exact still

section Growing

variable [DecidableEq α]

/-- A rule adds a set when its trigger is met and the set is not there yet. -/
structure Rule (α : Type) where
  trigger : Finset α
  adds : Finset α

namespace Rule

def fire (current : Finset α × Bool) (rule : Rule α) : Finset α × Bool :=
  if ¬Disjoint rule.trigger current.1 ∧ ¬rule.adds ⊆ current.1 then (current.1 ∪ rule.adds,true)
  else current

def sweep (rules : List (Rule α)) (start : Finset α) : Finset α × Bool :=
  rules.foldl fire (start,false)

def closed (rules : List (Rule α)) (set : Finset α) : Prop :=
  ∀ rule ∈ rules, ¬Disjoint rule.trigger set → rule.adds ⊆ set

def missing (rules : List (Rule α)) (set : Finset α) : Nat :=
  rules.countP fun rule => ¬rule.adds ⊆ set

theorem fire_grows (current : Finset α × Bool) (rule : Rule α) :
    current.1 ⊆ (fire current rule).1 := by
  unfold fire
  split
  · exact Finset.subset_union_left
  · exact Finset.Subset.refl _

theorem fold_grows (rules : List (Rule α)) (current : Finset α × Bool) :
    current.1 ⊆ (rules.foldl fire current).1 := by
  induction rules generalizing current with
  | nil => exact Finset.Subset.refl _
  | cons rule rules ih => exact (fire_grows current rule).trans (ih _)

/-- The rules stay below any closed set above the start. -/
theorem fold_below (rules : List (Rule α)) (above : Finset α) (shut : closed rules above)
    (current : Finset α × Bool) (below : current.1 ⊆ above) :
    (rules.foldl fire current).1 ⊆ above := by
  induction rules generalizing current with
  | nil => exact below
  | cons rule rules ih =>
    refine ih (fun later member => shut later (List.mem_cons_of_mem _ member)) _ ?_
    unfold fire
    split
    next fires =>
      have met : ¬Disjoint rule.trigger above := fun apart => fires.1 (apart.mono_right below)
      exact Finset.union_subset below (shut rule (List.mem_cons_self ..) met)
    next => exact below

theorem missing_le (rules : List (Rule α)) (small large : Finset α) (inside : small ⊆ large) :
    missing rules large ≤ missing rules small := by
  refine List.countP_mono_left fun rule _ absent => ?_
  simp only [decide_eq_true_eq] at absent ⊢
  exact fun here => absent (here.trans inside)

theorem missing_lt (rules : List (Rule α)) (rule : Rule α) (member : rule ∈ rules)
    (small large : Finset α) (inside : small ⊆ large) (absent : ¬rule.adds ⊆ small)
    (present : rule.adds ⊆ large) :
    missing rules large < missing rules small := by
  induction rules with
  | nil => cases member
  | cons head rules ih =>
    have rest := missing_le rules small large inside
    have top := missing_le [head] small large inside
    have split :
      ∀ set : Finset α, missing (head :: rules) set = missing [head] set + missing rules set := by
      intro set
      unfold missing
      rw [← List.countP_append,List.singleton_append]
    rw [split,split]
    rcases List.mem_cons.mp member with rfl | later
    · have before : missing [rule] small = 1 := by simp [missing,absent]
      have after : missing [rule] large = 0 := by simp [missing,present]
      omega
    · have lower := ih later
      omega

/-- A pass that starts without the mark and ends with it has fired a rule. -/
theorem fold_marked (all rules : List (Rule α)) (sub : ∀ rule ∈ rules, rule ∈ all)
    (current : Finset α × Bool) (marked : (rules.foldl fire current).2 = true)
    (unmarked : current.2 = false) :
    missing all (rules.foldl fire current).1 < missing all current.1 := by
  induction rules generalizing current with
  | nil => exact absurd (unmarked.symm.trans marked) (by decide)
  | cons rule rules ih =>
    rw [List.foldl_cons] at marked ⊢
    by_cases fires : ¬Disjoint rule.trigger current.1 ∧ ¬rule.adds ⊆ current.1
    · have fired : fire current rule = (current.1 ∪ rule.adds,true) := by
        unfold fire
        rw [if_pos fires]
      have grown := fold_grows rules (fire current rule)
      rw [fired] at grown ⊢
      refine missing_lt all rule (sub rule (List.mem_cons_self ..)) _ _
        (Finset.subset_union_left.trans grown) fires.2 (Finset.subset_union_right.trans grown)
    · have passed : fire current rule = current := by
        unfold fire
        rw [if_neg fires]
      rw [passed] at marked ⊢
      exact ih (fun later member => sub later (List.mem_cons_of_mem _ member))
        current marked unmarked

theorem fold_mark_kept (rules : List (Rule α)) (current : Finset α × Bool)
    (marked : current.2 = true) :
    (rules.foldl fire current).2 = true := by
  induction rules generalizing current with
  | nil => exact marked
  | cons rule rules ih =>
    refine ih _ ?_
    unfold fire
    split
    · rfl
    · exact marked

theorem fold_unmarked (rules : List (Rule α)) (current : Finset α × Bool)
    (unmarked : (rules.foldl fire current).2 = false) :
    (rules.foldl fire current).1 = current.1 ∧ closed rules current.1 := by
  induction rules generalizing current with
  | nil => exact ⟨rfl,fun _ member => absurd member List.not_mem_nil⟩
  | cons rule rules ih =>
    rw [List.foldl_cons] at unmarked ⊢
    by_cases fires : ¬Disjoint rule.trigger current.1 ∧ ¬rule.adds ⊆ current.1
    · have fired : (fire current rule).2 = true := by
        unfold fire
        rw [if_pos fires]
      rw [fold_mark_kept rules _ fired] at unmarked
      cases unmarked
    · have passed : fire current rule = current := by
        unfold fire
        rw [if_neg fires]
      rw [passed] at unmarked ⊢
      obtain ⟨same,shut⟩ := ih current unmarked
      refine ⟨same,fun other member met => ?_⟩
      rcases List.mem_cons.mp member with rfl | later
      · exact not_not.mp fun outside => fires ⟨met,outside⟩
      · exact shut other later met

/-- The least closed set above the start, found by one pass more than there are rules. -/
theorem saturate_least (rules : List (Rule α)) (start : Finset α) :
    start ⊆ saturate (sweep rules) (rules.length + 1) start ∧
      closed rules (saturate (sweep rules) (rules.length + 1) start) ∧
      ∀ above, start ⊆ above → closed rules above →
      saturate (sweep rules) (rules.length + 1) start ⊆ above := by
  refine ⟨?_,?_,fun above below shut => ?_⟩
  · exact saturate_kept (sweep rules) (start ⊆ ·)
      (fun set inside => inside.trans (fold_grows rules (set,false))) _ _ (Finset.Subset.refl _)
  · have settled : (sweep rules (saturate (sweep rules) (rules.length + 1) start)).2 = false := by
      refine saturate_settled (sweep rules) (missing rules) (fun set changed => ?_)
        (fun set still => ?_) _ _ ?_
      · exact fold_marked rules rules (fun _ member => member) (set,false) changed rfl
      · exact (fold_unmarked rules (set,false) still).1
      · exact Nat.lt_succ_of_le List.countP_le_length
    exact (fold_unmarked rules _ settled).2
  · exact saturate_kept (sweep rules) (· ⊆ above)
      (fun set inside => fold_below rules above shut (set,false) inside) _ _ below

end Rule

end Growing

end ExploratoryOptimizer.Library.Saturation
