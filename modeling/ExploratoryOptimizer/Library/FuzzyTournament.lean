import ExploratoryOptimizer.Library.Tournament
import Mathlib.Algebra.Order.Field.Basic

/-! Dominance lists whose verdicts respect a cost only up to a factor. A newcomer that removes
incumbents may cost a factor more than what it removes, and one that rejects it then another; a
newcomer that removes nothing loses nothing that was there. -/
namespace ExploratoryOptimizer.Library.FuzzyTournament
open Tournament

variable {α K : Type*} [Field K] [LinearOrder K] [IsStrictOrderedRing K]

/-- Verdicts that prefer a candidate over a cheaper one only within the factor. -/
structure Respects (factor : K) (cost : α → K) (verdict : α → α → Verdict)
    (candidate : α → Prop) : Prop where
  widening : 1 ≤ factor
  nonneg : ∀ x, candidate x → 0 ≤ cost x
  removes : ∀ new old, candidate new → candidate old → verdict new old = .removeOld →
    cost new ≤ factor * cost old
  rejects : ∀ new old, candidate new → candidate old → verdict new old = .rejectNew →
    cost old ≤ factor * cost new

/-- One of the incumbents undercuts every offer, up to the factors lost. -/
def NearCheapest (factor : K) (cost : α → K) (lost : Nat) (offers incumbents : List α) : Prop :=
  ∃ best ∈ incumbents, ∀ offered ∈ offers, cost best ≤ factor ^ lost * cost offered

/-- Factors that one offer may lose. -/
def loss [DecidableEq α] (before after : List α) (new : α) : Nat :=
  if before ⊆ after then 0 else if new ∈ after then 1 else 2

theorem loss_eq_zero [DecidableEq α] (before after : List α) (new : α) (kept : before ⊆ after) :
    loss before after new = 0 := if_pos kept

section Bounds

variable {factor : K} {cost : α → K} {verdict : α → α → Verdict} {candidate : α → Prop}

theorem le_pow_mul (respects : Respects factor cost verdict candidate) (x : α)
    (known : candidate x) (n : Nat) :
    cost x ≤ factor ^ n * cost x :=
  le_mul_of_one_le_left (respects.nonneg x known) (one_le_pow₀ respects.widening)

theorem pow_mul_mono (respects : Respects factor cost verdict candidate) (x : α)
    (known : candidate x) (m n : Nat) (fewer : m ≤ n) : factor ^ m * cost x ≤ factor ^ n * cost x :=
  mul_le_mul_of_nonneg_right (pow_le_pow_right₀ respects.widening fewer) (respects.nonneg x known)

theorem factor_mul_le (respects : Respects factor cost verdict candidate) (x offered : α) (n : Nat)
    (bound : cost x ≤ factor ^ n * cost offered) :
    factor * cost x ≤ factor ^ (n + 1) * cost offered := by
  rw [pow_succ',mul_assoc]
  exact mul_le_mul_of_nonneg_left bound (zero_le_one.trans respects.widening)

omit [IsStrictOrderedRing K] in
/-- Of two incumbents that bound the offers between them, the cheaper one bounds them all. -/
theorem nearCheapest_either (lost : Nat) (offers incumbents : List α) (first second new : α)
    (one : first ∈ incumbents) (other : second ∈ incumbents)
    (old : ∀ offered ∈ offers, cost first ≤ factor ^ lost * cost offered)
    (last : cost second ≤ factor ^ lost * cost new) :
    NearCheapest factor cost lost (offers ++ [new]) incumbents := by
  rcases le_total (cost first) (cost second) with cheaper | cheaper
  · refine ⟨first,one,?_⟩
    intro offered member
    rcases List.mem_append.mp member with earlier | final
    · exact old offered earlier
    · rw [List.mem_singleton.mp final]
      exact cheaper.trans last
  · refine ⟨second,other,?_⟩
    intro offered member
    rcases List.mem_append.mp member with earlier | final
    · exact cheaper.trans (old offered earlier)
    · rw [List.mem_singleton.mp final]
      exact last

end Bounds

section Step

variable {factor : K} {cost : α → K} {verdict : α → α → Verdict} {candidate : α → Prop}
  (respects : Respects factor cost verdict candidate) (lost : Nat) (offers incumbents : List α)
  (new : α) (known : candidate new)

include respects known in
/-- A newcomer that joins without a comparison. -/
theorem nearCheapest_cons (near : NearCheapest factor cost lost offers incumbents) :
    NearCheapest factor cost lost (offers ++ [new]) (new :: incumbents) := by
  obtain ⟨best,member,bound⟩ := near
  exact nearCheapest_either lost offers _ best new new (List.mem_cons_of_mem _ member)
    List.mem_cons_self bound (le_pow_mul respects new known lost)

include respects in
/-- A newcomer dropped without a comparison because an earlier offer was no dearer. -/
theorem nearCheapest_skip (cheaper : α) (before : cheaper ∈ offers)
    (dearer : cost cheaper ≤ cost new) (near : NearCheapest factor cost lost offers incumbents) :
    NearCheapest factor cost lost (offers ++ [new]) incumbents := by
  obtain ⟨best,member,bound⟩ := near
  have positive : (0 : K) ≤ factor ^ lost := pow_nonneg (zero_le_one.trans respects.widening) _
  exact nearCheapest_either lost offers _ best best new member member bound
    ((bound cheaper before).trans (mul_le_mul_of_nonneg_left dearer positive))

include respects known in
theorem nearCheapest_mono (offered : ∀ x ∈ offers, candidate x) (fewer more : Nat)
    (order : fewer ≤ more) (after : List α)
    (near : NearCheapest factor cost fewer (offers ++ [new]) after) :
    NearCheapest factor cost more (offers ++ [new]) after := by
  obtain ⟨best,member,bound⟩ := near
  refine ⟨best,member,fun x earlier => (bound x earlier).trans ?_⟩
  refine pow_mul_mono respects x ?_ _ _ order
  rcases List.mem_append.mp earlier with old | last
  · exact offered x old
  · exact List.mem_singleton.mp last ▸ known

variable (offered : ∀ x ∈ offers, candidate x) (among : ∀ x ∈ incumbents, candidate x)
  (follows : α → Bool)
include respects known among

omit [IsStrictOrderedRing K] in
/-- The newcomer is kept, or an incumbent that is kept rejects it. -/
theorem new_covered (after : List α) (result : after = offer (verdict new) follows new incumbents) :
    new ∈ after ∨ ∃ rejecter ∈ after, cost rejecter ≤ factor * cost new := by
  rw [result]
  unfold offer
  split_ifs with accepted
  · exact .inl ((mem_placeAfterLast _ _ _ _).mpr (.inl rfl))
  · obtain ⟨rejecter,kept,rejects⟩ :=
      contest_rejecter (verdict new) incumbents (by simpa using accepted)
    have old := among rejecter ((contest_sublist _ _).subset kept)
    exact .inr ⟨rejecter,kept,respects.rejects new rejecter known old rejects⟩

/-- The best incumbent is not beaten by the newcomer. -/
theorem nearCheapest_survives (after : List α)
    (result : after = offer (verdict new) follows new incumbents) (best : α)
    (survives : best ∈ after) (bound : ∀ x ∈ offers, cost best ≤ factor ^ (lost + 1) * cost x) :
    NearCheapest factor cost (lost + 1) (offers ++ [new]) after := by
  rcases new_covered respects incumbents new known among follows after result with
    kept | ⟨rejecter,kept,above⟩
  · exact nearCheapest_either _ offers _ best new new survives kept bound
      (le_pow_mul respects new known _)
  · have one := factor_mul_le respects new new lost (le_pow_mul respects new known lost)
    exact nearCheapest_either _ offers _ best rejecter new survives kept bound (above.trans one)

/-- The best incumbent is removed: the newcomer is within one factor of it. -/
theorem nearCheapest_removed [DecidableEq α] (after : List α)
    (result : after = offer (verdict new) follows new incumbents) (best : α)
    (member : best ∈ incumbents) (gone : best ∉ after)
    (bound : ∀ x ∈ offers, cost best ≤ factor ^ (lost + 1) * cost x) :
    NearCheapest factor cost (lost + loss incumbents after new + 1) (offers ++ [new]) after := by
  have dropped : best ∉ (contest (verdict new) incumbents).1 := by
    intro survives
    rw [result] at gone
    unfold offer at gone
    split_ifs at gone
    · exact gone ((mem_placeAfterLast _ _ _ _).mpr (.inr survives))
    · exact gone survives
  have removed := contest_dropped (verdict new) incumbents best member dropped
  have within := respects.removes new best known (among best member) removed
  have first : ∀ x ∈ offers, cost new ≤ factor ^ (lost + 1 + 1) * cost x := fun x earlier =>
    within.trans (factor_mul_le respects best x _ (bound x earlier))
  have lossy : ¬incumbents ⊆ after := fun all => gone (all member)
  rw [loss,if_neg lossy]
  split_ifs with kept
  · exact nearCheapest_either _ offers _ new new new kept kept first
      (le_pow_mul respects new known _)
  · obtain ⟨rejecter,still,above⟩ :=
      (new_covered respects incumbents new known among follows after result).resolve_left kept
    refine nearCheapest_either _ offers _ rejecter rejecter new still still ?_ ?_
    · intro x earlier
      exact above.trans (factor_mul_le respects new x _ (first x earlier))
    · exact above.trans (factor_mul_le respects new new _ (le_pow_mul respects new known _))

include offered in
theorem nearCheapest_offer [DecidableEq α] (after : List α)
    (result : after = offer (verdict new) follows new incumbents)
    (near : NearCheapest factor cost (lost + 1) offers incumbents) :
    NearCheapest factor cost (lost + loss incumbents after new + 1) (offers ++ [new]) after := by
  obtain ⟨best,member,bound⟩ := near
  by_cases survives : best ∈ after
  · have same := nearCheapest_survives respects lost offers incumbents new known among follows after
      result best survives bound
    exact nearCheapest_mono respects offers new known offered _ _ (by omega) after same
  · exact nearCheapest_removed respects lost offers incumbents new known among follows after result
      best member survives bound

end Step

end ExploratoryOptimizer.Library.FuzzyTournament
