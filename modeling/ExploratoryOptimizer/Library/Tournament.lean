import Mathlib.Data.List.Basic
import Mathlib.Data.List.Perm.Basic
import Mathlib.Data.List.Perm.Subperm
import Mathlib.Order.Lattice

/-! Incremental dominance lists. A newcomer is compared with the incumbents in list order:
each comparison keeps both, drops the incumbent, or rejects the newcomer and ends the pass.
Incumbents dropped before a rejection stay dropped. -/
namespace ExploratoryOptimizer.Library.Tournament

variable {α : Type*}

inductive Verdict where
  | keepBoth
  | removeOld
  | rejectNew
  deriving DecidableEq

/-- The surviving incumbents, and whether the newcomer met no rejection. -/
def contest (verdict : α → Verdict) : List α → List α × Bool
  | [] => ([],true)
  | old :: rest =>
    match verdict old with
    | .rejectNew => (old :: rest,false)
    | .removeOld => contest verdict rest
    | .keepBoth => (old :: (contest verdict rest).1,(contest verdict rest).2)

def placeAfterLast (follows : α → Bool) (new : α) : List α → List α
  | [] => [new]
  | old :: rest =>
    if rest.any follows then old :: placeAfterLast follows new rest
    else if follows old then old :: new :: rest
    else new :: old :: rest

def offer (verdict : α → Verdict) (follows : α → Bool) (new : α) (incumbents : List α) : List α :=
  if (contest verdict incumbents).2 then placeAfterLast follows new (contest verdict incumbents).1
  else (contest verdict incumbents).1

theorem contest_rejected (verdict : α → Verdict) (incumbents : List α) :
    (contest verdict incumbents).2 = false ↔ ∃ old ∈ incumbents, verdict old = .rejectNew := by
  induction incumbents with
  | nil => simp [contest]
  | cons old rest ih =>
    unfold contest
    cases result : verdict old with
    | rejectNew => simp [result]
    | removeOld => simp [result,ih]
    | keepBoth => simp [result,ih]

theorem contest_accepted (verdict : α → Verdict) (incumbents : List α) :
    (contest verdict incumbents).2 = true ↔ ∀ old ∈ incumbents, verdict old ≠ .rejectNew := by
  rw [← Bool.not_eq_false,contest_rejected]
  simp

theorem contest_sublist (verdict : α → Verdict) (incumbents : List α) :
    (contest verdict incumbents).1.Sublist incumbents := by
  induction incumbents with
  | nil => exact List.Sublist.refl _
  | cons old rest ih =>
    unfold contest
    split
    · exact List.Sublist.refl _
    · exact ih.cons old
    · exact ih.cons_cons old

theorem contest_rejected_ne_nil (verdict : α → Verdict) (incumbents : List α)
    (rejected : (contest verdict incumbents).2 = false) : (contest verdict incumbents).1 ≠ [] := by
  induction incumbents with
  | nil => simp [contest] at rejected
  | cons old rest ih =>
    unfold contest at rejected ⊢
    cases result : verdict old with
    | rejectNew => simp
    | removeOld => exact ih (by simpa [result] using rejected)
    | keepBoth => simp

theorem contest_congr (left right : α → Verdict) (incumbents : List α)
    (same : ∀ old ∈ incumbents, left old = right old) :
    contest left incumbents = contest right incumbents := by
  induction incumbents with
  | nil => rfl
  | cons old rest ih =>
    have tail := ih fun x member => same x (by simp [member])
    simp only [contest,same old (by simp),tail]

theorem placeAfterLast_perm (follows : α → Bool) (new : α) (incumbents : List α) :
    (placeAfterLast follows new incumbents).Perm (new :: incumbents) := by
  induction incumbents with
  | nil => exact List.Perm.refl _
  | cons old rest ih =>
    unfold placeAfterLast
    split
    · exact (ih.cons old).trans (List.Perm.swap new old rest)
    · split
      · exact List.Perm.swap new old rest
      · exact List.Perm.refl _

theorem mem_placeAfterLast (follows : α → Bool) (new x : α) (incumbents : List α) :
    x ∈ placeAfterLast follows new incumbents ↔ x = new ∨ x ∈ incumbents := by
  rw [(placeAfterLast_perm follows new incumbents).mem_iff,List.mem_cons]

theorem offer_ne_nil (verdict : α → Verdict) (follows : α → Bool) (new : α) (incumbents : List α) :
    offer verdict follows new incumbents ≠ [] := by
  unfold offer
  split
  · exact List.ne_nil_of_mem ((mem_placeAfterLast follows new new _).mpr (.inl rfl))
  next rejected => exact contest_rejected_ne_nil verdict incumbents (by simpa using rejected)

theorem mem_offer (verdict : α → Verdict) (follows : α → Bool) (new : α) (incumbents : List α)
    (x : α) (member : x ∈ offer verdict follows new incumbents) : x = new ∨ x ∈ incumbents := by
  unfold offer at member
  split at member
  · rcases (mem_placeAfterLast follows new x _).mp member with equal | survived
    · exact .inl equal
    · exact .inr ((contest_sublist verdict incumbents).subset survived)
  · exact .inr ((contest_sublist verdict incumbents).subset member)

theorem offer_congr (left right : α → Verdict) (follows : α → Bool) (new : α) (incumbents : List α)
    (same : ∀ old ∈ incumbents, left old = right old) :
    offer left follows new incumbents = offer right follows new incumbents := by
  unfold offer
  rw [contest_congr left right incumbents same]

theorem contest_survivor (verdict : α → Verdict) (incumbents : List α)
    (accepted : (contest verdict incumbents).2 = true) :
    ∀ old ∈ (contest verdict incumbents).1, verdict old = .keepBoth := by
  induction incumbents with
  | nil => simp [contest]
  | cons first rest ih =>
    unfold contest at accepted ⊢
    cases result : verdict first with
    | rejectNew => simp [result] at accepted
    | removeOld => exact ih (by simpa [result] using accepted)
    | keepBoth =>
      intro old member
      rcases List.mem_cons.mp member with rfl | later
      · exact result
      · exact ih (by simpa [result] using accepted) old later

theorem contest_dropped (verdict : α → Verdict) (incumbents : List α) (old : α)
    (member : old ∈ incumbents) (dropped : old ∉ (contest verdict incumbents).1) :
    verdict old = .removeOld := by
  induction incumbents with
  | nil => cases member
  | cons first rest ih =>
    unfold contest at dropped
    cases result : verdict first with
    | rejectNew =>
      simp only [result] at dropped
      exact absurd member dropped
    | removeOld =>
      simp only [result] at dropped
      rcases List.mem_cons.mp member with rfl | later
      · exact result
      · exact ih later dropped
    | keepBoth =>
      simp only [result,List.mem_cons,not_or] at dropped
      rcases List.mem_cons.mp member with rfl | later
      · exact absurd rfl dropped.1
      · exact ih later dropped.2

theorem contest_rejecter (verdict : α → Verdict) (incumbents : List α)
    (rejected : (contest verdict incumbents).2 = false) :
    ∃ old ∈ (contest verdict incumbents).1, verdict old = .rejectNew := by
  induction incumbents with
  | nil => simp [contest] at rejected
  | cons first rest ih =>
    unfold contest at rejected ⊢
    cases result : verdict first with
    | rejectNew => exact ⟨first,by simp,result⟩
    | removeOld => exact ih (by simpa [result] using rejected)
    | keepBoth =>
      obtain ⟨old,member,loses⟩ := ih (by simpa [result] using rejected)
      exact ⟨old,by simp [member],loses⟩

/-! A list sorted by a key stays sorted when the newcomer is placed behind the last incumbent
whose key does not exceed its own. -/

section Sorted

variable {κ : Type*} [LinearOrder κ] (key : α → κ)

theorem placeAfterLast_sorted (new : α) (incumbents : List α)
    (sorted : incumbents.Pairwise fun earlier later => key earlier ≤ key later) :
    (placeAfterLast (fun old => decide (key old ≤ key new)) new incumbents).Pairwise
      fun earlier later => key earlier ≤ key later := by
  induction incumbents with
  | nil => exact List.pairwise_singleton ..
  | cons old rest ih =>
    obtain ⟨least,sorted'⟩ := List.pairwise_cons.mp sorted
    unfold placeAfterLast
    split
    next later =>
      obtain ⟨below,member,under⟩ := List.any_eq_true.mp later
      refine List.pairwise_cons.mpr ⟨?_,ih sorted'⟩
      intro other among
      rcases (mem_placeAfterLast _ _ _ _).mp among with rfl | kept
      · exact (least below member).trans (of_decide_eq_true under)
      · exact least other kept
    next none =>
      have above : ∀ other ∈ rest, key new ≤ key other := by
        intro other member
        by_contra exceeds
        exact none (List.any_eq_true.mpr ⟨other,member,decide_eq_true (not_le.mp exceeds).le⟩)
      split
      next under =>
        refine List.pairwise_cons.mpr ⟨?_,List.pairwise_cons.mpr ⟨above,sorted'⟩⟩
        intro other among
        rcases List.mem_cons.mp among with rfl | kept
        · exact of_decide_eq_true under
        · exact least other kept
      next exceeds =>
        refine List.pairwise_cons.mpr ⟨?_,sorted⟩
        intro other among
        rcases List.mem_cons.mp among with rfl | kept
        · exact (not_le.mp (of_decide_eq_false (by simpa using exceeds))).le
        · exact above other kept

theorem offer_sorted (verdict : α → Verdict) (new : α) (incumbents : List α)
    (sorted : incumbents.Pairwise fun earlier later => key earlier ≤ key later) :
    (offer verdict (fun old => decide (key old ≤ key new)) new incumbents).Pairwise
      fun earlier later => key earlier ≤ key later := by
  have survivors := sorted.sublist (contest_sublist verdict incumbents)
  unfold offer
  split
  · exact placeAfterLast_sorted key new _ survivors
  · exact survivors

end Sorted

/-- The incumbents are some of the offers, and no later one of them removes or is rejected by
an earlier one. -/
def KeptFrom (verdict : α → α → Verdict) (offers incumbents : List α) : Prop :=
  ∃ kept, kept.Sublist offers ∧ incumbents.Perm kept ∧
    kept.Pairwise fun earlier later => verdict later earlier = .keepBoth

section KeptFrom

variable (verdict : α → α → Verdict) (offers incumbents : List α)

theorem keptFrom_subset (survivors : List α) (new : α) (some_kept : survivors.Sublist incumbents)
    (holds : KeptFrom verdict offers incumbents) :
    KeptFrom verdict (offers ++ [new]) survivors := by
  obtain ⟨kept,among,same,separate⟩ := holds
  obtain ⟨fewer,same',among'⟩ := some_kept.subperm.trans same.subperm
  exact ⟨fewer,(among'.trans among).trans (List.sublist_append_left ..),same'.symm,
    separate.sublist among'⟩

theorem keptFrom_offer (follows : α → Bool) (new : α) (holds : KeptFrom verdict offers incumbents) :
    KeptFrom verdict (offers ++ [new]) (offer (verdict new) follows new incumbents) := by
  unfold offer
  split
  next accepted =>
    obtain ⟨kept,among,same,separate⟩ := holds
    obtain ⟨fewer,same',among'⟩ :=
      (contest_sublist (verdict new) incumbents).subperm.trans same.subperm
    refine ⟨fewer ++ [new],(among'.trans among).append (List.Sublist.refl _),?_,?_⟩
    · have placed := placeAfterLast_perm follows new (contest (verdict new) incumbents).1
      exact (placed.trans (same'.symm.cons new)).trans (List.perm_append_singleton new fewer).symm
    · refine List.pairwise_append.mpr ⟨separate.sublist among',List.pairwise_singleton ..,?_⟩
      intro earlier member later last
      rw [List.mem_singleton.mp last]
      exact contest_survivor _ _ accepted earlier (same'.mem_iff.mp member)
  next => exact keptFrom_subset verdict offers incumbents _ new (contest_sublist _ _) holds

theorem keptFrom_nodup (holds : KeptFrom verdict offers incumbents) (distinct : offers.Nodup) :
    incumbents.Nodup := by
  obtain ⟨kept,among,same,_⟩ := holds
  exact same.nodup_iff.mpr (distinct.sublist among)

theorem keptFrom_irrefl_nodup (holds : KeptFrom verdict offers incumbents)
    (decides : ∀ x ∈ offers, verdict x x ≠ .keepBoth) : incumbents.Nodup := by
  obtain ⟨kept,among,same,separate⟩ := holds
  refine same.nodup_iff.mpr (separate.imp_of_mem ?_)
  rintro earlier later member _ together rfl
  exact decides earlier (among.subset member) together

end KeptFrom

end ExploratoryOptimizer.Library.Tournament
