import ExploratoryOptimizer.Library.Tournament
import Mathlib.Data.Fintype.Card
import Mathlib.Data.Set.Finite.Basic
import Mathlib.Order.WellFounded

/-! Undominated members of a pool. When the verdicts of a tournament are a strict order, one pass
of it against the front of a pool gives the front of the pool with the newcomer. -/
namespace ExploratoryOptimizer.Library.ParetoFront
open Tournament

variable {α : Type*}

def undominated (dominates : α → α → Bool) (pool : List α) (x : α) : Bool :=
  pool.all fun y => !dominates y x

def front (dominates : α → α → Bool) (pool : List α) : List α :=
  pool.filter (undominated dominates pool)

structure Strict (dominates : α → α → Bool) : Prop where
  irrefl : ∀ x, ¬dominates x x
  trans : ∀ x y z, dominates x y → dominates y z → dominates x z

structure Decides (dominates : α → α → Bool) (verdict : α → α → Verdict) : Prop where
  rejects : ∀ new old, verdict new old = .rejectNew ↔ dominates old new
  removes : ∀ new old, verdict new old = .removeOld ↔ dominates new old

section Front

variable {dominates : α → α → Bool}

theorem undominated_iff (pool : List α) (x : α) :
    undominated dominates pool x ↔ ∀ y ∈ pool, ¬dominates y x := by
  simp [undominated]

theorem mem_front (pool : List α) (x : α) :
    x ∈ front dominates pool ↔ x ∈ pool ∧ ∀ y ∈ pool, ¬dominates y x := by
  rw [front,List.mem_filter,undominated_iff]

/-- Every member is in the front or below a member of the front. -/
theorem front_covers (strict : Strict dominates) (pool : List α) (x : α) (member : x ∈ pool) :
    ∃ top ∈ front dominates pool, top = x ∨ dominates top x := by
  let Above (a b : {y // y ∈ pool}) : Prop := dominates a.1 b.1
  have : IsTrans _ Above := ⟨fun a b c => strict.trans a.1 b.1 c.1⟩
  have : Std.Irrefl Above := ⟨fun a => strict.irrefl a.1⟩
  have : Finite {y // y ∈ pool} := pool.finite_toSet
  have founded : WellFounded Above := Finite.wellFounded_of_trans_of_irrefl Above
  obtain ⟨⟨top,inside⟩,reaches,least⟩ :=
    founded.has_min {a | a.1 = x ∨ dominates a.1 x} ⟨⟨x,member⟩,.inl rfl⟩
  refine ⟨top,(mem_front pool top).mpr ⟨inside,?_⟩,reaches⟩
  intro y among above
  refine least ⟨y,among⟩ (.inr ?_) above
  rcases reaches with same | below
  · exact same ▸ above
  · exact strict.trans _ _ _ above below

theorem front_dominated (strict : Strict dominates) (pool : List α) (new : α)
    (beaten : ∃ old ∈ front dominates pool, dominates old new) :
    front dominates (pool ++ [new]) = front dominates pool := by
  obtain ⟨old,kept,above⟩ := beaten
  obtain ⟨inside,_⟩ := (mem_front pool old).mp kept
  have out : undominated dominates (pool ++ [new]) new = false := by
    rw [← Bool.not_eq_true,undominated_iff]
    intro none
    exact none old (by simp [inside]) above
  rw [front,List.filter_append,List.filter_singleton,out,cond_false,List.append_nil]
  apply List.filter_congr
  intro x member
  rw [Bool.eq_iff_iff,undominated_iff,undominated_iff]
  constructor
  · intro none y among
    exact none y (by simp [among])
  · intro none y among
    rcases List.mem_append.mp among with earlier | last
    · exact none y earlier
    · rw [List.mem_singleton.mp last]
      intro below
      exact none old inside (strict.trans _ _ _ above below)

theorem front_undominated (strict : Strict dominates) (pool : List α) (new : α)
    (unbeaten : ∀ old ∈ front dominates pool, ¬dominates old new) :
    front dominates (pool ++ [new]) = (front dominates pool).filter
      (fun old => !dominates new old) ++ [new] := by
  have top : ∀ y ∈ pool, ¬dominates y new := by
    intro y member above
    obtain ⟨best,kept,reaches⟩ := front_covers strict pool y member
    refine unbeaten best kept ?_
    rcases reaches with same | below
    · exact same ▸ above
    · exact strict.trans _ _ _ below above
  have stays : undominated dominates (pool ++ [new]) new := by
    rw [undominated_iff]
    intro y member
    rcases List.mem_append.mp member with earlier | last
    · exact top y earlier
    · rw [List.mem_singleton.mp last]
      exact strict.irrefl new
  rw [front,List.filter_append,List.filter_singleton,stays,cond_true]
  congr 1
  rw [front,List.filter_filter]
  apply List.filter_congr
  intro x _
  rw [Bool.eq_iff_iff,Bool.and_eq_true,undominated_iff,undominated_iff]
  simp only [List.mem_append,List.mem_singleton,Bool.not_eq_true',or_imp,forall_and,forall_eq,
    Bool.not_eq_true]
  exact and_comm

end Front

section Pass

variable {dominates : α → α → Bool} {verdict : α → α → Verdict}

theorem contest_filter (decides : Decides dominates verdict) (new : α) (incumbents : List α)
    (unbeaten : ∀ old ∈ incumbents, ¬dominates old new) :
    contest (verdict new) incumbents =
      (incumbents.filter (fun old => !dominates new old),true) := by
  induction incumbents with
  | nil => rfl
  | cons old rest ih =>
    have tail := ih fun x member => unbeaten x (by simp [member])
    unfold contest
    cases result : verdict new old with
    | rejectNew => exact absurd ((decides.rejects new old).mp result) (unbeaten old (by simp))
    | removeOld => simp [tail,(decides.removes new old).mp result]
    | keepBoth =>
      have stays : ¬dominates new old := by
        rw [← decides.removes,result]
        simp
      simp [tail,stays]

theorem contest_beaten (strict : Strict dominates) (decides : Decides dominates verdict) (new : α)
    (incumbents : List α) (separate : ∀ x ∈ incumbents, ∀ y ∈ incumbents, ¬dominates x y)
    (beaten : ∃ old ∈ incumbents, dominates old new) :
    contest (verdict new) incumbents = (incumbents,false) := by
  induction incumbents with
  | nil => simp at beaten
  | cons old rest ih =>
    obtain ⟨better,member,above⟩ := beaten
    unfold contest
    cases result : verdict new old with
    | rejectNew => rfl
    | removeOld =>
      -- What beats the newcomer would have beaten this incumbent.
      have below := (decides.removes new old).mp result
      exact absurd (strict.trans _ _ _ above below) (separate better member old (by simp))
    | keepBoth =>
      have later : better ∈ rest := by
        rcases List.mem_cons.mp member with rfl | later
        · rw [(decides.rejects new better).mpr above] at result
          cases result
        · exact later
      have tail :=
        ih (fun x among y among' => separate x (by simp [among]) y (by simp [among']))
          ⟨better,later,above⟩
      simp [tail]

/-- One pass against the front of the pool yields the front of the larger pool. -/
theorem contest_front (strict : Strict dominates) (decides : Decides dominates verdict)
    (pool : List α) (new : α) :
    (if (contest (verdict new) (front dominates pool)).2
      then (contest (verdict new) (front dominates pool)).1 ++ [new]
      else (contest (verdict new) (front dominates pool)).1) = front dominates (pool ++ [new]) := by
  by_cases beaten : ∃ old ∈ front dominates pool, dominates old new
  · have separate : ∀ x ∈ front dominates pool, ∀ y ∈ front dominates pool, ¬dominates x y := by
      intro x member y member'
      exact ((mem_front pool y).mp member').2 x ((mem_front pool x).mp member).1
    rw [contest_beaten strict decides new _ separate beaten,front_dominated strict pool new beaten]
    rfl
  · have unbeaten : ∀ old ∈ front dominates pool, ¬dominates old new := by
      intro old member above
      exact beaten ⟨old,member,above⟩
    rw [contest_filter decides new _ unbeaten,front_undominated strict pool new unbeaten]
    rfl

end Pass

end ExploratoryOptimizer.Library.ParetoFront
