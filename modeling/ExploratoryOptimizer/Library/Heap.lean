import Mathlib.Data.List.Basic
import Mathlib.Logic.Function.Basic

/-! Object stores and passes that rewrite lists of references. A rewriter either keeps a
reference, changing its object in place, or returns a new object. Two lists that share objects
are rewritten one after the other; the sharing survives exactly where references are kept. -/
namespace ExploratoryOptimizer.Library

variable {α : Type*}

structure Heap (α : Type*) where
  next : Nat
  read : Nat → α

namespace Heap

def alloc (heap : Heap α) (build : Nat → α) : Nat × Heap α :=
  (heap.next,⟨heap.next + 1,Function.update heap.read heap.next (build heap.next)⟩)

def write (heap : Heap α) (ref : Nat) (object : α) : Heap α :=
  {heap with read := Function.update heap.read ref object}

theorem alloc_read (heap : Heap α) (build : Nat → α) (ref : Nat) (old : ref < heap.next) :
    (heap.alloc build).2.read ref = heap.read ref :=
  Function.update_of_ne (Nat.ne_of_lt old) _ _

theorem write_read_other (heap : Heap α) (ref other : Nat) (object : α) (different : other ≠ ref) :
    (heap.write ref object).read other = heap.read other :=
  Function.update_of_ne different _ _

structure Extends (kept : α → Bool) (before after : Heap α) : Prop where
  grows : before.next ≤ after.next
  frame : ∀ ref < before.next, kept (after.read ref) = kept (before.read ref)

theorem Extends.refl (kept : α → Bool) (heap : Heap α) : Extends kept heap heap :=
  ⟨Nat.le_refl _,fun _ _ => rfl⟩

theorem Extends.trans {kept : α → Bool} {first second third : Heap α}
    (left : Extends kept first second) (right : Extends kept second third) :
    Extends kept first third where
  grows := Nat.le_trans left.grows right.grows
  frame :=
    fun ref old => (right.frame ref (Nat.lt_of_lt_of_le old left.grows)).trans (left.frame ref old)

theorem alloc_extends (kept : α → Bool) (heap : Heap α) (build : Nat → α) :
    Extends kept heap (heap.alloc build).2 :=
  ⟨Nat.le_succ _,fun ref old => by rw [alloc_read heap build ref old]⟩

theorem write_extends (kept : α → Bool) (heap : Heap α) (ref : Nat) (object : α)
    (same : kept object = kept (heap.read ref)) : Extends kept heap (heap.write ref object) := by
  refine ⟨Nat.le_refl _,?_⟩
  intro other _
  by_cases equal : other = ref
  · simp [write,equal,same]
  · rw [write_read_other heap ref other object equal]

/-- A rewriter keeps the references whose objects satisfy the property and replaces the others. -/
structure Rewrites (kept : α → Bool) (rewrite : Heap α → Nat → Nat × Heap α) : Prop where
  extend : ∀ heap ref, ref < heap.next → Extends kept heap (rewrite heap ref).2
  bound : ∀ heap ref, ref < heap.next → (rewrite heap ref).1 < (rewrite heap ref).2.next
  keeps : ∀ heap ref, ref < heap.next → kept (heap.read ref) → (rewrite heap ref).1 = ref
  fresh : ∀ heap ref, ref < heap.next → ¬kept (heap.read ref) → heap.next ≤ (rewrite heap ref).1

def rewriteAll (rewrite : Heap α → Nat → Nat × Heap α) : Heap α → List Nat → List Nat × Heap α
  | heap,[] => ([],heap)
  | heap,ref :: refs =>
    let first := rewrite heap ref
    let rest := rewriteAll rewrite first.2 refs
    (first.1 :: rest.1,rest.2)

theorem rewriteAll_length (rewrite : Heap α → Nat → Nat × Heap α) (heap : Heap α)
    (refs : List Nat) :
    (rewriteAll rewrite heap refs).1.length = refs.length := by
  induction refs generalizing heap with
  | nil => rfl
  | cons ref refs ih => simp [rewriteAll,ih]

theorem rewriteAll_extends (kept : α → Bool) (rewrite : Heap α → Nat → Nat × Heap α)
    (step : ∀ heap ref, Extends kept heap (rewrite heap ref).2) (heap : Heap α) (refs : List Nat) :
    Extends kept heap (rewriteAll rewrite heap refs).2 := by
  induction refs generalizing heap with
  | nil => exact Extends.refl kept heap
  | cons ref refs ih => exact (step heap ref).trans (ih _)

structure Passed (kept : α → Bool) (before : Heap α) (refs refs' : List Nat)
    (after : Heap α) : Prop where
  extend : Extends kept before after
  bound : ∀ ref ∈ refs', ref < after.next
  origin : ∀ ref ∈ refs', ref ∈ refs ∧ kept (before.read ref) ∨
    before.next ≤ ref ∧ ∃ other ∈ refs, ¬kept (before.read other)
  keeps : ∀ ref ∈ refs, kept (before.read ref) → ref ∈ refs'
  fresh : ∀ ref ∈ refs, ¬kept (before.read ref) → ∃ ref' ∈ refs', before.next ≤ ref'

theorem rewriteAll_passed (kept : α → Bool) (rewrite : Heap α → Nat → Nat × Heap α)
    (rewrites : Rewrites kept rewrite) (heap : Heap α) (refs : List Nat)
    (old : ∀ ref ∈ refs, ref < heap.next) :
    Passed kept heap refs (rewriteAll rewrite heap refs).1 (rewriteAll rewrite heap refs).2 := by
  induction refs generalizing heap with
  | nil => exact ⟨Extends.refl kept heap,by simp [rewriteAll],by simp [rewriteAll],by simp,by simp⟩
  | cons ref refs ih =>
    have here := old ref (by simp)
    have later : ∀ other ∈ refs, other < heap.next :=
      fun other member => old other (by simp [member])
    have step := rewrites.extend heap ref here
    have rest := ih (rewrite heap ref).2 fun other member =>
      Nat.lt_of_lt_of_le (later other member) step.grows
    constructor
    · exact step.trans rest.extend
    · intro result member
      rcases List.mem_cons.mp member with rfl | member
      · exact Nat.lt_of_lt_of_le (rewrites.bound heap ref here) rest.extend.grows
      · exact rest.bound result member
    · intro result member
      rcases List.mem_cons.mp member with rfl | member
      · by_cases keep : kept (heap.read ref)
        · rw [rewrites.keeps heap ref here keep]
          exact .inl ⟨by simp,keep⟩
        · exact .inr ⟨rewrites.fresh heap ref here keep,ref,by simp,keep⟩
      · rcases rest.origin result member with ⟨among,keep⟩ | ⟨new,other,among,lost⟩
        · rw [step.frame result (later result among)] at keep
          exact .inl ⟨by simp [among],keep⟩
        · rw [step.frame other (later other among)] at lost
          exact .inr ⟨Nat.le_trans step.grows new,other,by simp [among],lost⟩
    · intro other member keep
      rcases List.mem_cons.mp member with rfl | member
      · exact List.mem_cons.mpr (.inl (rewrites.keeps heap other here keep).symm)
      · rw [← step.frame other (later other member)] at keep
        exact List.mem_cons_of_mem _ (rest.keeps other member keep)
    · intro other member lost
      rcases List.mem_cons.mp member with rfl | member
      · exact ⟨_,List.mem_cons_self,rewrites.fresh heap other here lost⟩
      · rw [← step.frame other (later other member)] at lost
        obtain ⟨result,found,new⟩ := rest.fresh other member lost
        exact ⟨result,List.mem_cons_of_mem _ found,Nat.le_trans step.grows new⟩

def rewriteBoth (rewrite : Heap α → Nat → Nat × Heap α) (both : Bool) (heap : Heap α)
    (refs shared : List Nat) :
    List Nat × List Nat × Heap α :=
  let first := rewriteAll rewrite heap refs
  if both then
    let second := rewriteAll rewrite first.2 shared
    (first.1,second.1,second.2)
  else (first.1,shared,first.2)

theorem rewriteBoth_length (rewrite : Heap α → Nat → Nat × Heap α) (both : Bool) (heap : Heap α)
    (refs shared : List Nat) :
    (rewriteBoth rewrite both heap refs shared).2.1.length = shared.length := by
  unfold rewriteBoth
  cases both with
  | false => rfl
  | true => exact rewriteAll_length rewrite _ shared

section Both

variable (kept : α → Bool) (rewrite : Heap α → Nat → Nat × Heap α)
  (rewrites : Rewrites kept rewrite) (both : Bool) (heap : Heap α) (refs shared : List Nat)
  (old : ∀ ref ∈ refs, ref < heap.next) (old' : ∀ ref ∈ shared, ref < heap.next)

include rewrites old old'

theorem rewriteBoth_bound :
    (∀ ref ∈ (rewriteBoth rewrite both heap refs shared).1,
        ref < (rewriteBoth rewrite both heap refs shared).2.2.next) ∧
    (∀ ref ∈ (rewriteBoth rewrite both heap refs shared).2.1,
      ref < (rewriteBoth rewrite both heap refs shared).2.2.next) ∧
    Extends kept heap (rewriteBoth rewrite both heap refs shared).2.2 := by
  have first := rewriteAll_passed kept rewrite rewrites heap refs old
  have still : ∀ ref ∈ shared, ref < (rewriteAll rewrite heap refs).2.next :=
    fun ref member => Nat.lt_of_lt_of_le (old' ref member) first.extend.grows
  unfold rewriteBoth
  cases both with
  | false => exact ⟨first.bound,still,first.extend⟩
  | true =>
    have second :=
      rewriteAll_passed kept rewrite rewrites (rewriteAll rewrite heap refs).2 shared still
    exact ⟨fun ref member => Nat.lt_of_lt_of_le (first.bound ref member) second.extend.grows,
      second.bound,
      first.extend.trans second.extend⟩

theorem rewriteBoth_shared (all : ∀ ref ∈ shared, kept (heap.read ref))
    (subset : ∀ ref ∈ shared, ref ∈ refs) :
    (∀ ref, ref ∈ (rewriteBoth rewrite both heap refs shared).2.1 ↔ ref ∈ shared) ∧
      ∀ ref ∈ shared, ref ∈ (rewriteBoth rewrite both heap refs shared).1 := by
  have first := rewriteAll_passed kept rewrite rewrites heap refs old
  have stays : ∀ ref ∈ shared, ref ∈ (rewriteAll rewrite heap refs).1 :=
    fun ref member => first.keeps ref (subset ref member) (all ref member)
  have still : ∀ ref ∈ shared, ref < (rewriteAll rewrite heap refs).2.next :=
    fun ref member => Nat.lt_of_lt_of_le (old' ref member) first.extend.grows
  have all' : ∀ ref ∈ shared, kept ((rewriteAll rewrite heap refs).2.read ref) :=
    fun ref member => (first.extend.frame ref (old' ref member)).trans (all ref member)
  unfold rewriteBoth
  cases both with
  | false => exact ⟨fun ref => Iff.rfl,stays⟩
  | true =>
    have second :=
      rewriteAll_passed kept rewrite rewrites (rewriteAll rewrite heap refs).2 shared still
    refine ⟨fun ref => ⟨?_,fun member => second.keeps ref member (all' ref member)⟩,stays⟩
    intro member
    rcases second.origin ref member with ⟨among,_⟩ | ⟨_,other,among,lost⟩
    · exact among
    · exact absurd (all' other among) lost

/-- A shared reference that is replaced, or was not in the first list to begin with, ends up as
a reference outside the first list. -/
theorem rewriteBoth_lost (ref : Nat) (member : ref ∈ shared)
    (lost : ¬kept (heap.read ref) ∨ ref ∉ refs) :
    ∃ ref' ∈ (rewriteBoth rewrite both heap refs shared).2.1,
      ref' ∉ (rewriteBoth rewrite both heap refs shared).1 := by
  have first := rewriteAll_passed kept rewrite rewrites heap refs old
  have outside : ref ∉ (rewriteAll rewrite heap refs).1 := by
    intro found
    rcases first.origin ref found with ⟨among,keep⟩ | ⟨new,_⟩
    · exact lost.elim (fun no => no keep) (fun no => no among)
    · exact absurd (old' ref member) (Nat.not_lt.mpr new)
  unfold rewriteBoth
  cases both with
  | false => exact ⟨ref,member,outside⟩
  | true =>
    have still : ∀ other ∈ shared, other < (rewriteAll rewrite heap refs).2.next :=
      fun other among => Nat.lt_of_lt_of_le (old' other among) first.extend.grows
    have second :=
      rewriteAll_passed kept rewrite rewrites (rewriteAll rewrite heap refs).2 shared still
    by_cases keep : kept ((rewriteAll rewrite heap refs).2.read ref)
    · exact ⟨ref,second.keeps ref member keep,outside⟩
    · -- The replacement is newer than every reference of the first list.
      obtain ⟨ref',found,new⟩ := second.fresh ref member keep
      exact ⟨ref',found,fun among => absurd (first.bound ref' among) (Nat.not_lt.mpr new)⟩

end Both

end Heap

end ExploratoryOptimizer.Library
