import Mathlib.Data.Multiset.Bind
import Mathlib.Data.Multiset.Filter

/-! Bag semantics of equality semijoins. A semijoin keeps each left row that has a partner, as
often as it occurs; an inner join repeats it once for every partner. The two agree on the left
columns when the right input carries each key once. -/
namespace ExploratoryOptimizer.Library.Semijoin

variable {α β κ : Type*} [DecidableEq κ]

def semijoin (leftKey : α → κ) (rightKey : β → κ) (left : Multiset α)
    (right : Multiset β) : Multiset α :=
  left.filter fun row => leftKey row ∈ right.map rightKey

def innerJoin (leftKey : α → κ) (rightKey : β → κ) (left : Multiset α) (right : Multiset β) :
    Multiset (α × β) :=
  left.bind fun row => (right.filter fun partner => leftKey row = rightKey partner).map
    fun partner => (row,partner)

def joinRows (leftKey : α → κ) (rightKey : β → κ) (left : Multiset α)
    (right : Multiset β) : Multiset α :=
  (innerJoin leftKey rightKey left right).map Prod.fst

structure UniqueOn (key : β → κ) (unique rows : Multiset β) : Prop where
  nodup : (unique.map key).Nodup
  sameKeys : ∀ value, value ∈ unique.map key ↔ value ∈ rows.map key

theorem joinRows_eq_bind (leftKey : α → κ) (rightKey : β → κ) (left : Multiset α)
    (right : Multiset β) :
    joinRows leftKey rightKey left right =
      left.bind fun row => Multiset.replicate ((right.map rightKey).count (leftKey row)) row := by
  unfold joinRows innerJoin
  rw [Multiset.map_bind]
  congr 1
  funext row
  rw [Multiset.map_map,Multiset.count_map]
  exact Multiset.map_const' _ _

/-- Joining with a unique-ified right input is the semijoin, duplicates of left rows included. -/
theorem joinRows_unique (leftKey : α → κ) (rightKey : β → κ) (left : Multiset α)
    (right unique : Multiset β) (distinct : UniqueOn rightKey unique right) :
    joinRows leftKey rightKey left unique = semijoin leftKey rightKey left right := by
  rw [joinRows_eq_bind]
  induction left using Multiset.induction with
  | empty => rfl
  | cons row rows ih =>
    rw [Multiset.cons_bind,ih]
    let kept : α → Prop := fun left => leftKey left ∈ right.map rightKey
    change _ + Multiset.filter kept rows = Multiset.filter kept (row ::ₘ rows)
    by_cases matched : leftKey row ∈ right.map rightKey
    · have once := Multiset.count_eq_one_of_mem distinct.nodup ((distinct.sameKeys _).mpr matched)
      rw [once,Multiset.filter_cons_of_pos (p := kept) _ matched,Multiset.replicate_one,
        Multiset.singleton_add]
    · have absent := Multiset.count_eq_zero.mpr (mt (distinct.sameKeys _).mp matched)
      rw [absent,Multiset.filter_cons_of_neg (p := kept) _ matched,Multiset.replicate_zero,zero_add]

end ExploratoryOptimizer.Library.Semijoin
