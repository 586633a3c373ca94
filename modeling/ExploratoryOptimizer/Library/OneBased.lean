import Mathlib.Data.List.GetD
import Mathlib.Data.List.Range

/-! Arrays whose places are counted from one, and loops that count through them. -/
namespace ExploratoryOptimizer.Library.OneBased

section Arrays

variable {α : Type} [Zero α]

def subscript (array : List α) (place : Nat) : α := array.getD (place - 1) 0

def assign (array : List α) (place : Nat) (value : α) : List α := array.set (place - 1) value

end Arrays

/-- `FOR place IN low..high LOOP` with a body that can fail. -/
def forLoop {σ : Type} (low high : Nat) (state : σ) (body : σ → Nat → Option σ) : Option σ :=
  (List.range' low (high + 1 - low)).foldlM body state

section Loops

variable {α σ : Type}

theorem foldlM_some (array : List α) (body : σ → α → Option σ) (step : σ → α → σ)
    (succeeds : ∀ state, ∀ element ∈ array, body state element = some (step state element))
    (state : σ) :
    array.foldlM body state = some (array.foldl step state) := by
  induction array generalizing state with
  | nil => rfl
  | cons element array ih =>
    rw [List.foldlM_cons,succeeds state element (by simp),List.foldl_cons]
    exact ih (fun state element member => succeeds state element (by simp [member])) _

variable [Zero α]

theorem map_subscript (array : List α) (first high : Nat) (within : high ≤ array.length) :
    (List.range' (first + 1) (high - first)).map (subscript array) =
      (array.take high).drop first := by
  apply List.ext_getElem
  · simp only [List.length_map,List.length_range',List.length_drop,List.length_take]
    omega
  · intro i inside inside'
    have bound : first + i < array.length := by
      rw [List.length_map,List.length_range'] at inside
      omega
    rw [List.getElem_map,List.getElem_range',List.getElem_drop,List.getElem_take,subscript]
    have place : first + 1 + 1 * i - 1 = first + i := by omega
    rw [place,List.getD_eq_getElem _ _ bound]

/-- A loop that only reads an array runs through the elements. -/
theorem forLoop_subscript (array : List α) (first high : Nat)
    (within : high ≤ array.length) (state : σ) (body : σ → α → Option σ) :
    forLoop (first + 1) high state (fun state place => body state (subscript array place)) =
      ((array.take high).drop first).foldlM body state := by
  rw [← map_subscript array first high within,List.foldlM_map,forLoop,Nat.add_sub_add_right]

theorem map_subscript_all (array : List α) :
    (List.range' 1 array.length).map (subscript array) = array := by
  have all := map_subscript array 0 array.length (Nat.le_refl _)
  rwa [List.take_length,List.drop_zero] at all

/-- A loop that assigns every element. -/
theorem forLoop_assign (f : Nat → α) (size : Nat) :
    forLoop 1 size (List.replicate size 0)
      (fun array place => some (assign array place (f place))) =
      some ((List.range' 1 size).map f) := by
  have partly :
    ∀ count ≤ size, (List.range' 1 count).foldlM
      (fun array place => some (assign array place (f place))) (List.replicate size 0) =
      some ((List.range' 1 count).map f ++ List.replicate (size - count) 0) := by
    intro count bound
    induction count with
    | zero => simp
    | succ count ih =>
      obtain ⟨left,rest⟩ : ∃ left, size - count = left + 1 := ⟨size - count - 1,by omega⟩
      have rest' : size - (count + 1) = left := by omega
      rw [List.range'_1_concat,List.foldlM_append,ih (by omega),rest,rest',List.map_append]
      simp [assign,List.replicate_succ]
  have all := partly size (Nat.le_refl _)
  rwa [Nat.sub_self,List.replicate_zero,List.append_nil] at all

end Loops

end ExploratoryOptimizer.Library.OneBased
