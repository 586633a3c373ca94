import Mathlib.Data.List.Basic
import Mathlib.Order.Lattice

/-! Left-to-right scans that carry the best candidate met so far.
A candidate replaces the current one exactly when the given test says so; the test
need not be an order, it only has to respect a key on the candidates it may take. -/
namespace ExploratoryOptimizer.Library.Scan

variable {α κ : Type*}

def pick (takes : α → α → Bool) (current candidate : α) : α :=
  if takes candidate current then candidate else current

def scan (takes : α → α → Bool) (start : α) (candidates : List α) : α :=
  candidates.foldl (pick takes) start

@[simp] theorem scan_nil (takes : α → α → Bool) (start : α) : scan takes start [] = start := rfl

@[simp] theorem scan_cons (takes : α → α → Bool) (start candidate : α) (rest : List α) :
    scan takes start (candidate :: rest) = scan takes (pick takes start candidate) rest := rfl

theorem scan_invariant (takes : α → α → Bool) (property : α → Prop) (start : α)
    (candidates : List α) (initial : property start)
    (taken : ∀ x ∈ candidates, ∀ current, property current → takes x current → property x) :
    property (scan takes start candidates) := by
  induction candidates generalizing start with
  | nil => exact initial
  | cons x xs ih =>
    rw [scan_cons]
    apply ih
    · unfold pick
      split
      next accepted => exact taken x (by simp) start initial accepted
      next => exact initial
    · exact fun y member => taken y (by simp [member])

theorem scan_mem (takes : α → α → Bool) (start : α) (candidates : List α) :
    scan takes start candidates ∈ start :: candidates := by
  apply scan_invariant takes (· ∈ start :: candidates)
  · simp
  · intro x member _ _ _
    simp [member]

theorem scan_mem_of_mem (takes : α → α → Bool) (start : α) (candidates : List α)
    (member : start ∈ candidates) : scan takes start candidates ∈ candidates := by
  rcases List.mem_cons.mp (scan_mem takes start candidates) with same | later
  · rw [same]
    exact member
  · exact later

section Key

variable [LinearOrder κ] {takes : α → α → Bool} (key : α → κ)

private theorem pick_key_le (sound : ∀ x current, takes x current → key x ≤ key current)
    (start x : α) : key (pick takes start x) ≤ key start := by
  unfold pick
  split
  next accepted => exact sound x start accepted
  next => exact le_rfl

theorem scan_key_le_start (sound : ∀ x current, takes x current → key x ≤ key current)
    (start : α) (candidates : List α) : key (scan takes start candidates) ≤ key start := by
  induction candidates generalizing start with
  | nil => exact le_rfl
  | cons x xs ih => exact (ih _).trans (pick_key_le key sound start x)

/-- If no taken candidate raises the key and every eligible candidate with a smaller key is
taken, the scan ends at a key no eligible candidate undercuts. -/
theorem scan_key_le (eligible : α → Prop)
    (sound : ∀ x current, takes x current → key x ≤ key current)
    (complete : ∀ x current, eligible x → key x < key current → takes x current)
    (start : α) (candidates : List α) :
    ∀ x ∈ candidates, eligible x → key (scan takes start candidates) ≤ key x := by
  induction candidates generalizing start with
  | nil => simp
  | cons y ys ih =>
    intro x member ok
    rw [scan_cons]
    rcases List.mem_cons.mp member with rfl | later
    · apply (scan_key_le_start key sound _ ys).trans
      unfold pick
      split
      next => exact le_rfl
      next refused => exact not_lt.mp fun smaller => refused (complete x start ok smaller)
    · exact ih _ x later ok

end Key

end ExploratoryOptimizer.Library.Scan
