import Mathlib.Data.Int.Log
import Mathlib.Algebra.Order.Round
import Mathlib.Data.Rat.Floor
import Mathlib.Tactic.Positivity
import Mathlib.Tactic.FieldSimp
import Mathlib.Tactic.Linarith

/-! Numbers printed with a fixed number of significant decimal digits. -/
namespace ExploratoryOptimizer.Library.Decimal

/-- The power of ten that moves the last significant digit of the number in front of the point. -/
def scale (digits : Nat) (q : ℚ) : ℚ := 10 ^ ((digits : Int) - 1 - Int.log 10 q)

def significant (digits : Nat) (q : ℚ) : ℚ := round (q * scale digits q) / scale digits q

theorem scale_pos (digits : Nat) (q : ℚ) : 0 < scale digits q := by
  unfold scale
  exact zpow_pos (by norm_num) _

theorem significant_whole (digits n : Nat) (small : n < 10 ^ digits) :
    significant digits (n : ℚ) = n := by
  have positive := scale_pos digits n
  rcases Nat.eq_zero_or_pos n with rfl | nonzero
  · simp [significant]
  · have log_lt : Nat.log 10 n < digits := Nat.log_lt_of_lt_pow nonzero.ne' small
    have power : scale digits n = ((10 ^ (digits - 1 - Nat.log 10 n) : Nat) : ℚ) := by
      rw [scale,Int.log_natCast,Nat.cast_pow,← zpow_natCast]
      congr 1
      omega
    have shifted :
      (n : ℚ) * scale digits n = ((n * 10 ^ (digits - 1 - Nat.log 10 n) : Nat) : ℚ) := by
      rw [power,← Nat.cast_mul]
    rw [significant,shifted,round_natCast,Int.cast_natCast,← shifted]
    exact mul_div_cancel_right₀ _ positive.ne'

theorem significant_nonneg (digits : Nat) (q : ℚ) (nonneg : 0 ≤ q) : 0 ≤ significant digits q := by
  have positive := scale_pos digits q
  have rounded : 0 ≤ round (q * scale digits q) := by
    rw [round_eq]
    exact Int.floor_nonneg.mpr (by positivity)
  exact div_nonneg (by exact_mod_cast rounded) positive.le

theorem scale_le (digits : Nat) (q : ℚ) (positive : 0 < q) (less : q < 1) :
    10 ^ (digits : Int) ≤ scale digits q := by
  have below : q < (10 : Nat) ^ (0 : Int) := by rwa [zpow_zero]
  have log_lt : Int.log 10 q < 0 := (Int.lt_zpow_iff_log_lt (by decide) positive).mp below
  unfold scale
  exact zpow_le_zpow_right₀ (by norm_num) (by omega)

theorem significant_near (digits : Nat) (q : ℚ) :
    |significant digits q - q| ≤ 1 / 2 / scale digits q := by
  have positive := scale_pos digits q
  have difference : significant digits q - q =
      -(q * scale digits q - round (q * scale digits q)) / scale digits q := by
    rw [significant]
    field_simp
    ring
  rw [difference,abs_div,abs_neg,abs_of_pos positive]
  exact div_le_div_of_nonneg_right (abs_sub_round _) positive.le

/-- Half a unit of the last digit. -/
theorem significant_close (digits : Nat) (some : 0 < digits) (q : ℚ) (nonneg : 0 ≤ q)
    (most : q ≤ 1) :
    |significant digits q - q| ≤ 1 / (2 * 10 ^ digits) := by
  have exact (n : Nat) (small : n < 10 ^ digits) :
      |significant digits (n : ℚ) - n| ≤ 1 / (2 * 10 ^ digits) := by
    rw [significant_whole digits n small,sub_self,abs_zero]
    positivity
  rcases nonneg.eq_or_lt with rfl | positive
  · exact_mod_cast exact 0 (by positivity)
  rcases most.eq_or_lt with rfl | less
  · exact_mod_cast exact 1 (Nat.one_lt_pow some.ne' (by decide))
  calc |significant digits q - q| ≤ 1 / 2 / scale digits q := significant_near digits q
    _ ≤ 1 / 2 / 10 ^ (digits : Int) :=
      div_le_div_of_nonneg_left (by norm_num) (zpow_pos (by norm_num) _)
        (scale_le digits q positive less)
    _ = 1 / (2 * 10 ^ digits) := by rw [div_div,zpow_natCast]

end ExploratoryOptimizer.Library.Decimal
