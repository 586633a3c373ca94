import ExploratoryOptimizer.Library.Rounding
import Mathlib.Algebra.Order.Field.Power
import Mathlib.Data.Rat.Floor
import Mathlib.Tactic.NormNum

/-! Binary floating point with a given precision and exponents of any size: rounding to the nearest
number, ties to the one with an even last digit. -/
namespace ExploratoryOptimizer.Library.Binary

/-! The nearest integer. -/

def nearestEven (x : ℚ) : ℤ :=
  if x - ⌊x⌋ < 1/2 then ⌊x⌋
  else if 1/2 < x - ⌊x⌋ then ⌊x⌋ + 1
  else if ⌊x⌋ % 2 = 0 then ⌊x⌋ else ⌊x⌋ + 1

theorem nearestEven_intCast (n : ℤ) : nearestEven n = n := by
  rw [nearestEven,Int.floor_intCast,sub_self,if_pos (by norm_num)]

theorem floor_le_nearestEven (x : ℚ) : ⌊x⌋ ≤ nearestEven x := by
  unfold nearestEven
  split_ifs
  all_goals omega

theorem nearestEven_le (x : ℚ) : nearestEven x ≤ ⌊x⌋ + 1 := by
  unfold nearestEven
  split_ifs
  all_goals omega

theorem nearestEven_mono (x y : ℚ) (below : x ≤ y) : nearestEven x ≤ nearestEven y := by
  rcases (Int.floor_mono below).lt_or_eq with less | same
  · exact (nearestEven_le x).trans (less.trans_le (floor_le_nearestEven y))
  · -- in the same unit interval the fractions decide
    unfold nearestEven
    rw [same]
    split_ifs
    all_goals first | omega | linarith

theorem nearestEven_near (x : ℚ) : |(nearestEven x : ℚ) - x| ≤ 1/2 := by
  have low := Int.floor_le x
  have high := Int.lt_floor_add_one x
  rw [abs_le]
  unfold nearestEven
  split_ifs
  all_goals
    push_cast
    constructor
    all_goals linarith

/-! The power of two below a number. -/

def exponent (x : ℚ) : ℤ :=
  let bits : ℤ := x.num.natAbs.log2 - x.den.log2
  if |x| < 2 ^ bits then bits - 1 else bits

theorem two_zpow_pos (e : ℤ) : (0 : ℚ) < 2 ^ e := zpow_pos two_pos e

theorem log2_bounds (n : Nat) (nonzero : n ≠ 0) :
    (2 : ℚ) ^ (n.log2 : ℤ) ≤ n ∧ (n : ℚ) < 2 ^ ((n.log2 : ℤ) + 1) := by
  have low := Nat.log2_self_le nonzero
  have high := Nat.lt_log2_self (n := n)
  constructor
  · exact_mod_cast low
  · exact_mod_cast high

theorem exponent_spec (x : ℚ) (nonzero : x ≠ 0) :
    (2 : ℚ) ^ exponent x ≤ |x| ∧ |x| < 2 ^ (exponent x + 1) := by
  have den : (0 : ℚ) < x.den := by exact_mod_cast x.den_pos
  have size : |x| * x.den = x.num.natAbs := by
    have fraction : |x| = |(x.num : ℚ)| / x.den := by
      rw [← abs_of_pos den,← abs_div,Rat.num_div_den]
    rw [fraction,div_mul_cancel₀ _ den.ne',Nat.cast_natAbs,Int.cast_abs]
  obtain ⟨numLow,numHigh⟩ := log2_bounds x.num.natAbs
    (Int.natAbs_ne_zero.mpr (Rat.num_ne_zero.mpr nonzero))
  obtain ⟨denLow,denHigh⟩ := log2_bounds x.den x.den_nz
  rw [← size] at numLow numHigh
  unfold exponent
  generalize (x.num.natAbs.log2 : ℤ) = a at *
  generalize (x.den.log2 : ℤ) = b at *
  have below : (2 : ℚ) ^ (a - b - 1) < |x| := by
    have split : (2 : ℚ) ^ (a - b - 1) * 2 ^ (b + 1) = 2 ^ a := by
      rw [← zpow_add₀ two_ne_zero]
      congr 1
      omega
    have scaled : (2 : ℚ) ^ (a - b - 1) * x.den < |x| * x.den :=
      (mul_lt_mul_of_pos_left denHigh (two_zpow_pos _)).trans_le (split.le.trans numLow)
    exact lt_of_mul_lt_mul_right scaled den.le
  have above : |x| < (2 : ℚ) ^ (a - b + 1) := by
    have split : (2 : ℚ) ^ (a - b + 1) * 2 ^ b = 2 ^ (a + 1) := by
      rw [← zpow_add₀ two_ne_zero]
      congr 1
      omega
    have scaled : |x| * x.den < (2 : ℚ) ^ (a - b + 1) * x.den :=
      numHigh.trans_le (split.ge.trans (mul_le_mul_of_nonneg_left denLow (two_zpow_pos _).le))
    exact lt_of_mul_lt_mul_right scaled den.le
  dsimp only
  split_ifs with small
  · rw [sub_add_cancel]
    exact ⟨below.le,small⟩
  · exact ⟨not_lt.mp small,above⟩

theorem exponent_unique (x : ℚ) (e : ℤ) (low : (2 : ℚ) ^ e ≤ |x|) (high : |x| < 2 ^ (e + 1)) :
    exponent x = e := by
  have nonzero : x ≠ 0 := abs_pos.mp ((two_zpow_pos e).trans_le low)
  obtain ⟨low',high'⟩ := exponent_spec x nonzero
  have first : e < exponent x + 1 := (zpow_lt_zpow_iff_right₀ one_lt_two).mp (low.trans_lt high')
  have second : exponent x < e + 1 := (zpow_lt_zpow_iff_right₀ one_lt_two).mp (low'.trans_lt high)
  omega

/-! Rounding to `precision` binary digits. -/

section Significand

variable (precision : Nat)

/-- The value of the last digit. -/
def spacing (x : ℚ) : ℚ := 2 ^ (exponent x + 1 - precision)

def magnitude (x : ℚ) : ℚ := nearestEven (|x| / spacing precision x) * spacing precision x

def significand (x : ℚ) : ℚ := if 0 ≤ x then magnitude precision x else -magnitude precision x

theorem spacing_pos (x : ℚ) : 0 < spacing precision x := two_zpow_pos _

theorem spacing_mul_pow (x : ℚ) : 2 ^ precision * spacing precision x = 2 ^ (exponent x + 1) := by
  rw [spacing,← zpow_natCast,← zpow_add₀ two_ne_zero]
  congr 1
  omega

theorem magnitude_nonneg (x : ℚ) : 0 ≤ magnitude precision x := by
  have quotient : 0 ≤ |x| / spacing precision x :=
    div_nonneg (abs_nonneg x) (spacing_pos precision x).le
  have rounded := nearestEven_mono _ _ quotient
  have zero : nearestEven 0 = 0 := by exact_mod_cast nearestEven_intCast 0
  rw [zero] at rounded
  exact mul_nonneg (by exact_mod_cast rounded) (spacing_pos precision x).le

theorem magnitude_near (x : ℚ) : abs (magnitude precision x - |x|) ≤ spacing precision x / 2 := by
  have positive := spacing_pos precision x
  have near := nearestEven_near (|x| / spacing precision x)
  have scaled : magnitude precision x - |x| =
      (nearestEven (|x| / spacing precision x) - |x| / spacing precision x) *
        spacing precision x := by
    rw [magnitude,sub_mul,div_mul_cancel₀ _ positive.ne']
  rw [scaled,abs_mul,abs_of_pos positive]
  have bound := mul_le_mul_of_nonneg_right near positive.le
  linarith

theorem spacing_le (x : ℚ) (nonzero : x ≠ 0) :
    spacing precision x / 2 ≤ 2 ^ (-(precision : ℤ)) * |x| := by
  have half : spacing precision x / 2 = 2 ^ (-(precision : ℤ)) * 2 ^ exponent x := by
    have split : exponent x + 1 - precision = -(precision : ℤ) + exponent x + 1 := by omega
    rw [spacing,split,zpow_add_one₀ two_ne_zero,zpow_add₀ two_ne_zero]
    exact mul_div_cancel_right₀ _ two_ne_zero
  rw [half]
  exact mul_le_mul_of_nonneg_left (exponent_spec x nonzero).1 (two_zpow_pos _).le

theorem significand_zero : significand precision 0 = 0 := by
  have zero : nearestEven 0 = 0 := by exact_mod_cast nearestEven_intCast 0
  rw [significand,if_pos le_rfl,magnitude,abs_zero,zero_div,zero,Int.cast_zero,zero_mul]

theorem significand_near (x : ℚ) :
    |significand precision x - x| ≤ 2 ^ (-(precision : ℤ)) * |x| := by
  rcases eq_or_ne x 0 with rfl | nonzero
  · rw [significand_zero,sub_zero,abs_zero,mul_zero]
  have near := (magnitude_near precision x).trans (spacing_le precision x nonzero)
  unfold significand
  split_ifs with nonneg
  · rwa [abs_of_nonneg nonneg] at near ⊢
  · rw [abs_of_neg (not_le.mp nonneg)] at near ⊢
    rwa [← abs_neg,neg_sub,sub_neg_eq_add,add_comm,← sub_neg_eq_add]

/-- A multiple of its own last digit is not rounded. -/
theorem magnitude_of_multiple (x : ℚ) (n : ℤ) (multiple : |x| = n * spacing precision x) :
    magnitude precision x = |x| := by
  have quotient : |x| / spacing precision x = n := by
    rw [multiple,mul_div_cancel_right₀ _ (spacing_pos precision x).ne']
  rw [magnitude,quotient,nearestEven_intCast,← multiple]

variable {precision} (enough : 0 < precision)
include enough

/-- A number stays between the powers of two around it. -/
theorem magnitude_bounds (x : ℚ) (nonzero : x ≠ 0) :
    (2 : ℚ) ^ exponent x ≤ magnitude precision x ∧ magnitude precision x ≤
    2 ^ (exponent x + 1) := by
  have positive := spacing_pos precision x
  obtain ⟨low,high⟩ := exponent_spec x nonzero
  have whole := spacing_mul_pow precision x
  obtain ⟨digits,rfl⟩ := Nat.exists_eq_succ_of_ne_zero enough.ne'
  have half : (2 : ℚ) ^ digits * spacing (digits + 1) x = 2 ^ exponent x := by
    rw [Nat.succ_eq_add_one,pow_succ,mul_right_comm,zpow_add_one₀ two_ne_zero] at whole
    exact mul_right_cancel₀ two_ne_zero whole
  have first : ((2 ^ digits : ℤ) : ℚ) ≤ |x| / spacing (digits + 1) x := by
    rw [le_div_iff₀ positive]
    push_cast
    exact half.le.trans low
  have second : |x| / spacing (digits + 1) x ≤ ((2 ^ (digits + 1) : ℤ) : ℚ) := by
    rw [div_le_iff₀ positive]
    push_cast
    exact high.le.trans whole.ge
  have lower := nearestEven_mono _ _ first
  have upper := nearestEven_mono _ _ second
  rw [nearestEven_intCast] at lower upper
  constructor
  · rw [← half]
    exact mul_le_mul_of_nonneg_right (by exact_mod_cast lower) positive.le
  · rw [← whole]
    exact mul_le_mul_of_nonneg_right (by exact_mod_cast upper) positive.le

theorem magnitude_mono (x y : ℚ) (below : |x| ≤ |y|) :
    magnitude precision x ≤ magnitude precision y := by
  rcases eq_or_ne x 0 with rfl | nonzero
  · have zero : magnitude precision 0 = 0 := by
      have known := significand_zero precision
      rwa [significand,if_pos le_rfl] at known
    rw [zero]
    exact magnitude_nonneg precision y
  have other : y ≠ 0 := abs_pos.mp ((abs_pos.mpr nonzero).trans_le below)
  have order : exponent x ≤ exponent y := by
    have between := ((exponent_spec x nonzero).1.trans below).trans_lt (exponent_spec y other).2
    have less := (zpow_lt_zpow_iff_right₀ (one_lt_two (α := ℚ))).mp between
    omega
  rcases order.lt_or_eq with less | same
  · calc magnitude precision x ≤ 2 ^ (exponent x + 1) := (magnitude_bounds enough x nonzero).2
      _ ≤ 2 ^ exponent y := zpow_le_zpow_right₀ one_le_two (by omega)
      _ ≤ magnitude precision y := (magnitude_bounds enough y other).1
  · have digit : spacing precision x = spacing precision y := by rw [spacing,same,spacing]
    rw [magnitude,magnitude,digit]
    refine mul_le_mul_of_nonneg_right ?_ (spacing_pos precision y).le
    exact_mod_cast nearestEven_mono _ _
      (div_le_div_of_nonneg_right below (spacing_pos precision y).le)

theorem significand_mono (x y : ℚ) (below : x ≤ y) :
    significand precision x ≤ significand precision y := by
  unfold significand
  split_ifs with left right right
  · exact magnitude_mono enough x y (by rwa [abs_of_nonneg left,abs_of_nonneg right])
  · exact absurd (left.trans below) right
  · exact (neg_nonpos.mpr (magnitude_nonneg precision x)).trans (magnitude_nonneg precision y)
  · refine neg_le_neg (magnitude_mono enough y x ?_)
    rw [abs_of_neg (not_le.mp left),abs_of_neg (not_le.mp right)]
    exact neg_le_neg below

theorem magnitude_idem (x : ℚ) (nonzero : x ≠ 0) :
    magnitude precision (magnitude precision x) = magnitude precision x := by
  obtain ⟨low,high⟩ := magnitude_bounds enough x nonzero
  have size := abs_of_nonneg (magnitude_nonneg precision x)
  rcases high.lt_or_eq with less | power
  · have same : exponent (magnitude precision x) = exponent x :=
      exponent_unique _ _ (by rwa [size]) (by rwa [size])
    have digit : spacing precision (magnitude precision x) = spacing precision x := by
      rw [spacing,same,spacing]
    have multiple := magnitude_of_multiple precision (magnitude precision x)
      (nearestEven (|x| / spacing precision x)) (by rw [size,digit,magnitude])
    rwa [size] at multiple
  · -- rounded up to the next power of two
    have next : exponent (magnitude precision x) = exponent x + 1 := by
      refine exponent_unique _ _ (by rw [size,power]) ?_
      rw [size,power]
      exact zpow_lt_zpow_right₀ one_lt_two (by omega)
    obtain ⟨digits,rfl⟩ := Nat.exists_eq_succ_of_ne_zero enough.ne'
    have whole := spacing_mul_pow (digits + 1) (magnitude (digits + 1) x)
    rw [next,pow_succ,mul_right_comm,zpow_add_one₀ two_ne_zero] at whole
    have power' := power.trans (mul_right_cancel₀ two_ne_zero whole).symm
    have multiple := magnitude_of_multiple (digits + 1) (magnitude (digits + 1) x) (2 ^ digits) (by
      rw [size]
      push_cast
      exact power')
    rwa [size] at multiple

theorem significand_idem (x : ℚ) :
    significand precision (significand precision x) = significand precision x := by
  rcases eq_or_ne x 0 with rfl | nonzero
  · rw [significand_zero,significand_zero]
  have positive : 0 < magnitude precision x :=
    (two_zpow_pos _).trans_le (magnitude_bounds enough x nonzero).1
  have mirrored : magnitude precision (-magnitude precision x) = magnitude precision x := by
    have even : magnitude precision (-magnitude precision x) =
        magnitude precision (magnitude precision x) :=
      le_antisymm (magnitude_mono enough _ _ (abs_neg _).le)
        (magnitude_mono enough _ _ (abs_neg _).ge)
    rw [even,magnitude_idem enough x nonzero]
  unfold significand
  split_ifs with nonneg up down
  · exact magnitude_idem enough x nonzero
  · exact absurd positive.le up
  · exact absurd down (not_le.mpr (neg_lt_zero.mpr positive))
  · rw [mirrored]

end Significand

/-- Rounding to the nearest number with `digits + 1` binary digits. -/
def nearest (digits : Nat) : Rounding ℚ where
  round := significand (digits + 1)
  unit := 2 ^ (-((digits + 1 : Nat) : ℤ))
  unit_nonneg := (two_zpow_pos _).le
  unit_lt_one := by
    have power := zpow_lt_zpow_right₀ (one_lt_two (α := ℚ)) (neg_lt_zero.mpr (Int.natCast_pos.mpr
      (Nat.succ_pos digits)))
    rwa [zpow_zero] at power
  near := significand_near (digits + 1)
  mono := significand_mono (Nat.succ_pos digits)
  idem := significand_idem (Nat.succ_pos digits)

theorem representable_natCast (digits n : Nat) (small : n < 2 ^ (digits + 1)) :
    (nearest digits).Representable n := by
  rcases Nat.eq_zero_or_pos n with rfl | positive
  · exact_mod_cast (nearest digits).representable_zero
  have size : |(n : ℚ)| = n := abs_of_nonneg (Nat.cast_nonneg n)
  obtain ⟨low,high⟩ := log2_bounds n positive.ne'
  have power : exponent (n : ℚ) = n.log2 := exponent_unique _ _ (by rwa [size]) (by rwa [size])
  have bits : n.log2 < digits + 1 := (Nat.log2_lt positive.ne').mpr small
  have digit : spacing (digits + 1) n * 2 ^ (digits - n.log2) = 1 := by
    rw [spacing,power,← zpow_natCast,← zpow_add₀ two_ne_zero]
    have zero : (n.log2 : ℤ) + 1 - (digits + 1 : Nat) + (digits - n.log2 : Nat) = 0 := by omega
    rw [zero,zpow_zero]
  have multiple := magnitude_of_multiple (digits + 1) (n : ℚ) (n * 2 ^ (digits - n.log2)) (by
    push_cast
    rw [size,mul_assoc,mul_comm (2 ^ _),digit,mul_one])
  exact (if_pos (Nat.cast_nonneg n)).trans (multiple.trans size)

/-- The significands of IEEE doubles. -/
def double : Rounding ℚ := nearest 52

/-- `0.1` is not a double, and neither are sums of doubles. -/
example : double.add (double.round (1/10)) (double.round (2/10)) = 1351079888211149 / 2 ^ 52 := by
  decide +kernel

end ExploratoryOptimizer.Library.Binary
