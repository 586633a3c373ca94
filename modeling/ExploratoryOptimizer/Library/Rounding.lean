import Mathlib.Algebra.Order.BigOperators.Group.List
import Mathlib.Algebra.Order.Field.Basic
import Mathlib.Tactic.Linarith
import Mathlib.Tactic.Ring

/-! Arithmetic with rounded results. Every operation gives the exact result up to a relative error;
the errors of a computation are counted in powers of one growth factor. -/
namespace ExploratoryOptimizer.Library

/-- Rounding to the numbers of a format. -/
structure Rounding (K : Type) [Field K] [LinearOrder K] where
  round : K → K
  unit : K
  unit_nonneg : 0 ≤ unit
  unit_lt_one : unit < 1
  near : ∀ x, |round x - x| ≤ unit * |x|
  mono : ∀ x y, x ≤ y → round x ≤ round y
  idem : ∀ x, round (round x) = round x

namespace Rounding

section Operations

variable {K : Type} [Field K] [LinearOrder K] (r : Rounding K)

def add (x y : K) : K := r.round (x + y)

def sub (x y : K) : K := r.round (x - y)

def mul (x y : K) : K := r.round (x * y)

def div (x y : K) : K := r.round (x / y)

/-- A sum from left to right. -/
def sum (items : List K) : K := items.foldl r.add 0

/-- A number of the format. -/
def Representable (x : K) : Prop := r.round x = x

theorem representable_round (x : K) : r.Representable (r.round x) := r.idem x

/-- A number of the format bounds what is rounded below it. -/
theorem round_le (x y : K) (below : x ≤ y) (known : r.Representable y) : r.round x ≤ y := by
  have order := r.mono x y below
  rwa [known] at order

theorem le_round (x y : K) (below : x ≤ y) (known : r.Representable x) : x ≤ r.round y := by
  have order := r.mono x y below
  rwa [known] at order

end Operations

section Laws

variable {K : Type} [Field K] [LinearOrder K] [IsStrictOrderedRing K] (r : Rounding K)

def exact : Rounding K where
  round := id
  unit := 0
  unit_nonneg := le_rfl
  unit_lt_one := zero_lt_one
  near := fun x => by simp
  mono := fun _ _ below => below
  idem := fun _ => rfl

theorem representable_zero : r.Representable 0 := by
  have near := r.near 0
  rw [abs_zero,mul_zero,sub_zero] at near
  exact abs_nonpos_iff.mp near

theorem round_nonneg (x : K) (nonneg : 0 ≤ x) : 0 ≤ r.round x := by
  have order := r.mono 0 x nonneg
  rwa [r.representable_zero] at order

theorem round_nonpos (x : K) (nonpos : x ≤ 0) : r.round x ≤ 0 := by
  have order := r.mono x 0 nonpos
  rwa [r.representable_zero] at order

theorem round_upper (x : K) (nonneg : 0 ≤ x) : r.round x ≤ (1 + r.unit) * x := by
  have near := (abs_le.mp (r.near x)).2
  rw [abs_of_nonneg nonneg] at near
  linarith

theorem round_lower (x : K) (nonneg : 0 ≤ x) : (1 - r.unit) * x ≤ r.round x := by
  have near := (abs_le.mp (r.near x)).1
  rw [abs_of_nonneg nonneg] at near
  linarith

theorem sub_unit_pos : 0 < 1 - r.unit := sub_pos.mpr r.unit_lt_one

theorem round_pos (x : K) (positive : 0 < x) : 0 < r.round x :=
  (mul_pos r.sub_unit_pos positive).trans_le (r.round_lower x positive.le)

/-- What one rounding may gain or lose, as a factor. -/
def growth : K := 1 / (1 - r.unit)

theorem growth_pos : 0 < r.growth := one_div_pos.mpr r.sub_unit_pos

theorem one_le_growth : 1 ≤ r.growth := by
  have unit := r.unit_nonneg
  rw [growth,le_div_iff₀ r.sub_unit_pos]
  linarith

theorem one_add_unit_le : 1 + r.unit ≤ r.growth := by
  have square := mul_self_nonneg r.unit
  rw [growth,le_div_iff₀ r.sub_unit_pos]
  linarith

theorem one_le_growth_pow (n : Nat) : 1 ≤ r.growth ^ n := one_le_pow₀ r.one_le_growth

/-- Relative error of `n` roundings. -/
def error (n : Nat) : K := r.growth ^ n - 1

theorem error_nonneg (n : Nat) : 0 ≤ r.error n := sub_nonneg.mpr (r.one_le_growth_pow n)

theorem error_mono (m n : Nat) (fewer : m ≤ n) : r.error m ≤ r.error n :=
  sub_le_sub_right (pow_le_pow_right₀ r.one_le_growth fewer) 1

/-- A value that is lowered by adding the rounded difference misses its aim by a share of the old
value. -/
theorem lowered_near (old new : K) (nonneg : 0 ≤ new) (below : new ≤ old) :
    |r.add old (r.sub new old) - new| ≤ r.error 1 * old := by
  have unit := r.unit_nonneg
  have difference : |r.sub new old - (new - old)| ≤ r.unit * (old - new) := by
    have near := r.near (new - old)
    rwa [abs_of_nonpos (sub_nonpos.mpr below),neg_sub] at near
  have size : |old + r.sub new old| ≤ new + r.unit * (old - new) := by
    calc |old + r.sub new old| = |new + (r.sub new old - (new - old))| := by
          congr 1
          ring
      _ ≤ |new| + |r.sub new old - (new - old)| := abs_add_le _ _
      _ ≤ new + r.unit * (old - new) := add_le_add (abs_of_nonneg nonneg).le difference
  have total : r.unit * (new + r.unit * (old - new)) + r.unit * (old - new) ≤
      (r.unit + r.unit * r.unit) * old := by
    have square := mul_nonneg (mul_nonneg unit unit) nonneg
    linarith
  have factor : r.unit + r.unit * r.unit ≤ r.error 1 := by
    have cube := mul_nonneg (mul_nonneg unit unit) unit
    have bound : 1 + (r.unit + r.unit * r.unit) ≤ r.growth := by
      rw [growth,le_div_iff₀ r.sub_unit_pos]
      linarith
    rw [error,pow_one]
    linarith
  calc |r.add old (r.sub new old) - new| =
        |(r.add old (r.sub new old) - (old + r.sub new old)) +
          (r.sub new old - (new - old))| := by
        congr 1
        ring
    _ ≤ |r.add old (r.sub new old) - (old + r.sub new old)| +
        |r.sub new old - (new - old)| := abs_add_le _ _
    _ ≤ r.unit * (new + r.unit * (old - new)) + r.unit * (old - new) :=
      add_le_add ((r.near _).trans (mul_le_mul_of_nonneg_left size unit)) difference
    _ ≤ (r.unit + r.unit * r.unit) * old := total
    _ ≤ r.error 1 * old := mul_le_mul_of_nonneg_right factor (nonneg.trans below)

/-- It is not raised. -/
theorem lowered_le (old new : K) (below : new ≤ old) (known : r.Representable old) :
    r.add old (r.sub new old) ≤ old := by
  refine r.round_le _ _ ?_ known
  have difference := r.round_nonpos _ (sub_nonpos.mpr below)
  exact add_le_of_nonpos_right difference

/-! Positive quantities, known up to a factor in both directions. -/

def Close (n : Nat) (x y : K) : Prop := x ≤ r.growth ^ n * y ∧ y ≤ r.growth ^ n * x

omit [IsStrictOrderedRing K] in
theorem close_refl (x : K) : r.Close 0 x x := by
  rw [Close,pow_zero,one_mul]
  exact ⟨le_rfl,le_rfl⟩

variable {r}

theorem Close.mono {m n : Nat} {x y : K} (close : r.Close m x y) (fewer : m ≤ n)
    (left : 0 ≤ x) (right : 0 ≤ y) : r.Close n x y := by
  have power : r.growth ^ m ≤ r.growth ^ n := pow_le_pow_right₀ r.one_le_growth fewer
  exact ⟨close.1.trans (mul_le_mul_of_nonneg_right power right),
    close.2.trans (mul_le_mul_of_nonneg_right power left)⟩

theorem Close.trans {m n : Nat} {x y z : K} (first : r.Close m x y) (second : r.Close n y z) :
    r.Close (m + n) x z := by
  have positive (k : Nat) : 0 ≤ r.growth ^ k := pow_nonneg r.growth_pos.le k
  constructor
  · calc x ≤ r.growth ^ m * y := first.1
      _ ≤ r.growth ^ m * (r.growth ^ n * z) := mul_le_mul_of_nonneg_left second.1 (positive m)
      _ = r.growth ^ (m + n) * z := by rw [pow_add,mul_assoc]
  · calc z ≤ r.growth ^ n * y := second.2
      _ ≤ r.growth ^ n * (r.growth ^ m * x) := mul_le_mul_of_nonneg_left first.2 (positive n)
      _ = r.growth ^ (m + n) * x := by rw [pow_add,mul_left_comm,mul_assoc]

theorem Close.pos {n : Nat} {x y : K} (close : r.Close n x y) (positive : 0 < y) : 0 < x :=
  pos_of_mul_pos_right (positive.trans_le close.2) (pow_pos r.growth_pos n).le

theorem Close.round {n : Nat} {x y : K} (close : r.Close n x y) (nonneg : 0 ≤ x) :
    r.Close (n + 1) (r.round x) y := by
  have once : r.Close 1 (r.round x) x := by
    rw [Close,pow_one]
    refine ⟨(r.round_upper x nonneg).trans (mul_le_mul_of_nonneg_right r.one_add_unit_le nonneg),?_⟩
    rw [growth,one_div,inv_mul_eq_div,le_div_iff₀ r.sub_unit_pos,mul_comm]
    exact r.round_lower x nonneg
  rw [Nat.add_comm]
  exact once.trans close

theorem Close.add {n : Nat} {x y x' y' : K} (close : r.Close n x y) (close' : r.Close n x' y') :
    r.Close n (x + x') (y + y') := by
  rw [Close,mul_add,mul_add]
  exact ⟨add_le_add close.1 close'.1,add_le_add close.2 close'.2⟩

theorem Close.one_div {n : Nat} {x y : K} (close : r.Close n x y) (left : 0 < x) (right : 0 < y) :
    r.Close n (1 / x) (1 / y) := by
  constructor
  · rw [mul_one_div,div_le_div_iff₀ left right,one_mul]
    exact close.2
  · rw [mul_one_div,div_le_div_iff₀ right left,one_mul]
    exact close.1

/-- Signed quantities, known up to a share of a magnitude that bounds them. -/
structure Off (r : Rounding K) (n : Nat) (x y magnitude : K) : Prop where
  bound : |y| ≤ magnitude
  error : |x - y| ≤ r.error n * magnitude

theorem Off.magnitude_nonneg {n : Nat} {x y magnitude : K} (off : Off r n x y magnitude) :
    0 ≤ magnitude := (abs_nonneg y).trans off.bound

theorem off_refl (x : K) : Off r 0 x x |x| := by
  refine ⟨le_rfl,?_⟩
  rw [sub_self,abs_zero]
  exact mul_nonneg (r.error_nonneg 0) (abs_nonneg x)

theorem Off.mono {m n : Nat} {x y magnitude : K} (off : Off r m x y magnitude) (fewer : m ≤ n) :
    Off r n x y magnitude :=
  ⟨off.bound,off.error.trans
    (mul_le_mul_of_nonneg_right (r.error_mono m n fewer) off.magnitude_nonneg)⟩

theorem Close.off {n : Nat} {x y : K} (close : r.Close n x y) (nonneg : 0 ≤ y) : Off r n x y y := by
  refine ⟨(abs_of_nonneg nonneg).le,abs_le.mpr ⟨?_,?_⟩⟩
  · -- losing a factor loses no more than gaining it gains
    have one := r.one_le_growth_pow n
    have scaled : r.growth ^ n * (y - x) ≤ r.growth ^ n * (r.error n * y) := by
      calc r.growth ^ n * (y - x) = r.growth ^ n * y - r.growth ^ n * x := mul_sub ..
        _ ≤ r.growth ^ n * y - y := sub_le_sub_left close.2 _
        _ = r.error n * y := by rw [Rounding.error,sub_mul,one_mul]
        _ ≤ r.growth ^ n * (r.error n * y) :=
          le_mul_of_one_le_left (mul_nonneg (r.error_nonneg n) nonneg) one
    have shrunk := le_of_mul_le_mul_left scaled (lt_of_lt_of_le zero_lt_one one)
    linarith
  · have above := close.1
    unfold Rounding.error
    linarith

theorem Off.size {n : Nat} {x y magnitude : K} (off : Off r n x y magnitude) :
    |x| ≤ r.growth ^ n * magnitude := by
  calc |x| = |x - y + y| := by rw [sub_add_cancel]
    _ ≤ |x - y| + |y| := abs_add_le _ _
    _ ≤ r.error n * magnitude + magnitude := add_le_add off.error off.bound
    _ = r.growth ^ n * magnitude := by
      unfold Rounding.error
      ring

theorem Off.round {n : Nat} {x y magnitude : K} (off : Off r n x y magnitude) :
    Off r (n + 1) (r.round x) y magnitude := by
  refine ⟨off.bound,?_⟩
  have grown : (1 + r.unit) * (r.growth ^ n * magnitude) ≤ r.growth ^ (n + 1) * magnitude := by
    rw [pow_succ',mul_assoc]
    exact mul_le_mul_of_nonneg_right r.one_add_unit_le
      (mul_nonneg (pow_nonneg r.growth_pos.le n) off.magnitude_nonneg)
  calc |r.round x - y| = |r.round x - x + (x - y)| := by rw [sub_add_sub_cancel]
    _ ≤ |r.round x - x| + |x - y| := abs_add_le _ _
    _ ≤ r.unit * (r.growth ^ n * magnitude) + r.error n * magnitude :=
      add_le_add ((r.near x).trans (mul_le_mul_of_nonneg_left off.size r.unit_nonneg)) off.error
    _ ≤ r.error (n + 1) * magnitude := by
      unfold Rounding.error
      linarith

theorem Off.add {n : Nat} {x y magnitude x' y' magnitude' : K} (off : Off r n x y magnitude)
    (off' : Off r n x' y' magnitude') : Off r n (x + x') (y + y') (magnitude + magnitude') := by
  refine ⟨(abs_add_le y y').trans (add_le_add off.bound off'.bound),?_⟩
  rw [add_sub_add_comm,mul_add]
  exact (abs_add_le _ _).trans (add_le_add off.error off'.error)

theorem Off.mul {m n : Nat} {x y magnitude x' y' magnitude' : K} (off : Off r m x y magnitude)
    (off' : Off r n x' y' magnitude') :
    Off r (m + n) (x * x') (y * y') (magnitude * magnitude') := by
  have nonneg := off.magnitude_nonneg
  have nonneg' := off'.magnitude_nonneg
  refine ⟨(abs_mul y y').trans_le (mul_le_mul off.bound off'.bound (abs_nonneg y') nonneg),?_⟩
  have first : |x - y| * |x'| ≤ r.error m * magnitude * (r.growth ^ n * magnitude') :=
    mul_le_mul off.error off'.size (abs_nonneg x') (mul_nonneg (r.error_nonneg m) nonneg)
  have second : |y| * |x' - y'| ≤ magnitude * (r.error n * magnitude') :=
    mul_le_mul off.bound off'.error (abs_nonneg _) nonneg
  calc |x * x' - y * y'| = |(x - y) * x' + y * (x' - y')| := by
        congr 1
        ring
    _ ≤ |x - y| * |x'| + |y| * |x' - y'| := by
      rw [← abs_mul,← abs_mul]
      exact abs_add_le _ _
    _ ≤ r.error m * magnitude * (r.growth ^ n * magnitude') +
        magnitude * (r.error n * magnitude') := add_le_add first second
    _ = r.error (m + n) * (magnitude * magnitude') := by
      unfold Rounding.error
      rw [pow_add]
      ring

/-! Sums that a loop accumulates: one rounding for each item. -/

theorem Close.sum {ι : Type} {n : Nat} (items : List ι) (computed true' : ι → K)
    (each : ∀ item ∈ items, 0 ≤ computed item ∧ r.Close n (computed item) (true' item)) :
    0 ≤ r.sum (items.map computed) ∧
      r.Close (n + items.length) (r.sum (items.map computed)) (items.map true').sum := by
  have loop : ∀ rest : List ι, (∀ item ∈ rest,
      0 ≤ computed item ∧ 0 ≤ true' item ∧ r.Close n (computed item) (true' item)) →
      ∀ (done : Nat) (start exact : K), 0 ≤ start → 0 ≤ exact → r.Close (n + done) start exact →
        0 ≤ (rest.map computed).foldl r.add start ∧
          r.Close (n + done + rest.length) ((rest.map computed).foldl r.add start)
            (exact + (rest.map true').sum) := by
    intro rest
    induction rest with
    | nil =>
      intro _ done start exact left _ close
      simpa using ⟨left,close⟩
    | cons item rest ih =>
      intro valid done start exact left right close
      obtain ⟨⟨nonneg,exactly,accurate⟩,others⟩ := List.forall_mem_cons.mp valid
      have added := (close.add (accurate.mono (Nat.le_add_right n done) nonneg exactly)).round
        (add_nonneg left nonneg)
      have next := ih others (done + 1) (r.add start (computed item)) (exact + true' item)
        (r.round_nonneg _ (add_nonneg left nonneg)) (add_nonneg right exactly) added
      rw [add_assoc exact] at next
      simpa [Nat.add_assoc,Nat.add_comm 1] using next
  have positive : ∀ item ∈ items,
      0 ≤ computed item ∧ 0 ≤ true' item ∧ r.Close n (computed item) (true' item) := by
    intro item member
    obtain ⟨nonneg,close⟩ := each item member
    refine ⟨nonneg,?_,close⟩
    by_contra negative
    have below : r.growth ^ n * true' item < 0 :=
      mul_neg_of_pos_of_neg (pow_pos r.growth_pos n) (not_le.mp negative)
    linarith [close.1]
  have start : r.Close (n + 0) 0 (0 : K) := by
    rw [Close,mul_zero]
    exact ⟨le_rfl,le_rfl⟩
  have ended := loop items positive 0 0 0 le_rfl le_rfl start
  rwa [zero_add] at ended

variable (r) in
theorem sum_nonneg (items : List K) (nonneg : ∀ item ∈ items, 0 ≤ item) : 0 ≤ r.sum items := by
  have added := (Close.sum items id id fun item member => ⟨nonneg item member,r.close_refl item⟩).1
  rwa [List.map_id] at added

theorem Off.sum {ι : Type} {n : Nat} (items : List ι) (computed true' magnitude : ι → K)
    (each : ∀ item ∈ items, Off r n (computed item) (true' item) (magnitude item)) :
    Off r (n + items.length) (r.sum (items.map computed)) (items.map true').sum
      (items.map magnitude).sum := by
  have loop : ∀ rest : List ι,
      (∀ item ∈ rest, Off r n (computed item) (true' item) (magnitude item)) →
      ∀ (done : Nat) (start exact size : K), Off r (n + done) start exact size →
        Off r (n + done + rest.length) ((rest.map computed).foldl r.add start)
          (exact + (rest.map true').sum) (size + (rest.map magnitude).sum) := by
    intro rest
    induction rest with
    | nil =>
      intro _ done start exact size off
      simpa using off
    | cons item rest ih =>
      intro valid done start exact size off
      obtain ⟨accurate,others⟩ := List.forall_mem_cons.mp valid
      have added := (off.add (accurate.mono (Nat.le_add_right n done))).round
      have next := ih others (done + 1) (r.add start (computed item)) _ _ added
      rw [add_assoc exact,add_assoc size] at next
      simpa [Nat.add_assoc,Nat.add_comm 1] using next
  have start : Off r (n + 0) 0 (0 : K) 0 := by
    refine ⟨abs_zero.le,?_⟩
    rw [sub_zero,abs_zero,mul_zero]
  have ended := loop items each 0 0 0 0 start
  rwa [zero_add,zero_add] at ended

end Laws

end Rounding

end ExploratoryOptimizer.Library
