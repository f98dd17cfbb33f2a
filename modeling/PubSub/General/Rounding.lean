import Mathlib.Algebra.Order.Floor.Ring
import Mathlib.Data.Int.Log
import Mathlib.Tactic.FieldSimp
import Mathlib.Tactic.Linarith
import Mathlib.Tactic.Positivity
import Mathlib.Tactic.Ring

/-!
# Correct rounding

An operation on binary floating point numbers returns the number that is nearest to the
exact result, of two the one whose last digit is even. The range has no upper end here.
-/
namespace PubSub.General

variable {K : Type} [Field K] [LinearOrder K] [IsStrictOrderedRing K]

/-! ## Relative errors -/

/-- One number stands for another, up to a part of it. -/
def Near (δ x y : K) : Prop := |y - x| ≤ δ * |x|

section

variable {δ ε x y z : K}

theorem Near.mono (near : Near δ x y) (le : δ ≤ ε) : Near ε x y :=
  near.trans (mul_le_mul_of_nonneg_right le (abs_nonneg x))

theorem Near.abs_le (near : Near δ x y) : |y| ≤ (1 + δ) * |x| := by
  have sum : |y| ≤ |y - x| + |x| := by
    calc |y| = |y - x + x| := by rw [sub_add_cancel]
      _ ≤ |y - x| + |x| := abs_add_le _ _
  rw [Near] at near
  linarith

theorem Near.le_abs (near : Near δ x y) : (1 - δ) * |x| ≤ |y| := by
  have sum : |x| ≤ |y| + |y - x| := by
    calc |x| = |y - (y - x)| := by rw [sub_sub_cancel]
      _ ≤ |y| + |y - x| := abs_sub _ _
  rw [Near] at near
  linarith

theorem Near.trans (first : Near δ x y) (second : Near ε y z) (positive : 0 ≤ ε) :
    Near (δ + ε * (1 + δ)) x z := by
  have size := mul_le_mul_of_nonneg_left first.abs_le positive
  have sum : |z - x| ≤ |z - y| + |y - x| := abs_sub_le z y x
  rw [Near] at *
  linarith

/-- A quotient by a number that stands for another. -/
theorem Near.div (near : Near δ x y) (nonzero : x ≠ 0) (small : δ ≤ 1 / 2) (n : K) :
    Near (2 * δ) (n / x) (n / y) := by
  have positive : 0 < |x| := abs_pos.mpr nonzero
  have far := near.le_abs
  have away : |x| / 2 ≤ |y| := by nlinarith
  have other : 0 < |y| := by linarith
  have nonzero' : y ≠ 0 := abs_pos.mp other
  have difference : n / y - n / x = n / x * ((x - y) / y) := by
    field_simp
  have part : |y - x| / |y| ≤ 2 * δ := by
    rw [div_le_iff₀ other]
    rw [Near] at near
    nlinarith [abs_nonneg (y - x)]
  rw [Near, difference, abs_mul, abs_div (x - y), abs_sub_comm x y, mul_comm]
  exact mul_le_mul_of_nonneg_right part (abs_nonneg _)

end

/-! ## The nearest integer -/

variable [FloorRing K]

/-- Of two nearest integers the even one. -/
def nearestInt (x : K) : Int :=
  if Int.fract x < 1 / 2 then ⌊x⌋
  else if 1 / 2 < Int.fract x then ⌊x⌋ + 1
  else if ⌊x⌋ % 2 = 0 then ⌊x⌋ else ⌊x⌋ + 1

theorem abs_nearestInt_sub_le (x : K) : |(nearestInt x : K) - x| ≤ 1 / 2 := by
  have split := Int.floor_add_fract x
  have low := Int.fract_nonneg x
  have high := Int.fract_lt_one x
  rw [abs_le, nearestInt]
  split_ifs with below above even
  · constructor <;> linarith
  · push_cast
    constructor <;> linarith
  · constructor <;> linarith
  · push_cast
    constructor <;> linarith

/-- An integer within a half is the nearest one. -/
theorem nearestInt_of_close {x : K} {n : Int} (near : |x - n| < 1 / 2) : nearestInt x = n := by
  have rounded := abs_nearestInt_sub_le x
  rw [abs_lt] at near
  rw [abs_le] at rounded
  have above : (nearestInt x : K) < ((n + 1 : Int) : K) := by
    push_cast
    linarith
  have below : ((n - 1 : Int) : K) < (nearestInt x : K) := by
    push_cast
    linarith
  rw [Int.cast_lt] at above below
  omega

theorem nearestInt_intCast (n : Int) : nearestInt (n : K) = n := nearestInt_of_close (by simp)

/-! ## Binary formats -/

structure BinaryFormat where
  /-- How many digits a number has. -/
  digits : Nat
  /-- The exponent of the last digit of the smallest numbers. -/
  least : Int

namespace BinaryFormat

variable (f : BinaryFormat)

/-- The value of the last digit of the numbers about this one. -/
def unit (x : K) : K := 2 ^ max (Int.log 2 |x| + 1 - f.digits) f.least

def round (x : K) : K := nearestInt (x / f.unit x) * f.unit x

variable {f}

theorem unit_pos (x : K) : 0 < f.unit x := zpow_pos two_pos _

/-- The unit is small against the number, or the smallest there is. -/
theorem unit_le {x : K} (nonzero : x ≠ 0) :
    f.unit x ≤ max (|x| * 2 ^ (1 - (f.digits : Int))) (2 ^ f.least) := by
  rw [unit]
  rcases max_choice (Int.log 2 |x| + 1 - (f.digits : Int)) f.least with log | least
  · apply le_max_of_le_left
    rw [log, add_sub_assoc, zpow_add₀ two_ne_zero]
    apply mul_le_mul_of_nonneg_right _ (zpow_pos two_pos _).le
    exact_mod_cast Int.zpow_log_le_self one_lt_two (abs_pos.mpr nonzero)
  · rw [least]
    exact le_max_right _ _

/-- The error is at most half a unit. -/
theorem abs_round_sub_le {x : K} (nonzero : x ≠ 0) :
    |f.round x - x| ≤ max (2 ^ (-(f.digits : Int)) * |x|) (2 ^ (f.least - 1)) := by
  have positive : 0 < f.unit x := unit_pos x
  have near := abs_nearestInt_sub_le (x / f.unit x)
  have scaled : f.round x - x = (nearestInt (x / f.unit x) - x / f.unit x) * f.unit x := by
    rw [sub_mul, div_mul_cancel₀ _ positive.ne', round]
  have half : max (|x| * 2 ^ (1 - (f.digits : Int))) (2 ^ f.least) / 2 =
      max (2 ^ (-(f.digits : Int)) * |x|) (2 ^ (f.least - 1)) := by
    have least : (2 : K) ^ f.least / 2 = 2 ^ (f.least - 1) := by
      rw [zpow_sub₀ two_ne_zero, zpow_one]
    have digits : |x| * 2 ^ (1 - (f.digits : Int)) / 2 = 2 ^ (-(f.digits : Int)) * |x| := by
      rw [sub_eq_add_neg, zpow_add₀ two_ne_zero, zpow_one]
      ring
    rw [← least, ← digits, max_div_div_right (two_pos (α := K)).le]
  rw [scaled, abs_mul, abs_of_pos positive, ← half]
  calc _ ≤ 1 / 2 * f.unit x := mul_le_mul_of_nonneg_right near positive.le
    _ = f.unit x / 2 := by ring
    _ ≤ _ := div_le_div_of_nonneg_right (unit_le nonzero) two_pos.le

/-- Away from zero the error is small against the number. -/
theorem round_near {x : K} (normal : 2 ^ (f.least + f.digits - 1) ≤ |x|) :
    Near (2 ^ (-(f.digits : Int))) x (f.round x) := by
  have positive : 0 < |x| := lt_of_lt_of_le (zpow_pos two_pos _) normal
  have least : (2 : K) ^ (f.least - 1) ≤ 2 ^ (-(f.digits : Int)) * |x| := by
    calc (2 : K) ^ (f.least - 1) = 2 ^ (-(f.digits : Int)) * 2 ^ (f.least + f.digits - 1) := by
          rw [← zpow_add₀ two_ne_zero]
          congr 1
          ring
      _ ≤ 2 ^ (-(f.digits : Int)) * |x| := mul_le_mul_of_nonneg_left normal (zpow_pos two_pos _).le
  have close := abs_round_sub_le (f := f) (abs_pos.mp positive)
  rwa [max_eq_left least] at close

@[simp] theorem round_zero : f.round (0 : K) = 0 := by
  have nothing := nearestInt_intCast (K := K) 0
  rw [Int.cast_zero] at nothing
  rw [round, zero_div, nothing, Int.cast_zero, zero_mul]

/-- A number that has few enough digits is not changed. -/
theorem round_exact (n k : Int) (few : |n| < 2 ^ f.digits) (fine : f.least ≤ k) :
    f.round ((n : K) * 2 ^ k) = n * 2 ^ k := by
  by_cases zero : n = 0
  · simp [zero]
  · have power : (0 : K) < 2 ^ k := zpow_pos two_pos k
    have size : |(n : K) * 2 ^ k| < 2 ^ ((f.digits : Int) + k) := by
      rw [abs_mul, abs_of_pos power, zpow_add₀ two_ne_zero]
      apply mul_lt_mul_of_pos_right _ power
      rw [zpow_natCast]
      exact_mod_cast few
    have positive : 0 < |(n : K) * 2 ^ k| := abs_pos.mpr (mul_ne_zero (Int.cast_ne_zero.mpr zero) power.ne')
    have log : Int.log 2 |(n : K) * 2 ^ k| < (f.digits : Int) + k := by
      rw [← Int.lt_zpow_iff_log_lt one_lt_two positive]
      exact_mod_cast size
    -- The last digit of the number is a multiple of the unit.
    obtain ⟨shift, exponent⟩ := Int.le.dest
      (show max (Int.log 2 |(n : K) * 2 ^ k| + 1 - f.digits) f.least ≤ k by omega)
    have whole : (n : K) * 2 ^ k / f.unit ((n : K) * 2 ^ k) = ((n * 2 ^ shift : Int) : K) := by
      rw [div_eq_iff (unit_pos _).ne', unit]
      push_cast
      rw [mul_assoc, ← zpow_natCast, ← zpow_add₀ two_ne_zero, add_comm (shift : Int), exponent]
    rw [round, whole, nearestInt_intCast, ← whole, div_mul_cancel₀ _ (unit_pos _).ne']

end BinaryFormat

end PubSub.General
