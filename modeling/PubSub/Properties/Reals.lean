import Mathlib.Tactic.NormNum
import PubSub.Common.Reals
import PubSub.General.Words
import PubSub.Properties.Bodies
import PubSub.Subscriber.Client

/-!
# Numbers with a point

A `SHORT_REAL` and a `FLOAT` go through binary arithmetic and come out as decimal texts. Where
the binary numbers are fine enough, what comes out is the number that was sent.
-/
namespace PubSub.Properties

open General

/-! ## Reading a text back -/

/-- The number a text with a point in it stands for. -/
def pointValue (text : Bytes) : ℚ :=
  let places := (text.dropWhile isDigit).drop 1
  digitsValue text + digitsValue places / 10 ^ places.length

private theorem code_of_digit {ch : Char} (digit : ch.isDigit = true) :
    (UInt8.ofNat ch.toNat).toNat = ch.toNat ∧ 48 ≤ ch.toNat ∧ ch.toNat ≤ 57 := by
  simp only [Char.isDigit, Bool.and_eq_true, decide_eq_true_eq, ge_iff_le,
    UInt32.le_iff_toNat_le] at digit
  have low : 48 ≤ ch.toNat := digit.1
  have high : ch.toNat ≤ 57 := digit.2
  rw [UInt8.toNat_ofNat']
  omega

theorem decimal_eq (n : Nat) :
    decimal n = (Nat.toDigits 10 n).map fun ch => UInt8.ofNat ch.toNat := by
  have text : (toString n).toList = Nat.toDigits 10 n := Nat.toList_repr
  rw [decimal, ascii, text]

private theorem toDigits_digits (n : Nat) : ∀ ch ∈ Nat.toDigits 10 n, ch.isDigit = true :=
  fun _ mem => Nat.isDigit_of_mem_toDigits (by decide) (by decide) mem

theorem isDigit_decimal (n : Nat) : ∀ byte ∈ decimal n, isDigit byte = true := by
  intro byte printed
  rw [decimal_eq] at printed
  obtain ⟨ch, digit, rfl⟩ := List.mem_map.mp printed
  obtain ⟨same, code⟩ := code_of_digit (toDigits_digits n ch digit)
  simp only [isDigit, Bool.and_eq_true, decide_eq_true_eq, UInt8.le_iff_toNat_le, same]
  exact code

theorem isDigit_padded (width n : Nat) : ∀ byte ∈ padded width n, isDigit byte = true := by
  intro byte mem
  rcases List.mem_append.mp mem with zero | digit
  · rw [List.eq_of_mem_replicate zero]
    rfl
  · exact isDigit_decimal n byte digit

theorem padded_length {width n : Nat} (fits : n < 10 ^ width) (wide : width ≠ 0) :
    (padded width n).length = width := by
  have digits := (Nat.length_toDigits_le_iff (b := 10) (by decide) (by omega)).mpr fits
  rw [padded, List.length_append, List.length_replicate, decimal_eq, List.length_map]
  omega

/-- Reading on from the number in front. -/
private theorem foldl_digits (digits : List Char) (all : ∀ ch ∈ digits, ch.isDigit = true) (value : Nat) :
    (digits.map fun ch => UInt8.ofNat ch.toNat).foldl
        (fun value digit => 10 * value + (digit.toNat - 48)) value =
      Nat.ofDigitChars 10 digits value := by
  induction digits generalizing value with
  | nil => rfl
  | cons ch digits ih =>
    have same := (code_of_digit (all ch List.mem_cons_self)).1
    rw [List.map_cons, List.foldl_cons, Nat.ofDigitChars_cons, same]
    exact ih (fun other mem => all other (List.mem_cons_of_mem _ mem)) _

private theorem digitsValue_front {text rest : Bytes} (digits : ∀ byte ∈ text, isDigit byte = true)
    (stop : ∀ byte ∈ rest.head?, isDigit byte = false) : digitsValue (text ++ rest) = digitsValue text := by
  rw [digitsValue, digitsValue, (run_append digits stop).1, List.takeWhile_eq_self_iff.mpr digits]

theorem digitsValue_padded (width n : Nat) : digitsValue (padded width n) = n := by
  have zeros : padded width n =
      (List.replicate (width - (decimal n).length) '0' ++ Nat.toDigits 10 n).map
        fun ch => UInt8.ofNat ch.toNat := by
    rw [List.map_append, ← decimal_eq, List.map_replicate]
    rfl
  have digits : ∀ ch ∈ List.replicate (width - (decimal n).length) '0' ++ Nat.toDigits 10 n,
      ch.isDigit = true := by
    intro ch mem
    rcases List.mem_append.mp mem with zero | digit
    · rw [List.eq_of_mem_replicate zero]
      rfl
    · exact toDigits_digits n ch digit
  rw [digitsValue, List.takeWhile_eq_self_iff.mpr (isDigit_padded width n), zeros,
    foldl_digits _ digits, Nat.ofDigitChars_append, Nat.ofDigitChars_replicate_zero, Nat.mul_zero,
    Nat.ofDigitChars_ten_toDigits]

theorem digitsValue_decimal (n : Nat) : digitsValue (decimal n) = n := by
  have plain : padded 0 n = decimal n := by simp [padded]
  rw [← plain, digitsValue_padded]

/-- The text of a number of units stands for them. -/
theorem pointValue_pointText (precision units : Nat) :
    pointValue (pointText precision units) = units / 10 ^ precision := by
  have positive : (10 : ℚ) ^ precision ≠ 0 := pow_ne_zero _ (by norm_num)
  by_cases whole : precision = 0
  · have nothing : (decimal units).dropWhile isDigit = [] :=
      List.dropWhile_eq_nil_iff.mpr (isDigit_decimal units)
    subst whole
    simp only [pointText, pointValue, if_pos, List.append_nil, pow_zero, Nat.div_one, nothing,
      digitsValue_decimal]
    simp [digitsValue]
  · have stop : ∀ byte ∈ (ascii "." ++ padded precision (units % 10 ^ precision)).head?,
        isDigit byte = false := by
      rintro byte ⟨⟩
      rfl
    have behind : (pointText precision units).dropWhile isDigit =
        46 :: padded precision (units % 10 ^ precision) := by
      rw [pointText, if_neg whole, (run_append (isDigit_decimal _) stop).2]
      rfl
    have front : digitsValue (pointText precision units) = units / 10 ^ precision := by
      rw [pointText, if_neg whole, digitsValue_front (isDigit_decimal _) stop, digitsValue_decimal]
    have length := padded_length (Nat.mod_lt units (Nat.pow_pos (n := precision) (by decide : 0 < 10))) whole
    rw [pointValue, front, behind, List.drop_succ_cons, List.drop_zero, digitsValue_padded, length,
      eq_div_iff positive, add_mul, div_mul_cancel₀ _ positive]
    exact_mod_cast Nat.div_add_mod' units (10 ^ precision)

/-! ## Binary numbers that stand for decimal ones -/

/-- Rounding to a half of the last digit makes up for the error in front of it. -/
theorem fixedText_close {precision units : Nat} {value : ℚ}
    (close : |value * 10 ^ precision - units| < 1 / 2) :
    fixedText precision value = pointText precision units := by
  have nearest : nearestInt (value * 10 ^ precision) = (units : Int) :=
    nearestInt_of_close (by exact_mod_cast close)
  rw [fixedText, nearest, Int.toNat_natCast]

theorem float_natCast {n : Nat} (few : n < 2 ^ 24) : float.round (n : ℚ) = n := by
  have small : |(n : Int)| < 2 ^ float.digits := by
    rw [Nat.abs_cast]
    exact_mod_cast few
  have exact := BinaryFormat.round_exact (K := ℚ) n 0 small (by decide)
  rwa [zpow_zero, mul_one, Int.cast_natCast] at exact

/-- A number in the middle of a computation, in units of the last place. -/
theorem float_scaled {x scale : ℚ} (nonzero : x ≠ 0) (positive : 0 ≤ scale) :
    |float.round x * scale - x * scale| ≤
      max (2 ^ (-24 : Int) * |x * scale|) (2 ^ (-150 : Int) * scale) := by
  have close := BinaryFormat.abs_round_sub_le (f := float) nonzero
  rw [← sub_mul, abs_mul, abs_mul, abs_of_nonneg positive, ← mul_assoc, ← max_mul_of_nonneg _ _ positive]
  exact mul_le_mul_of_nonneg_right close positive

/-- `pow` may be wrong in its last digit. -/
def Accurate (pow : Int → ℚ) : Prop :=
  ∀ e : Nat, e ≤ 127 → Near (2 ^ (-52 : Int)) (10 ^ e) (pow e)

/-- The quotient on `double`. -/
theorem quotient_near {pow : Int → ℚ} (accurate : Accurate pow) {mantissa places : Nat}
    (counted : 0 < mantissa) (within : places ≤ 44) :
    Near (2 ^ (-50 : Int)) ((mantissa : ℚ) / 10 ^ places) (double.round (mantissa / pow places)) := by
  have scale : (0 : ℚ) < 10 ^ places := pow_pos (by norm_num) places
  have quotient := (accurate places (by omega)).div scale.ne' (by norm_num) (mantissa : ℚ)
  -- No quotient is so small that digits get lost.
  have least : 1 / 10 ^ 44 ≤ |(mantissa : ℚ) / 10 ^ places| := by
    rw [abs_of_nonneg (by positivity)]
    apply div_le_div₀ (Nat.cast_nonneg mantissa) (by exact_mod_cast counted) scale
    exact pow_le_pow_right₀ (by norm_num) within
  have normal : 2 ^ (double.least + double.digits - 1) ≤ |(mantissa : ℚ) / pow places| := by
    calc (2 : ℚ) ^ (double.least + double.digits - 1) ≤ 2 ^ (-200 : Int) :=
          zpow_le_zpow_right₀ one_le_two (by decide)
      _ ≤ (1 - 2 * 2 ^ (-52 : Int)) * (1 / 10 ^ 44) := by norm_num
      _ ≤ (1 - 2 * 2 ^ (-52 : Int)) * |(mantissa : ℚ) / 10 ^ places| :=
          mul_le_mul_of_nonneg_left least (by norm_num)
      _ ≤ |(mantissa : ℚ) / pow places| := quotient.le_abs
  exact (quotient.trans (BinaryFormat.round_near normal) (zpow_pos two_pos _).le).mono
    (by norm_num [double])

/-- The first error is one of the `double`, the second one of the `float`, which has a part of
the number or half of its smallest one. -/
private theorem errors_add {mantissa first second scale : ℚ} (few : mantissa ≤ 2 ^ 23 - 1)
    (small : scale ≤ 10 ^ 44) (ofDouble : first ≤ 2 ^ (-50 : Int) * mantissa)
    (ofFloat : second ≤ max (2 ^ (-24 : Int) * (mantissa + first)) (2 ^ (-150 : Int) * scale)) :
    second + first < 1 / 2 := by
  norm_num at few small ofDouble
  rcases le_max_iff.mp ofFloat with normal | subnormal
  · norm_num at normal
    linarith
  · norm_num at subnormal
    linarith

/-- Twenty-three digits are few enough, as long as the `float` does not run into its smallest
numbers. -/
theorem float_close {pow : Int → ℚ} (accurate : Accurate pow) {mantissa places : Nat}
    (few : mantissa < 2 ^ 23) (within : places ≤ 44) :
    |float.round (double.round (mantissa / pow places)) * 10 ^ places - mantissa| < 1 / 2 := by
  rcases Nat.eq_zero_or_pos mantissa with rfl | counted
  · simp
  · have scale : (0 : ℚ) < 10 ^ places := pow_pos (by norm_num) places
    have low : (1 : ℚ) ≤ mantissa := by exact_mod_cast counted
    have high : (mantissa : ℚ) ≤ 2 ^ 23 - 1 := by
      rw [le_sub_iff_add_le]
      exact_mod_cast (show mantissa + 1 ≤ 2 ^ 23 from few)
    have quotient := quotient_near accurate counted within
    generalize double.round ((mantissa : ℚ) / pow places) = value at quotient ⊢
    -- In units of the last digit that is printed, one rounding after the other.
    have first : |value * 10 ^ places - mantissa| ≤ 2 ^ (-50 : Int) * mantissa := by
      have back : (mantissa : ℚ) / 10 ^ places * 10 ^ places = mantissa := div_mul_cancel₀ _ scale.ne'
      calc |value * 10 ^ places - mantissa| = |value - mantissa / 10 ^ places| * 10 ^ places := by
            rw [← abs_of_pos scale, ← abs_mul, sub_mul, abs_of_pos scale, back]
        _ ≤ 2 ^ (-50 : Int) * |(mantissa : ℚ) / 10 ^ places| * 10 ^ places :=
            mul_le_mul_of_nonneg_right quotient scale.le
        _ = 2 ^ (-50 : Int) * mantissa := by
            rw [abs_of_nonneg (by positivity), mul_assoc, back]
    have nonzero : value ≠ 0 := by
      rintro rfl
      rw [zero_mul, zero_sub, abs_neg, abs_of_pos (by linarith)] at first
      norm_num at first
      linarith
    have second := float_scaled nonzero scale.le
    have size : |value * 10 ^ places| ≤ mantissa + |value * 10 ^ places - mantissa| := by
      have sum := abs_add_le (mantissa : ℚ) (value * 10 ^ places - mantissa)
      have natural : |(mantissa : ℚ)| = mantissa := abs_of_nonneg (Nat.cast_nonneg mantissa)
      rwa [add_sub_cancel, natural] at sum
    have larger := mul_le_mul_of_nonneg_left size (zpow_pos (two_pos (α := ℚ)) (-24)).le
    calc _ ≤ |float.round value * 10 ^ places - value * 10 ^ places| +
            |value * 10 ^ places - mantissa| := abs_sub_le _ _ _
      _ < 1 / 2 := errors_add high (pow_le_pow_right₀ (by norm_num) within) first
            (second.trans (max_le_max_right _ larger))

/-! ## The texts -/

theorem shortRealText_exact {value : Nat} (short : value < 2 ^ 16) :
    shortRealText value = pointText 2 value := by
  rw [shortRealText, float_natCast (by omega)]
  apply fixedText_close
  rcases Nat.eq_zero_or_pos value with rfl | counted
  · simp
  · have high : (value : ℚ) < 65536 := by exact_mod_cast short
    have positive : (0 : ℚ) < value := by exact_mod_cast counted
    have nonzero : (value : ℚ) / 100 ≠ 0 := by positivity
    have close := float_scaled nonzero (by norm_num : (0 : ℚ) ≤ 10 ^ 2)
    have back : (value : ℚ) / 100 * 10 ^ 2 = value := by
      norm_num
    rw [back, abs_of_pos positive] at close
    rcases le_max_iff.mp close with normal | subnormal
    · norm_num at normal ⊢
      linarith
    · norm_num at subnormal ⊢
      linarith

theorem toInt8_small {exponent : UInt8} (small : exponent.toNat < 128) :
    exponent.toInt8.toInt = exponent.toNat := by
  change exponent.toBitVec.toInt = exponent.toBitVec.toNat
  exact BitVec.toInt_eq_toNat_of_lt (by change 2 * exponent.toNat < 2 ^ 8; omega)

theorem floatText_exact {pow : Int → ℚ} (accurate : Accurate pow) {mantissa : Nat} {exponent : UInt8}
    (few : mantissa < 2 ^ 23) (within : exponent.toNat ≤ 44) (sign : UInt8) :
    floatText pow sign mantissa exponent =
      (if sign ≠ 0 then ascii "-" else []) ++ pointText exponent.toNat mantissa := by
  have close := float_close accurate few within
  have power : exponent.toInt8.toInt = exponent.toNat := toInt8_small (by omega)
  have finite : ¬ 2 ^ 128 ≤ float.round (double.round ((mantissa : ℚ) / pow exponent.toNat)) := by
    intro infinite
    have scaled := le_mul_of_one_le_right ((by positivity : (0 : ℚ) ≤ 2 ^ 128).trans infinite)
      (one_le_pow₀ (by norm_num : (1 : ℚ) ≤ 10) (n := exponent.toNat))
    have high : (mantissa : ℚ) < 8388608 := by exact_mod_cast few
    have above := (abs_lt.mp close).2
    norm_num at infinite above
    linarith
  have places : ¬ ((exponent.toNat : Int) < 0) := by omega
  simp only [floatText, floatValue, float_natCast (by omega : mantissa < 2 ^ 24), power, if_neg finite,
    setprecision, if_neg places, Int.toNat_natCast, fixedText_close close]

/-! ## The lines -/

/-- The line for a payload with a topic field and a type. -/
theorem parseInput_typed (rt : RealText) (sender : SockAddr) {field : Bytes} (sized : field.length = 50)
    (type : UInt8) (data : Bytes) :
    parseInput rt (bodyOf sender (field ++ type :: data)) =
      some (heading sender (cString field) ++ valueText rt type data) := by
  have topic : (field ++ type :: data).take 50 = field := List.take_left' sized
  have typed : (field ++ type :: data).getD 50 0 = type := by
    rw [List.getD_eq_getElem?_getD, List.getElem?_append_right (by rw [sized]), sized]
    rfl
  have behind : (field ++ type :: data).drop 51 = data := by
    rw [show 51 = 50 + 1 from rfl, ← List.drop_drop, List.drop_left' sized]
    rfl
  rw [parseInput_line, lineOf, topic, typed, behind, if_neg (by simp [sized])]

/-- A body of type SHORT_REAL, with any bytes behind the number. -/
structure ShortRealBody where
  sender : SockAddr
  field : Bytes
  sized : field.length = 50
  value : BitVec 16
  trailing : Bytes

def ShortRealBody.bytes (b : ShortRealBody) : Bytes :=
  bodyOf b.sender
    (b.field ++ dataShortReal :: ((leBytes 2 b.value.toNat).reverse ++ b.trailing))

/-- A body of type FLOAT, with any bytes behind the number. -/
structure FloatBody where
  sender : SockAddr
  field : Bytes
  sized : field.length = 50
  sign : UInt8
  mantissa : BitVec 32
  exponent : UInt8
  trailing : Bytes

def FloatBody.bytes (b : FloatBody) : Bytes :=
  bodyOf b.sender (b.field ++
    dataFloat :: b.sign :: ((leBytes 4 b.mantissa.toNat).reverse ++ b.exponent :: b.trailing))

/-- Every SHORT_REAL is printed exactly. -/
theorem shortReal_exact (pow : Int → ℚ) (b : ShortRealBody) :
    ∃ text, parseInput (ieeeText pow) b.bytes = some (heading b.sender (cString b.field) ++
        (ascii " - SHORT_REAL - " ++ text ++ ascii "\n")) ∧
      text = pointText 2 b.value.toNat ∧ pointValue text = b.value.toNat / 100 := by
  have size : (leBytes 2 b.value.toNat).reverse.length = 2 := by simp
  have number : ((leBytes 2 b.value.toNat).reverse ++ b.trailing).take 2 =
      (leBytes 2 b.value.toNat).reverse := List.take_left' size
  have value : ntohl (leBytes 2 b.value.toNat).reverse = b.value.toNat := by
    rw [ntohl, List.reverse_reverse, leValue_leBytes 2 _ b.value.isLt]
  have complete : ¬ ((leBytes 2 b.value.toNat).reverse ++ b.trailing).length < 2 := by
    rw [List.length_append, size]
    omega
  refine ⟨shortRealText b.value.toNat, ?_, ?_, ?_⟩
  · rw [ShortRealBody.bytes, parseInput_typed _ _ b.sized, valueText, if_neg (by decide), if_pos rfl,
      if_neg complete, number, value]
    rfl
  · exact shortRealText_exact b.value.isLt
  · rw [shortRealText_exact b.value.isLt, pointValue_pointText]
    norm_num

/-- A FLOAT is printed exactly, sign and digits, when its mantissa has at most 23 binary digits
and the exponent is at most 44. -/
theorem float_exact {pow : Int → ℚ} (accurate : Accurate pow) (b : FloatBody)
    (few : b.mantissa.toNat < 2 ^ 23) (within : b.exponent.toNat ≤ 44) :
    ∃ text, parseInput (ieeeText pow) b.bytes = some (heading b.sender (cString b.field) ++
        (ascii " - FLOAT - " ++ ((if b.sign ≠ 0 then ascii "-" else []) ++ text) ++ ascii "\n")) ∧
      text = pointText b.exponent.toNat b.mantissa.toNat ∧
      pointValue text = b.mantissa.toNat / 10 ^ b.exponent.toNat := by
  have size : (leBytes 4 b.mantissa.toNat).reverse.length = 4 := by simp
  have number : ((leBytes 4 b.mantissa.toNat).reverse ++ b.exponent :: b.trailing).take 4 =
      (leBytes 4 b.mantissa.toNat).reverse := List.take_left' size
  have behind : ((leBytes 4 b.mantissa.toNat).reverse ++ b.exponent :: b.trailing).drop 4 =
      b.exponent :: b.trailing := List.drop_left' size
  have mantissa : ntohl (leBytes 4 b.mantissa.toNat).reverse = b.mantissa.toNat := by
    rw [ntohl, List.reverse_reverse, leValue_leBytes 4 _ b.mantissa.isLt]
  have complete : ¬ (b.sign :: ((leBytes 4 b.mantissa.toNat).reverse ++ b.exponent :: b.trailing)).length < 6 := by
    rw [List.length_cons, List.length_append, List.length_cons, size]
    omega
  refine ⟨pointText b.exponent.toNat b.mantissa.toNat, ?_, rfl, pointValue_pointText _ _⟩
  rw [FloatBody.bytes, parseInput_typed _ _ b.sized, valueText, if_neg (by decide), if_neg (by decide),
    if_pos rfl, if_neg complete, List.drop_succ_cons, List.drop_zero, number, mantissa,
    List.drop_succ_cons, behind, ← floatText_exact accurate few within b.sign]
  rfl

/-- The powers that are right up to the last digit. -/
def roundedPow (e : Int) : ℚ := double.round (10 ^ e)

theorem accurate_roundedPow : Accurate roundedPow := by
  intro e _
  have normal : (2 : ℚ) ^ (double.least + double.digits - 1) ≤ |10 ^ (e : Int)| := by
    rw [zpow_natCast, abs_of_pos (pow_pos (by norm_num) e)]
    calc (2 : ℚ) ^ (double.least + double.digits - 1) ≤ 2 ^ (0 : Int) :=
          zpow_le_zpow_right₀ one_le_two (by decide)
      _ = 1 := zpow_zero 2
      _ ≤ 10 ^ e := one_le_pow₀ (by norm_num)
  rw [← zpow_natCast]
  exact (BinaryFormat.round_near normal).mono (by norm_num [double])

/-- The number -0.042. -/
def minusPoint042 : FloatBody where
  sender := default
  field := List.replicate 50 97
  sized := rfl
  sign := 1
  mantissa := 42
  exponent := 3
  trailing := []

theorem float_exact_minusPoint042 :
    ∃ text, parseInput (ieeeText roundedPow) minusPoint042.bytes =
        some (heading minusPoint042.sender (cString minusPoint042.field) ++ (ascii " - FLOAT - " ++
          ((if minusPoint042.sign ≠ 0 then ascii "-" else []) ++ text) ++ ascii "\n")) ∧
      text = pointText minusPoint042.exponent.toNat minusPoint042.mantissa.toNat ∧
      pointValue text = minusPoint042.mantissa.toNat / 10 ^ minusPoint042.exponent.toNat :=
  float_exact accurate_roundedPow minusPoint042 (by decide) (by decide)

example : pointText 3 42 = ascii "0.042" := by decide

end PubSub.Properties
