import Mathlib.Data.Rat.Floor
import PubSub.Common.Parse
import PubSub.General.Rounding

/-!
# Numbers with a point

What `parse_input` computes on `float` and `double` for `SHORT_REAL` and `FLOAT`, and the text
that `std::fixed` makes of it. Only `pow` is left open.
-/
namespace PubSub

open General

/-- The formats of `float` and `double`, but for their largest numbers. -/
def float : BinaryFormat := ⟨24, -149⟩

def double : BinaryFormat := ⟨53, -1074⟩

/-! ## Texts -/

/-- A number with zeros in front. -/
def padded (width n : Nat) : Bytes :=
  List.replicate (width - (decimal n).length) 48 ++ decimal n

/-- A number of units of the last digit, with this many digits behind the point. -/
def pointText (precision units : Nat) : Bytes :=
  decimal (units / 10 ^ precision) ++
    if precision = 0 then [] else ascii "." ++ padded precision (units % 10 ^ precision)

/-- `std::fixed` for a number that is not negative. -/
def fixedText (precision : Nat) (value : ℚ) : Bytes :=
  pointText precision (nearestInt (value * 10 ^ precision)).toNat

/-- `std::setprecision` of a negative number leaves the six digits of the default. -/
def setprecision (n : Int) : Nat := if n < 0 then 6 else n.toNat

/-! ## The two formats -/

/-- `float value = ntohs(net_value) / 100.0f;` -/
def shortRealText (value : Nat) : Bytes := fixedText 2 (float.round (float.round (value : ℚ) / 100))

/-- `value /= pow(10, exponent);` on the absolute value: a quotient on `double` that becomes a
`float`. The exponent is a `char`, which has a sign. -/
def floatValue (pow : Int → ℚ) (mantissa : Nat) (exponent : UInt8) : ℚ :=
  float.round (double.round (float.round (mantissa : ℚ) / pow exponent.toInt8.toInt))

/-- A sign is printed for a zero too. From 2^128 on the `float` is infinite. -/
def floatText (pow : Int → ℚ) (sign : UInt8) (mantissa : Nat) (exponent : UInt8) : Bytes :=
  let value := floatValue pow mantissa exponent
  (if sign ≠ 0 then ascii "-" else []) ++
    if 2 ^ 128 ≤ value then ascii "inf"
    else fixedText (setprecision exponent.toInt8.toInt) value

/-- Arithmetic on `float` and `double`, and some `pow` of ten. -/
def ieeeText (pow : Int → ℚ) : RealText := ⟨shortRealText, floatText pow⟩

end PubSub
