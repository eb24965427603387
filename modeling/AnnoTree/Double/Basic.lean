/-!
# Double-precision numbers

Binary floating-point numbers of 64 bits as data: a finite number is a sign, a mantissa and an
exponent of two, in the one form that the format stores. All values that are not a number are one
value, and the two zeros are two, so equality of values here is equality of stored content.

`ofRatio?` is the only way to a finite number: the quotient of two natural numbers is rounded to
the nearest number of the format, a tie to the even mantissa.
-/

namespace AnnoTree

/-! ## §1 The format -/

/-- The first number of 53 bits. -/
def Double.leadingBit : Nat := 0x10000000000000

/-- The first number that has more than 53 bits. -/
def Double.mantissaBound : Nat := 0x20000000000000

/-- The finite number `mantissa * 2 ^ exponent` in its stored form: 53 bits, of which the first is
set unless the exponent is the least one. -/
def Double.Canonical (mantissa : Nat) (exponent : Int) : Prop :=
  mantissa < mantissaBound ∧ -1074 ≤ exponent ∧ exponent ≤ 971 ∧
    (mantissa < leadingBit → exponent = -1074)

instance (mantissa : Nat) (exponent : Int) : Decidable (Double.Canonical mantissa exponent) := by
  unfold Double.Canonical
  infer_instance

/-- A double-precision number. -/
inductive Double where
  | nan
  | infinite (negative : Bool)
  | finite (negative : Bool) (mantissa : Nat) (exponent : Int)
      (canonical : Double.Canonical mantissa exponent)
  deriving DecidableEq, Repr

namespace Double

/-- The two zeros. -/
def zero (negative : Bool) : Double :=
  .finite negative 0 (-1074) (by decide)

/-! ## §2 Rounding -/

/-- A quotient rounded to the nearest natural number, a tie to the even one. -/
def roundHalfEven (num den : Nat) : Nat :=
  let whole := num / den
  let rest := num % den
  if 2 * rest < den then whole
  else if den < 2 * rest then whole + 1
  else if whole % 2 = 0 then whole
  else whole + 1

/-- The quotient `num / den / base ^ power`, as numerator and denominator. -/
def scaleDown (base num den : Nat) (power : Int) : Nat × Nat :=
  if 0 ≤ power then (num, den * Nat.pow base power.toNat)
  else (num * Nat.pow base (-power).toNat, den)

/-- The exponent at which a quotient has a mantissa of 53 bits, but never less than the least. -/
def exponentOf (num den : Nat) : Int :=
  let guess : Int := (num.log2 : Int) - den.log2 - 53
  let (n, d) := scaleDown 2 num den guess
  max (if n / d < mantissaBound then guess else guess + 1) (-1074)

/-- The number nearest to a quotient; none if it is too large for the format. -/
def ofRatio? (negative : Bool) (num den : Nat) : Option Double :=
  if num = 0 then some (zero negative)
  else
    let e := exponentOf num den
    let (n, d) := scaleDown 2 num den e
    let m := roundHalfEven n d
    let (mantissa, exponent) := if m = mantissaBound then (leadingBit, e + 1) else (m, e)
    if h : Canonical mantissa exponent then some (.finite negative mantissa exponent h) else none

/-- The number nearest to an integer; none if it is too large for the format. -/
def ofInt? (i : Int) : Option Double :=
  ofRatio? (decide (i < 0)) i.natAbs 1

/-- The number nearest to `digits * 10 ^ exponent`; an infinity if it is too large. Far outside
the range of the format the answer does not depend on the digits, so no power is computed. -/
def ofDecimal (negative : Bool) (digits : Nat) (exponent : Int) : Double :=
  if digits = 0 then zero negative
  else if 400 < exponent then .infinite negative
  else if exponent + digits.log2 + 1 < -400 then zero negative
  else
    let (n, d) := scaleDown 10 digits 1 (-exponent)
    (ofRatio? negative n d).getD (.infinite negative)

/-! ## §3 Views -/

/-- A finite number's magnitude as numerator and denominator. -/
def magnitude (mantissa : Nat) (exponent : Int) : Nat × Nat :=
  scaleDown 2 mantissa 1 (-exponent)

/-- The integer next to a finite number in the direction of zero. -/
def truncate? : Double → Option Int
  | .finite negative mantissa exponent _ =>
    let (n, d) := magnitude mantissa exponent
    let whole : Int := ((n / d : Nat) : Int)
    some (if negative then -whole else whole)
  | _ => none

/-- The power of two of which every finite number is a multiple of the inverse. -/
def gridPower : Nat := 1074

/-- A finite number in units of the least positive one. -/
def units (negative : Bool) (mantissa : Nat) (exponent : Int) : Int :=
  let count : Int := ((mantissa * Nat.pow 2 (exponent + gridPower).toNat : Nat) : Int)
  if negative then -count else count

/-- Numeric equality: the two zeros are equal, and what is not a number equals nothing. -/
def numericallyEqual : Double → Double → Bool
  | .nan, _ => false
  | _, .nan => false
  | .finite _ 0 _ _, .finite _ 0 _ _ => true
  | x, y => decide (x = y)

/-- The integer that a number equals, if there is one. -/
def integral? : Double → Option Int
  | .finite negative mantissa exponent _ =>
    let (n, d) := magnitude mantissa exponent
    let whole : Int := ((n / d : Nat) : Int)
    if n % d = 0 then some (if negative then -whole else whole) else none
  | _ => none

end Double

end AnnoTree
