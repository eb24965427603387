import AnnoTree.Double.Basic

/-!
# Shortest decimal text of a double

`shortest` gives the fewest decimal digits that read back to the same number, and of those the
nearest to it. On the grid of decimals with a given count of digits only the two neighbours of the
number have to be tried: if any point of the grid reads back, so does one of them.
-/

namespace AnnoTree.Double

/-! ## §1 Decimals -/

/-- The decimal `digits * 10 ^ exponent`. -/
structure Decimal where
  digits : Nat
  exponent : Int
  deriving DecidableEq, Repr

/-- A decimal reads back to a finite number if rounding gives that number. -/
def Decimal.readsBack (x : Decimal) (mantissa : Nat) (exponent : Int) : Bool :=
  match ofDecimal false x.digits x.exponent with
  | .finite _ m e _ => m == mantissa && e == exponent
  | _ => false

/-- A quotient is less than a power of ten. -/
def belowPower (num den : Nat) (power : Int) : Bool :=
  let (n, d) := scaleDown 10 num den power
  decide (n < d)

/-- The least power of ten above a quotient, for a quotient that is not zero. -/
def powerAbove (num den : Nat) : Int :=
  let guess : Int := (((num.log2 : Int) - den.log2) * 30103).fdiv 100000 - 1
  let steps := (List.range 5).find? fun (j : Nat) => belowPower num den (guess + j)
  guess + (steps.getD 4 : Nat)

/-! ## §2 The search -/

/-- The neighbour of a quotient, on the grid of multiples of a power of ten, that reads back; of
two the nearer, and of two equally near the even one. -/
def neighbour? (mantissa : Nat) (exponent : Int) (power : Int) : Option Decimal :=
  let (num, den) := magnitude mantissa exponent
  let (n, d) := scaleDown 10 num den power
  let lower : Decimal := ⟨n / d, power⟩
  let upper : Decimal := ⟨n / d + 1, power⟩
  match lower.readsBack mantissa exponent, upper.readsBack mantissa exponent with
  | true, true =>
    some (if roundHalfEven n d = n / d then lower else upper)
  | true, false => some lower
  | false, true => some upper
  | false, false => none

/-- The exact decimal of a finite number. -/
def exactDecimal (mantissa : Nat) (exponent : Int) : Decimal :=
  if 0 ≤ exponent then ⟨mantissa * Nat.pow 2 exponent.toNat, 0⟩
  else ⟨mantissa * Nat.pow 5 (-exponent).toNat, exponent⟩

/-- The shortest decimal that reads back to a finite number other than zero. -/
def shortest (mantissa : Nat) (exponent : Int) : Decimal :=
  let (num, den) := magnitude mantissa exponent
  let top := powerAbove num den
  let found := (List.range 17).findSome? fun (n : Nat) =>
    neighbour? mantissa exponent (top - (n + 1 : Nat))
  found.getD (exactDecimal mantissa exponent)

end AnnoTree.Double
