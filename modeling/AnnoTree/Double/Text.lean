import AnnoTree.Double.Shortest
import AnnoTree.Text.Numeral

/-!
# Doubles as text

Writing: the shortest digits, positional from `0.0001` up to below `1e16` and always with a
decimal point there, otherwise with an exponent of at least two digits and its sign.

Reading (`ofText?`): the numerals that a person may type, with an exponent, and the names of the
values that have no digits.
-/

namespace AnnoTree.Double

open AnnoTree.Text

/-! ## §1 Layout -/

/-- How the values without digits are written. -/
structure Names where
  nan : String
  infinity : String

/-- The names in rendered annotations and in stored rows. -/
def longNames : Names := ⟨"NaN", "Infinity"⟩

/-- The names in messages and in configuration. -/
def shortNames : Names := ⟨"nan", "inf"⟩

/-- A list without the zeros at its end. -/
def trimZeros (digits : List Char) : List Char :=
  (digits.reverse.dropWhile (· == '0')).reverse

/-- An exponent with its sign and at least two digits. -/
def exponentText (e : Int) : List Char :=
  let digits := (toString e.natAbs).toList
  (if e < 0 then '-' else '+') :: (if digits.length < 2 then '0' :: digits else digits)

/-- The text of `0.digits * 10 ^ point`. -/
def layout (digits : List Char) (point : Int) : List Char :=
  if -4 < point ∧ point ≤ 16 then
    if point ≤ 0 then
      '0' :: '.' :: (List.replicate (-point).toNat '0' ++ digits)
    else if digits.length ≤ point.toNat then
      digits ++ List.replicate (point.toNat - digits.length) '0' ++ ['.', '0']
    else
      digits.take point.toNat ++ '.' :: digits.drop point.toNat
  else
    digits.take 1 ++ (if digits.length ≤ 1 then [] else '.' :: digits.drop 1) ++
      'e' :: exponentText (point - 1)

/-- The text of a finite number without its sign. -/
def magnitudeText (mantissa : Nat) (exponent : Int) : List Char :=
  if mantissa = 0 then ['0', '.', '0']
  else
    let d := shortest mantissa exponent
    let digits := (toString d.digits).toList
    layout (trimZeros digits) (d.exponent + digits.length)

/-- The text of a number, given the names of the values without digits. -/
def text (names : Names) : Double → String
  | .nan => names.nan
  | .infinite negative => (if negative then "-" else "") ++ names.infinity
  | .finite negative mantissa exponent _ =>
    String.ofList ((if negative then ['-'] else []) ++ magnitudeText mantissa exponent)

/-! ## §2 Reading -/

/-- Splits a text at the first character that passes a test, which is dropped. -/
def splitAtFirst (p : Char → Bool) (cs : List Char) : List Char × Option (List Char) :=
  match cs.dropWhile (!p ·) with
  | [] => (cs, none)
  | _ :: rest => (cs.takeWhile (!p ·), some rest)

/-- The digits of a part that may be empty. -/
def optionalDigits (cs : List Char) : Option (List Nat) :=
  if cs.isEmpty then some [] else numeralDigits cs

/-- The number that an unsigned numeral spells: digits, perhaps a point, perhaps an exponent. -/
def unsignedOfText? (negative : Bool) (cs : List Char) : Option Double := do
  let (mantissa, exponent) := splitAtFirst (fun c => c == 'e' || c == 'E') cs
  let (before, after) := splitAtFirst (· == '.') mantissa
  let whole ← optionalDigits before
  let fraction ← optionalDigits (after.getD [])
  if whole.isEmpty && fraction.isEmpty then none
  else
    let power ← match exponent with
      | none => some 0
      | some e =>
        let (minus, digits) := splitSign e
        (numeralDigits digits).map fun ds => signed minus (ofDigits 10 ds)
    some (ofDecimal negative (ofDigits 10 (whole ++ fraction)) (power - fraction.length))

/-- The number that a text spells. -/
def ofText? (s : String) : Option Double :=
  let (negative, body) := splitSign (numeralChars s)
  let name := String.ofList (body.map Char.toLower)
  if name == "inf" || name == "infinity" then some (.infinite negative)
  else if name == "nan" then some .nan
  else unsignedOfText? negative body

end AnnoTree.Double
