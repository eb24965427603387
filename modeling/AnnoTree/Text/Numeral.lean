import AnnoTree.Text.Blank
import AnnoTree.Text.Digit

/-!
# Numerals

Integers as they are read from texts and written to them. However large an integer may be, neither
is done with more than `maxDigits` decimal digits.

A whole number may stand in free text as a person types it: white space around it, a sign, decimal
digits of any script, and single underscores between digits.
-/

namespace AnnoTree.Text

/-! ## §1 Integers and their digits -/

/-- The greatest number of decimal digits that an integer is read from or written with. -/
def maxDigits : Nat := 4300

/-- Why a text cannot be read. -/
inductive ReadFault where
  /-- The text is not in the grammar. -/
  | malformed
  /-- An integer in the text has too many digits. -/
  | tooLong (digits : Nat)
  deriving DecidableEq, Repr

/-- What was read from the front of a text, and the text that is left. -/
abbrev Reading (γ α : Type) := Except ReadFault (α × List γ)

/-- What is read where a grammar decides alone. -/
def readingOf {α : Type} (r : Option α) : Except ReadFault α :=
  match r with
  | some x => .ok x
  | none => .error .malformed

theorem readingOf_eq_ok {α : Type} {r : Option α} {x : α} : readingOf r = .ok x ↔ r = some x := by
  cases r <;> simp [readingOf]

/-- An integer with its sign given apart. -/
def signed (negative : Bool) (magnitude : Nat) : Int :=
  if negative then -(magnitude : Int) else magnitude

/-- The integer of a sign and decimal digits. -/
def readInteger (negative : Bool) (digits : List Nat) : Except ReadFault Int :=
  if digits.length ≤ maxDigits then .ok (signed negative (ofDigits 10 digits))
  else .error (.tooLong digits.length)

/-- Whether an integer has more digits than are written. -/
def isTooLong (i : Int) : Bool :=
  decide (maxDigits < (Nat.toDigits 10 i.natAbs).length)

/-- What was to be done with an integer that has too many digits for it. -/
inductive TooLong where
  | toRead (digits : Nat)
  | toWrite
  deriving DecidableEq, Repr

/-- The wording for an integer that is too long. -/
def TooLong.message (e : TooLong) : String :=
  let value := match e with
    | .toRead digits => ": value has " ++ toString digits ++ " digits"
    | .toWrite => ""
  "Exceeds the limit (" ++ toString maxDigits ++ " digits) for integer string conversion" ++
    value ++ "; use sys.set_int_max_str_digits() to increase the limit"

/-! ## §2 Numerals in free text -/

/-- The digits of a numeral whose first digit has been read: each underscore stands between two
digits. -/
def numeralDigitsAux : List Char → Option (List Nat)
  | [] => some []
  | '_' :: c :: rest =>
    match digitValue? c with
    | some d => (numeralDigitsAux rest).map (d :: ·)
    | none => none
  | c :: rest =>
    match digitValue? c with
    | some d => (numeralDigitsAux rest).map (d :: ·)
    | none => none

/-- The digits of an unsigned numeral. -/
def numeralDigits : List Char → Option (List Nat)
  | [] => none
  | '_' :: _ => none
  | cs => numeralDigitsAux cs

/-- Splits a sign off the front: whether it is a minus, and what follows. -/
def splitSign : List Char → Bool × List Char
  | '-' :: rest => (true, rest)
  | '+' :: rest => (false, rest)
  | cs => (false, cs)

/-- The characters of a numeral without the white space around it. -/
def numeralChars (s : String) : List Char :=
  stripWhere isWhiteSpace s.toList

/-- A character that a numeral may have behind its sign. -/
def isNumeralChar (c : Char) : Bool :=
  c == '_' || (digitValue? c).isSome

/-- The integer that a text spells. Digits are counted as far as they go, before it is seen what
stands behind them. -/
def readNumeral (s : String) : Except ReadFault Int := do
  let (negative, body) := splitSign (numeralChars s)
  let digits ← readingOf (numeralDigits (body.takeWhile isNumeralChar))
  let i ← readInteger negative digits
  if (body.dropWhile isNumeralChar).isEmpty then return i else throw .malformed

example : readNumeral " +1_0 " = .ok 10 ∧ readNumeral "-٣" = .ok (-3) ∧
    readNumeral "1__0" = .error .malformed ∧ readNumeral "0x1" = .error .malformed ∧
    readNumeral "_1" = .error .malformed ∧ readNumeral "\x1c1" = .error .malformed :=
  ⟨rfl, rfl, rfl, rfl, rfl, rfl⟩

end AnnoTree.Text
