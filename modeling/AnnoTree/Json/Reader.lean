import AnnoTree.Double.Basic
import AnnoTree.Json.Basic
import AnnoTree.Text.Numeral

/-!
# Reading JSON

A strict reader, with three names besides the grammar of the format: `NaN`, `Infinity` and
`-Infinity`. A number with a fraction or an exponent is a double, any other an integer, which ends
the reading if it has too many digits. A key that comes again keeps its place and takes the later
value.

Each reading step returns what it read and the text that is left, or the first fault that it comes
upon. The steps count down the length of the text, which no nesting can exceed.

An escape in a text may name half of a pair. Two halves are joined if both are escapes and one comes
right after the other.
-/

namespace AnnoTree.Json

open AnnoTree.Text

/-! ## §1 Strings -/

/-- The blanks of the format. -/
def isSpace (c : CodePoint) : Bool :=
  c == .char ' ' || c == .char '\t' || c == .char '\n' || c == .char '\r'

/-- The text without blanks in front. -/
def skipSpace (cs : List CodePoint) : List CodePoint :=
  cs.dropWhile isSpace

/-- The value of a hexadecimal digit of either case. -/
def hexValue? (c : Char) : Option Nat :=
  if c.isDigit then some (c.toNat - '0'.toNat)
  else if 'a' ≤ c ∧ c ≤ 'f' then some (c.toNat - 'a'.toNat + 10)
  else if 'A' ≤ c ∧ c ≤ 'F' then some (c.toNat - 'A'.toNat + 10)
  else none

/-- The value of four hexadecimal digits. -/
def hexUnit? (a b c d : CodePoint) : Option Nat :=
  match a.char?.bind hexValue?, b.char?.bind hexValue?, c.char?.bind hexValue?,
    d.char?.bind hexValue? with
  | some a, some b, some c, some d => some (ofDigits 16 [a, b, c, d])
  | _, _, _, _ => none

/-- The first half of a code point beyond the basic plane. -/
def isHighHalf (n : Nat) : Bool := decide (0xD800 ≤ n) && decide (n ≤ 0xDBFF)

/-- The second half of a code point beyond the basic plane. -/
def isLowHalf (n : Nat) : Bool := decide (0xDC00 ≤ n) && decide (n ≤ 0xDFFF)

/-- What a string is read as before halves are joined: a code point, or the unit of an escape. -/
inductive Piece where
  | point (c : CodePoint)
  | unit (n : Nat)

/-- The code point of a code unit: a half that stands alone, or a character. -/
def unitPoint (n : Nat) : CodePoint :=
  if h : firstHalf ≤ n ∧ n < firstHalf + 0x800 then .half ⟨n - firstHalf, by omega⟩
  else .char (Char.ofNat n)

/-- The character of two halves. -/
def pairChar (high low : Nat) : Char :=
  Char.ofNat (0x10000 + (high - 0xD800) * 0x400 + (low - 0xDC00))

/-- The code points of pieces: two halves that follow one another are one character. -/
def joinHalves : List Piece → List CodePoint
  | [] => []
  | .point c :: rest => c :: joinHalves rest
  | [.unit n] => [unitPoint n]
  | .unit n :: .point c :: rest => unitPoint n :: c :: joinHalves rest
  | .unit n :: .unit m :: rest =>
    if isHighHalf n && isLowHalf m then .char (pairChar n m) :: joinHalves rest
    else unitPoint n :: joinHalves (.unit m :: rest)

/-- The character of a short escape. -/
def shortEscape? : CodePoint → Option Char
  | '"' => some '"'
  | '\\' => some '\\'
  | '/' => some '/'
  | 'b' => some '\x08'
  | 'f' => some '\x0c'
  | 'n' => some '\n'
  | 'r' => some '\r'
  | 't' => some '\t'
  | _ => none

/-- Puts a piece in front of what was read. -/
def consPiece (p : Piece) :
    Option (List Piece × List CodePoint) → Option (List Piece × List CodePoint)
  | some (read, rest) => some (p :: read, rest)
  | none => none

/-- The pieces up to the closing quote. -/
def pieces : List CodePoint → Option (List Piece × List CodePoint)
  | [] => none
  | '"' :: rest => some ([], rest)
  | '\\' :: 'u' :: a :: b :: c :: d :: rest =>
    match hexUnit? a b c d with
    | some n => consPiece (.unit n) (pieces rest)
    | none => none
  | '\\' :: c :: rest =>
    match shortEscape? c with
    | some x => consPiece (.point x) (pieces rest)
    | none => none
  | c :: rest =>
    if c.toNat < 0x20 || c == .char '\\' then none else consPiece (.point c) (pieces rest)

/-- The code points up to the closing quote. -/
def stringBody (cs : List CodePoint) : Reading CodePoint (List CodePoint) :=
  (readingOf (pieces cs)).map fun (read, rest) => (joinHalves read, rest)

/-! ## §2 Numbers -/

/-- A decimal digit. -/
def isDigit (c : CodePoint) : Bool :=
  c.satisfies Char.isDigit

/-- The digits in front of a text. -/
def digitsOf (cs : List CodePoint) : List Nat × List CodePoint :=
  ((cs.takeWhile isDigit).map fun c => c.toNat - '0'.toNat, cs.dropWhile isDigit)

/-- The digits of a whole part: no zero stands in front of another digit. -/
def wholePart : List CodePoint → Option (List Nat × List CodePoint)
  | '0' :: rest => some ([0], rest)
  | cs =>
    match digitsOf cs with
    | ([], _) => none
    | (ds, rest) => some (ds, rest)

/-- The digits after a point, if a point and a digit come next. -/
def fractionPart : List CodePoint → Option (List Nat) × List CodePoint
  | '.' :: cs =>
    match digitsOf cs with
    | ([], _) => (none, '.' :: cs)
    | (ds, rest) => (some ds, rest)
  | cs => (none, cs)

/-- Splits the sign of an exponent off the front: whether it is a minus, and what follows. -/
def exponentSign : List CodePoint → Bool × List CodePoint
  | '-' :: rest => (true, rest)
  | '+' :: rest => (false, rest)
  | cs => (false, cs)

/-- The exponent, if one comes next. -/
def exponentPart : List CodePoint → Option Int × List CodePoint
  | [] => (none, [])
  | c :: cs =>
    if c == .char 'e' || c == .char 'E' then
      let (negative, digits) := exponentSign cs
      match digitsOf digits with
      | ([], _) => (none, c :: cs)
      | (ds, rest) => (some (signed negative (ofDigits 10 ds)), rest)
    else (none, c :: cs)

/-- A number, given its sign. -/
def unsignedNumber (negative : Bool) (cs : List CodePoint) : Reading CodePoint Json :=
  match wholePart cs with
  | none => .error .malformed
  | some (whole, cs) =>
    let (fraction, cs) := fractionPart cs
    let (exponent, cs) := exponentPart cs
    match fraction, exponent with
    | none, none => (readInteger negative whole).map fun i => (.int i, cs)
    | fraction, exponent =>
      let digits := fraction.getD []
      .ok (.float (Double.ofDecimal negative (ofDigits 10 (whole ++ digits))
        (exponent.getD 0 - digits.length)), cs)

/-- A name or a number. -/
def atom (cs : List CodePoint) : Reading CodePoint Json :=
  match cs with
  | 'n' :: 'u' :: 'l' :: 'l' :: rest => .ok (.null, rest)
  | 't' :: 'r' :: 'u' :: 'e' :: rest => .ok (.bool true, rest)
  | 'f' :: 'a' :: 'l' :: 's' :: 'e' :: rest => .ok (.bool false, rest)
  | 'N' :: 'a' :: 'N' :: rest => .ok (.float .nan, rest)
  | 'I' :: 'n' :: 'f' :: 'i' :: 'n' :: 'i' :: 't' :: 'y' :: rest =>
    .ok (.float (.infinite false), rest)
  | '-' :: 'I' :: 'n' :: 'f' :: 'i' :: 'n' :: 'i' :: 't' :: 'y' :: rest =>
    .ok (.float (.infinite true), rest)
  | '-' :: rest => unsignedNumber true rest
  | cs => unsignedNumber false cs

/-! ## §3 Values -/

mutual

/-- A value at the front of a text. -/
def valueAux : Nat → List CodePoint → Reading CodePoint Json
  | 0, _ => .error .malformed
  | n + 1, cs =>
    match cs with
    | '"' :: rest => (stringBody rest).map fun (s, rest) => (.string (Str.ofList s), rest)
    | '[' :: rest =>
      match skipSpace rest with
      | ']' :: rest => .ok (.array [], rest)
      | rest => (itemsAux n rest).map fun (items, rest) => (.array items, rest)
    | '\x7b' :: rest =>
      match skipSpace rest with
      | '\x7d' :: rest => .ok (.object [], rest)
      | rest => (entriesAux n rest).map fun (es, rest) => (.object (Entries.ofList es), rest)
    | cs => atom cs
termination_by structural n => n

/-- One item or more, and the end of their array. -/
def itemsAux : Nat → List CodePoint → Reading CodePoint (List Json)
  | 0, _ => .error .malformed
  | n + 1, cs =>
    match valueAux n cs with
    | .error f => .error f
    | .ok (j, rest) =>
      match skipSpace rest with
      | ']' :: rest => .ok ([j], rest)
      | ',' :: rest => (itemsAux n (skipSpace rest)).map fun (js, rest) => (j :: js, rest)
      | _ => .error .malformed
termination_by structural n => n

/-- One entry or more, and the end of their object. -/
def entriesAux : Nat → List CodePoint → Reading CodePoint (List (Str × Json))
  | 0, _ => .error .malformed
  | n + 1, cs =>
    match cs with
    | '"' :: rest =>
      match stringBody rest with
      | .error f => .error f
      | .ok (key, rest) =>
        match skipSpace rest with
        | ':' :: rest =>
          match valueAux n (skipSpace rest) with
          | .error f => .error f
          | .ok (j, rest) =>
            let entry := (Str.ofList key, j)
            match skipSpace rest with
            | '\x7d' :: rest => .ok ([entry], rest)
            | ',' :: rest =>
              (entriesAux n (skipSpace rest)).map fun (es, rest) => (entry :: es, rest)
            | _ => .error .malformed
        | _ => .error .malformed
    | _ => .error .malformed
termination_by structural n => n

end

/-- The value that code points spell, with nothing but blanks around it. -/
def readPoints (cs : List CodePoint) : Except ReadFault Json :=
  match valueAux (cs.length + 1) (skipSpace cs) with
  | .error f => .error f
  | .ok (j, rest) => if (skipSpace rest).isEmpty then .ok j else .error .malformed

/-- The value that characters spell. -/
def readChars (cs : List Char) : Except ReadFault Json :=
  readPoints (cs.map .char)

/-- The value that a text spells. -/
def read (s : Str) : Except ReadFault Json :=
  readPoints s.toList

end AnnoTree.Json
