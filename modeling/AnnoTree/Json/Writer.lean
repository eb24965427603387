import AnnoTree.Double.Text
import AnnoTree.Json.Basic
import AnnoTree.Text.Numeral
import AnnoTree.Text.Quoted

/-!
# Writing JSON

The text of a JSON value in one line. Characters outside ASCII stand for themselves; only quotes,
backslashes and control characters are escaped. `Style` holds what may differ: the marks between
items and after keys. A value with an integer that is too long has no text.
-/

namespace AnnoTree.Json

open AnnoTree.Text
open CodePoint (char)

/-! ## §1 Strings and numbers -/

/-- A code point inside a JSON string. -/
def escapedChar (c : CodePoint) : List CodePoint :=
  if c = '"' then ['\\', '"']
  else if c = '\\' then ['\\', '\\']
  else if c = '\n' then ['\\', 'n']
  else if c = '\r' then ['\\', 'r']
  else if c = '\t' then ['\\', 't']
  else if c = '\x08' then ['\\', 'b']
  else if c = '\x0c' then ['\\', 'f']
  else if c.toNat < 0x20 then escapeSequence 'u' 4 c.toNat
  else [c]

/-- A JSON string. -/
def stringChars (s : Str) : List CodePoint :=
  '"' :: (s.toList.flatMap escapedChar ++ [char '"'])

/-! ## §2 Values -/

/-- The marks of a written value. -/
structure Style where
  itemMark : List Char
  keyMark : List Char

/-- A blank after each mark: the style of stored rows. -/
def spaced : Style := ⟨[',', ' '], [':', ' ']⟩

/-- No blanks: the style of texts that are digested. -/
def compact : Style := ⟨[','], [':']⟩

mutual

/-- The code points of a value. -/
def chars (style : Style) : Json → List CodePoint
  | .null => ['n', 'u', 'l', 'l']
  | .bool true => ['t', 'r', 'u', 'e']
  | .bool false => ['f', 'a', 'l', 's', 'e']
  | .int i => (toString i).toList.map CodePoint.char
  | .float x => (x.text Double.longNames).toList.map CodePoint.char
  | .string s => stringChars s
  | .array items => '[' :: (charsList style items ++ [char ']'])
  | .object entries => '\x7b' :: (charsEntries style entries ++ [char '\x7d'])
termination_by structural j => j

/-- The code points of items, with marks between them. -/
def charsList (style : Style) : List Json → List CodePoint
  | [] => []
  | [j] => chars style j
  | j :: rest => chars style j ++ style.itemMark.map CodePoint.char ++ charsList style rest
termination_by structural js => js

/-- The code points of entries, with marks between them. -/
def charsEntries (style : Style) : List (Str × Json) → List CodePoint
  | [] => []
  | [(k, j)] => stringChars k ++ style.keyMark.map CodePoint.char ++ chars style j
  | (k, j) :: rest =>
    stringChars k ++ style.keyMark.map CodePoint.char ++ chars style j ++
      style.itemMark.map CodePoint.char ++ charsEntries style rest
termination_by structural es => es

end

/-- The text of a value, whatever integers are in it. -/
def write (style : Style) (j : Json) : Str :=
  Str.ofList (chars style j)

/-! ## §3 Values that can be written -/

mutual

/-- Whether an integer in a value is too long. -/
def hasTooLong : Json → Bool
  | .int i => isTooLong i
  | .array items => hasTooLongList items
  | .object entries => hasTooLongEntries entries
  | _ => false
termination_by structural j => j

/-- Whether an integer in one of the items is too long. -/
def hasTooLongList : List Json → Bool
  | [] => false
  | j :: rest => hasTooLong j || hasTooLongList rest
termination_by structural js => js

/-- Whether an integer in one of the values is too long. -/
def hasTooLongEntries : List (Str × Json) → Bool
  | [] => false
  | (_, j) :: rest => hasTooLong j || hasTooLongEntries rest
termination_by structural es => es

end

/-- The text of a value, if it can be written. -/
def print (style : Style) (j : Json) : Except TooLong Str :=
  if j.hasTooLong then .error .toWrite else .ok (j.write style)

end AnnoTree.Json
