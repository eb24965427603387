import AnnoTree.Text.Printable

/-!
# Quoted text

Three ways to put a text between quotes:

- `quoted`, for messages: every character is visible, and the quote is one that the text needs
  to escape as rarely as possible;
- `stringLiteral` and `charLiteral`, for rendered annotations: only the closing quote and the two
  line breaks are escaped.
-/

namespace AnnoTree.Text

/-! ## §1 Messages -/

/-- A lower-case hexadecimal digit. -/
def hexDigit (n : Nat) : Char :=
  Nat.digitChar n

/-- The last `width` hexadecimal digits of a number. -/
def hexDigits : (width : Nat) → Nat → List Char
  | 0, _ => []
  | w + 1, n => hexDigits w (n / 16) ++ [hexDigit (n % 16)]

/-- An escape sequence: the letter of its kind, and the number of a code point in digits. -/
def escapeSequence (letter : Char) (width : Nat) (code : Nat) : List CodePoint :=
  ('\\' :: letter :: hexDigits width code).map CodePoint.char

/-- A code point as a message shows it between quotes `quote`. -/
def shownChar (quote c : CodePoint) : List CodePoint :=
  if c = quote || c = '\\' then ['\\', c]
  else if c = '\n' then ['\\', 'n']
  else if c = '\r' then ['\\', 'r']
  else if c = '\t' then ['\\', 't']
  else if c.satisfies isPrintable then [c]
  else if c.toNat ≤ 0xFF then escapeSequence 'x' 2 c.toNat
  else if c.toNat ≤ 0xFFFF then escapeSequence 'u' 4 c.toNat
  else escapeSequence 'U' 8 c.toNat

/-- The quote of a message: a single one, unless the text has single quotes and no double one. -/
def messageQuote (s : Str) : CodePoint :=
  if s.toList.contains '\'' && !s.toList.contains '"' then '"' else '\''

/-- A text as messages quote it. -/
def quoted (s : Str) : Str :=
  let quote := messageQuote s
  Str.ofList (quote :: (s.toList.flatMap (shownChar quote) ++ [quote]))

/-- Texts joined by a separator. -/
def joinWith (separator : Str) : List Str → Str
  | [] => ""
  | [s] => s
  | s :: t :: rest => s ++ separator ++ joinWith separator (t :: rest)

/-- A list of texts as messages show it. -/
def quotedList (items : List Str) : Str :=
  "[" ++ joinWith ", " (items.map quoted) ++ "]"

/-! ## §2 Rendered literals -/

/-- A code point inside a literal that ends at `quote`. -/
def literalChar (quote c : CodePoint) : List CodePoint :=
  if c = quote then ['\\', c]
  else if c = '\n' then ['\\', 'n']
  else if c = '\r' then ['\\', 'r']
  else [c]

/-- A literal between quotes. A backslash of the text itself is not escaped. -/
def literal (quote : CodePoint) (cs : List CodePoint) : Str :=
  Str.ofList (quote :: (cs.flatMap (literalChar quote) ++ [quote]))

/-- A string literal, in double quotes. -/
def stringLiteral (s : Str) : Str :=
  literal '"' s.toList

/-- A character literal, in single quotes. -/
def charLiteral (c : CodePoint) : Str :=
  literal '\'' [c]

end AnnoTree.Text
