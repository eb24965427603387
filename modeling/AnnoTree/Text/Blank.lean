import AnnoTree.Text.Str

/-!
# Blank characters

The white space that is ignored around other text: the characters of Unicode's property
`White_Space` (`isWhiteSpace`) around numerals, and these with the four information separators
(`isBlank`) around type descriptors and stored rows.
-/

namespace AnnoTree.Text

/-! ## §1 The table -/

/-- A run of consecutive code points, both ends included. -/
structure CodeRange where
  first : Nat
  last : Nat
  deriving DecidableEq, Repr

/-- Membership in a run of code points. -/
def CodeRange.contains (r : CodeRange) (code : Nat) : Bool :=
  decide (r.first ≤ code) && decide (code ≤ r.last)

/-- The code points of white space. -/
def whiteSpaceRanges : List CodeRange :=
  [⟨0x09, 0x0D⟩, ⟨0x20, 0x20⟩, ⟨0x85, 0x85⟩, ⟨0xA0, 0xA0⟩, ⟨0x1680, 0x1680⟩, ⟨0x2000, 0x200A⟩,
   ⟨0x2028, 0x2029⟩, ⟨0x202F, 0x202F⟩, ⟨0x205F, 0x205F⟩, ⟨0x3000, 0x3000⟩]

/-- The code points of the information separators. -/
def separatorRange : CodeRange := ⟨0x1C, 0x1F⟩

/-- A white space character may stand at either end of a numeral. -/
def isWhiteSpace (c : Char) : Bool :=
  whiteSpaceRanges.any (·.contains c.toNat)

/-- A blank character may be stripped from either end of a text. -/
def isBlank (c : Char) : Bool :=
  isWhiteSpace c || separatorRange.contains c.toNat

/-! ## §2 Stripping -/

/-- The items of a list without those at either end that pass a test. -/
def stripWhere {α : Type} (p : α → Bool) (cs : List α) : List α :=
  ((cs.dropWhile p).reverse.dropWhile p).reverse

/-- The characters without the blank ones at either end. -/
def stripChars (cs : List Char) : List Char :=
  stripWhere isBlank cs

/-- The code points without the blank ones at either end. -/
def stripPoints (cs : List CodePoint) : List CodePoint :=
  stripWhere (·.satisfies isBlank) cs

/-- The text without the blank characters at either end. -/
def strip (s : Str) : Str :=
  Str.ofList (stripPoints s.toList)

end AnnoTree.Text
