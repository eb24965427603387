/-!
# UTF-8

Encoding of a text as octets, and decoding that says how far a faulty sequence of octets can be
read. The decoder refuses at the first octet that no well-formed sequence has at that place.
-/

namespace AnnoTree.Text

/-- An octet of a stored text. -/
abbrev Octet := UInt8

/-- The octets of a text. -/
def encodeUtf8 (s : String) : List Octet :=
  s.toList.flatMap String.utf8EncodeChar

/-- Where the decoder stands inside a character: how many octets it still owes, the range of the
next one, and the bits read so far. -/
structure Pending where
  owed : Nat
  least : Nat
  greatest : Nat
  bits : Nat
  deriving DecidableEq, Repr

/-- The outcome of decoding. -/
inductive Decoded where
  /-- Every octet belongs to a character. -/
  | whole (text : List Char)
  /-- The octets end inside a character. -/
  | truncated (text : List Char)
  /-- The octet at `offset` cannot stand there. -/
  | broken (text : List Char) (offset : Nat)
  deriving Repr

/-- The characters before the first fault. -/
def Decoded.text : Decoded → List Char
  | .whole text => text
  | .truncated text => text
  | .broken text _ => text

/-- What the first octet of a character announces: the character itself, or what is owed. -/
def leadOctet (b : Nat) : Option (Char ⊕ Pending) :=
  if b ≤ 0x7F then some (.inl (Char.ofNat b))
  else if 0xC2 ≤ b && b ≤ 0xDF then some (.inr ⟨1, 0x80, 0xBF, b - 0xC0⟩)
  else if b = 0xE0 then some (.inr ⟨2, 0xA0, 0xBF, 0⟩)
  else if b = 0xED then some (.inr ⟨2, 0x80, 0x9F, b - 0xE0⟩)
  else if 0xE1 ≤ b && b ≤ 0xEF then some (.inr ⟨2, 0x80, 0xBF, b - 0xE0⟩)
  else if b = 0xF0 then some (.inr ⟨3, 0x90, 0xBF, 0⟩)
  else if 0xF1 ≤ b && b ≤ 0xF3 then some (.inr ⟨3, 0x80, 0xBF, b - 0xF0⟩)
  else if b = 0xF4 then some (.inr ⟨3, 0x80, 0x8F, b - 0xF0⟩)
  else none

/-- The effect of a later octet of a character. -/
def Pending.next (p : Pending) (b : Nat) : Option (Char ⊕ Pending) :=
  if p.least ≤ b && b ≤ p.greatest then
    let bits := p.bits * 64 + (b - 0x80)
    if p.owed ≤ 1 then some (.inl (Char.ofNat bits))
    else some (.inr ⟨p.owed - 1, 0x80, 0xBF, bits⟩)
  else none

/-- Decoding from an offset, with the characters read so far in reverse. -/
def decodeUtf8Aux (text : List Char) (offset : Nat) : Option Pending → List Octet → Decoded
  | none, [] => .whole text.reverse
  | some _, [] => .truncated text.reverse
  | pending, b :: rest =>
    match (match pending with
      | none => leadOctet b.toNat
      | some p => p.next b.toNat) with
    | none => .broken text.reverse offset
    | some (.inl c) => decodeUtf8Aux (c :: text) (offset + 1) none rest
    | some (.inr p) => decodeUtf8Aux text (offset + 1) (some p) rest

/-- The text that octets spell, as far as they do. -/
def decodeUtf8 (octets : List Octet) : Decoded :=
  decodeUtf8Aux [] 0 none octets

end AnnoTree.Text
