import AnnoTree.Json.Reader
import AnnoTree.Json.Writer
import Mathlib

/-!
# Strings in JSON

A string that is written is read back as the same string. A written code point is read as one
piece, the code point itself or, for most control characters, its code unit; no such unit is half
of a pair, so every piece stands for its own code point. A half that stands alone is written as
itself, and so it is not joined with what is next to it.

## Main definitions

- `Json.EscapedAs`: how a code point is written.
- `Json.pieceOf`: the piece that a written code point is read as.

## Main statements

- `Json.escapedAs`: a code point is written in one of three ways.
- `Json.pieces_escapedChar`: a written code point is read as one piece.
- `Json.stringBody_escaped`: a written string is read back up to its closing quote.
-/

namespace AnnoTree.Json

open AnnoTree.Text
open CodePoint (char)

/-! ## §1 Code points -/

/-- The code points that are written as a code unit. -/
def IsUnitEscaped (c : CodePoint) : Prop :=
  c.toNat < 0x20 ∧ c ≠ '\n' ∧ c ≠ '\r' ∧ c ≠ '\t' ∧ c ≠ '\x08' ∧ c ≠ '\x0c'

instance (c : CodePoint) : Decidable (IsUnitEscaped c) := by
  unfold IsUnitEscaped
  infer_instance

/-- How a code point is written in a string. -/
inductive EscapedAs : CodePoint → List CodePoint → Prop where
  /-- By a letter that is read as the character, for a few characters. -/
  | short {letter x : Char} (read : shortEscape? letter = some x) (noUnit : ¬IsUnitEscaped x)
      (visible : 0x20 ≤ letter.toNat) : EscapedAs x [char '\\', char letter]
  /-- As its code unit, for the other control characters. -/
  | unit {c : CodePoint} (isUnit : IsUnitEscaped c) :
      EscapedAs c (escapeSequence 'u' 4 c.toNat)
  /-- As itself. -/
  | plain {c : CodePoint} (noQuote : c ≠ '"') (noSlash : c ≠ '\\') (noControl : ¬c.toNat < 0x20) :
      EscapedAs c [c]

theorem escapedAs (c : CodePoint) : EscapedAs c (escapedChar c) := by
  unfold escapedChar
  split
  next h => subst h; exact .short rfl (by decide) (by decide)
  split
  next h => subst h; exact .short rfl (by decide) (by decide)
  split
  next h => subst h; exact .short rfl (by decide) (by decide)
  split
  next h => subst h; exact .short rfl (by decide) (by decide)
  split
  next h => subst h; exact .short rfl (by decide) (by decide)
  split
  next h => subst h; exact .short rfl (by decide) (by decide)
  split
  next h => subst h; exact .short rfl (by decide) (by decide)
  split
  next hcontrol =>
    -- no short form applied, so the character is written as its code unit
    refine .unit ?_
    unfold IsUnitEscaped
    tauto
  next hquote hslash _ _ _ _ _ hplain => exact .plain hquote hslash hplain

/-- The piece that a written code point is read as. -/
def pieceOf (c : CodePoint) : Piece :=
  if IsUnitEscaped c then .unit c.toNat else .point c

theorem hexValue?_hexDigit : ∀ n, n < 16 → hexValue? (hexDigit n) = some n := by
  decide

/-- Four hexadecimal digits are the code unit of which they were made. -/
theorem pieces_unit {n : ℕ} (h : n < 0x10000) (rest : List CodePoint) :
    pieces (escapeSequence 'u' 4 n ++ rest) = consPiece (.unit n) (pieces rest) := by
  -- each of the four digits is read as the remainder of which it was made
  have hdigit : ∀ m, hexValue? (hexDigit (m % 16)) = some (m % 16) :=
    fun m => hexValue?_hexDigit _ (Nat.mod_lt m (by decide))
  have hunit : hexUnit? (hexDigit (n / 16 / 16 / 16 % 16)) (hexDigit (n / 16 / 16 % 16))
      (hexDigit (n / 16 % 16)) (hexDigit (n % 16)) = some n := by
    simp only [hexUnit?, CodePoint.char?, Option.bind_some, hdigit, ofDigits, List.foldl_cons,
      List.foldl_nil, Option.some.injEq]
    omega
  simp only [escapeSequence, hexDigits, List.nil_append, List.cons_append, List.map_cons,
    List.map_nil, pieces, hunit]

/-- A code point that is written as itself is read as itself. -/
theorem pieces_plain {c : CodePoint} (hquote : c ≠ '"') (hslash : c ≠ '\\')
    (hc : ¬c.toNat < 0x20) (rest : List CodePoint) :
    pieces (c :: rest) = consPiece (.point c) (pieces rest) := by
  simp [pieces, hslash, hc]

/-- A letter is read as the character for which it stands. -/
theorem pieces_short {letter x : Char} (h : shortEscape? letter = some x) (rest : List CodePoint) :
    pieces (char '\\' :: char letter :: rest) = consPiece (.point x) (pieces rest) := by
  rw [pieces]
  · rw [h]
  · -- the letter of a code unit stands for no character
    rintro _ _ _ _ _ hunit rfl
    cases hunit
    cases h

/-- A written code point is read as one piece. -/
theorem pieces_escapedChar (c : CodePoint) (rest : List CodePoint) :
    pieces (escapedChar c ++ rest) = consPiece (pieceOf c) (pieces rest) := by
  have hescaped := escapedAs c
  generalize escapedChar c = cs at hescaped ⊢
  cases hescaped with
  | short read noUnit _ =>
    rw [pieceOf, if_neg noUnit]
    exact pieces_short read rest
  | unit isUnit =>
    have hcontrol := isUnit.1
    rw [pieceOf, if_pos isUnit]
    exact pieces_unit (by omega) rest
  | plain noQuote noSlash noControl =>
    rw [pieceOf, if_neg fun isUnit => noControl isUnit.1]
    exact pieces_plain noQuote noSlash noControl rest

/-! ## §2 Strings -/

/-- What a piece stands for if it is not half of a pair. -/
def piecePoint : Piece → CodePoint
  | .point c => c
  | .unit n => unitPoint n

theorem joinHalves_cons {p : Piece} (h : ∀ n, p = .unit n → isHighHalf n = false)
    (ps : List Piece) : joinHalves (p :: ps) = piecePoint p :: joinHalves ps := by
  rcases p with c | n
  · rfl
  · rcases ps with _ | ⟨c | m, ps⟩
    · rfl
    · rfl
    · -- two units make one character only if the first is a high half
      simp [joinHalves, h n rfl, piecePoint]

theorem isHighHalf_pieceOf (c : CodePoint) (n : ℕ) (h : pieceOf c = .unit n) :
    isHighHalf n = false := by
  unfold pieceOf at h
  split at h
  next hunit =>
    -- the code units that are written stand far below the halves of pairs
    obtain rfl := Piece.unit.inj h
    have hlow := hunit.1
    simp only [isHighHalf, Bool.and_eq_false_iff, decide_eq_false_iff_not]
    omega
  next => cases h

/-- A control character is the code point of its code unit. -/
theorem unitPoint_toNat {c : CodePoint} (h : c.toNat < 0x20) : unitPoint c.toNat = c := by
  have hbelow : ¬(firstHalf ≤ c.toNat ∧ c.toNat < firstHalf + 0x800) := by
    simp only [firstHalf]
    omega
  rw [unitPoint, dif_neg hbelow]
  cases c with
  | char c => exact congrArg CodePoint.char (Char.ofNat_toNat c)
  | half place => exact absurd ⟨Nat.le_add_right _ _, Nat.add_lt_add_left place.isLt _⟩ hbelow

theorem piecePoint_pieceOf (c : CodePoint) : piecePoint (pieceOf c) = c := by
  unfold pieceOf
  split
  next hunit => exact unitPoint_toNat hunit.1
  next => rfl

theorem joinHalves_pieceOf (cs : List CodePoint) : joinHalves (cs.map pieceOf) = cs := by
  induction cs with
  | nil => rfl
  | cons c cs ih =>
    rw [List.map_cons, joinHalves_cons (isHighHalf_pieceOf c), piecePoint_pieceOf, ih]

theorem pieces_escaped (cs rest : List CodePoint) :
    pieces (cs.flatMap escapedChar ++ .char '"' :: rest) = some (cs.map pieceOf, rest) := by
  induction cs with
  | nil => rfl
  | cons c cs ih =>
    rw [List.flatMap_cons, List.append_assoc, pieces_escapedChar, ih]
    rfl

/-- **A string is read back** up to its closing quote. -/
theorem stringBody_escaped (cs rest : List CodePoint) :
    stringBody (cs.flatMap escapedChar ++ .char '"' :: rest) = .ok (cs, rest) := by
  simp only [stringBody, pieces_escaped, readingOf, Except.map, joinHalves_pieceOf]

end AnnoTree.Json
