/-!
# Texts

A text is a sequence of code points: of characters, and of halves of surrogate pairs. A half may
stand alone in a text, since an escape may name one. Such a text is held, compared and shown like
any other, but it is not well-formed and has no encoding.
-/

namespace AnnoTree

/-! ## §1 Code points -/

/-- The number of the first half. -/
def firstHalf : Nat := 0xD800

/-- A character, or half of a surrogate pair by its place among the halves. -/
inductive CodePoint where
  | char (c : Char)
  | half (place : Fin 0x800)
  deriving DecidableEq, Repr

instance : Coe Char CodePoint := ⟨.char⟩

namespace CodePoint

/-- The number of a code point. -/
def toNat : CodePoint → Nat
  | .char c => c.toNat
  | .half place => firstHalf + place

/-- The character that a code point is. -/
def char? : CodePoint → Option Char
  | .char c => some c
  | .half _ => none

/-- Whether a code point is a character. -/
def isChar : CodePoint → Bool
  | .char _ => true
  | .half _ => false

/-- Whether a code point is a character that passes a test. -/
def satisfies (p : Char → Bool) : CodePoint → Bool
  | .char c => p c
  | .half _ => false

instance : Ord CodePoint := ⟨fun c d => compare c.toNat d.toNat⟩

instance : LE CodePoint := ⟨fun c d => c.toNat ≤ d.toNat⟩

instance (c d : CodePoint) : Decidable (c ≤ d) :=
  inferInstanceAs (Decidable (c.toNat ≤ d.toNat))

theorem le_def {c d : CodePoint} : c ≤ d ↔ c.toNat ≤ d.toNat :=
  Iff.rfl

theorem toNat_inj {c d : CodePoint} : c.toNat = d.toNat ↔ c = d := by
  -- the numbers of the halves are those that no character has
  have hne : ∀ (c : Char) (place : Fin 0x800), c.toNat ≠ firstHalf + place := by
    intro c place h
    have hvalid := c.valid
    simp only [UInt32.isValidChar, Nat.isValidChar] at hvalid
    have hplace := place.isLt
    simp only [firstHalf, Char.toNat] at h
    omega
  constructor
  · intro h
    cases c with
    | char c =>
      cases d with
      | char d => exact congrArg CodePoint.char (Char.toNat_inj.mp h)
      | half place => exact absurd h (hne c place)
    | half place =>
      cases d with
      | char d => exact absurd h.symm (hne d place)
      | half other => exact congrArg CodePoint.half (Fin.ext (Nat.add_left_cancel h))
  · exact congrArg toNat

end CodePoint

/-! ## §2 Texts -/

/-- A text. -/
structure Str where
  ofList ::
  toList : List CodePoint
  deriving DecidableEq, Repr

namespace Str

/-- The text of a string of characters. -/
@[coe] def ofString (s : String) : Str :=
  ⟨s.toList.map CodePoint.char⟩

instance : Coe String Str := ⟨ofString⟩

instance : Inhabited Str := ⟨""⟩

instance : Append Str := ⟨fun s t => ⟨s.toList ++ t.toList⟩⟩

instance : Ord Str := ⟨fun s t => compare s.toList t.toList⟩

/-- The text of one code point. -/
def singleton (c : CodePoint) : Str :=
  ⟨[c]⟩

/-- Texts one after another. -/
def join (texts : List Str) : Str :=
  ⟨texts.flatMap toList⟩

/-- Whether a text has no code points. -/
def isEmpty (s : Str) : Bool :=
  s.toList.isEmpty

/-- Whether a text begins with another one. -/
def startsWith (s front : Str) : Bool :=
  front.toList.isPrefixOf s.toList

@[simp] theorem toList_ofList (cs : List CodePoint) : (ofList cs).toList = cs :=
  rfl

@[simp] theorem ofList_toList {s : Str} : ofList s.toList = s :=
  rfl

@[simp] theorem toList_ofString (s : String) :
    (s : Str).toList = s.toList.map CodePoint.char :=
  rfl

@[simp] theorem toList_append (s t : Str) : (s ++ t).toList = s.toList ++ t.toList :=
  rfl

@[simp] theorem toList_singleton (c : CodePoint) : (singleton c).toList = [c] :=
  rfl

theorem join_cons (s : Str) (texts : List Str) : join (s :: texts) = s ++ join texts :=
  rfl

theorem ext_toList {s t : Str} (h : s.toList = t.toList) : s = t := by
  cases s
  cases t
  exact congrArg ofList h

theorem toList_inj {s t : Str} : s.toList = t.toList ↔ s = t :=
  ⟨ext_toList, congrArg toList⟩

@[simp] theorem ofString_inj {s t : String} : (s : Str) = t ↔ s = t := by
  rw [← toList_inj, toList_ofString, toList_ofString, ← String.toList_inj]
  exact List.map_inj_right fun _ _ h => CodePoint.char.inj h

theorem append_assoc (s t u : Str) : s ++ t ++ u = s ++ (t ++ u) :=
  ext_toList (List.append_assoc _ _ _)

@[simp] theorem append_empty (s : Str) : s ++ ("" : Str) = s :=
  ext_toList (List.append_nil _)

@[simp] theorem empty_append (s : Str) : ("" : Str) ++ s = s :=
  rfl

theorem append_right_inj (s : Str) {t u : Str} : s ++ t = s ++ u ↔ t = u := by
  rw [← toList_inj, toList_append, toList_append, List.append_cancel_left_eq, toList_inj]

theorem append_left_inj (u : Str) {s t : Str} : s ++ u = t ++ u ↔ s = t := by
  rw [← toList_inj, toList_append, toList_append, List.append_cancel_right_eq, toList_inj]

theorem startsWith_iff {s front : Str} :
    s.startsWith front = true ↔ front.toList <+: s.toList :=
  List.isPrefixOf_iff_prefix

/-! ## §3 Well-formed texts -/

/-- Whether no half stands in a text. -/
def isWellFormed (s : Str) : Bool :=
  s.toList.all CodePoint.isChar

/-- The characters of a text. -/
def chars (s : Str) : List Char :=
  s.toList.filterMap CodePoint.char?

/-- The string that a text is, if no half stands in it. -/
def string? (s : Str) : Option String :=
  if s.isWellFormed then some (String.ofList s.chars) else none

end Str

end AnnoTree
