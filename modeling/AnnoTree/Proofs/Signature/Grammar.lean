import AnnoTree.Signature.Descriptor
import Mathlib.Data.List.Basic
import Mathlib.Tactic.Common

/-!
# The grammar of type descriptors

Which texts spell which signatures, said without any reading. A field descriptor puts one mark for
each dimension in front, a source form one pair of brackets behind; a class name is a sequence of
identifiers, with dots or, in a field descriptor, also slashes between them.

## Main definitions

- `DottedName`, `ClassName`: identifiers with dots between them, and those that name classes.
- `Spells`: the grammar.
- `Signature.IsProper`: the signatures that have a spelling.

## Main statements

- `isIdentifier_iff`, `firstBadSegment?_eq_none_iff`: the tests of the reader decide the grammar of
  names.
- `Spells.isProper`: what is spelled is proper.
-/

namespace AnnoTree

open AnnoTree.Text
open CodePoint (char)

/-! ## §1 Names -/

/-- A character that may begin an identifier: a letter, an underscore or a dollar sign. -/
def BeginsIdentifier (c : CodePoint) : Prop :=
  ('A' ≤ c ∧ c ≤ 'Z') ∨ ('a' ≤ c ∧ c ≤ 'z') ∨ c = '_' ∨ c = '$'

/-- A character that may continue an identifier: also a digit. -/
def ContinuesIdentifier (c : CodePoint) : Prop :=
  BeginsIdentifier c ∨ ('0' ≤ c ∧ c ≤ '9')

/-- An identifier. -/
inductive Identifier : List CodePoint → Prop where
  | mk {c : CodePoint} {rest : List CodePoint} (first : BeginsIdentifier c)
      (others : ∀ d ∈ rest, ContinuesIdentifier d) : Identifier (c :: rest)

/-- One identifier or more, with dots between them. -/
inductive DottedName : List CodePoint → Prop where
  | single {s : List CodePoint} (identifier : Identifier s) : DottedName s
  | cons {s rest : List CodePoint} (identifier : Identifier s) (more : DottedName rest) :
      DottedName (s ++ char '.' :: rest)

/-- The name of a class: a dotted name that is not the name of a base type. -/
structure ClassName (name : List CodePoint) : Prop where
  dotted : DottedName name
  notBase : ∀ b : BaseType, name ≠ b.name.toList

/-! ## §2 Spellings -/

/-- A name with dots in the place of slashes. -/
def slashesToDots (name : List CodePoint) : List CodePoint :=
  name.map fun c => if c = char '/' then char '.' else c

/-- A base type may be what is under so many dimensions: there are no arrays of nothing. -/
def BaseType.AllowedUnder (dimensions : Nat) (b : BaseType) : Prop :=
  b = .void → dimensions = 0

/-- The texts that spell a signature. -/
inductive Spells : List CodePoint → Signature → Prop where
  /-- A base type as a field descriptor: a mark for each dimension, and its letter. -/
  | code (b : BaseType) (n : Nat) (allowed : b.AllowedUnder n) :
      Spells (List.replicate n (char '[') ++ [b.code]) ⟨.base b, n⟩
  /-- A class as a field descriptor: a mark for each dimension, and its name between two marks. -/
  | field (name : List CodePoint) (n : Nat) (className : ClassName (slashesToDots name)) :
      Spells (List.replicate n (char '[') ++ char 'L' :: (name ++ [char ';']))
        ⟨.named (Str.ofList (slashesToDots name)), n⟩
  /-- A base type in source form. -/
  | baseName (b : BaseType) (n : Nat) (allowed : b.AllowedUnder n) :
      Spells (b.name.toList ++ (brackets n).toList) ⟨.base b, n⟩
  /-- A class in source form, where the whole is not the letter of a base type. -/
  | className (name : List CodePoint) (n : Nat) (className : ClassName name)
      (noCode : ∀ b : BaseType, name ++ (brackets n).toList ≠ [b.code]) :
      Spells (name ++ (brackets n).toList) ⟨.named (Str.ofList name), n⟩

/-- A signature that has a spelling: a base type, a class under a dotted name that is not the name
of a base type, or arrays of these, but no arrays of nothing. -/
inductive Signature.IsProper : Signature → Prop where
  | base (b : BaseType) (n : Nat) (allowed : b.AllowedUnder n) : IsProper ⟨.base b, n⟩
  | named (name : Str) (n : Nat) (className : ClassName name.toList) :
      IsProper ⟨.named name, n⟩

theorem Spells.isProper {cs : List CodePoint} {s : Signature} (h : Spells cs s) : s.IsProper := by
  cases h with
  | code b n allowed => exact .base b n allowed
  | field name n className => exact .named _ n (by simpa using className)
  | baseName b n allowed => exact .base b n allowed
  | className name n className => exact .named _ n (by simpa using className)

/-! ## §3 Characters of spellings -/

instance (c : CodePoint) : Decidable (BeginsIdentifier c) :=
  inferInstanceAs (Decidable (_ ∨ _))

instance (c : CodePoint) : Decidable (ContinuesIdentifier c) :=
  inferInstanceAs (Decidable (_ ∨ _))

/-- A character of ASCII that is neither blank nor a control character. -/
def IsVisible (c : CodePoint) : Prop :=
  0x20 < c.toNat ∧ c.toNat < 0x7F

theorem isBlank_of_isVisible {c : CodePoint} (h : IsVisible c) : c.satisfies isBlank = false := by
  obtain ⟨hlow, hhigh⟩ := h
  cases c with
  | half place => rfl
  | char c =>
    change 0x20 < c.toNat at hlow
    change c.toNat < 0x7F at hhigh
    have hwhite : isWhiteSpace c = false := by
      simp [isWhiteSpace, whiteSpaceRanges, CodeRange.contains]
      omega
    have hseparator : separatorRange.contains c.toNat = false := by
      rw [CodeRange.contains, Bool.and_eq_false_iff, decide_eq_false_iff_not,
        decide_eq_false_iff_not]
      simp only [separatorRange]
      omega
    rw [CodePoint.satisfies, isBlank, hwhite, hseparator, Bool.or_false]

theorem ContinuesIdentifier.isVisible {c : CodePoint} (h : ContinuesIdentifier c) :
    IsVisible c := by
  simp only [ContinuesIdentifier, BeginsIdentifier, CodePoint.le_def] at h
  rcases h with (h | h | rfl | rfl) | h
  · exact ⟨Nat.lt_of_lt_of_le (by decide) h.1, Nat.lt_of_le_of_lt h.2 (by decide)⟩
  · exact ⟨Nat.lt_of_lt_of_le (by decide) h.1, Nat.lt_of_le_of_lt h.2 (by decide)⟩
  · exact ⟨by decide, by decide⟩
  · exact ⟨by decide, by decide⟩
  · exact ⟨Nat.lt_of_lt_of_le (by decide) h.1, Nat.lt_of_le_of_lt h.2 (by decide)⟩

theorem Identifier.continues {s : List CodePoint} (h : Identifier s) :
    ∀ c ∈ s, ContinuesIdentifier c := by
  obtain ⟨first, others⟩ := h
  exact List.forall_mem_cons.mpr ⟨.inl first, others⟩

/-- No mark of a spelling is in an identifier. -/
theorem Identifier.not_mem {s : List CodePoint} (h : Identifier s) {d : CodePoint}
    (hd : ¬ContinuesIdentifier d) : d ∉ s :=
  fun hmem => hd (h.continues d hmem)

theorem DottedName.chars {name : List CodePoint} (h : DottedName name) :
    ∀ c ∈ name, ContinuesIdentifier c ∨ c = '.' := by
  induction h with
  | single identifier => exact fun c hc => .inl (identifier.continues c hc)
  | cons identifier more ih =>
    intro c hc
    rcases List.mem_append.mp hc with hfirst | hrest
    · exact .inl (identifier.continues c hfirst)
    · rcases List.mem_cons.mp hrest with rfl | hrest
      · exact .inr rfl
      · exact ih c hrest

/-- A dotted name begins as an identifier does. -/
theorem DottedName.begins {name : List CodePoint} (h : DottedName name) :
    ∃ c rest, name = c :: rest ∧ BeginsIdentifier c := by
  cases h with
  | single identifier =>
    obtain ⟨first, -⟩ := identifier
    exact ⟨_, _, rfl, first⟩
  | cons identifier more =>
    obtain ⟨first, -⟩ := identifier
    exact ⟨_, _, rfl, first⟩

/-! ## §4 Tests of names -/

/-- The letters of ASCII, in the order of characters. -/
theorem isAlpha_iff {c : Char} :
    c.isAlpha = true ↔ ('A' ≤ c ∧ c ≤ 'Z') ∨ ('a' ≤ c ∧ c ≤ 'z') := by
  have hletters : c.isAlpha =
      (decide ('A' ≤ c ∧ c ≤ 'Z') || (decide ('a' ≤ c) && decide (c ≤ 'z'))) := rfl
  rw [hletters, Bool.or_eq_true, Bool.and_eq_true]
  simp only [decide_eq_true_eq]

theorem CodePoint.char_le_char {c d : Char} : (c : CodePoint) ≤ d ↔ c ≤ d := by
  rw [Char.le_def, UInt32.le_iff_toNat_le]
  exact CodePoint.le_def

/-- What may continue an identifier is a character. -/
theorem not_continuesIdentifier_half (place : Fin 0x800) : ¬ContinuesIdentifier (.half place) := by
  have hbound : ∀ c : Char, c.toNat < firstHalf → ¬CodePoint.half place ≤ c := fun c hc hle =>
    Nat.not_lt.mpr (Nat.le_trans (Nat.le_add_right _ _) (CodePoint.le_def.mp hle)) hc
  rintro ((⟨-, h⟩ | ⟨-, h⟩ | h | h) | ⟨-, h⟩)
  · exact hbound 'Z' (by decide) h
  · exact hbound 'z' (by decide) h
  · cases h
  · cases h
  · exact hbound '9' (by decide) h

theorem isIdentifierStart_iff {c : CodePoint} :
    c.satisfies isIdentifierStart = true ↔ BeginsIdentifier c := by
  cases c with
  | half place =>
    exact iff_of_false Bool.false_ne_true fun h => not_continuesIdentifier_half place (.inl h)
  | char c =>
    simp only [CodePoint.satisfies, isIdentifierStart, BeginsIdentifier, isAlpha_iff,
      Bool.or_eq_true, beq_iff_eq, or_assoc, CodePoint.char_le_char, CodePoint.char.injEq]

theorem isIdentifierRest_iff {c : CodePoint} :
    c.satisfies isIdentifierRest = true ↔ ContinuesIdentifier c := by
  cases c with
  | half place => exact iff_of_false Bool.false_ne_true (not_continuesIdentifier_half place)
  | char c =>
    have hstart : isIdentifierStart c = true ↔ BeginsIdentifier c :=
      isIdentifierStart_iff (c := .char c)
    simp [CodePoint.satisfies, isIdentifierRest, ContinuesIdentifier, hstart, Char.isDigit,
      CodePoint.char_le_char, Char.le_def]

theorem isIdentifier_iff {s : List CodePoint} : isIdentifier s = true ↔ Identifier s := by
  constructor
  · intro h
    cases s with
    | nil => cases h
    | cons c rest =>
      simp only [isIdentifier, Bool.and_eq_true, List.all_eq_true, isIdentifierStart_iff,
        isIdentifierRest_iff] at h
      exact ⟨h.1, h.2⟩
  · rintro ⟨first, others⟩
    simpa [isIdentifier, isIdentifierStart_iff, isIdentifierRest_iff] using ⟨first, others⟩

theorem firstBadSegment?_eq_none_iff {position : ℕ} {segments : List (List CodePoint)} :
    firstBadSegment? position segments = none ↔ ∀ s ∈ segments, Identifier s := by
  induction segments generalizing position with
  | nil => simp [firstBadSegment?]
  | cons s rest ih =>
    rw [firstBadSegment?, List.forall_mem_cons, ← isIdentifier_iff]
    split
    · rw [ih]
      exact (and_iff_right ‹_›).symm
    · simp_all

/-- A name is dotted exactly if its parts between dots are identifiers. -/
theorem dottedName_iff {name : List CodePoint} :
    DottedName name ↔ ∀ s ∈ splitAt (char '.') name, Identifier s := by
  constructor
  · intro h
    induction h with
    | single identifier =>
      rw [splitAt_of_not_mem (identifier.not_mem (by decide))]
      exact List.forall_mem_singleton.mpr identifier
    | cons identifier more ih =>
      rw [splitAt_append (identifier.not_mem (by decide))]
      exact List.forall_mem_cons.mpr ⟨identifier, ih⟩
  · -- by induction on the length, a name at a time up to its first dot
    induction hlength : name.length using Nat.strongRecOn generalizing name with
    | ind n ih =>
      intro h
      by_cases hdot : char '.' ∈ name
      · obtain ⟨s, rest, rfl, hs⟩ := List.eq_append_cons_of_mem hdot
        rw [splitAt_append hs, List.forall_mem_cons] at h
        refine .cons h.1 (ih rest.length ?_ rfl h.2)
        simp only [List.length_append, List.length_cons] at hlength
        omega
      · rw [splitAt_of_not_mem hdot] at h
        exact .single (h name List.mem_cons_self)

/-! ## §5 Tests of element types -/

namespace BaseType

theorem ofName?_eq_some_iff {s : Str} {b : BaseType} : ofName? s = some b ↔ s = b.name := by
  constructor
  · intro h
    rw [ofName?] at h
    have hname := List.find?_some h
    exact (beq_iff_eq.mp hname).symm
  · rintro rfl
    exact ofName?_name b

theorem ofName?_eq_none_iff {s : Str} : ofName? s = none ↔ ∀ b : BaseType, s ≠ b.name := by
  rw [Option.eq_none_iff_forall_ne_some]
  exact forall_congr' fun b => not_congr ofName?_eq_some_iff

theorem ofCode?_eq_some_iff {c : CodePoint} {b : BaseType} : ofCode? c = some b ↔ c = b.code := by
  constructor
  · intro h
    rw [ofCode?] at h
    have hcode := List.find?_some h
    exact (beq_iff_eq.mp hcode).symm
  · rintro rfl
    exact ofCode?_code b

end BaseType

theorem namedElement_eq_ok_iff {position : ℕ} {name : List CodePoint} {e : ElementType} :
    namedElement position name = .ok e ↔ DottedName name ∧ e = .named (Str.ofList name) := by
  rw [namedElement, dottedName_iff, ← @firstBadSegment?_eq_none_iff position]
  split
  · simp_all
  · simp_all [eq_comm]

/-- A class name is what is left when base types are told apart from names. -/
theorem className_iff {name : List CodePoint} :
    ClassName name ↔ BaseType.ofName? (Str.ofList name) = none ∧ DottedName name := by
  have hname : ∀ b : BaseType, name = b.name.toList ↔ Str.ofList name = b.name := fun b =>
    ⟨fun h => by rw [h, Str.ofList_toList], fun h => by rw [← h, Str.toList_ofList]⟩
  rw [BaseType.ofName?_eq_none_iff]
  constructor
  · rintro ⟨dotted, notBase⟩
    exact ⟨fun b h => notBase b ((hname b).mpr h), dotted⟩
  · rintro ⟨notBase, dotted⟩
    exact ⟨dotted, fun b h => notBase b ((hname b).mp h)⟩

end AnnoTree
