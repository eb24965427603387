import AnnoTree.Proofs.Json.Strings
import AnnoTree.Storage.Appending
import Mathlib.Tactic.Common

/-!
# Well-formed JSON values

A JSON value is well-formed if all strings and keys in it are, so that no half of a surrogate pair
stands alone in it. What the writer adds to the strings are characters, and an escape stands for a
character only, so the texts of a value are well-formed exactly if the value is.

## Main definitions

- `Json.isWellFormed`: whether all strings and keys in a value are well-formed.

## Main statements

- `Json.isWellFormed_write`: the texts of a value are well-formed if the value is.
- `Json.isWellFormed_rowText`: so is its row.
-/

namespace AnnoTree.Json

open AnnoTree.Text

/-! ## §1 Well-formed values -/

mutual

/-- Whether all strings and keys in a value are well-formed. -/
def isWellFormed : Json → Bool
  | .string s => s.isWellFormed
  | .array items => isWellFormedList items
  | .object entries => isWellFormedEntries entries
  | .null => true
  | .bool _ => true
  | .int _ => true
  | .float _ => true
termination_by structural j => j

/-- Whether all items are well-formed. -/
def isWellFormedList : List Json → Bool
  | [] => true
  | j :: rest => isWellFormed j && isWellFormedList rest
termination_by structural js => js

/-- Whether all keys and values of entries are well-formed. -/
def isWellFormedEntries : List (Str × Json) → Bool
  | [] => true
  | (k, j) :: rest => k.isWellFormed && isWellFormed j && isWellFormedEntries rest
termination_by structural es => es

end

theorem isWellFormedList_eq_all (items : List Json) :
    isWellFormedList items = items.all isWellFormed := by
  induction items with
  | nil => rfl
  | cons j rest ih => rw [isWellFormedList, ih, List.all_cons]

theorem isWellFormedEntries_eq_all (entries : List (Str × Json)) :
    isWellFormedEntries entries = entries.all fun e => e.1.isWellFormed && e.2.isWellFormed := by
  induction entries with
  | nil => rfl
  | cons e rest ih => rw [isWellFormedEntries, ih, List.all_cons]

/-! ## §2 Written values -/

theorem all_isChar_map (cs : List Char) : (cs.map CodePoint.char).all CodePoint.isChar = true := by
  simp [CodePoint.isChar]

/-- An escape is made of characters and stands for one. -/
theorem all_isChar_escapedChar (c : CodePoint) :
    (escapedChar c).all CodePoint.isChar = c.isChar := by
  have hescaped := escapedAs c
  generalize escapedChar c = cs at hescaped ⊢
  cases hescaped with
  | short _ _ _ => rfl
  | unit isUnit =>
    cases c with
    | char c => exact all_isChar_map _
    | half place =>
      -- no half is a control character
      have hcontrol := isUnit.1
      simp only [CodePoint.toNat, firstHalf] at hcontrol
      omega
  | plain _ _ _ => exact Bool.and_true _

theorem all_isChar_stringChars (s : Str) :
    (stringChars s).all CodePoint.isChar = s.isWellFormed := by
  have hmark : CodePoint.isChar (.char '"') = true := rfl
  simp only [stringChars, List.all_cons, List.all_append, List.all_flatMap, all_isChar_escapedChar,
    List.all_nil, hmark, Bool.true_and, Bool.and_true, Str.isWellFormed]

variable (style : Style)

mutual

theorem all_isChar_chars : ∀ j, (chars style j).all CodePoint.isChar = j.isWellFormed
  | .null => rfl
  | .bool true => rfl
  | .bool false => rfl
  | .int i => all_isChar_map _
  | .float x => all_isChar_map _
  | .string s => all_isChar_stringChars s
  | .array items => by
    rw [chars, isWellFormed, ← all_isChar_charsList items]
    simp [CodePoint.isChar]
  | .object entries => by
    rw [chars, isWellFormed, ← all_isChar_charsEntries entries]
    simp [CodePoint.isChar]
termination_by structural j => j

theorem all_isChar_charsList :
    ∀ items, (charsList style items).all CodePoint.isChar = isWellFormedList items
  | [] => rfl
  | [j] => by
    rw [charsList, isWellFormedList, isWellFormedList, all_isChar_chars j, Bool.and_true]
  | j :: k :: rest => by
    rw [isWellFormedList, ← all_isChar_charsList (k :: rest), ← all_isChar_chars j]
    simp only [charsList, List.all_append, all_isChar_map, Bool.and_true]
termination_by structural items => items

theorem all_isChar_charsEntries :
    ∀ entries, (charsEntries style entries).all CodePoint.isChar = isWellFormedEntries entries
  | [] => rfl
  | [(k, j)] => by
    rw [isWellFormedEntries, isWellFormedEntries, ← all_isChar_chars j, ← all_isChar_stringChars]
    simp only [charsEntries, List.all_append, all_isChar_map, Bool.and_true]
  | (k, j) :: e :: rest => by
    rw [isWellFormedEntries, ← all_isChar_charsEntries (e :: rest), ← all_isChar_chars j,
      ← all_isChar_stringChars]
    simp only [charsEntries, List.all_append, all_isChar_map, Bool.and_true]
termination_by structural entries => entries

end

/-- **The texts of a value are well-formed** exactly if the value is. -/
theorem isWellFormed_write (j : Json) : (j.write style).isWellFormed = j.isWellFormed :=
  all_isChar_chars style j

/-- The row of a value is well-formed exactly if the value is. -/
theorem isWellFormed_rowText (j : Json) : j.rowText.isWellFormed = j.isWellFormed := by
  rw [← isWellFormed_write spaced, rowText, Str.isWellFormed, Str.toList_append, List.all_append]
  exact Bool.and_true _

end AnnoTree.Json
