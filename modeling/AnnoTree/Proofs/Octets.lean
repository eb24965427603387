import AnnoTree.Failure
import Mathlib.Tactic.Common

/-!
# Octets of texts

The texts that have octets are the well-formed ones, which are those that strings are. A text can
be told from its octets, and the octets of a text that goes on are those of its parts, one after
another.

## Main statements

- `Str.isWellFormed_iff`: a text is well-formed if it is a string.
- `Str.encode_ofString`, `Str.encode_eq_error`: what encoding gives.
- `Str.encode_inj`: a text can be told from its octets.
-/

namespace AnnoTree

open AnnoTree.Text

/-! ## §1 Octets of strings -/

namespace Text

/-- The octets of a text are those that the string is made of. -/
theorem encodeUtf8_eq (s : String) : encodeUtf8 s = s.toByteArray.data.toList := by
  have hbytes : s.toList.utf8Encode = s.toByteArray :=
    congrArg String.toByteArray String.ofList_toList
  rw [← hbytes, List.utf8Encode, List.data_toByteArray]
  rfl

/-- A string can be told from its octets. -/
theorem encodeUtf8_inj {s t : String} (h : encodeUtf8 s = encodeUtf8 t) : s = t := by
  rw [encodeUtf8_eq, encodeUtf8_eq] at h
  exact String.toByteArray_inj.mp (ByteArray.ext (Array.toList_inj.mp h))

theorem encodeUtf8_append (s t : String) : encodeUtf8 (s ++ t) = encodeUtf8 s ++ encodeUtf8 t := by
  rw [encodeUtf8, String.toList_append, List.flatMap_append]
  rfl

end Text

/-! ## §2 Well-formed texts -/

namespace Str

variable {s t : Str}

theorem isWellFormed_append :
    (s ++ t).isWellFormed = true ↔ s.isWellFormed = true ∧ t.isWellFormed = true := by
  simp only [isWellFormed, toList_append, List.all_append, Bool.and_eq_true]

@[simp] theorem isWellFormed_ofString (t : String) : (t : Str).isWellFormed = true := by
  simp [isWellFormed, CodePoint.isChar]

@[simp] theorem chars_ofString (t : String) : (t : Str).chars = t.toList := by
  rw [chars, toList_ofString, List.filterMap_map]
  exact List.filterMap_some

/-- The characters of a text are among its code points. -/
theorem mem_toList_of_mem_chars {c : CodePoint} (h : c ∈ s.chars.map .char) : c ∈ s.toList := by
  obtain ⟨d, hd, rfl⟩ := List.mem_map.mp h
  obtain ⟨e, he, hchar⟩ := List.mem_filterMap.mp hd
  cases e with
  | char e =>
    cases hchar
    exact he
  | half place => cases hchar

/-- All code points of a well-formed text are characters. -/
theorem map_chars (h : s.isWellFormed = true) : s.chars.map .char = s.toList := by
  obtain ⟨cs⟩ := s
  -- each code point is the character that it gives
  induction cs with
  | nil => rfl
  | cons c cs ih =>
    rw [isWellFormed, toList_ofList, List.all_cons, Bool.and_eq_true] at h
    cases c with
    | char c => exact congrArg (CodePoint.char c :: ·) (ih h.2)
    | half place => cases h.1

theorem string?_ofString (t : String) : (t : Str).string? = some t := by
  rw [string?, isWellFormed_ofString, if_pos rfl, chars_ofString, String.ofList_toList]

/-- **The well-formed texts are strings.** -/
theorem isWellFormed_iff : s.isWellFormed = true ↔ ∃ t : String, s = t := by
  constructor
  · intro h
    refine ⟨String.ofList s.chars, ext_toList ?_⟩
    rw [toList_ofString, String.toList_ofList, map_chars h]
  · rintro ⟨t, rfl⟩
    exact isWellFormed_ofString t

/-! ## §3 Encoding -/

@[simp] theorem encode_ofString (t : String) : (t : Str).encode = .ok (encodeUtf8 t) := by
  rw [encode, string?_ofString]

theorem encode_eq_error (h : s.isWellFormed = false) : s.encode = .error .unencodable := by
  rw [encode, string?, h]
  rfl

theorem exists_encode_eq_ok (h : s.isWellFormed = true) : ∃ octets, s.encode = .ok octets := by
  obtain ⟨t, rfl⟩ := isWellFormed_iff.mp h
  exact ⟨_, encode_ofString t⟩

theorem encode_eq_ok_iff {octets : List Octet} :
    s.encode = .ok octets ↔ ∃ t : String, s = t ∧ octets = encodeUtf8 t := by
  constructor
  · intro h
    cases hwell : s.isWellFormed with
    | true =>
      obtain ⟨t, rfl⟩ := isWellFormed_iff.mp hwell
      rw [encode_ofString] at h
      exact ⟨t, rfl, (Except.ok.inj h).symm⟩
    | false =>
      rw [encode_eq_error hwell] at h
      cases h
  · rintro ⟨t, rfl, rfl⟩
    exact encode_ofString t

/-- **A text can be told from its octets.** -/
theorem encode_inj {octets : List Octet} (hs : s.encode = .ok octets)
    (ht : t.encode = .ok octets) : s = t := by
  obtain ⟨u, rfl, rfl⟩ := encode_eq_ok_iff.mp hs
  obtain ⟨v, rfl, heq⟩ := encode_eq_ok_iff.mp ht
  rw [encodeUtf8_inj heq]

theorem encode_append {front back : List Octet} (hs : s.encode = .ok front)
    (ht : t.encode = .ok back) : (s ++ t).encode = .ok (front ++ back) := by
  obtain ⟨u, rfl, rfl⟩ := encode_eq_ok_iff.mp hs
  obtain ⟨v, rfl, rfl⟩ := encode_eq_ok_iff.mp ht
  -- both texts are strings, so the whole is one
  have happend : (u : Str) ++ (v : Str) = ((u ++ v : String) : Str) :=
    ext_toList (by simp)
  rw [happend, encode_ofString, encodeUtf8_append]

end Str

end AnnoTree
