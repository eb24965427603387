import AnnoTree.Proofs.Json.RoundTrip
import AnnoTree.Proofs.Json.WellFormed
import AnnoTree.Proofs.Loading.Layout
import AnnoTree.Proofs.Octets
import AnnoTree.Proofs.Storage.Lines
import AnnoTree.Storage.Appending

/-!
# The text of a row

No control character stands in the text of a stored value: those of strings are escaped, and
nothing else writes any. An object begins and ends with a brace, so nothing is stripped from its
row, and what is read is the object. The row of a value that is not well-formed is never written.

## Main definitions

- `Json.rowChars`, `Json.row`: the characters of a row, and the row with its line feed.

## Main statements

- `Json.noControls_chars`: the text of a stored value has no control characters.
- `Json.rowOctets_eq`, `Json.rowOctets_eq_error`: what is written of a value.
- `Json.readChars_rowChars`: the row of an object is read as that object.
-/

namespace AnnoTree.Json

open AnnoTree.Text AnnoTree.Double
open CodePoint (char)

/-! ## §1 Strings and numbers -/

theorem noControls_hexDigits (width n : ℕ) : NoControls ((hexDigits width n).map .char) := by
  have hdigit : ∀ m < 16, 0x20 ≤ (hexDigit m).toNat := by
    decide
  induction width generalizing n with
  | zero => exact List.forall_mem_nil _
  | succ w ih =>
    rw [hexDigits, List.map_append]
    refine (ih (n / 16)).append ?_
    exact List.forall_mem_singleton.mpr (hdigit _ (Nat.mod_lt n (by decide)))

theorem noControls_escapedChar (c : CodePoint) : NoControls (escapedChar c) := by
  have hescaped := escapedAs c
  generalize escapedChar c = cs at hescaped ⊢
  cases hescaped with
  | short _ _ visible =>
    rw [NoControls, List.forall_mem_cons, List.forall_mem_singleton]
    exact ⟨by decide, visible⟩
  | unit _ =>
    -- a code unit is made of hexadecimal digits
    have hmark : NoControls [char '\\', char 'u'] := by
      simp [NoControls, CodePoint.toNat]
    exact hmark.append (noControls_hexDigits 4 c.toNat)
  | plain _ _ noControl => exact List.forall_mem_singleton.mpr (Nat.le_of_not_lt noControl)

theorem noControls_stringChars (s : Str) : NoControls (stringChars s) := by
  have hquote : NoControls [char '"'] := by
    simp [NoControls, CodePoint.toNat]
  have hbody : NoControls (s.toList.flatMap escapedChar) := by
    intro c hc
    obtain ⟨d, -, hmem⟩ := List.mem_flatMap.mp hc
    exact noControls_escapedChar d c hmem
  exact hquote.append (hbody.append hquote)

theorem AllDigits.noControls {ds : List Char} (h : AllDigits ds) : NoControls (ds.map .char) := by
  rw [noControls_map]
  intro c hc
  have hdigit := h c hc
  simp only [Char.isDigit, Bool.and_eq_true, decide_eq_true_eq] at hdigit
  have hleast : 48 ≤ c.toNat := hdigit.1
  omega

theorem IsNumeral.noControls {text : List Char} {value : ℚ} (h : IsNumeral text value) :
    NoControls (text.map .char) := by
  obtain @⟨ds, fs, e, hds, hfs, -⟩ := h
  have hfraction : NoControls ((fractionText fs).map .char) := by
    unfold fractionText
    split
    · exact List.forall_mem_nil _
    · have hpoint : NoControls [char '.'] := by
        simp [NoControls, CodePoint.toNat]
      exact hpoint.append hfs.noControls
  have hexponent : NoControls ((exponentMark e).map .char) := by
    cases e with
    | none => exact List.forall_mem_nil _
    | some e =>
      have hmark : NoControls (['e', if e < 0 then '-' else '+'].map .char) := by
        split <;> simp [NoControls, CodePoint.toNat]
      rw [exponentMark, exponentText_eq]
      exact hmark.append (allDigits_exponentDigits e).noControls
  rw [List.map_append, List.map_append]
  exact hds.digits.noControls.append (hfraction.append hexponent)

theorem noControls_minus (negative : Bool) :
    NoControls ((if negative then ['-'] else []).map .char) := by
  cases negative <;> simp [NoControls, CodePoint.toNat]

theorem noControls_int (i : ℤ) : NoControls ((toString i).toList.map .char) := by
  rw [toList_toString, List.map_append]
  exact (noControls_minus _).append (allDigits_toDigits _).noControls

theorem noControls_float (x : Double) : NoControls ((x.text longNames).toList.map .char) := by
  rcases x with _ | negative | ⟨negative, mantissa, exponent, h⟩
  · simp [NoControls, CodePoint.toNat, Double.text, longNames]
  · cases negative <;> simp [NoControls, CodePoint.toNat, Double.text, longNames]
  · obtain ⟨value, hnumeral, -⟩ := isNumeral_magnitudeText h
    rw [Double.text, String.toList_ofList, List.map_append]
    exact (noControls_minus negative).append hnumeral.noControls

/-! ## §2 Values -/

section

variable {style : Style}

theorem noControls_charsList (hmark : NoControls (style.itemMark.map .char)) {items : List Json}
    (h : ∀ j ∈ items, NoControls (chars style j)) : NoControls (charsList style items) := by
  induction items with
  | nil => exact List.forall_mem_nil _
  | cons j js ih =>
    obtain ⟨hj, hjs⟩ := List.forall_mem_cons.mp h
    rw [charsList_cons]
    refine hj.append ?_
    split
    · exact List.forall_mem_nil _
    · exact hmark.append (ih hjs)

theorem noControls_charsEntries (hitem : NoControls (style.itemMark.map .char))
    (hkey : NoControls (style.keyMark.map .char)) {entries : List (Str × Json)}
    (h : ∀ e ∈ entries, NoControls (chars style e.2)) :
    NoControls (charsEntries style entries) := by
  induction entries with
  | nil => exact List.forall_mem_nil _
  | cons e es ih =>
    obtain ⟨he, hes⟩ := List.forall_mem_cons.mp h
    rw [charsEntries_cons]
    refine (((noControls_stringChars e.1).append hkey).append he).append ?_
    split
    · exact List.forall_mem_nil _
    · exact hitem.append (ih hes)

/-- **The text of a stored value has no control characters** if the marks of its style have none. -/
theorem noControls_chars (hitem : NoControls (style.itemMark.map .char))
    (hkey : NoControls (style.keyMark.map .char)) (j : Json) : NoControls (chars style j) := by
  have hbracket : ∀ c ∈ ['[', ']', '\x7b', '\x7d'], NoControls [char c] := by
    simp [NoControls, CodePoint.toNat]
  -- by induction on the value: what holds of its parts holds of the brackets around them
  induction j using induct_parts with
  | h j ih =>
    cases j with
    | null => exact noControls_map.mpr (by simp : ∀ c ∈ ['n', 'u', 'l', 'l'], 0x20 ≤ c.toNat)
    | bool b => cases b <;> simp [chars, NoControls, CodePoint.toNat]
    | int i => exact noControls_int i
    | float x => exact noControls_float x
    | string s => exact noControls_stringChars s
    | array items =>
      have hitems := noControls_charsList hitem ih
      exact (hbracket '[' (by simp)).append (hitems.append (hbracket ']' (by simp)))
    | object entries =>
      have hentries := noControls_charsEntries hitem hkey fun e he =>
        ih e.2 (List.mem_map_of_mem he)
      exact (hbracket '\x7b' (by simp)).append (hentries.append (hbracket '\x7d' (by simp)))

end

/-! ## §3 Rows of objects -/

/-- The characters of a row without its line feed. -/
def rowChars (j : Json) : List Char :=
  (j.write spaced).chars

/-- The row of a value in a file. -/
def row (j : Json) : String :=
  String.ofList (j.rowChars ++ ['\n'])

theorem toList_row (j : Json) : j.row.toList = j.rowChars ++ ['\n'] :=
  String.toList_ofList

/-- The code points of the row of a well-formed value are characters. -/
theorem map_rowChars {j : Json} (h : j.isWellFormed = true) :
    j.rowChars.map .char = chars spaced j :=
  Str.map_chars (by rwa [isWellFormed_write])

theorem ofString_row {j : Json} (h : j.isWellFormed = true) : (j.row : Str) = j.rowText := by
  refine Str.ext_toList ?_
  rw [Str.toList_ofString, toList_row, List.map_append, map_rowChars h]
  rfl

/-- What is written of a well-formed value at the end of a file is its row. -/
theorem rowOctets_eq {j : Json} (h : j.isWellFormed = true) :
    FileTree.rowOctets j = (encodeUtf8 j.row, .ok ()) := by
  rw [FileTree.rowOctets, ← ofString_row h, Str.encode_ofString]

/-- Of any other value nothing is written. -/
theorem rowOctets_eq_error {j : Json} (h : j.isWellFormed = false) :
    FileTree.rowOctets j = ([], .error .unencodable) := by
  rw [FileTree.rowOctets, Str.encode_eq_error (by rwa [isWellFormed_rowText])]

theorem noControls_rowChars (j : Json) : NoControls (j.rowChars.map .char) := by
  have hitem : NoControls (spaced.itemMark.map .char) := by
    simp [NoControls, CodePoint.toNat, spaced]
  have hkey : NoControls (spaced.keyMark.map .char) := by
    simp [NoControls, CodePoint.toNat, spaced]
  have hall : NoControls (chars spaced j) := noControls_chars hitem hkey j
  exact fun c hc => hall c (Str.mem_toList_of_mem_chars hc)

/-- The row of an object begins and ends with a brace. -/
theorem rowChars_object (entries : List (Str × Json)) :
    rowChars (.object entries) =
      '\x7b' :: ((charsEntries spaced entries).filterMap CodePoint.char? ++ ['\x7d']) := by
  simp [rowChars, write, Str.chars, chars, CodePoint.char?]

/-- Nothing is stripped from the row of an object. -/
theorem stripChars_object (entries : List (Str × Json)) :
    stripChars (rowChars (.object entries)) = rowChars (.object entries) := by
  rw [rowChars_object]
  exact stripChars_of_ends (by decide) (by decide) _

/-- **The row of an object is read as that object.** -/
theorem readChars_rowChars {j : Json} (h : IsReadable j) (hwell : j.isWellFormed = true) :
    readChars j.rowChars = .ok j := by
  rw [readChars, map_rowChars hwell]
  exact read_write spaced_isPlain h

end AnnoTree.Json
