import AnnoTree.Proofs.Json.Numbers
import AnnoTree.Proofs.Json.Strings

/-!
# Reading what was written

The text of a value in which no key comes twice and no integer is too long is read back as that
value, in every style whose marks are a comma and a colon with blanks after them. So such a text
belongs to one value only.

## Main definitions

- `Json.IsReadable`: no key comes twice in an object of a value, and no integer is too long.
- `Json.Style.IsPlain`: the marks of a style are those of the format.

## Main statements

- `Json.valueAux_chars`: a written value is read back, whatever follows it.
- `Json.read_write`: the reader undoes the writer.
- `Json.write_inj`: values with one text are one value.
-/

namespace AnnoTree.Json

open AnnoTree.Text AnnoTree.Double
open CodePoint (char)

/-! ## §1 Readable values -/

/-- In no object of a value does a key come twice, and no integer has too many digits to be read. -/
inductive IsReadable : Json → Prop where
  | null : IsReadable .null
  | bool (b : Bool) : IsReadable (.bool b)
  | int {i : Int} (short : isTooLong i = false) : IsReadable (.int i)
  | float (x : Double) : IsReadable (.float x)
  | string (s : Str) : IsReadable (.string s)
  | array {items : List Json} (each : ∀ j ∈ items, IsReadable j) : IsReadable (.array items)
  | object {entries : List (Str × Json)} (keys : (Entries.keys entries).Nodup)
      (each : ∀ e ∈ entries, IsReadable e.2) : IsReadable (.object entries)

theorem insert_of_not_mem {key : Str} {value : Json} {entries : List (Str × Json)}
    (h : key ∉ Entries.keys entries) :
    Entries.insert key value entries = entries ++ [(key, value)] := by
  induction entries with
  | nil => rfl
  | cons e rest ih =>
    simp only [Entries.keys, List.map_cons, List.mem_cons, not_or] at h
    have hkey : (e.1 == key) = false := beq_eq_false_iff_ne.mpr (Ne.symm h.1)
    rw [Entries.insert, hkey, if_neg Bool.false_ne_true, ih h.2, List.cons_append]

theorem insertAll_of_nodup {entries additions : List (Str × Json)}
    (h : (Entries.keys (entries ++ additions)).Nodup) :
    Entries.insertAll entries additions = entries ++ additions := by
  -- by induction on the additions, for any entries that are there already
  induction additions generalizing entries with
  | nil => exact (List.append_nil entries).symm
  | cons e rest ih =>
    have hkey : e.1 ∉ Entries.keys entries := by
      simp only [Entries.keys, List.map_append, List.map_cons] at h
      exact fun hmem => (List.nodup_append.mp h).2.2 e.1 hmem e.1 List.mem_cons_self rfl
    have hstep : Entries.insertAll entries (e :: rest) =
        Entries.insertAll (Entries.insert e.1 e.2 entries) rest := rfl
    rw [hstep, insert_of_not_mem hkey, ih (by rwa [List.append_assoc]), List.append_assoc]
    rfl

/-- Entries with distinct keys are kept as they come. -/
theorem ofList_of_nodup {entries : List (Str × Json)} (h : (Entries.keys entries).Nodup) :
    Entries.ofList entries = entries :=
  insertAll_of_nodup h

/-! ## §2 Marks -/

/-- The marks of a style are those of the format, with blanks after them. -/
structure Style.IsPlain (style : Style) : Prop where
  item : ∃ blanks, (∀ c ∈ blanks, isSpace c = true) ∧
    style.itemMark.map CodePoint.char = .char ',' :: blanks
  key : ∃ blanks, (∀ c ∈ blanks, isSpace c = true) ∧
    style.keyMark.map CodePoint.char = .char ':' :: blanks

theorem compact_isPlain : compact.IsPlain :=
  ⟨⟨[], List.forall_mem_nil _, rfl⟩, ⟨[], List.forall_mem_nil _, rfl⟩⟩

theorem spaced_isPlain : spaced.IsPlain :=
  ⟨⟨[' '], List.forall_mem_singleton.mpr rfl, rfl⟩,
    ⟨[' '], List.forall_mem_singleton.mpr rfl, rfl⟩⟩

theorem skipSpace_cons {c : CodePoint} (h : isSpace c = false) (cs : List CodePoint) :
    skipSpace (c :: cs) = c :: cs := by
  simp [skipSpace, h]

theorem skipSpace_blanks {blanks : List CodePoint} (h : ∀ c ∈ blanks, isSpace c = true)
    (cs : List CodePoint) : skipSpace (blanks ++ cs) = skipSpace cs :=
  List.dropWhile_append_of_pos h

theorem delimited_cons {c : CodePoint} (cs : List CodePoint)
    (h : isDigit c = false ∧ c ≠ '.' ∧ c ≠ 'e' ∧ c ≠ 'E') : Delimited (c :: cs) := by
  intro d hd
  obtain rfl : c = d := Option.some.inj hd
  exact h

theorem delimited_nil : Delimited [] :=
  fun _ h => absurd h (Option.not_mem_none _)

/-! ## §3 First characters -/

/-- A character begins a name or a number. -/
def BeginsAtom (c : CodePoint) : Prop :=
  isDigit c = true ∨ c ∈ (['n', 't', 'f', 'N', 'I', '-'] : List CodePoint)

instance (c : CodePoint) : Decidable (BeginsAtom c) := by
  unfold BeginsAtom
  infer_instance

theorem BeginsAtom.ne {c d : CodePoint} (h : BeginsAtom c) (hd : ¬BeginsAtom d) : c ≠ d := by
  rintro rfl
  exact hd h

/-- A character begins a value. -/
def BeginsValue (c : CodePoint) : Prop :=
  BeginsAtom c ∨ c ∈ (['"', '[', '\x7b'] : List CodePoint)

instance (c : CodePoint) : Decidable (BeginsValue c) := by
  unfold BeginsValue
  infer_instance

theorem BeginsValue.isSpace_eq_false {c : CodePoint} (h : BeginsValue c) : isSpace c = false := by
  by_contra hspace
  simp only [isSpace, Bool.not_eq_false, Bool.or_eq_true, beq_iff_eq] at hspace
  rcases hspace with ((rfl | rfl) | rfl) | rfl
  all_goals exact absurd h (by decide)

theorem begins_int (i : Int) :
    ∃ c ∈ ((toString i).toList.map CodePoint.char).head?, BeginsAtom c := by
  obtain ⟨c, hc, hdigit⟩ := (isWhole_toDigits i.natAbs).head?
  rw [toList_toString, List.head?_map]
  split
  · exact ⟨'-', rfl, by decide⟩
  · exact ⟨c, Option.mem_map_of_mem _ hc, .inl hdigit⟩

theorem begins_float (x : Double) :
    ∃ c ∈ ((x.text longNames).toList.map CodePoint.char).head?, BeginsAtom c := by
  rcases x with _ | negative | ⟨negative, mantissa, exponent, h⟩
  · exact ⟨'N', rfl, by decide⟩
  · cases negative
    · exact ⟨'I', rfl, by decide⟩
    · exact ⟨'-', rfl, by decide⟩
  · obtain ⟨value, hnumeral, -⟩ := isNumeral_magnitudeText h
    obtain ⟨c, hc, hdigit⟩ := hnumeral.head?
    rw [Double.text, String.toList_ofList, List.head?_map]
    cases negative
    · exact ⟨c, Option.mem_map_of_mem _ hc, .inl hdigit⟩
    · exact ⟨'-', rfl, by decide⟩

/-- The first character of a written value says that a value begins. -/
theorem begins_chars (style : Style) (j : Json) :
    ∃ c ∈ (chars style j).head?, BeginsValue c := by
  have hatom : ∀ {cs : List CodePoint}, (∃ c ∈ cs.head?, BeginsAtom c) →
      ∃ c ∈ cs.head?, BeginsValue c := fun ⟨c, hc, h⟩ => ⟨c, hc, .inl h⟩
  cases j with
  | null => exact ⟨'n', rfl, by decide⟩
  | bool b =>
    cases b
    · exact ⟨'f', rfl, by decide⟩
    · exact ⟨'t', rfl, by decide⟩
  | int i => exact hatom (begins_int i)
  | float x => exact hatom (begins_float x)
  | string s => exact ⟨'"', rfl, by decide⟩
  | array items => exact ⟨'[', rfl, by decide⟩
  | object entries => exact ⟨'\x7b', rfl, by decide⟩

theorem skipSpace_chars (style : Style) (j : Json) (rest : List CodePoint) :
    skipSpace (chars style j ++ rest) = chars style j ++ rest := by
  obtain ⟨c, hhead, hc⟩ := begins_chars style j
  obtain ⟨cs, htext⟩ := List.head?_eq_some_iff.mp hhead
  rw [htext]
  exact skipSpace_cons hc.isSpace_eq_false _

/-! ## §4 Values -/

/-- A value is read back from its text, whatever follows that no numeral runs on into. -/
def ReadsBack (style : Style) (j : Json) : Prop :=
  ∀ (n : ℕ) (rest : List CodePoint), (chars style j).length < n → Delimited rest →
    valueAux n (chars style j ++ rest) = .ok (j, rest)

/-- A text that begins like a name or a number is read as one. -/
theorem valueAux_atom {cs : List CodePoint} (h : ∃ c ∈ cs.head?, BeginsAtom c) (n : ℕ)
    (rest : List CodePoint) : valueAux (n + 1) (cs ++ rest) = atom (cs ++ rest) := by
  obtain ⟨c, hhead, hc⟩ := h
  obtain ⟨cs, rfl⟩ := List.head?_eq_some_iff.mp hhead
  have hquote : c ≠ '"' := hc.ne (by decide)
  have hlist : c ≠ '[' := hc.ne (by decide)
  have hobject : c ≠ '\x7b' := hc.ne (by decide)
  simp [valueAux, hquote, hlist, hobject]

theorem ReadsBack.of_atom {style : Style} {j : Json}
    (hbegins : ∃ c ∈ (chars style j).head?, BeginsAtom c)
    (hatom : ∀ rest, Delimited rest → atom (chars style j ++ rest) = .ok (j, rest)) :
    ReadsBack style j := by
  intro n rest hn hrest
  obtain ⟨n, rfl⟩ := Nat.exists_eq_succ_of_ne_zero (Nat.ne_zero_of_lt hn)
  rw [Nat.succ_eq_add_one, valueAux_atom hbegins, hatom rest hrest]

theorem ReadsBack.string (style : Style) (s : Str) : ReadsBack style (.string s) := by
  intro n rest hn _
  obtain ⟨n, rfl⟩ := Nat.exists_eq_succ_of_ne_zero (Nat.ne_zero_of_lt hn)
  simp only [chars, stringChars, List.cons_append, List.append_assoc, List.nil_append, valueAux,
    stringBody_escaped, Except.map, Str.ofList_toList]

/-! ## §5 Arrays and objects -/

theorem charsList_cons (style : Style) (j : Json) (js : List Json) :
    charsList style (j :: js) =
      chars style j ++
        (if js = [] then [] else style.itemMark.map .char ++ charsList style js) := by
  cases js <;> simp [charsList]

theorem charsEntries_cons (style : Style) (e : Str × Json) (es : List (Str × Json)) :
    charsEntries style (e :: es) =
      stringChars e.1 ++ style.keyMark.map .char ++ chars style e.2 ++
        (if es = [] then [] else style.itemMark.map .char ++ charsEntries style es) := by
  cases es <;> simp [charsEntries]

theorem skipSpace_charsList (style : Style) {items : List Json} (hne : items ≠ [])
    (rest : List CodePoint) :
    skipSpace (charsList style items ++ rest) = charsList style items ++ rest := by
  obtain ⟨j, js, rfl⟩ := List.exists_cons_of_ne_nil hne
  rw [charsList_cons, List.append_assoc, skipSpace_chars]

theorem skipSpace_charsEntries (style : Style) {entries : List (Str × Json)}
    (hne : entries ≠ []) (rest : List CodePoint) :
    skipSpace (charsEntries style entries ++ rest) = charsEntries style entries ++ rest := by
  obtain ⟨e, es, rfl⟩ := List.exists_cons_of_ne_nil hne
  simp only [charsEntries_cons, stringChars, List.cons_append]
  exact skipSpace_cons rfl _

/-- The items of an array are read back, up to its end. -/
theorem itemsAux_charsList {style : Style} (hstyle : style.IsPlain) {items : List Json}
    (hitems : ∀ j ∈ items, ReadsBack style j) (hne : items ≠ []) {n : ℕ} (rest : List CodePoint)
    (hn : (charsList style items).length + 1 < n) :
    itemsAux n (charsList style items ++ char ']' :: rest) = .ok (items, rest) := by
  obtain ⟨blanks, hblanks, hmark⟩ := hstyle.item
  -- by induction on the items; each takes one step of the bound and at least one character
  induction items generalizing n with
  | nil => exact absurd rfl hne
  | cons j js ih =>
    obtain ⟨n, rfl⟩ := Nat.exists_eq_succ_of_ne_zero (Nat.ne_zero_of_lt hn)
    rw [charsList_cons, List.length_append] at hn
    rw [charsList_cons]
    have hj := hitems j List.mem_cons_self
    by_cases hlast : js = []
    · -- the last item is followed by the end of the array
      subst hlast
      rw [if_pos rfl, List.append_nil]
      have hread := hj n (']' :: rest) (by omega) (delimited_cons rest (by decide))
      simp only [itemsAux, hread, skipSpace_cons (by decide : isSpace ']' = false)]
    · -- any other item is followed by a comma
      rw [if_neg hlast, hmark, List.length_append, List.length_cons] at hn
      rw [if_neg hlast, hmark, List.append_assoc, List.append_assoc, List.cons_append]
      have hread := hj n (',' :: (blanks ++ (charsList style js ++ char ']' :: rest)))
        (by omega) (delimited_cons _ (by decide))
      have hrest := ih (fun k hk => hitems k (List.mem_cons_of_mem _ hk)) hlast
        (by omega : (charsList style js).length + 1 < n)
      simp only [itemsAux, hread, skipSpace_cons (by decide : isSpace ',' = false),
        skipSpace_blanks hblanks, skipSpace_charsList style hlast, hrest, Except.map]

/-- The entries of an object are read back, up to its end. -/
theorem entriesAux_charsEntries {style : Style} (hstyle : style.IsPlain)
    {entries : List (Str × Json)} (hentries : ∀ e ∈ entries, ReadsBack style e.2)
    (hne : entries ≠ []) {n : ℕ} (rest : List CodePoint)
    (hn : (charsEntries style entries).length + 1 < n) :
    entriesAux n (charsEntries style entries ++ char '\x7d' :: rest) =
      .ok (entries, rest) := by
  obtain ⟨blanks, hblanks, hmark⟩ := hstyle.item
  obtain ⟨gap, hgap, hkey⟩ := hstyle.key
  -- as for items, with the key and its mark in front of each value
  induction entries generalizing n with
  | nil => exact absurd rfl hne
  | cons e es ih =>
    obtain ⟨n, rfl⟩ := Nat.exists_eq_succ_of_ne_zero (Nat.ne_zero_of_lt hn)
    obtain ⟨key, j⟩ := e
    simp only [charsEntries_cons, List.length_append] at hn
    have hj : ReadsBack style j := hentries (key, j) List.mem_cons_self
    by_cases hlast : es = []
    · subst hlast
      have hread := hj n ('\x7d' :: rest) (by omega) (delimited_cons rest (by decide))
      simp only [charsEntries_cons, stringChars, hkey, if_true, List.cons_append,
        List.append_assoc, List.nil_append, entriesAux, stringBody_escaped,
        skipSpace_cons (by decide : isSpace ':' = false), skipSpace_blanks hgap, skipSpace_chars,
        hread, skipSpace_cons (by decide : isSpace '\x7d' = false), Str.ofList_toList]
    · rw [if_neg hlast, hmark, List.length_append, List.length_cons] at hn
      have hread := hj n
        (',' :: (blanks ++ (charsEntries style es ++ char '\x7d' :: rest)))
        (by omega) (delimited_cons _ (by decide))
      have hrest := ih (fun f hf => hentries f (List.mem_cons_of_mem _ hf)) hlast
        (by omega : (charsEntries style es).length + 1 < n)
      simp only [charsEntries_cons, stringChars, hkey, hmark, if_neg hlast, List.cons_append,
        List.append_assoc, List.nil_append, entriesAux, stringBody_escaped,
        skipSpace_cons (by decide : isSpace ':' = false), skipSpace_blanks hgap, skipSpace_chars,
        hread, skipSpace_cons (by decide : isSpace ',' = false), skipSpace_blanks hblanks,
        skipSpace_charsEntries style hlast, hrest, Except.map, Str.ofList_toList]

theorem begins_charsList (style : Style) {items : List Json} (hne : items ≠ [])
    (rest : List CodePoint) : ∃ c cs, charsList style items ++ rest = c :: cs ∧ BeginsValue c := by
  obtain ⟨j, js, rfl⟩ := List.exists_cons_of_ne_nil hne
  obtain ⟨c, hhead, hc⟩ := begins_chars style j
  obtain ⟨cs, htext⟩ := List.head?_eq_some_iff.mp hhead
  rw [charsList_cons, htext]
  exact ⟨c, _, rfl, hc⟩

theorem ReadsBack.array {style : Style} (hstyle : style.IsPlain) {items : List Json}
    (hitems : ∀ j ∈ items, ReadsBack style j) : ReadsBack style (.array items) := by
  intro n rest hn _
  obtain ⟨n, rfl⟩ := Nat.exists_eq_succ_of_ne_zero (Nat.ne_zero_of_lt hn)
  by_cases hne : items = []
  · subst hne
    rfl
  · -- the brackets leave room in the bound for the items
    simp only [chars, List.length_cons, List.length_append, List.length_nil] at hn
    have hread := itemsAux_charsList hstyle hitems hne rest
      (by omega : (charsList style items).length + 1 < n)
    have hskip := skipSpace_charsList style hne (char ']' :: rest)
    -- an item does not begin with the mark that ends an array
    obtain ⟨c, cs, htext, hc⟩ := begins_charsList style hne (char ']' :: rest)
    have hend : c ≠ ']' := by
      rintro rfl
      exact absurd hc (by decide)
    rw [htext] at hread hskip
    simp [chars, valueAux, htext, hskip, hend, hread, Except.map]

theorem ReadsBack.object {style : Style} (hstyle : style.IsPlain)
    {entries : List (Str × Json)} (hkeys : (Entries.keys entries).Nodup)
    (hentries : ∀ e ∈ entries, ReadsBack style e.2) : ReadsBack style (.object entries) := by
  intro n rest hn _
  obtain ⟨n, rfl⟩ := Nat.exists_eq_succ_of_ne_zero (Nat.ne_zero_of_lt hn)
  by_cases hne : entries = []
  · subst hne
    rfl
  · simp only [chars, List.length_cons, List.length_append, List.length_nil] at hn
    have hread := entriesAux_charsEntries hstyle hentries hne rest
      (by omega : (charsEntries style entries).length + 1 < n)
    have hskip := skipSpace_charsEntries style hne (char '\x7d' :: rest)
    -- an entry begins with the quote of its key
    obtain ⟨cs, htext⟩ :
        ∃ cs, charsEntries style entries ++ char '\x7d' :: rest = .char '"' :: cs := by
      obtain ⟨e, es, rfl⟩ := List.exists_cons_of_ne_nil hne
      simp only [charsEntries_cons, stringChars]
      exact ⟨_, rfl⟩
    rw [htext] at hread hskip
    simp [chars, valueAux, htext, hskip, hread, Except.map, ofList_of_nodup hkeys]

/-! ## §6 The reader undoes the writer -/

/-- **A written value is read back**, whatever follows it that no numeral runs on into. -/
theorem valueAux_chars {style : Style} (hstyle : style.IsPlain) {j : Json} (h : IsReadable j) :
    ReadsBack style j := by
  -- by induction on the value: atoms are read by their first character, the rest by their items
  induction h with
  | null => exact .of_atom ⟨'n', rfl, by decide⟩ fun _ _ => rfl
  | bool b =>
    cases b with
    | false => exact .of_atom ⟨'f', rfl, by decide⟩ fun _ _ => rfl
    | true => exact .of_atom ⟨'t', rfl, by decide⟩ fun _ _ => rfl
  | int hshort => exact .of_atom (begins_int _) fun _ hrest => atom_int hshort hrest
  | float x => exact .of_atom (begins_float x) fun _ hrest => atom_float x hrest
  | string s => exact .string style s
  | array _ ih => exact .array hstyle ih
  | object hkeys _ ih => exact .object hstyle hkeys ih

/-- **The reader undoes the writer.** -/
theorem read_write {style : Style} (hstyle : style.IsPlain) {j : Json} (h : IsReadable j) :
    read (write style j) = .ok j := by
  -- the reader gives itself one step more than the text has characters
  have hskip := skipSpace_chars style j []
  have hread := valueAux_chars hstyle h ((chars style j).length + 1) [] (Nat.lt_succ_self _)
    delimited_nil
  rw [List.append_nil] at hskip hread
  rw [read, write, Str.toList_ofList, readPoints, hskip, hread]
  rfl

/-- Values with one text are one value. -/
theorem write_inj {style : Style} (hstyle : style.IsPlain) {j k : Json} (hj : IsReadable j)
    (hk : IsReadable k) (h : write style j = write style k) : j = k := by
  have hread := read_write hstyle hj
  rw [h, read_write hstyle hk] at hread
  exact (Except.ok.inj hread).symm

end AnnoTree.Json
