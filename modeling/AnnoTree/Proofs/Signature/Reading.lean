import AnnoTree.Proofs.Results
import AnnoTree.Proofs.Signature.Grammar
import Mathlib.Data.List.TakeWhile
import Mathlib.Tactic.Common

/-!
# Reading type descriptors

The reader accepts exactly the grammar. Which of the two spellings a text is to be read as is told
by its first and last characters; the two readers then agree with the grammar each for its own
spelling.

## Main statements

- `parseField_sound`, `parseSource_sound`: what is read is spelled.
- `Spells.parse`: what is spelled is read.
- `Spells.visible`: spellings have no blanks around them.
- `parse_accepts_grammar`: the reader accepts exactly the grammar, and gives all proper signatures.
-/

namespace AnnoTree

open AnnoTree.Text
open CodePoint (char)

/-! ## §1 Field descriptors -/

theorem slashesToDots_mem {name : List CodePoint} {d : CodePoint} (hd : d ≠ '/') (h : d ∈ name) :
    d ∈ slashesToDots name :=
  List.mem_map.mpr ⟨d, h, if_neg hd⟩

/-- The mark after a class name is not in it. -/
theorem ClassName.not_mem_semicolon {name : List CodePoint} (h : ClassName (slashesToDots name)) :
    char ';' ∉ name := by
  intro hmem
  rcases h.dotted.chars _ (slashesToDots_mem (by decide) hmem) with hchar | hchar
  · exact absurd hchar (by decide)
  · exact absurd hchar (by decide)

theorem fieldElement_code {b : BaseType} {n : ℕ} (h : b.AllowedUnder n) :
    fieldElement n [b.code] = .ok (.base b) := by
  have hvoid : ¬(b = .void ∧ n ≠ 0) := fun hb => hb.2 (h hb.1)
  have hcode : b.code ≠ 'L' := by cases b <;> decide
  rw [fieldElement]
  · simp [BaseType.ofCode?_code, hvoid]
  · exact hcode

/-- A name between the marks of a class is read as a dotted one. -/
theorem fieldElement_named {name : List CodePoint} (n : ℕ) (hnonempty : name ≠ [])
    (hunmarked : char ';' ∉ name)
    (hbase : BaseType.ofName? (Str.ofList (slashesToDots name)) = none) :
    fieldElement n ('L' :: (name ++ [char ';'])) = namedElement (n + 1) (slashesToDots name) := by
  have hbefore : ∀ c ∈ name, (c != ';') = true := by
    intro c hc
    rw [bne_iff_ne]
    rintro rfl
    exact hunmarked hc
  have htake : (name ++ [char ';']).takeWhile (· != char ';') = name := by
    simp [List.takeWhile_append_of_pos hbefore]
  have hdrop : (name ++ [char ';']).dropWhile (· != char ';') = [char ';'] := by
    simp [List.dropWhile_append_of_pos hbefore]
  rw [fieldElement]
  simp only [htake, hdrop]
  rw [if_neg (by simpa using hnonempty)]
  rw [slashesToDots] at hbase ⊢
  rw [hbase]

theorem fieldElement_class {name : List CodePoint} (n : ℕ) (h : ClassName (slashesToDots name)) :
    fieldElement n ('L' :: (name ++ [char ';'])) =
      .ok (.named (Str.ofList (slashesToDots name))) := by
  have hnonempty : name ≠ [] := by
    rintro rfl
    obtain ⟨c, rest, hcons, -⟩ := h.dotted.begins
    cases hcons
  obtain ⟨hbase, hdotted⟩ := className_iff.mp h
  rw [fieldElement_named n hnonempty h.not_mem_semicolon hbase]
  exact namedElement_eq_ok_iff.mpr ⟨hdotted, rfl⟩

/-- What is left after a name that runs up to a semicolon begins with one. -/
theorem takeWhile_append_semicolon {rest : List CodePoint} {d : CodePoint}
    (h : rest.dropWhile (· != char ';') = [d]) :
    rest.takeWhile (· != char ';') ++ [char ';'] = rest := by
  have hd : d = ';' := by
    have hfirst := List.head?_dropWhile_not (· != char ';') rest
    simpa [h] using hfirst
  have hwhole := List.takeWhile_append_dropWhile (p := (· != char ';')) (l := rest)
  rwa [h, hd] at hwhole

/-- A class that is read stands between its marks, and nothing stands behind them. -/
theorem fieldElement_class_inv {n : ℕ} {rest : List CodePoint} {e : ElementType}
    (h : fieldElement n ('L' :: rest) = .ok e) :
    ∃ name, rest = name ++ [char ';'] ∧ ClassName (slashesToDots name) ∧
      e = .named (Str.ofList (slashesToDots name)) := by
  rw [fieldElement] at h
  dsimp only at h
  cases hdrop : rest.dropWhile (· != char ';') with
  | nil =>
    rw [hdrop] at h
    cases h
  | cons d more =>
    cases more with
    | cons _ _ =>
      rw [hdrop] at h
      cases h
    | nil =>
      simp only [hdrop] at h
      -- the name is not empty, and not that of a base type
      split at h
      · cases h
      split at h
      · cases h
      case h_2 hnone =>
        obtain ⟨hdotted, rfl⟩ := namedElement_eq_ok_iff.mp h
        exact ⟨_, (takeWhile_append_semicolon hdrop).symm, className_iff.mpr ⟨hnone, hdotted⟩, rfl⟩

/-- A base type that is read is its letter alone, and may be under the dimensions. -/
theorem fieldElement_code_inv {n : ℕ} {c : CodePoint} {rest : List CodePoint} {e : ElementType}
    (hc : c ≠ 'L') (h : fieldElement n (c :: rest) = .ok e) :
    ∃ b : BaseType, c = b.code ∧ rest = [] ∧ b.AllowedUnder n ∧ e = .base b := by
  rw [fieldElement] at h
  · split at h
    · cases h
    case h_2 b hb =>
      split at h
      · cases h
      case isFalse hempty =>
        split at h
        · cases h
        case isFalse hvoid =>
          cases h
          refine ⟨b, BaseType.ofCode?_eq_some_iff.mp hb, by simpa using hempty, ?_, rfl⟩
          exact fun hb => by_contra fun hn => hvoid ⟨hb, hn⟩
  · exact hc

/-- What is read as the rest of a field descriptor is spelled by it. -/
theorem fieldElement_sound {n : ℕ} {cs : List CodePoint} {e : ElementType}
    (h : fieldElement n cs = .ok e) : Spells (List.replicate n (char '[') ++ cs) ⟨e, n⟩ := by
  cases cs with
  | nil => cases h
  | cons c rest =>
    by_cases hc : c = 'L'
    · subst hc
      obtain ⟨name, rfl, hclass, rfl⟩ := fieldElement_class_inv h
      exact .field name n hclass
    · obtain ⟨b, rfl, rfl, hallowed, rfl⟩ := fieldElement_code_inv hc h
      exact .code b n hallowed

theorem takeWhile_eq_replicate (cs : List CodePoint) :
    cs.takeWhile (· == char '[') =
      List.replicate (cs.takeWhile (· == char '[')).length (char '[') := by
  refine List.eq_replicate_iff.mpr ⟨rfl, fun c hc => ?_⟩
  have hmark := List.mem_takeWhile_imp hc
  exact beq_iff_eq.mp hmark

/-- **What is read as a field descriptor is spelled.** -/
theorem parseField_sound {cs : List CodePoint} {s : Signature} (h : parseField cs = .ok s) :
    Spells cs s := by
  rw [parseField] at h
  cases helement : fieldElement (cs.takeWhile (· == char '[')).length
      (cs.dropWhile (· == char '[')) with
  | error f =>
    rw [helement] at h
    cases h
  | ok e =>
    rw [helement] at h
    cases h
    have hspells := fieldElement_sound helement
    rwa [← takeWhile_eq_replicate, List.takeWhile_append_dropWhile] at hspells

/-- Marks in front of what does not begin with one are counted. -/
theorem parseField_replicate (n : ℕ) {cs : List CodePoint} (h : cs.head? ≠ some (char '[')) :
    parseField (List.replicate n (char '[') ++ cs) = (fieldElement n cs).map (⟨·, n⟩) := by
  have hmarks : ∀ c ∈ List.replicate n (char '['), (c == '[') = true := by
    intro c hc
    rw [List.eq_of_mem_replicate hc]
    rfl
  have hstop : cs.takeWhile (· == char '[') = [] ∧ cs.dropWhile (· == char '[') = cs := by
    cases cs with
    | nil => exact ⟨rfl, rfl⟩
    | cons c rest =>
      have hc : (c == '[') = false := by simpa using h
      simp [hc]
  rw [parseField, List.takeWhile_append_of_pos hmarks, List.dropWhile_append_of_pos hmarks,
    hstop.1, hstop.2, List.append_nil, List.length_replicate]

/-! ## §2 Source forms -/

theorem toList_brackets_succ (n : ℕ) :
    (brackets (n + 1)).toList = char '[' :: char ']' :: (brackets n).toList := by
  rw [brackets, Str.toList_append]
  rfl

/-- Brackets can be taken from either end. -/
theorem toList_brackets_concat (n : ℕ) :
    (brackets (n + 1)).toList = (brackets n).toList ++ [char '[', char ']'] := by
  induction n with
  | zero => rfl
  | succ n ih => simpa [toList_brackets_succ] using ih

theorem reverse_brackets_succ (n : ℕ) :
    (brackets (n + 1)).toList.reverse = char ']' :: char '[' :: (brackets n).toList.reverse := by
  rw [toList_brackets_concat, List.reverse_append]
  rfl

/-- Nothing is lost when brackets are split off. -/
theorem splitBrackets_append (cs : List CodePoint) :
    (brackets (splitBrackets cs).1).toList.reverse ++ (splitBrackets cs).2 = cs := by
  induction cs using splitBrackets.induct with
  | case1 rest n name hsplit ih =>
    rw [hsplit] at ih
    simp only [splitBrackets, hsplit, reverse_brackets_succ]
    exact congrArg (char ']' :: char '[' :: ·) ih
  | case2 cs hcs =>
    rw [splitBrackets]
    · rfl
    · exact hcs

/-- Brackets behind what does not end with a pair of them are counted. -/
theorem splitBrackets_of_ne (n : ℕ) {reversed : List CodePoint}
    (h : ∀ rest, reversed ≠ char ']' :: char '[' :: rest) :
    splitBrackets ((brackets n).toList.reverse ++ reversed) = (n, reversed) := by
  induction n with
  | zero =>
    show splitBrackets reversed = (0, reversed)
    rw [splitBrackets]
    exact h
  | succ n ih =>
    rw [reverse_brackets_succ]
    simp only [List.cons_append, splitBrackets, ih]

/-- **What is read as a source form is spelled**, unless it is the letter of a base type. -/
theorem parseSource_sound {cs : List CodePoint} {s : Signature} (h : parseSource cs = .ok s)
    (hcode : ∀ b : BaseType, cs ≠ [b.code]) : Spells cs s := by
  obtain ⟨n, reversed, hsplit⟩ : ∃ n reversed, splitBrackets cs.reverse = (n, reversed) :=
    ⟨_, _, rfl⟩
  -- the text is a name with brackets behind it, and the name is one of a base type or a class
  have hwhole := splitBrackets_append cs.reverse
  rw [hsplit, ← List.reverse_eq_iff, List.reverse_append, List.reverse_reverse] at hwhole
  simp only [parseSource, hsplit] at h
  split at h
  · cases h
  split at h
  case h_1 b hb =>
    rw [BaseType.ofName?_eq_some_iff] at hb
    split at h
    · cases h
    case isFalse hvoid =>
      cases h
      have hname : reversed.reverse = b.name.toList := by rw [← hb, Str.toList_ofList]
      rw [← hwhole, hname]
      exact .baseName b n fun hb => by_contra fun hn => hvoid ⟨hb, hn⟩
  case h_2 hnone =>
    cases helement : namedElement 0 reversed.reverse with
    | error f =>
      rw [helement] at h
      cases h
    | ok e =>
      rw [helement] at h
      cases h
      obtain ⟨hdotted, rfl⟩ := namedElement_eq_ok_iff.mp helement
      rw [← hwhole] at hcode ⊢
      exact .className _ n (className_iff.mpr ⟨hnone, hdotted⟩) hcode

/-- A dotted name under brackets is split where the brackets begin. -/
theorem DottedName.splitBrackets {name : List CodePoint} (h : DottedName name) (n : ℕ) :
    splitBrackets (name ++ (brackets n).toList).reverse = (n, name.reverse) := by
  rw [List.reverse_append]
  apply splitBrackets_of_ne
  -- the last character of a dotted name is no bracket
  intro rest hrest
  have hlast : char ']' ∈ name := List.mem_reverse.mp (hrest ▸ List.mem_cons_self)
  rcases h.chars _ hlast with hchar | hchar
  · exact absurd hchar (by decide)
  · exact absurd hchar (by decide)

theorem DottedName.ne_nil {name : List CodePoint} (h : DottedName name) : name ≠ [] := by
  obtain ⟨c, rest, rfl, -⟩ := h.begins
  exact List.cons_ne_nil c rest

/-- The name of a base type is an identifier like another. -/
theorem BaseType.dottedName_name (b : BaseType) : DottedName b.name.toList := by
  apply DottedName.single
  rw [← isIdentifier_iff]
  cases b <;> rfl

theorem parseSource_base {b : BaseType} {n : ℕ} (h : b.AllowedUnder n) :
    parseSource (b.name.toList ++ (brackets n).toList) = .ok ⟨.base b, n⟩ := by
  have hvoid : ¬(b = .void ∧ n ≠ 0) := fun hb => hb.2 (h hb.1)
  have hname := b.dottedName_name
  simp only [parseSource, hname.splitBrackets, List.reverse_reverse, List.isEmpty_iff,
    if_neg hname.ne_nil, Str.ofList_toList, BaseType.ofName?_name, if_neg hvoid]

theorem parseSource_class {name : List CodePoint} (n : ℕ) (h : ClassName name) :
    parseSource (name ++ (brackets n).toList) = .ok ⟨.named (Str.ofList name), n⟩ := by
  obtain ⟨hnone, hdotted⟩ := className_iff.mp h
  simp only [parseSource, hdotted.splitBrackets, List.reverse_reverse, List.isEmpty_iff,
    if_neg hdotted.ne_nil, hnone, namedElement_eq_ok_iff.mpr ⟨hdotted, rfl⟩]
  rfl

/-! ## §3 Telling the two apart -/

theorem looksLikeField_replicate (n : ℕ) {cs : List CodePoint} (h : looksLikeField cs = true) :
    looksLikeField (List.replicate n (char '[') ++ cs) = true := by
  cases n with
  | zero => exact h
  | succ n => rfl

theorem looksLikeField_code (b : BaseType) : looksLikeField [b.code] = true := by
  cases b <;> rfl

/-- What looks like a source form is not the letter of a base type. -/
theorem ne_code_of_not_looksLikeField {cs : List CodePoint} (h : ¬looksLikeField cs = true)
    (b : BaseType) : cs ≠ [b.code] := by
  rintro rfl
  exact h (looksLikeField_code b)

theorem looksLikeField_class {name : List CodePoint} (h : name ≠ []) :
    looksLikeField ('L' :: (name ++ [char ';'])) = true := by
  obtain ⟨c, rest, rfl⟩ := List.exists_cons_of_ne_nil h
  have hlast : (c :: (rest ++ [char ';'])).getLast? = some (char ';') := by
    rw [← List.cons_append, List.getLast?_concat]
  simp [looksLikeField, hlast]

/-- The characters of a source form. -/
theorem DottedName.source_chars {name : List CodePoint} (h : DottedName name) (n : ℕ) :
    ∀ c ∈ name ++ (brackets n).toList, ContinuesIdentifier c ∨ c = '.' ∨ c = '[' ∨ c = ']' := by
  intro c hc
  rcases List.mem_append.mp hc with hname | hbracket
  · exact (h.chars c hname).imp_right .inl
  · induction n with
    | zero => cases hbracket
    | succ n ih =>
      rw [toList_brackets_succ] at hbracket
      simp only [List.mem_cons] at hbracket
      rcases hbracket with rfl | rfl | hrest
      · exact .inr (.inr (.inl rfl))
      · exact .inr (.inr (.inr rfl))
      · exact ih (List.mem_append_right name hrest) hrest

/-- A source form does not look like a field descriptor, unless it is the letter of a base type:
it neither begins with a mark nor ends with a semicolon. -/
theorem DottedName.looksLikeField {name : List CodePoint} (h : DottedName name) (n : ℕ)
    (hcode : ∀ b : BaseType, name ++ (brackets n).toList ≠ [b.code]) :
    looksLikeField (name ++ (brackets n).toList) = false := by
  have hchars := h.source_chars n
  obtain ⟨c, rest, rfl, hbegins⟩ := h.begins
  rw [List.cons_append] at hcode hchars ⊢
  have hlast : (rest ++ (brackets n).toList).getLast? ≠ some (char ';') := by
    intro hlast
    have hmem := List.mem_cons_of_mem c (List.mem_of_getLast? hlast)
    exact absurd (hchars ';' hmem) (by decide)
  unfold AnnoTree.looksLikeField
  split
  case h_1 heq =>
    cases heq
    exact absurd hbegins (by decide)
  case h_2 d heq =>
    rw [heq] at hcode
    rw [Option.isSome_eq_false_iff, Option.isNone_iff_eq_none, Option.eq_none_iff_forall_ne_some]
    intro b hb
    exact hcode b (by rw [BaseType.ofCode?_eq_some_iff.mp hb])
  case h_3 rest' _ heq =>
    cases heq
    exact beq_eq_false_iff_ne.mpr hlast
  case h_4 => rfl

/-! ## §4 The reader and the grammar -/

/-- A signature is read from the characters of a text between the blanks around it. -/
theorem parse_eq_ok_iff {d : Str} {s : Signature} :
    Signature.parse d = .ok s ↔
      (if looksLikeField (stripPoints d.toList) then parseField (stripPoints d.toList)
        else parseSource (stripPoints d.toList)) = .ok s := by
  rw [Signature.parse, strip, Str.toList_ofList]
  generalize stripPoints d.toList = cs
  dsimp only
  split
  case isTrue hempty =>
    -- an empty text has no signature as a source form either
    rw [List.isEmpty_iff] at hempty
    subst hempty
    exact ⟨nofun, nofun⟩
  case isFalse => exact mapError_eq_ok

/-- **What is read is spelled.** -/
theorem spells_of_parse {d : Str} {s : Signature} (h : Signature.parse d = .ok s) :
    Spells (stripPoints d.toList) s := by
  rw [parse_eq_ok_iff] at h
  split at h
  case isTrue => exact parseField_sound h
  case isFalse hsource => exact parseSource_sound h (ne_code_of_not_looksLikeField hsource)

/-- **What is spelled is read**, each spelling by its own reader. -/
theorem Spells.parse {d : Str} {s : Signature} (h : Spells (stripPoints d.toList) s) :
    Signature.parse d = .ok s := by
  rw [parse_eq_ok_iff]
  generalize stripPoints d.toList = cs at h
  cases h with
  | code b n allowed =>
    have hhead : [b.code].head? ≠ some (char '[') := by cases b <;> decide
    rw [if_pos (looksLikeField_replicate n (looksLikeField_code b)), parseField_replicate n hhead,
      fieldElement_code allowed]
    rfl
  | field name n className =>
    have hname : name ≠ [] := fun hnil => className.dotted.ne_nil (congrArg slashesToDots hnil)
    have hhead : (char 'L' :: (name ++ [char ';'])).head? ≠ some (char '[') := by simp
    rw [if_pos (looksLikeField_replicate n (looksLikeField_class hname)),
      parseField_replicate n hhead, fieldElement_class n className]
    rfl
  | baseName b n allowed =>
    -- the names of base types are longer than their letters
    have hcode : ∀ other : BaseType, b.name.toList ++ (brackets n).toList ≠ [other.code] := by
      intro other heq
      have hlength := congrArg List.length heq
      have hlong : 2 ≤ b.name.toList.length := by cases b <;> decide
      rw [List.length_append, List.length_singleton] at hlength
      omega
    rw [b.dottedName_name.looksLikeField n hcode]
    exact parseSource_base allowed
  | className name n className noCode =>
    rw [className.dotted.looksLikeField n noCode]
    exact parseSource_class n className

/-! ## §5 Signatures that are read -/

/-- A text of visible characters has no blanks around it. -/
theorem stripPoints_of_isVisible {cs : List CodePoint} (h : ∀ c ∈ cs, IsVisible c) :
    stripPoints cs = cs := by
  have hdrop : ∀ l : List CodePoint, (∀ c ∈ l, IsVisible c) →
      l.dropWhile (·.satisfies isBlank) = l := by
    intro l hl
    rw [List.dropWhile_eq_self_iff]
    intro hlength
    simp [isBlank_of_isVisible (hl _ (List.getElem_mem hlength))]
  rw [stripPoints, stripWhere, hdrop cs h, hdrop _ fun c hc => h c (List.mem_reverse.mp hc),
    List.reverse_reverse]

theorem DottedName.source_isVisible {name : List CodePoint} (h : DottedName name) (n : ℕ) :
    ∀ c ∈ name ++ (brackets n).toList, IsVisible c := by
  intro c hc
  rcases h.source_chars n c hc with hchar | rfl | rfl | rfl
  · exact hchar.isVisible
  · exact ⟨by decide, by decide⟩
  · exact ⟨by decide, by decide⟩
  · exact ⟨by decide, by decide⟩

theorem ClassName.isVisible {name : List CodePoint} (h : ClassName (slashesToDots name)) :
    ∀ c ∈ name, IsVisible c := by
  intro c hc
  by_cases hslash : c = '/'
  · subst hslash
    exact ⟨by decide, by decide⟩
  · rcases h.dotted.chars c (slashesToDots_mem hslash hc) with hchar | rfl
    · exact hchar.isVisible
    · exact ⟨by decide, by decide⟩

/-- Spellings are made of visible characters. -/
theorem Spells.visible {cs : List CodePoint} {s : Signature} (h : Spells cs s) :
    ∀ c ∈ cs, IsVisible c := by
  have hmarks : ∀ n, ∀ c ∈ List.replicate n (char '['), IsVisible c := by
    intro n c hc
    rw [List.eq_of_mem_replicate hc]
    exact ⟨by decide, by decide⟩
  cases h with
  | code b n allowed =>
    have hcode : IsVisible b.code := by cases b <;> exact ⟨by decide, by decide⟩
    exact List.forall_mem_append.mpr ⟨hmarks n, List.forall_mem_singleton.mpr hcode⟩
  | field name n className =>
    refine List.forall_mem_append.mpr ⟨hmarks n, List.forall_mem_cons.mpr ⟨?_, ?_⟩⟩
    · exact ⟨by decide, by decide⟩
    · refine List.forall_mem_append.mpr ⟨className.isVisible, List.forall_mem_singleton.mpr ?_⟩
      exact ⟨by decide, by decide⟩
  | baseName b n allowed => exact b.dottedName_name.source_isVisible n
  | className name n className noCode => exact className.dotted.source_isVisible n

/-- A spelling is read as it stands, with no blanks to strip. -/
theorem Spells.parse_ofList {cs : List CodePoint} {s : Signature} (h : Spells cs s) :
    Signature.parse (Str.ofList cs) = .ok s := by
  apply Spells.parse
  rwa [Str.toList_ofList, stripPoints_of_isVisible h.visible]

/-- Dots stay what they are. -/
theorem ClassName.slashesToDots_eq {name : List CodePoint} (h : ClassName name) :
    slashesToDots name = name := by
  have hsame : ∀ c ∈ name, (if c = char '/' then char '.' else c) = id c := by
    intro c hc
    apply if_neg
    rintro rfl
    exact absurd (h.dotted.chars _ hc) (by decide)
  rw [slashesToDots, List.map_congr_left hsame, List.map_id]

/-- Every proper signature has a spelling: that of a class may be ambiguous with the letter of a
base type in source form, but not as a field descriptor. -/
theorem Signature.IsProper.exists_spells {s : Signature} (h : s.IsProper) : ∃ cs, Spells cs s := by
  cases h with
  | base b n allowed => exact ⟨_, .baseName b n allowed⟩
  | named name n className =>
    have hspells := Spells.field name.toList n (by rwa [className.slashesToDots_eq])
    rw [className.slashesToDots_eq, Str.ofList_toList] at hspells
    exact ⟨_, hspells⟩

/-- **The reader accepts exactly the grammar.** A text is read as a signature exactly if it spells
that signature between blanks, every other text is malformed, and the signatures that are read
are exactly the proper ones. -/
theorem parse_accepts_grammar :
    (∀ d s, Signature.parse d = .ok s ↔ Spells (stripPoints d.toList) s) ∧
    (∀ d, (∃ m : Malformed, Signature.parse d = .error m) ↔
      ¬∃ s, Spells (stripPoints d.toList) s) ∧
    ∀ s, (∃ d, Signature.parse d = .ok s) ↔ s.IsProper := by
  have hreads : ∀ d s, Signature.parse d = .ok s ↔ Spells (stripPoints d.toList) s :=
    fun d s => ⟨spells_of_parse, Spells.parse⟩
  refine ⟨hreads, fun d => ?_, fun s => ⟨?_, ?_⟩⟩
  · -- a reading succeeds or fails, and where it succeeds there is a spelling
    simp only [← hreads]
    rcases hparse : Signature.parse d with m | s
    · exact ⟨fun _ => nofun, fun _ => ⟨m, rfl⟩⟩
    · exact ⟨nofun, fun hnone => absurd ⟨s, rfl⟩ hnone⟩
  · rintro ⟨d, hparse⟩
    exact (spells_of_parse hparse).isProper
  · intro hproper
    obtain ⟨cs, hspells⟩ := hproper.exists_spells
    exact ⟨Str.ofList cs, hspells.parse_ofList⟩

end AnnoTree
