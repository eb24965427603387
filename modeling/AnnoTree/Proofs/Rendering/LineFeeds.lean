import AnnoTree.Proofs.Nesting.Walks
import AnnoTree.Proofs.Storage.RowText
import AnnoTree.Proofs.Types.ClassLiterals

/-!
# Line feeds in renderings

In a rendering the line breaks of strings and characters are escaped, numerals and the texts of
signatures have none, and all other texts of an annotation are written as they are. So a rendering
has exactly the line feeds of those other texts.

## Main definitions

- `Text.lineFeeds`: how many line feeds a text has.
- `Value.rawTexts`, `Annot.rawTexts`: the texts that are written as they are.

## Main statements

- `Scalar.lineFeeds_text`, `ClassLiteral.lineFeeds_text`: the line feeds of leaves.
- `Annot.lineFeeds_fullText`: the line feeds of a rendering are those of its raw texts.
-/

namespace AnnoTree

open AnnoTree.Text
open CodePoint (char)

/-! ## §1 Line feeds of texts -/

namespace Text

/-- How many line feeds a text has. -/
def lineFeeds (s : Str) : ℕ :=
  s.toList.count (char '\n')

@[simp] theorem lineFeeds_append (s t : Str) :
    lineFeeds (s ++ t) = lineFeeds s + lineFeeds t := by
  rw [lineFeeds, Str.toList_append, List.count_append]
  rfl

theorem lineFeeds_eq_zero {s : Str} : lineFeeds s = 0 ↔ char '\n' ∉ s.toList :=
  List.count_eq_zero

/-- No control character, so no line feed. -/
theorem NoControls.lineFeeds {s : Str} (h : NoControls s.toList) : lineFeeds s = 0 :=
  lineFeeds_eq_zero.mpr fun hfeed => absurd (h _ hfeed) (by decide)

/-- How many line feeds texts have together. -/
def totalFeeds (texts : List Str) : ℕ :=
  (texts.map lineFeeds).sum

@[simp] theorem totalFeeds_nil : totalFeeds [] = 0 :=
  rfl

@[simp] theorem totalFeeds_cons (s : Str) (texts : List Str) :
    totalFeeds (s :: texts) = lineFeeds s + totalFeeds texts := by
  simp [totalFeeds]

@[simp] theorem totalFeeds_append (texts more : List Str) :
    totalFeeds (texts ++ more) = totalFeeds texts + totalFeeds more := by
  simp [totalFeeds]

theorem totalFeeds_eq_zero {texts : List Str} :
    totalFeeds texts = 0 ↔ ∀ s ∈ texts, char '\n' ∉ s.toList := by
  rw [totalFeeds, List.sum_eq_zero_iff, List.forall_mem_map]
  simp only [lineFeeds_eq_zero]

/-- A separator without a line feed adds none to the texts that it stands between. -/
theorem lineFeeds_joinWith {separator : Str} (h : lineFeeds separator = 0)
    (texts : List Str) : lineFeeds (joinWith separator texts) = totalFeeds texts := by
  induction texts using joinWith.induct with
  | case1 => rfl
  | case2 s => simp [joinWith]
  | case3 s t rest ih =>
    rw [joinWith, lineFeeds_append, lineFeeds_append, h, ih, totalFeeds_cons s, Nat.add_zero]

theorem lineFeed_not_mem_literalChar {quote : CodePoint} (h : quote ≠ '\n') (c : CodePoint) :
    char '\n' ∉ literalChar quote c := by
  -- a line feed is never the character that is kept, and no escape has one
  unfold literalChar
  split
  next hquote => simp [hquote, h.symm]
  next =>
    split
    next => decide
    next hfeed =>
      split
      next => decide
      next => simpa using Ne.symm hfeed

/-- The line feeds between quotes are escaped. -/
theorem lineFeeds_literal {quote : CodePoint} (h : quote ≠ '\n') (cs : List CodePoint) :
    lineFeeds (literal quote cs) = 0 := by
  rw [lineFeeds_eq_zero, literal, Str.toList_ofList]
  simp only [List.mem_cons, List.mem_append, List.mem_flatMap, List.not_mem_nil, or_false, not_or]
  refine ⟨h.symm, ?_, h.symm⟩
  rintro ⟨c, -, hfeed⟩
  exact lineFeed_not_mem_literalChar h c hfeed

end Text

/-! ## §2 Leaves -/

theorem Scalar.lineFeeds_text (s : Scalar) : lineFeeds s.text = 0 := by
  cases s with
  | integer kind i holds => exact (Json.noControls_int i).lineFeeds
  | boolean b => cases b <;> rfl
  | floating kind x => exact (Json.noControls_float x).lineFeeds
  | char c small => exact lineFeeds_literal (by decide) [c]

/-- The text of a signature that is read has no line feed. -/
theorem Signature.IsProper.lineFeeds_text {s : Signature} (h : s.IsProper) :
    lineFeeds s.text = 0 := by
  rw [lineFeeds_eq_zero, Signature.toList_text]
  intro hfeed
  -- a line feed is a blank, and all characters of names and brackets are visible
  have hblank := isBlank_of_isVisible (h.dotted.source_isVisible s.dimensions _ hfeed)
  exact absurd hblank (by decide)

/-- The descriptor of a class literal, if it has no signature and is written as it is. -/
def ClassLiteral.rawTexts (c : ClassLiteral) : List Str :=
  match c.signature? with
  | some _ => []
  | none => [c.descriptor]

theorem ClassLiteral.lineFeeds_text (c : ClassLiteral) :
    lineFeeds c.text = totalFeeds c.rawTexts := by
  cases h : Signature.parse c.descriptor with
  | ok s =>
    rw [text, rawTexts, signature?, h]
    exact (spells_of_parse h).isProper.lineFeeds_text
  | error m =>
    rw [text, rawTexts, signature?, h]
    simp [Except.toOption]

theorem EnumConst.lineFeeds_text (e : EnumConst) :
    lineFeeds e.text = totalFeeds [e.typeName, e.constantName] := by
  have hdot : lineFeeds "." = 0 := by decide
  simp [text, hdot]

/-! ## §3 Raw texts -/

/-- The names of parameters that are written: that of the settings is left out if it is alone. -/
def writtenNames (settings : Settings) : List Parameter → List Str
  | [p] => if p.name = settings.singleName then [] else [p.name]
  | ps => ps.map Parameter.name

mutual

/-- The texts of a value that are written as they are. -/
def Value.rawTexts (settings : Settings) : Value → List Str
  | .array items => Value.rawTextsList settings items
  | .enumConst ref => [ref.typeName, ref.constantName]
  | .classLiteral ref => ref.rawTexts
  | .annot a => Annot.rawTexts settings a
  | .scalar _ => []
  | .string _ => []
  | .absent => []
termination_by structural v => v

/-- The raw texts of values. -/
def Value.rawTextsList (settings : Settings) : List Value → List Str
  | [] => []
  | v :: rest => Value.rawTexts settings v ++ Value.rawTextsList settings rest
termination_by structural vs => vs

/-- The texts of an annotation that are written as they are: its name, the names of its parameters,
and those of their values. -/
def Annot.rawTexts (settings : Settings) : Annot → List Str
  | ⟨name, none⟩ => [name]
  | ⟨name, some parameters⟩ =>
    name :: (writtenNames settings parameters ++ Parameter.rawTextsList settings parameters)
termination_by structural a => a

/-- The raw texts of the value of a parameter. -/
def Parameter.rawTexts (settings : Settings) : Parameter → List Str
  | ⟨_, value⟩ => Value.rawTexts settings value
termination_by structural p => p

/-- The raw texts of the values of parameters. -/
def Parameter.rawTextsList (settings : Settings) : List Parameter → List Str
  | [] => []
  | p :: rest => Parameter.rawTexts settings p ++ Parameter.rawTextsList settings rest
termination_by structural ps => ps

end

section RawTexts

variable {settings : Settings}

theorem Value.totalFeeds_rawTextsList (vs : List Value) :
    totalFeeds (Value.rawTextsList settings vs) =
      (vs.map fun v => totalFeeds (v.rawTexts settings)).sum := by
  induction vs with
  | nil => rfl
  | cons v rest ih => simp [Value.rawTextsList, ih]

theorem Parameter.totalFeeds_rawTextsList (ps : List Parameter) :
    totalFeeds (Parameter.rawTextsList settings ps) =
      (ps.map fun p => totalFeeds (p.value.rawTexts settings)).sum := by
  induction ps with
  | nil => rfl
  | cons p rest ih =>
    obtain ⟨name, value⟩ := p
    simp [Parameter.rawTextsList, Parameter.rawTexts, ih]

theorem Annot.totalFeeds_rawTexts (a : Annot) :
    totalFeeds (a.rawTexts settings) = lineFeeds a.name +
      (totalFeeds (writtenNames settings a.known) +
        (a.known.map fun p => totalFeeds (p.value.rawTexts settings)).sum) := by
  obtain ⟨name, _ | parameters⟩ := a
  · rfl
  · rw [Annot.rawTexts, totalFeeds_cons, totalFeeds_append, Parameter.totalFeeds_rawTextsList]
    rfl

/-! ## §4 Renderings -/

/-- The marks of renderings have no line feed. -/
theorem lineFeeds_marks :
    lineFeeds "@" = 0 ∧ lineFeeds "(" = 0 ∧ lineFeeds ")" = 0 ∧ lineFeeds " = " = 0 ∧
      lineFeeds "\x7b" = 0 ∧ lineFeeds "\x7d" = 0 ∧ lineFeeds ", " = 0 ∧ lineFeeds "null" = 0 := by
  decide

theorem totalFeeds_pairTexts (ps : List Parameter) :
    totalFeeds ((ps.map (Parameter.fullPair settings)).map pairText) =
      totalFeeds (ps.map Parameter.name) +
        (ps.map fun p => lineFeeds (p.value.fullText settings)).sum := by
  induction ps with
  | nil => rfl
  | cons p rest ih =>
    simp only [List.map_cons, totalFeeds_cons, List.sum_cons, ih, pairText, Parameter.fullPair_eq,
      lineFeeds_append, lineFeeds_marks]
    omega

/-- The text of an annotation has the line feeds of its name, of the names of parameters that are
written, and of their texts. -/
theorem lineFeeds_annotText (name : Str) (ps : List Parameter) :
    lineFeeds (annotText settings name (ps.map (Parameter.fullPair settings))) =
      lineFeeds name + (totalFeeds (writtenNames settings ps) +
        (ps.map fun p => lineFeeds (p.value.fullText settings)).sum) := by
  -- the three forms of a text: no parentheses, a parameter that may lose its name, and several
  match ps with
  | [] => simp [annotText, writtenNames, lineFeeds_marks]
  | [p] =>
    rw [List.map_singleton, Parameter.fullPair_eq, annotText, writtenNames]
    split
    · simp [lineFeeds_marks]
    · simp [pairText, lineFeeds_marks]
  | p :: q :: rest =>
    have htext : annotText settings name ((p :: q :: rest).map (Parameter.fullPair settings)) =
        "@" ++ name ++ "(" ++ joinWith ", "
          (((p :: q :: rest).map (Parameter.fullPair settings)).map pairText) ++ ")" :=
      rfl
    have hnames : writtenNames settings (p :: q :: rest) = (p :: q :: rest).map Parameter.name :=
      rfl
    rw [htext, hnames]
    simp only [lineFeeds_append, lineFeeds_joinWith, totalFeeds_pairTexts, lineFeeds_marks]
    omega

private theorem lineFeeds_cases (settings : Settings) :
    TreeCases
      (fun v => lineFeeds (v.fullText settings) = totalFeeds (v.rawTexts settings))
      (fun a => lineFeeds (a.fullText settings) = totalFeeds (a.rawTexts settings)) where
  scalar s := s.lineFeeds_text
  string t := lineFeeds_literal (by decide) t.toList
  array items ih := by
    -- the separators have no line feed, so those of the items are left
    rw [Value.fullText, Value.fullTextList_eq_map, Value.rawTexts, Value.totalFeeds_rawTextsList,
      ← List.map_congr_left ih]
    simp only [lineFeeds_append, lineFeeds_joinWith, lineFeeds_marks, totalFeeds, List.map_map,
      Function.comp_def]
    omega
  enumConst ref := ref.lineFeeds_text
  classLiteral ref := ref.lineFeeds_text
  annot a ih := ih
  absent := by simp [Value.fullText, Value.rawTexts, lineFeeds_marks]
  node a ih := by
    rw [Annot.fullText_eq, lineFeeds_annotText, Annot.totalFeeds_rawTexts, List.map_congr_left ih]

/-- **The line feeds of a rendering** are those of its raw texts. -/
theorem Annot.lineFeeds_fullText (a : Annot) :
    lineFeeds (a.fullText settings) = totalFeeds (a.rawTexts settings) :=
  (lineFeeds_cases settings).all.2 a

theorem Annot.lineFeed_not_mem_fullText_iff (a : Annot) :
    char '\n' ∉ (a.fullText settings).toList ↔ ∀ s ∈ a.rawTexts settings, char '\n' ∉ s.toList := by
  rw [← lineFeeds_eq_zero, a.lineFeeds_fullText, totalFeeds_eq_zero]

end RawTexts

end AnnoTree
