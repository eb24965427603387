import AnnoTree.Proofs.Identifier.Canonical
import AnnoTree.Proofs.Types.ClassLiterals

/-!
# Well-formed renderings

What a rendering adds to the texts of an annotation are characters, and so is what stands for a
character that is escaped. So an annotation with a well-formed stored form has a well-formed
rendering. The converse does not hold, since a parameter may lose its name.

## Main statements

- `Scalar.isWellFormed_text`, `ClassLiteral.isWellFormed_text`: the texts of leaves.
- `Annot.isWellFormed_fullText`: the rendering of an annotation.
-/

namespace AnnoTree

open AnnoTree.Text
open CodePoint (char)

/-! ## §1 Joined and quoted texts -/

namespace Text

/-- Joined texts are well-formed if each of them is. -/
theorem isWellFormed_joinWith {separator : Str} (hseparator : separator.isWellFormed = true)
    {texts : List Str} (h : ∀ s ∈ texts, s.isWellFormed = true) :
    (joinWith separator texts).isWellFormed = true := by
  induction texts using joinWith.induct with
  | case1 => rfl
  | case2 s => exact h s List.mem_cons_self
  | case3 s t rest ih =>
    obtain ⟨hs, hrest⟩ := List.forall_mem_cons.mp h
    rw [joinWith, Str.isWellFormed_append, Str.isWellFormed_append]
    exact ⟨⟨hs, hseparator⟩, ih hrest⟩

/-- An escape in a literal is made of characters and stands for one. -/
theorem all_isChar_literalChar (quote : Char) (c : CodePoint) :
    (literalChar quote c).all CodePoint.isChar = c.isChar := by
  unfold literalChar
  split
  next h => subst h; rfl
  split
  next h => subst h; rfl
  split
  next h => subst h; rfl
  next => simp

theorem isWellFormed_literal (quote : Char) (cs : List CodePoint) :
    (literal quote cs).isWellFormed = cs.all CodePoint.isChar := by
  have hquote : CodePoint.isChar quote = true := rfl
  simp only [literal, Str.isWellFormed, Str.toList_ofList, List.all_cons, List.all_append,
    List.all_flatMap, all_isChar_literalChar, List.all_nil, hquote, Bool.true_and, Bool.and_true]

end Text

/-! ## §2 Leaves -/

theorem Scalar.isWellFormed_text (s : Scalar) : s.text.isWellFormed = s.literal.isWellFormed := by
  cases s with
  | integer kind i holds => exact Str.isWellFormed_ofString _
  | boolean b => cases b <;> rfl
  | floating kind x => exact Str.isWellFormed_ofString _
  | char c small => exact isWellFormed_literal '\'' [c]

theorem IsVisible.isChar {c : CodePoint} (h : IsVisible c) : c.isChar = true := by
  cases c with
  | char c => rfl
  | half place =>
    obtain ⟨-, hhigh⟩ := h
    simp only [CodePoint.toNat, firstHalf] at hhigh
    omega

/-- The text of a signature that is read is made of characters. -/
theorem Signature.IsProper.isWellFormed_text {s : Signature} (h : s.IsProper) :
    s.text.isWellFormed = true := by
  rw [Str.isWellFormed, Signature.toList_text, List.all_eq_true]
  exact fun c hc => (h.dotted.source_isVisible s.dimensions c hc).isChar

theorem ClassLiteral.isWellFormed_text {c : ClassLiteral} (h : c.descriptor.isWellFormed = true) :
    c.text.isWellFormed = true := by
  cases hparse : Signature.parse c.descriptor with
  | ok s =>
    rw [text, signature?, hparse]
    exact (spells_of_parse hparse).isProper.isWellFormed_text
  | error m =>
    rw [text, signature?, hparse]
    exact h

/-! ## §3 Stored forms -/

theorem Json.isWellFormed_single (key : String) (j : Json) :
    (Json.single key j).isWellFormed = j.isWellFormed := by
  simp [Json.single, Json.isWellFormed, Json.isWellFormedEntries]

/-- The stored form of an annotation is well-formed exactly if its name is, and so are the names and
the stored forms of its parameters. -/
theorem Annot.isWellFormed_fullPayload_iff {a : Annot} :
    a.fullPayload.isWellFormed = true ↔ a.name.isWellFormed = true ∧
      ∀ p ∈ a.known, p.name.isWellFormed = true ∧ p.value.fullPayload.isWellFormed = true := by
  have hparameters : ∀ ps : List Parameter,
      Json.isWellFormedList (ps.map Parameter.fullPayload) = true ↔
        ∀ p ∈ ps, p.name.isWellFormed = true ∧ p.value.fullPayload.isWellFormed = true := by
    intro ps
    rw [Json.isWellFormedList_eq_all, List.all_map, List.all_eq_true]
    simp [Parameter.fullPayload_eq, Json.isWellFormed, Json.isWellFormedEntries]
  obtain ⟨name, _ | ps⟩ := a
  · simp [Annot.fullPayload, Annot.known, Json.isWellFormed, Json.isWellFormedEntries]
  · rw [Annot.fullPayload, Parameter.fullPayloadList_eq_map, Annot.known, Option.getD_some,
      ← hparameters]
    simp [Json.isWellFormed, Json.isWellFormedEntries]

/-! ## §4 Renderings -/

variable {settings : Settings}

/-- The text of an annotation is well-formed if its name is, and so are the names and the texts of
its parameters. -/
theorem isWellFormed_annotText {name : Str} (hname : name.isWellFormed = true)
    {pairs : List (Str × Str)}
    (h : ∀ pair ∈ pairs, pair.1.isWellFormed = true ∧ pair.2.isWellFormed = true) :
    (annotText settings name pairs).isWellFormed = true := by
  have hpair : ∀ pair ∈ pairs, (pairText pair).isWellFormed = true := by
    intro pair hpair
    simp [pairText, Str.isWellFormed_append, h pair hpair]
  unfold annotText
  split
  next => simp [Str.isWellFormed_append, hname]
  next n t =>
    have htext := h (n, t) List.mem_cons_self
    split
    · simp [Str.isWellFormed_append, hname, htext]
    · simp [Str.isWellFormed_append, hname, hpair (n, t) List.mem_cons_self]
  next =>
    have hjoined := isWellFormed_joinWith (Str.isWellFormed_ofString ", ")
      (List.forall_mem_map.mpr hpair)
    simp [Str.isWellFormed_append, hname, hjoined]

private theorem isWellFormed_cases (settings : Settings) :
    TreeCases
      (fun v => v.fullPayload.isWellFormed = true → (v.fullText settings).isWellFormed = true)
      (fun a => a.fullPayload.isWellFormed = true → (a.fullText settings).isWellFormed = true) where
  scalar s h := by
    rw [Value.fullPayload, Json.isWellFormed_single] at h
    rwa [Value.fullText, s.isWellFormed_text]
  string t h := by
    rw [Value.fullPayload, Json.isWellFormed_single] at h
    rwa [Value.fullText, stringLiteral, isWellFormed_literal]
  array items ih h := by
    rw [Value.fullPayload, Json.isWellFormed_single, Value.fullPayloadList_eq_map,
      Json.isWellFormed, Json.isWellFormedList_eq_all, List.all_map, List.all_eq_true] at h
    have hjoined := isWellFormed_joinWith (Str.isWellFormed_ofString ", ")
      (List.forall_mem_map.mpr fun v hv => ih v hv (h v hv))
    rw [Value.fullText, Value.fullTextList_eq_map]
    simp [Str.isWellFormed_append, hjoined]
  enumConst ref h := by
    rw [Value.fullPayload, Json.isWellFormed_single] at h
    simpa [EnumConst.payload, Json.isWellFormed, Json.isWellFormedEntries, Value.fullText,
      EnumConst.text, Str.isWellFormed_append] using h
  classLiteral ref h := by
    rw [Value.fullPayload, Json.isWellFormed_single] at h
    refine ClassLiteral.isWellFormed_text ?_
    simpa [ClassLiteral.payload, Json.isWellFormed, Json.isWellFormedEntries] using h
  annot a ih h := by
    rw [Value.fullPayload, Json.isWellFormed_single] at h
    exact ih h
  absent _ := rfl
  node a ih h := by
    obtain ⟨hname, hparameters⟩ := Annot.isWellFormed_fullPayload_iff.mp h
    rw [Annot.fullText_eq]
    refine isWellFormed_annotText hname (List.forall_mem_map.mpr fun p hp => ?_)
    obtain ⟨hpname, hpvalue⟩ := hparameters p hp
    rw [Parameter.fullPair_eq]
    exact ⟨hpname, ih p hp hpvalue⟩

/-- **The rendering of an annotation is well-formed** if its stored form is. -/
theorem Annot.isWellFormed_fullText {a : Annot} (h : a.fullPayload.isWellFormed = true) :
    (a.fullText settings).isWellFormed = true :=
  (isWellFormed_cases settings).all.2 a h

end AnnoTree
