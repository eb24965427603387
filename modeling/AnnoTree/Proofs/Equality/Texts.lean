import AnnoTree.Proofs.Equality.Contexts
import AnnoTree.Proofs.Json.RoundTrip
import AnnoTree.Proofs.Types.ClassLiterals

/-!
# What texts keep apart

Parameters of one name are told apart by the texts of their values, and so are annotations that
differ in one value only. Scalars of one kind and class literals are told apart by their texts as by
their keys. Strings are not: a literal spells a line break with a backslash and a letter, but a
backslash of the string itself is not escaped. Nor are enum constants: the dot before the name of
the constant may be taken for one of the dots in the name of the type.

## Main definitions

- `spelled`: a text whose line breaks are spelled out.
- `Value.WrittenAlike`: two values without array or annotation that have one text.

## Main statements

- `stringLiteral_inj`: the literals of two strings are the same if their line breaks are spelled
  alike.
- `Scalar.text_inj`, `ClassLiteral.text_eq_iff`, `EnumConst.eq_of_text`: the other kinds of values.
- `texts_keep_values_apart`: which values parameters and annotations take for the same.
-/

namespace AnnoTree

open AnnoTree.Text
open CodePoint (char)

variable {settings : Settings}

/-! ## §1 Literals -/

/-- Whether a character is one of the two line breaks that a literal spells out. -/
def IsSpelledOut (c : CodePoint) : Prop :=
  c = '\n' ∨ c = '\r'

instance (c : CodePoint) : Decidable (IsSpelledOut c) := by
  unfold IsSpelledOut
  infer_instance

/-- A line break as a literal spells it out, and any other character as it is. -/
def spelledChar (c : CodePoint) : List CodePoint :=
  if c = '\n' then ['\\', 'n']
  else if c = '\r' then ['\\', 'r']
  else [c]

/-- A text whose line breaks are spelled out. -/
def spelled (s : Str) : List CodePoint :=
  s.toList.flatMap spelledChar

/-- The quote with a backslash before it, and any other character as it is. -/
def guardedChar (quote c : CodePoint) : List CodePoint :=
  if c = quote then ['\\', c] else [c]

section Quotes

variable {quote : CodePoint} (hquote : quote = '"' ∨ quote = '\'')

include hquote

/-- A literal spells out line breaks, and then guards the quote. -/
theorem literalChar_eq (c : CodePoint) :
    literalChar quote c = (spelledChar c).flatMap (guardedChar quote) := by
  by_cases hfeed : c = '\n'
  · subst hfeed
    rcases hquote with rfl | rfl <;> rfl
  by_cases hreturn : c = '\r'
  · subst hreturn
    rcases hquote with rfl | rfl <;> rfl
  simp [literalChar, spelledChar, guardedChar, hfeed, hreturn]

/-- No guarded text begins with the quote. -/
theorem flatMap_guardedChar_ne (cs rest : List CodePoint) :
    cs.flatMap (guardedChar quote) ≠ quote :: rest := by
  have hslash : quote ≠ '\\' := by rcases hquote with rfl | rfl <;> decide
  cases cs with
  | nil => simp
  | cons c cs =>
    by_cases hc : c = quote
    · simp [guardedChar, hc, hslash.symm]
    · simp [guardedChar, hc]

/-- Guarding is undone by dropping the backslash before each quote. -/
theorem flatMap_guardedChar_inj {cs ds : List CodePoint}
    (h : cs.flatMap (guardedChar quote) = ds.flatMap (guardedChar quote)) : cs = ds := by
  induction cs generalizing ds with
  | nil =>
    cases ds with
    | nil => rfl
    | cons d ds => by_cases hd : d = quote <;> simp [guardedChar, hd] at h
  | cons c cs ih =>
    cases ds with
    | nil => by_cases hc : c = quote <;> simp [guardedChar, hc] at h
    | cons d ds =>
      rw [List.flatMap_cons, List.flatMap_cons] at h
      by_cases hc : c = quote <;> by_cases hd : d = quote
      · rw [hc, hd] at h ⊢
        rw [ih (List.append_cancel_left h)]
      · -- a backslash of the other text would stand before an unguarded quote
        simp only [guardedChar, hc, hd, if_true, if_false, List.cons_append, List.nil_append,
          List.cons.injEq] at h
        exact absurd h.2.symm (flatMap_guardedChar_ne hquote ds _)
      · simp only [guardedChar, hc, hd, if_true, if_false, List.cons_append, List.nil_append,
          List.cons.injEq] at h
        exact absurd h.2 (flatMap_guardedChar_ne hquote cs _)
      · simp only [guardedChar, hc, hd, if_false, List.cons_append, List.nil_append,
          List.cons.injEq] at h
        rw [h.1, ih h.2]

/-- **Literals are the same** exactly if their contents are, with line breaks spelled out. -/
theorem literal_inj {cs ds : List CodePoint} :
    literal quote cs = literal quote ds ↔ cs.flatMap spelledChar = ds.flatMap spelledChar := by
  have hchars : ∀ es : List CodePoint, es.flatMap (literalChar quote) =
      (es.flatMap spelledChar).flatMap (guardedChar quote) := by
    intro es
    rw [List.flatMap_assoc]
    exact List.flatMap_congr fun c _ => literalChar_eq hquote c
  -- both literals have the same quotes around what is inside
  unfold literal
  rw [hchars, hchars, Str.ofList.injEq, List.cons.injEq, List.append_cancel_right_eq]
  exact ⟨fun h => flatMap_guardedChar_inj hquote h.2, fun h => ⟨rfl, by rw [h]⟩⟩

end Quotes

/-- **String literals are the same** exactly if the strings are, with line breaks spelled out. -/
theorem stringLiteral_inj {s t : Str} :
    stringLiteral s = stringLiteral t ↔ spelled s = spelled t :=
  literal_inj (.inl rfl)

/-- A line break is spelled out with a backslash first. -/
theorem IsSpelledOut.spelledChar_eq {c : CodePoint} (h : IsSpelledOut c) :
    ∃ letter, spelledChar c = ['\\', letter] := by
  rcases h with rfl | rfl
  · exact ⟨'n', rfl⟩
  · exact ⟨'r', rfl⟩

theorem spelledChar_of_not {c : CodePoint} (h : ¬IsSpelledOut c) : spelledChar c = [c] := by
  obtain ⟨hfeed, hreturn⟩ := not_or.mp h
  rw [spelledChar, if_neg hfeed, if_neg hreturn]

/-- A single character is told by how it is spelled. -/
theorem spelledChar_inj {c d : CodePoint} (h : spelledChar c = spelledChar d) : c = d := by
  by_cases hc : IsSpelledOut c <;> by_cases hd : IsSpelledOut d
  · rcases hc with rfl | rfl <;> rcases hd with rfl | rfl
    · rfl
    · simp [spelledChar] at h
    · simp [spelledChar] at h
    · rfl
  · obtain ⟨letter, hletter⟩ := hc.spelledChar_eq
    rw [hletter, spelledChar_of_not hd] at h
    cases h
  · obtain ⟨letter, hletter⟩ := hd.spelledChar_eq
    rw [hletter, spelledChar_of_not hc] at h
    cases h
  · rw [spelledChar_of_not hc, spelledChar_of_not hd] at h
    exact (List.cons.inj h).1

/-- **Strings are spelled alike** only if they are the same, or one has a line break and the other
one a backslash. -/
theorem eq_or_of_flatMap_spelledChar {cs ds : List CodePoint}
    (h : cs.flatMap spelledChar = ds.flatMap spelledChar) :
    cs = ds ∨ ((∃ c ∈ cs, IsSpelledOut c) ∧ char '\\' ∈ ds) ∨
      (∃ d ∈ ds, IsSpelledOut d) ∧ char '\\' ∈ cs := by
  have hne : ∀ c : CodePoint, spelledChar c ≠ [] := by
    intro c hnil
    unfold spelledChar at hnil
    split at hnil
    · cases hnil
    · split at hnil <;> cases hnil
  induction cs generalizing ds with
  | nil =>
    cases ds with
    | nil => exact .inl rfl
    | cons d ds => exact absurd (List.append_eq_nil_iff.mp h.symm).1 (hne d)
  | cons c cs ih =>
    cases ds with
    | nil => exact absurd (List.append_eq_nil_iff.mp h).1 (hne c)
    | cons d ds =>
      -- what holds of the rests holds of the whole, if the first characters are the same
      have hrests : c = d → cs.flatMap spelledChar = ds.flatMap spelledChar →
          c :: cs = d :: ds ∨ ((∃ x ∈ c :: cs, IsSpelledOut x) ∧ char '\\' ∈ d :: ds) ∨
            (∃ x ∈ d :: ds, IsSpelledOut x) ∧ char '\\' ∈ c :: cs := by
        rintro rfl hrest
        rcases ih hrest with rfl | ⟨⟨x, hx, hout⟩, hslash⟩ | ⟨⟨x, hx, hout⟩, hslash⟩
        · exact .inl rfl
        · exact .inr (.inl ⟨⟨x, List.mem_cons_of_mem c hx, hout⟩, List.mem_cons_of_mem c hslash⟩)
        · exact .inr (.inr ⟨⟨x, List.mem_cons_of_mem c hx, hout⟩, List.mem_cons_of_mem c hslash⟩)
      rw [List.flatMap_cons, List.flatMap_cons] at h
      by_cases hc : IsSpelledOut c <;> by_cases hd : IsSpelledOut d
      case pos =>
        -- both are spelled with two characters
        obtain ⟨letter, hletter⟩ := hc.spelledChar_eq
        obtain ⟨letter', hletter'⟩ := hd.spelledChar_eq
        have hfirst : spelledChar c = spelledChar d :=
          List.append_inj_left h (by rw [hletter, hletter']; rfl)
        exact hrests (spelledChar_inj hfirst)
          (List.append_inj_right h (by rw [hfirst]))
      case neg =>
        obtain ⟨letter, hletter⟩ := hc.spelledChar_eq
        rw [hletter, spelledChar_of_not hd] at h
        have hslash : '\\' = d := (List.cons.inj h).1
        exact .inr (.inl ⟨⟨c, List.mem_cons_self, hc⟩, hslash ▸ List.mem_cons_self⟩)
      case pos =>
        obtain ⟨letter, hletter⟩ := hd.spelledChar_eq
        rw [hletter, spelledChar_of_not hc] at h
        have hslash : c = '\\' := (List.cons.inj h).1
        exact .inr (.inr ⟨⟨d, List.mem_cons_self, hd⟩, hslash ▸ List.mem_cons_self⟩)
      case neg =>
        rw [spelledChar_of_not hc, spelledChar_of_not hd] at h
        exact hrests (List.cons.inj h).1 (List.cons.inj h).2

/-! ## §2 Scalars -/

/-- A double is told by its text, since that is read back. -/
theorem Double.text_inj {x y : Double} (h : x.text longNames = y.text longNames) : x = y := by
  have hx := Json.atom_float x Json.delimited_nil
  rw [h, Json.atom_float y Json.delimited_nil] at hx
  cases hx
  rfl

theorem charLiteral_inj {c d : CodePoint} (h : charLiteral c = charLiteral d) : c = d := by
  have hspelled := (literal_inj (.inr rfl)).mp h
  rw [List.flatMap_singleton, List.flatMap_singleton] at hspelled
  exact spelledChar_inj hspelled

/-- **Scalars of one kind** are told apart by their texts. -/
theorem Scalar.text_inj {s t : Scalar} (hkind : s.kind = t.kind) : s.text = t.text ↔ s = t := by
  refine ⟨fun h => ?_, fun h => congrArg Scalar.text h⟩
  cases s <;> cases t <;> cases hkind
  case integer.integer.refl k i hi j hj =>
    obtain rfl : i = j := Int.repr_inj.mp (Str.ofString_inj.mp h)
    rfl
  case boolean.boolean.refl b c => cases b <;> cases c <;> first | rfl | exact absurd h (by decide)
  case floating.floating.refl k x y => rw [Double.text_inj (Str.ofString_inj.mp h)]
  case char.char.refl c hc d hd =>
    obtain rfl : c = d := charLiteral_inj h
    rfl

/-! ## §3 References -/

/-- The text of a signature is always read, though perhaps as another one. -/
theorem Signature.IsProper.exists_parse_text {s : Signature} (h : s.IsProper) :
    ∃ t, Signature.parse s.text = .ok t := by
  by_cases hletter : ∃ b, s.IsBaseLetter b
  · obtain ⟨b, hb⟩ := hletter
    exact ⟨_, hb.parse_text⟩
  · exact ⟨s, h.parse_text_eq_ok_iff.mpr hletter⟩

/-- A spelling without a signature is not the text of any signature. -/
theorem ClassLiteral.text_ne_of_ok_of_error {d₁ d₂ : Str} {s : Signature} {m : Malformed}
    (h₁ : Signature.parse d₁ = .ok s) (h₂ : Signature.parse d₂ = .error m) : s.text ≠ d₂ := by
  rintro rfl
  obtain ⟨t, ht⟩ := (spells_of_parse h₁).isProper.exists_parse_text
  rw [ht] at h₂
  cases h₂

/-- **Class literals** are told apart by their texts as by their keys. -/
theorem ClassLiteral.text_eq_iff {a b : ClassLiteral} : a.text = b.text ↔ a.key = b.key := by
  obtain ⟨d₁⟩ := a
  obtain ⟨d₂⟩ := b
  rw [← ClassLiteral.key_text, ← ClassLiteral.key_text]
  refine ⟨fun h => ?_, congrArg ClassKey.text⟩
  cases h₁ : Signature.parse d₁ with
  | ok s =>
    rw [key_of_ok h₁] at h ⊢
    cases h₂ : Signature.parse d₂ with
    | ok t =>
      rw [key_of_ok h₂] at h ⊢
      exact congrArg (ClassKey.mk 0) h
    | error m =>
      rw [key_of_error h₂] at h
      exact absurd h (text_ne_of_ok_of_error h₁ h₂)
  | error l =>
    rw [key_of_error h₁] at h ⊢
    cases h₂ : Signature.parse d₂ with
    | ok t =>
      rw [key_of_ok h₂] at h
      exact absurd h.symm (text_ne_of_ok_of_error h₂ h₁)
    | error m =>
      rw [key_of_error h₂] at h ⊢
      exact congrArg (ClassKey.mk 1) h

/-- What stands behind the last dot is told by the whole. -/
theorem eq_of_append_dot {as bs cs ds : List CodePoint} (hbs : char '.' ∉ bs) (hds : char '.' ∉ ds)
    (h : as ++ char '.' :: bs = cs ++ char '.' :: ds) : as = cs ∧ bs = ds := by
  rcases List.append_eq_append_iff.mp h with ⟨es, rfl, hes⟩ | ⟨es, rfl, hes⟩
  · cases es with
    | nil => exact ⟨(List.append_nil as).symm, (List.cons.inj hes).2⟩
    | cons e es =>
      refine absurd ?_ hbs
      rw [(List.cons.inj hes).2]
      simp
  · cases es with
    | nil => exact ⟨List.append_nil cs, (List.cons.inj hes).2.symm⟩
    | cons e es =>
      refine absurd ?_ hds
      rw [(List.cons.inj hes).2]
      simp

/-- **Enum constants** whose own names have no dot are told apart by their texts. -/
theorem EnumConst.eq_of_text {a b : EnumConst} (ha : char '.' ∉ a.constantName.toList)
    (hb : char '.' ∉ b.constantName.toList) (h : a.text = b.text) : a = b := by
  obtain ⟨aType, aName⟩ := a
  obtain ⟨bType, bName⟩ := b
  have hchars := congrArg Str.toList h
  simp only [EnumConst.text, Str.toList_append, List.append_assoc] at hchars
  obtain ⟨htype, hname⟩ := eq_of_append_dot ha hb hchars
  rw [Str.toList_inj] at htype hname
  exact congrArg₂ EnumConst.mk htype hname

/-! ## §4 Values without array or annotation -/

/-- Whether a value is neither an array nor an annotation. -/
def Value.isLeaf : Value → Bool
  | .array _ => false
  | .annot _ => false
  | _ => true

/-- Two values of one variant, without array or annotation, that have one text. -/
inductive Value.WrittenAlike : Value → Value → Prop where
  | scalar (s : Scalar) : Value.WrittenAlike (.scalar s) (.scalar s)
  | string {s t : Str} (spelling : spelled s = spelled t) :
      Value.WrittenAlike (.string s) (.string t)
  | enumConst {a b : EnumConst}
      (dotted : a.typeName ++ "." ++ a.constantName = b.typeName ++ "." ++ b.constantName) :
      Value.WrittenAlike (.enumConst a) (.enumConst b)
  | classLiteral {a b : ClassLiteral} (key : a.key = b.key) :
      Value.WrittenAlike (.classLiteral a) (.classLiteral b)
  | absent : Value.WrittenAlike .absent .absent

section Leaves

variable {v w : Value}

theorem Value.fits_of_isLeaf (h : v.isLeaf = true) {limit depth : ℕ} : v.Fits limit depth := by
  cases v with
  | array items => cases h
  | annot a => cases h
  | _ => simp

theorem Value.SameVariant.isAbsent_eq (h : v.SameVariant w) : v.isAbsent = w.isAbsent := by
  cases h <;> rfl

theorem Value.SameVariant.isLeaf_eq (h : v.SameVariant w) : v.isLeaf = w.isLeaf := by
  cases h <;> rfl

/-- **The texts of values** without array or annotation are the same exactly if the values are
written alike. -/
theorem Value.fullText_eq_iff (hvariant : v.SameVariant w) (hleaf : v.isLeaf = true) :
    v.fullText settings = w.fullText settings ↔ v.WrittenAlike w := by
  cases hvariant with
  | scalar hkind =>
    refine (Scalar.text_inj hkind).trans ⟨?_, ?_⟩
    · rintro rfl
      exact .scalar _
    · rintro ⟨⟩
      rfl
  | string s t =>
    refine stringLiteral_inj.trans ⟨.string, ?_⟩
    rintro ⟨⟩
    assumption
  | array vs ws => cases hleaf
  | enumConst a b =>
    refine Iff.intro .enumConst ?_
    rintro ⟨⟩
    assumption
  | classLiteral a b =>
    refine ClassLiteral.text_eq_iff.trans ⟨.classLiteral, ?_⟩
    rintro ⟨⟩
    assumption
  | annot a b => cases hleaf
  | absent => exact iff_of_true rfl .absent

/-- **What is written alike is equal**, but for strings and enum constants: of the strings one has a
line break and the other a backslash, and one of the constants has a dot in its own name. -/
theorem Value.WrittenAlike.equals_or (h : v.WrittenAlike w) :
    (Raw.value v).Equals settings (.value w) ∨
      (∃ s t, v = .string s ∧ w = .string t ∧
        (((∃ c ∈ s.toList, IsSpelledOut c) ∧ char '\\' ∈ t.toList) ∨
          (∃ c ∈ t.toList, IsSpelledOut c) ∧ char '\\' ∈ s.toList)) ∨
      ∃ a b, v = .enumConst a ∧ w = .enumConst b ∧
        (char '.' ∈ a.constantName.toList ∨ char '.' ∈ b.constantName.toList) := by
  have hself : ∀ {u : Value}, u.isLeaf = true → (Raw.value u).Equals settings (.value u) :=
    fun hleaf => Value.equals_iff.mpr
      ⟨⟨Value.fits_of_isLeaf hleaf, Value.fits_of_isLeaf hleaf⟩, rfl⟩
  cases h with
  | scalar s => exact .inl (hself rfl)
  | @string s t hspelling =>
    rcases eq_or_of_flatMap_spelledChar hspelling with hsame | hbreaks
    · rw [Str.toList_inj] at hsame
      exact .inl (hsame ▸ hself rfl)
    · exact .inr (.inl ⟨s, t, rfl, rfl, hbreaks⟩)
  | @enumConst a b hdotted =>
    by_cases ha : char '.' ∈ a.constantName.toList
    · exact .inr (.inr ⟨a, b, rfl, rfl, .inl ha⟩)
    by_cases hb : char '.' ∈ b.constantName.toList
    · exact .inr (.inr ⟨a, b, rfl, rfl, .inr hb⟩)
    · obtain rfl := EnumConst.eq_of_text ha hb hdotted
      exact .inl (hself rfl)
  | @classLiteral a b hkey =>
    have hfull :
        (Value.classLiteral a).fullKey settings = (Value.classLiteral b).fullKey settings :=
      congrArg ValueKey.classLiteral hkey
    exact .inl (Value.equals_iff.mpr ⟨⟨by simp, by simp⟩, hfull⟩)
  | absent => exact .inl (hself rfl)

/-- Equal values are written alike. -/
theorem Value.writtenAlike_of_equals (hleaf : v.isLeaf = true)
    (h : (Raw.value v).Equals settings (.value w)) : v.WrittenAlike w := by
  obtain ⟨-, hkey⟩ := Value.equals_iff.mp h
  exact (Value.fullText_eq_iff (.of_fullKey hkey) hleaf).mp (Value.fullText_of_fullKey hkey)

end Leaves

/-! ## §5 Parameters and annotations -/

section Holders

variable {v w : Value}

/-- **Parameters** of one name are equal exactly if their values are written alike. -/
theorem Parameter.equals_iff_writtenAlike (hvariant : v.SameVariant w) (hleaf : v.isLeaf = true)
    (name : Str) :
    (Raw.parameter ⟨name, v⟩).Equals settings (.parameter ⟨name, w⟩) ↔ v.WrittenAlike w := by
  have hfits : v.Fits settings.maxDepth 0 ∧ w.Fits settings.maxDepth 0 :=
    ⟨Value.fits_of_isLeaf hleaf, Value.fits_of_isLeaf (hvariant.isLeaf_eq ▸ hleaf)⟩
  rw [Parameter.equals_iff, and_iff_right hfits, ← Value.fullText_eq_iff hvariant hleaf]
  constructor
  · -- the text of a value can be read off the key of its parameter
    intro hkey
    have hpair := congrArg ParameterKey.pair hkey
    rw [Parameter.pair_fullKey, Parameter.pair_fullKey] at hpair
    exact congrArg Prod.snd hpair
  · intro htext
    simp only [Parameter.fullKey, hvariant.isAbsent_eq, htext]

/-- **Annotations** that hold different values at one place are equal exactly if the values are
written alike. -/
theorem Annot.equals_iff_writtenAlike (hvariant : v.SameVariant w) (hleaf : v.isLeaf = true)
    {a b : Annot} {path : List Frame} (ha : .annot a = v.placed path)
    (hb : .annot b = w.placed path) (hfits : a.Fits settings.maxDepth 0 ∧ b.Fits settings.maxDepth 0) :
    (Raw.annot a).Equals settings (.annot b) ↔ v.WrittenAlike w := by
  cases path with
  | nil =>
    -- the value itself is no annotation
    rw [Value.placed_nil] at ha
    rw [← ha] at hleaf
    cases hleaf
  | cons frame path =>
    rw [Annot.equals_iff, and_iff_right hfits,
      Annot.fullKey_eq_iff_of_placed ha hb hvariant.isAbsent_eq,
      Value.fullText_eq_iff hvariant hleaf]

/-- What a set makes of two annotations: of equal ones the first stays. -/
theorem Raw.setOf_annots {a b : Annot} {same : Bool}
    (hfits : a.Fits settings.maxDepth 0 ∧ b.Fits settings.maxDepth 0)
    (hequal : (Raw.annot a).equal settings (.annot b) = .ok same) :
    Raw.setOf settings [.annot a, .annot b] =
      .ok (.set (if same then [.annot a] else [.annot a, .annot b])) := by
  have hhash : ∀ c : Annot, c.Fits settings.maxDepth 0 →
      Raw.checkHashable settings (.annot c) = .ok () := by
    intro c hc
    rw [Raw.checkHashable, (c.key_spec settings 0).ok hc]
    rfl
  simp only [Raw.setOf, List.foldlM_cons, List.foldlM_nil, hhash a hfits.1, hhash b hfits.2,
    List.anyM, bind, Except.bind, pure, Except.pure, hequal, Bool.false_eq_true, if_false,
    List.nil_append]
  cases same <;> rfl

/-- Equality of annotations that fit is decided. -/
theorem Annot.equal_eq_ok {a b : Annot}
    (hfits : a.Fits settings.maxDepth 0 ∧ b.Fits settings.maxDepth 0) :
    ∃ same, (Raw.annot a).equal settings (.annot b) = .ok same := by
  have hequal : (Raw.annot a).equal settings (.annot b) =
      liftWalk ((a.compare settings b).map (· == .eq)) := rfl
  rw [hequal, (a.compare_spec settings b).ok hfits]
  exact ⟨_, rfl⟩

end Holders

/-- **Which values texts keep apart**, of two of one variant without array or annotation. Parameters
of one name are equal exactly if the values are written alike, and so are annotations that differ in
that value only, at any place; a set keeps both annotations exactly if they are not. What is equal
is written alike, and the other way round for scalars of one kind, for class literals, and for
strings and enum constants, unless one string has a line break and the other a backslash, or one of
the constants has a dot in its own name. -/
theorem texts_keep_values_apart (settings : Settings) {v w : Value} (hvariant : v.SameVariant w)
    (hleaf : v.isLeaf = true) :
    (∀ name, (Raw.parameter ⟨name, v⟩).Equals settings (.parameter ⟨name, w⟩) ↔
      v.WrittenAlike w) ∧
    (∀ a b path, .annot a = v.placed path → .annot b = w.placed path →
      a.Fits settings.maxDepth 0 ∧ b.Fits settings.maxDepth 0 →
        ((Raw.annot a).Equals settings (.annot b) ↔ v.WrittenAlike w) ∧
        (Raw.setOf settings [.annot a, .annot b] = .ok (.set [.annot a]) ↔ v.WrittenAlike w) ∧
        (Raw.setOf settings [.annot a, .annot b] = .ok (.set [.annot a, .annot b]) ↔
          ¬v.WrittenAlike w)) ∧
    ((Raw.value v).Equals settings (.value w) → v.WrittenAlike w) ∧
    (v.WrittenAlike w → (Raw.value v).Equals settings (.value w) ∨
      (∃ s t, v = .string s ∧ w = .string t ∧
        (((∃ c ∈ s.toList, IsSpelledOut c) ∧ char '\\' ∈ t.toList) ∨
          (∃ c ∈ t.toList, IsSpelledOut c) ∧ char '\\' ∈ s.toList)) ∨
      ∃ a b, v = .enumConst a ∧ w = .enumConst b ∧
        (char '.' ∈ a.constantName.toList ∨ char '.' ∈ b.constantName.toList)) := by
  refine ⟨Parameter.equals_iff_writtenAlike hvariant hleaf, ?annots,
    Value.writtenAlike_of_equals hleaf, Value.WrittenAlike.equals_or⟩
  case annots =>
    intro a b path ha hb hfits
    have halike := Annot.equals_iff_writtenAlike hvariant hleaf ha hb hfits
    -- a set asks for equality, which is decided for annotations that fit
    obtain ⟨same, hequal⟩ := Annot.equal_eq_ok hfits
    rw [Raw.setOf_annots hfits hequal, ← halike, Raw.Equals, hequal]
    cases same <;> simp

/-- A case of it: a quote, and a quote with a backslash before it, in an array of an annotation. -/
theorem escaped_quotes_are_kept_apart :
    Value.SameVariant (.string "\"") (.string "\\\"") ∧ (Value.string "\"").isLeaf = true ∧
      ¬(Raw.parameter ⟨"n", .string "\""⟩).Equals {} (.parameter ⟨"n", .string "\\\""⟩) ∧
      Raw.setOf {} [.annot ⟨"A", some [⟨"n", .array [.string "\""]⟩]⟩,
          .annot ⟨"A", some [⟨"n", .array [.string "\\\""]⟩]⟩] =
        .ok (.set [.annot ⟨"A", some [⟨"n", .array [.string "\""]⟩]⟩,
          .annot ⟨"A", some [⟨"n", .array [.string "\\\""]⟩]⟩]) := by
  have hvariant : Value.SameVariant (.string "\"") (.string "\\\"") := .string _ _
  obtain ⟨hparameters, hannots, -⟩ := texts_keep_values_apart {} hvariant rfl
  have hapart : ¬Value.WrittenAlike (.string "\"") (.string "\\\"") := by
    intro halike
    cases halike with
    | string hspelling => exact absurd hspelling (by decide)
  refine ⟨hvariant, rfl, fun h => hapart ((hparameters "n").mp h), ?set⟩
  case set =>
    have hpath := hannots _ _ [.parameter "A" [] "n" [], .item [] []] rfl rfl
      ⟨by decide, by decide⟩
    exact hpath.2.2.mpr hapart

/-- It is not so that equal parameters have equal values: a line feed is written as a backslash and
a letter are, and a dot may belong to the type or to the constant. -/
theorem texts_may_be_shared :
    (¬∀ (settings : Settings) (name s t : Str),
      (Raw.parameter ⟨name, .string s⟩).Equals settings (.parameter ⟨name, .string t⟩) →
        (Raw.value (.string s)).Equals settings (.value (.string t))) ∧
    ¬∀ (settings : Settings) (name : Str) (a b : EnumConst),
      (Raw.parameter ⟨name, .enumConst a⟩).Equals settings (.parameter ⟨name, .enumConst b⟩) →
        (Raw.value (.enumConst a)).Equals settings (.value (.enumConst b)) := by
  constructor
  · intro halways
    have hequal := halways {} "n" "\n" "\\n" rfl
    cases hequal
  · intro halways
    have hequal := halways {} "n" ⟨"a.b", "c"⟩ ⟨"a", "b.c"⟩ rfl
    cases hequal

end AnnoTree
