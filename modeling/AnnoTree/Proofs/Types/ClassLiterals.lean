import AnnoTree.Proofs.Order.Laws
import AnnoTree.Proofs.Signature.Reading
import AnnoTree.Proofs.Types.Modules
import AnnoTree.Types.Registry

/-!
# Class literals and the types they name

Class literals are told apart by the texts of their signatures. No two signatures that are read
share a text, so equal class literals name one type, and they are looked up alike. Read in its
turn, the text of a signature gives the signature back, but for a class whose whole text is the
letter of a base type.

## Main definitions

- `NameOneType`: two descriptors that name one type, or are one text that names none.

## Main statements

- `Signature.IsProper.text_injective`: signatures that are read are told apart by their texts.
- `Signature.IsProper.parse_text_eq_ok_iff`: which texts of signatures give them back.
- `ClassLiteral.key_eq_iff`: equal keys name one type.
- `class_literals_name_types`: equality, order and lookup of class literals.
-/

namespace AnnoTree

open AnnoTree.Text

/-! ## §1 Texts of signatures -/

namespace Signature

theorem toList_text (s : Signature) :
    s.text.toList = s.element.text.toList ++ (brackets s.dimensions).toList :=
  Str.toList_append _ _

variable {s t : Signature}

theorem IsProper.dotted (h : s.IsProper) : DottedName s.element.text.toList := by
  cases h with
  | base b n allowed => exact b.dottedName_name
  | named name n className => exact className.dotted

/-- The text of a signature determines what the brackets stand behind, and their number. -/
theorem IsProper.split_text (h : s.IsProper) :
    splitBrackets s.text.toList.reverse = (s.dimensions, s.element.text.toList.reverse) := by
  rw [toList_text]
  exact h.dotted.splitBrackets s.dimensions

/-- No class has the name of a base type. -/
theorem IsProper.element_eq (hs : s.IsProper) (ht : t.IsProper)
    (h : s.element.text = t.element.text) : s.element = t.element := by
  cases hs with
  | base b n allowed =>
    cases ht with
    | base c m allowed' =>
      have hname : BaseType.ofName? b.name = BaseType.ofName? c.name := congrArg _ h
      rw [BaseType.ofName?_name, BaseType.ofName?_name] at hname
      exact congrArg ElementType.base (Option.some.inj hname)
    | named name m className => exact absurd (congrArg Str.toList h).symm (className.notBase b)
  | named name n className =>
    cases ht with
    | base c m allowed' => exact absurd (congrArg Str.toList h) (className.notBase c)
    | named name' m className' => exact congrArg ElementType.named h

/-- **Signatures that are read are told apart by their texts.** -/
theorem IsProper.text_injective (hs : s.IsProper) (ht : t.IsProper) (h : s.text = t.text) :
    s = t := by
  have hsplit := hs.split_text
  rw [h, ht.split_text, Prod.mk.injEq, List.reverse_inj, Str.toList_inj] at hsplit
  obtain ⟨hdimensions, hname⟩ := hsplit
  have helement := ht.element_eq hs hname
  cases s
  cases t
  cases hdimensions
  cases helement
  rfl

/-- A class under the letter of a base type, which is no array. -/
def IsBaseLetter (s : Signature) (b : BaseType) : Prop :=
  s = ⟨.named (Str.singleton b.code), 0⟩

/-- The text of such a class is read as the base type. -/
theorem IsBaseLetter.parse_text {b : BaseType} (h : s.IsBaseLetter b) :
    parse s.text = .ok ⟨.base b, 0⟩ := by
  have hspells := Spells.code b 0 fun _ => rfl
  have htext : s.text = Str.ofList (List.replicate 0 (CodePoint.char '[') ++ [b.code]) := by
    rw [h]
    exact Str.append_empty _
  rw [htext]
  exact hspells.parse_ofList

/-- A text that is the letter of a base type has no brackets. -/
theorem isBaseLetter_of_text {name : Str} {n : ℕ} {b : BaseType} (hname : name.toList ≠ [])
    (h : name.toList ++ (brackets n).toList = [b.code]) : IsBaseLetter ⟨.named name, n⟩ b := by
  cases n with
  | zero =>
    have hsingle : name.toList = [b.code] := by
      rw [← h]
      exact (List.append_nil _).symm
    have htext : name = Str.singleton b.code := by
      rw [← Str.toList_inj, hsingle, Str.toList_singleton]
    rw [IsBaseLetter, htext]
  | succ n =>
    have hlength := congrArg List.length h
    have hpos := List.length_pos_of_ne_nil hname
    rw [toList_brackets_succ, List.length_append, List.length_cons, List.length_singleton]
      at hlength
    omega

/-- **The text of a signature that is read gives it back**, unless it is a class under the letter
of a base type. -/
theorem IsProper.parse_text_eq_ok_iff (h : s.IsProper) :
    parse s.text = .ok s ↔ ¬∃ b, s.IsBaseLetter b := by
  constructor
  · rintro hparse ⟨b, hletter⟩
    rw [hletter.parse_text, hletter] at hparse
    cases hparse
  · intro hnone
    -- then the text spells the signature in source form
    have hspells : Spells s.text.toList s := by
      rw [toList_text]
      cases h with
      | base b n allowed => exact .baseName b n allowed
      | named name n className =>
        have hcode : ∀ b : BaseType, name.toList ++ (brackets n).toList ≠ [b.code] := fun b heq =>
          hnone ⟨b, isBaseLetter_of_text className.dotted.ne_nil heq⟩
        have hclass := Spells.className name.toList n className hcode
        rwa [Str.ofList_toList] at hclass
    have hparse := hspells.parse_ofList
    rwa [Str.ofList_toList] at hparse

end Signature

/-! ## §2 Keys -/

/-- Two descriptors name one type: both have the same signature, or they are one text that has
none. -/
def NameOneType (d₁ d₂ : Str) : Prop :=
  (∃ s, Signature.parse d₁ = .ok s ∧ Signature.parse d₂ = .ok s) ∨
    (∃ m, Signature.parse d₁ = .error m) ∧ (∃ m, Signature.parse d₂ = .error m) ∧ d₁ = d₂

namespace NameOneType

variable {d₁ d₂ : Str}

theorem parse_eq (h : NameOneType d₁ d₂) : Signature.parse d₁ = Signature.parse d₂ := by
  rcases h with ⟨s, h₁, h₂⟩ | ⟨-, -, rfl⟩
  · rw [h₁, h₂]
  · rfl

theorem symm (h : NameOneType d₁ d₂) : NameOneType d₂ d₁ := by
  rcases h with ⟨s, h₁, h₂⟩ | ⟨h₁, h₂, rfl⟩
  · exact .inl ⟨s, h₂, h₁⟩
  · exact .inr ⟨h₂, h₁, rfl⟩

end NameOneType

theorem not_nameOneType {d₁ d₂ : Str} {s : Signature} {m : Malformed}
    (h₁ : Signature.parse d₁ = .ok s) (h₂ : Signature.parse d₂ = .error m) :
    ¬NameOneType d₁ d₂ := by
  intro hone
  have hparse := hone.parse_eq
  rw [h₁, h₂] at hparse
  cases hparse

namespace ClassLiteral

variable {d d₁ d₂ : Str}

theorem key_of_ok {s : Signature} (h : Signature.parse d = .ok s) :
    (ClassLiteral.mk d).key = ⟨0, s.text⟩ := by
  rw [key, signature?, h]
  rfl

theorem key_of_error {m : Malformed} (h : Signature.parse d = .error m) :
    (ClassLiteral.mk d).key = ⟨1, d⟩ := by
  rw [key, signature?, h]
  rfl

theorem key_ne_of_ok_of_error {s : Signature} {m : Malformed} (h₁ : Signature.parse d₁ = .ok s)
    (h₂ : Signature.parse d₂ = .error m) :
    (ClassLiteral.mk d₁).key ≠ (ClassLiteral.mk d₂).key := by
  rw [key_of_ok h₁, key_of_error h₂]
  exact fun heq => Nat.zero_ne_one (congrArg ClassKey.rank heq)

/-- **Class literals with one key name one type.** -/
theorem key_eq_iff : (ClassLiteral.mk d₁).key = (ClassLiteral.mk d₂).key ↔ NameOneType d₁ d₂ := by
  cases h₁ : Signature.parse d₁ with
  | ok s =>
    cases h₂ : Signature.parse d₂ with
    | ok t =>
      rw [key_of_ok h₁, key_of_ok h₂]
      constructor
      · intro heq
        have htext := congrArg ClassKey.text heq
        have hsame := (spells_of_parse h₁).isProper.text_injective
          (spells_of_parse h₂).isProper htext
        exact .inl ⟨s, h₁, hsame ▸ h₂⟩
      · intro hone
        have hparse := hone.parse_eq
        rw [h₁, h₂] at hparse
        rw [Except.ok.inj hparse]
    | error m => exact iff_of_false (key_ne_of_ok_of_error h₁ h₂) (not_nameOneType h₁ h₂)
  | error l =>
    cases h₂ : Signature.parse d₂ with
    | ok t =>
      exact iff_of_false (key_ne_of_ok_of_error h₂ h₁).symm fun h => not_nameOneType h₂ h₁ h.symm
    | error m =>
      rw [key_of_error h₁, key_of_error h₂]
      constructor
      · intro heq
        exact .inr ⟨⟨l, h₁⟩, ⟨m, h₂⟩, congrArg ClassKey.text heq⟩
      · rintro (⟨s, hok, -⟩ | ⟨-, -, rfl⟩)
        · rw [h₁] at hok
          cases hok
        · rfl

theorem compareNumber_eq (settings : Settings) (a b : ClassLiteral) :
    (Raw.classLiteral a).compareNumber settings (.classLiteral b) =
      .ok (Raw.orderNumber (a.compare b)) :=
  rfl

/-- What has a signature comes before what has none. -/
theorem compare_of_ok_of_error {s : Signature} {m : Malformed} (h₁ : Signature.parse d₁ = .ok s)
    (h₂ : Signature.parse d₂ = .error m) :
    (ClassLiteral.mk d₁).compare (ClassLiteral.mk d₂) = .lt := by
  rw [compare, key_of_ok h₁, key_of_error h₂]
  rfl

end ClassLiteral

/-! ## §3 Lookups -/

namespace Lookup

variable {σ : Type} {l : Lookup σ}

/-- A lookup goes by the signature, or by the fault of a descriptor. -/
theorem classLiteral_congr {d₁ d₂ : Str} (h : NameOneType d₁ d₂) (st : σ) :
    l.classLiteral st ⟨d₁⟩ = l.classLiteral st ⟨d₂⟩ := by
  rw [classLiteral, classLiteral, h.parse_eq]

/-- Where types and base types mean the same the next time, class literals do. -/
theorem classLiteral_again {d : Str} {st : σ}
    (htype : ∀ name, l.resolveType (l.resolveType st name).1 name = l.resolveType st name)
    (hbase : ∀ name, l.resolveBase (l.resolveBase st name).1 name = l.resolveBase st name) :
    l.classLiteral (l.classLiteral st ⟨d⟩).1 ⟨d⟩ = l.classLiteral st ⟨d⟩ := by
  -- one lookup of the element type, which is a base type or a name
  have helement : ∀ e, l.element (l.element st e).1 e = l.element st e := by
    intro e
    cases e with
    | base b => exact hbase b.name
    | named className => exact htype className
  rw [classLiteral, classLiteral]
  cases hparse : Signature.parse d with
  | error m => rfl
  | ok s =>
    have hagain := helement s.element
    dsimp only
    rw [signature, signature]
    rcases hfound : l.element st s.element with ⟨st', e | type⟩
    · rw [hfound] at hagain
      simp only [andThen, hagain]
    · rw [hfound] at hagain
      simp only [andThen, hagain]

end Lookup

/-! ## §4 One type -/

/-- **Class literals are equal exactly if they name one type.** Comparing them, hashing them and
their text never fail, those with a signature come before those without, and equal ones denote the
same in every registry and in all modules, at the same time and one after the other. The text of a
signature that is read gives it back, unless it is a class under the letter of a base type, which
gives the base type. -/
theorem class_literals_name_types (settings : Settings) :
    (∀ d₁ d₂, (Raw.classLiteral ⟨d₁⟩).equal settings (.classLiteral ⟨d₂⟩) = .ok true ↔
      NameOneType d₁ d₂) ∧
    (∀ d₁ d₂,
      (∃ same, (Raw.classLiteral ⟨d₁⟩).equal settings (.classLiteral ⟨d₂⟩) = .ok same) ∧
      (∃ n, (Raw.classLiteral ⟨d₁⟩).compareNumber settings (.classLiteral ⟨d₂⟩) = .ok n) ∧
      (∀ relation, ∃ answer,
        (Raw.classLiteral ⟨d₁⟩).holds settings relation (.classLiteral ⟨d₂⟩) = .ok answer) ∧
      (Raw.classLiteral ⟨d₁⟩).checkHashable settings = .ok () ∧
      ∃ text, (Raw.classLiteral ⟨d₁⟩).text? settings = some (.ok text)) ∧
    (∀ d₁ d₂ s m, Signature.parse d₁ = .ok s → Signature.parse d₂ = .error m →
      (Raw.classLiteral ⟨d₁⟩).compareNumber settings (.classLiteral ⟨d₂⟩) = .ok (-1)) ∧
    (∀ d₁ d₂, (Raw.classLiteral ⟨d₁⟩).equal settings (.classLiteral ⟨d₂⟩) = .ok true →
      (∀ r, Registry.lookup.classLiteral r ⟨d₁⟩ = Registry.lookup.classLiteral r ⟨d₂⟩ ∧
        Registry.lookup.classLiteral (Registry.lookup.classLiteral r ⟨d₁⟩).1 ⟨d₂⟩ =
          Registry.lookup.classLiteral r ⟨d₁⟩) ∧
      ∀ m, Modules.lookup.classLiteral m ⟨d₁⟩ = Modules.lookup.classLiteral m ⟨d₂⟩ ∧
        Modules.lookup.classLiteral (Modules.lookup.classLiteral m ⟨d₁⟩).1 ⟨d₂⟩ =
          Modules.lookup.classLiteral m ⟨d₁⟩) ∧
    ∀ d s, Signature.parse d = .ok s →
      (Signature.parse s.text = .ok s ↔ ¬∃ b, s.IsBaseLetter b) ∧
      ∀ b, s.IsBaseLetter b → Signature.parse s.text = .ok ⟨.base b, 0⟩ := by
  have hequal : ∀ d₁ d₂, (Raw.classLiteral ⟨d₁⟩).equal settings (.classLiteral ⟨d₂⟩) = .ok true ↔
      NameOneType d₁ d₂ := by
    intro d₁ d₂
    rw [← ClassLiteral.key_eq_iff, Raw.equal, Except.ok.injEq, decide_eq_true_eq]
  refine ⟨hequal, fun d₁ d₂ => ?_, fun d₁ d₂ s m h₁ h₂ => ?_, fun d₁ d₂ heq => ?_, fun d s h => ?_⟩
  · exact ⟨⟨_, rfl⟩, ⟨_, rfl⟩, fun relation => ⟨_, rfl⟩, rfl, ⟨_, rfl⟩⟩
  · rw [ClassLiteral.compareNumber_eq, ClassLiteral.compare_of_ok_of_error h₁ h₂]
    rfl
  · have hone := (hequal d₁ d₂).mp heq
    refine ⟨fun r => ⟨Lookup.classLiteral_congr hone r, ?_⟩,
      fun m => ⟨Lookup.classLiteral_congr hone m, ?_⟩⟩
    · rw [← Lookup.classLiteral_congr hone]
      exact Lookup.classLiteral_again (fun _ => rfl) fun _ => rfl
    · rw [← Lookup.classLiteral_congr hone]
      exact Lookup.classLiteral_again m.resolveType_again fun _ => rfl
  · have hproper := (spells_of_parse h).isProper
    exact ⟨hproper.parse_text_eq_ok_iff, fun b hletter => hletter.parse_text⟩

end AnnoTree
