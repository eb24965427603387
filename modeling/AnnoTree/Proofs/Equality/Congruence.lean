import AnnoTree.Proofs.Equality.Contexts

/-!
# Equality is a congruence

What is equal may be replaced: equal values have one text and one key, give equal parameters under
every name, and may stand for each other at all places of a tree. Nothing but nesting beyond the
bound keeps a value from being compared, and then comparing fails on either side.

## Main definitions

- `Value.Interchangeable`: no query tells two values apart.
- `Value.Replaceable`: replacing one value by another gives what is equal.

## Main statements

- `Value.Replaceable.of_fullKey`: values of one key may be replaced.
- `equality_is_congruence`: what equality of values, parameters and annotations is kept by.
-/

namespace AnnoTree

variable {settings : Settings}

/-! ## §1 What equal values have in common -/

/-- No query tells two values apart. -/
structure Value.Interchangeable (settings : Settings) (v w : Value) : Prop where
  variant : v.SameVariant w
  absent : v.isAbsent = w.isAbsent
  rendered : ∃ text, v.render settings 0 = .ok text ∧ w.render settings 0 = .ok text
  /-- The key is what is hashed. -/
  key : ∃ key, v.key settings 0 = .ok key ∧ w.key settings 0 = .ok key
  parameters : ∀ name, (Raw.parameter ⟨name, v⟩).Equals settings (.parameter ⟨name, w⟩)

theorem Value.Interchangeable.of_fullKey {v w : Value} (hv : v.Fits settings.maxDepth 0)
    (hw : w.Fits settings.maxDepth 0) (h : v.fullKey settings = w.fullKey settings) :
    v.Interchangeable settings w where
  variant := .of_fullKey h
  absent := Value.isAbsent_of_fullKey h
  rendered := by
    refine ⟨v.fullText settings, (v.render_spec settings 0).ok hv, ?_⟩
    rw [Value.fullText_of_fullKey h]
    exact (w.render_spec settings 0).ok hw
  key := by
    refine ⟨v.fullKey settings, (v.key_spec settings 0).ok hv, ?_⟩
    rw [h]
    exact (w.key_spec settings 0).ok hw
  parameters name := Parameter.equals_iff.mpr ⟨⟨hv, hw⟩, Parameter.fullKey_of_value name h⟩

/-- Replacing some occurrences of one value by another one gives what is equal, as long as it is not
nested too deep. -/
structure Value.Replaceable (settings : Settings) (old new : Value) : Prop where
  values : ∀ v w, Value.Replaced old new v w → v.Fits settings.maxDepth 0 →
    w.Fits settings.maxDepth 0 → (Raw.value v).Equals settings (.value w)
  annots : ∀ a b, Value.Replaced old new (.annot a) (.annot b) → a.Fits settings.maxDepth 0 →
    b.Fits settings.maxDepth 0 → (Raw.annot a).Equals settings (.annot b)

/-- **Values of one key may be replaced by each other.** -/
theorem Value.Replaceable.of_fullKey {old new : Value}
    (h : old.fullKey settings = new.fullKey settings) : Value.Replaceable settings old new where
  values _ _ hreplaced hv hw := Value.equals_iff.mpr ⟨⟨hv, hw⟩, hreplaced.fullKey_eq h⟩
  annots _ _ hreplaced ha hb :=
    Annot.equals_iff.mpr ⟨⟨ha, hb⟩, ValueKey.annot.inj (hreplaced.fullKey_eq h)⟩

/-! ## §2 Building of equal parameters -/

/-- Parameters that are equal one by one have the same keys, and all of them fit. -/
theorem Parameter.keys_of_forall₂ {ps qs : List Parameter}
    (h : List.Forall₂ (fun p q => (Raw.parameter p).Equals settings (.parameter q)) ps qs) :
    ps.map (Parameter.fullKey settings) = qs.map (Parameter.fullKey settings) ∧
      (∀ p ∈ ps, p.value.Fits settings.maxDepth 0) ∧
      ∀ q ∈ qs, q.value.Fits settings.maxDepth 0 := by
  induction h with
  | nil => simp
  | cons hequal _ ih =>
    obtain ⟨⟨hp, hq⟩, hkey⟩ := Parameter.equals_iff.mp hequal
    obtain ⟨hkeys, hps, hqs⟩ := ih
    refine ⟨?keys, List.forall_mem_cons.mpr ⟨hp, hps⟩, List.forall_mem_cons.mpr ⟨hq, hqs⟩⟩
    case keys => rw [List.map_cons, List.map_cons, hkey, hkeys]

/-- **Equal parameters build equal annotations.** -/
theorem builtOf_of_forall₂ (name : Str) {ps qs : List Parameter}
    (h : List.Forall₂ (fun p q => (Raw.parameter p).Equals settings (.parameter q)) ps qs) :
    ∃ a b, builtOf settings name ps = .ok a ∧ builtOf settings name qs = .ok b ∧
      (Raw.annot a).Equals settings (.annot b) := by
  obtain ⟨hkeys, hps, hqs⟩ := Parameter.keys_of_forall₂ h
  refine ⟨_, _, builtOf_ok (.inr hps), builtOf_ok (.inr hqs), ?_⟩
  rw [Annot.equals_iff, Annot.fits_build, Annot.fits_build]
  refine ⟨⟨⟨Nat.zero_le _, hps⟩, Nat.zero_le _, hqs⟩, ?key⟩
  case key =>
    -- sorting goes by the keys alone, so the sorted keys are the same too
    have hperm : (ps.map (Parameter.fullKey settings)).Perm (qs.map (Parameter.fullKey settings)) :=
      .of_eq hkeys
    simp only [Annot.fullKey, Option.map_some, Parameter.fullSort_keys_of_perm hperm]

/-! ## §3 Equality of values -/

/-- What comparing two values says does not depend on which of them comes first. -/
theorem Value.equal_symm {v w : Value} {result : Bool}
    (h : (Raw.value v).equal settings (.value w) = .ok result) :
    (Raw.value w).equal settings (.value v) = .ok result := by
  have hequal : ∀ x y : Value,
      (Raw.value x).equal settings (.value y) = liftWalk (x.equal settings y) := fun _ _ => rfl
  have hsame : (v.fullKey settings).same (w.fullKey settings) =
      (w.fullKey settings).same (v.fullKey settings) := by
    rw [Bool.eq_iff_iff, ValueKey.same_iff, ValueKey.same_iff]
    exact eq_comm
  rw [hequal, liftWalk_eq_ok, (Value.equal_spec settings _ _).eq_ok_iff] at h ⊢
  obtain ⟨⟨hv, hw⟩, rfl⟩ := h
  exact ⟨⟨hw, hv⟩, hsame.symm⟩

theorem Value.Equals.trans {u v w : Value} (huv : (Raw.value u).Equals settings (.value v))
    (hvw : (Raw.value v).Equals settings (.value w)) :
    (Raw.value u).Equals settings (.value w) := by
  obtain ⟨⟨hu, -⟩, huvKey⟩ := Value.equals_iff.mp huv
  obtain ⟨⟨-, hw⟩, hvwKey⟩ := Value.equals_iff.mp hvw
  exact Value.equals_iff.mpr ⟨⟨hu, hw⟩, huvKey.trans hvwKey⟩

/-! ## §4 The congruence -/

/-- **Equality is a congruence.** Equal values are of one variant and, if scalars, of one kind; they
have one text and one key, give equal parameters under every name, and may be replaced by each
other at any places. Equal annotations have one text and may be replaced by each other inside any
value, and equal parameters build equal annotations. Equality of values is symmetric and transitive,
and reflexive on the values that are not nested too deep; for others, comparing fails on either
side. -/
theorem equality_is_congruence (settings : Settings) :
    (∀ v w, (Raw.value v).Equals settings (.value w) →
      v.Interchangeable settings w ∧ v.Replaceable settings w) ∧
    (∀ a b, (Raw.annot a).Equals settings (.annot b) →
      (∃ text, a.render settings 0 = .ok text ∧ b.render settings 0 = .ok text) ∧
        Value.Replaceable settings (.annot a) (.annot b)) ∧
    (∀ name ps qs,
      List.Forall₂ (fun p q => (Raw.parameter p).Equals settings (.parameter q)) ps qs →
        ∃ a b, builtOf settings name ps = .ok a ∧ builtOf settings name qs = .ok b ∧
          (Raw.annot a).Equals settings (.annot b)) ∧
    (∀ v, Value.Fits settings.maxDepth 0 v → (Raw.value v).Equals settings (.value v)) ∧
    (∀ v w result, (Raw.value v).equal settings (.value w) = .ok result →
      (Raw.value w).equal settings (.value v) = .ok result) ∧
    (∀ u v w, (Raw.value u).Equals settings (.value v) →
      (Raw.value v).Equals settings (.value w) → (Raw.value u).Equals settings (.value w)) ∧
    ∀ v w, (∃ walk, (Raw.value v).equal settings (.value w) =
      .error (.tooDeep ⟨settings.maxDepth, walk⟩)) ↔
        ¬v.Fits settings.maxDepth 0 ∨ ¬w.Fits settings.maxDepth 0 := by
  refine ⟨?values, ?annots, fun name ps qs h => builtOf_of_forall₂ name h,
    fun v hv => Value.equals_iff.mpr ⟨⟨hv, hv⟩, rfl⟩, fun v w result h => Value.equal_symm h,
    fun u v w huv hvw => Value.Equals.trans huv hvw, fun v w => Value.equal_fails_iff⟩
  case values =>
    intro v w h
    obtain ⟨⟨hv, hw⟩, hkey⟩ := Value.equals_iff.mp h
    exact ⟨.of_fullKey hv hw hkey, .of_fullKey hkey⟩
  case annots =>
    intro a b h
    obtain ⟨⟨ha, hb⟩, hkey⟩ := Annot.equals_iff.mp h
    have hrendered := (b.render_spec settings 0).ok hb
    rw [← Annot.fullText_of_fullKey hkey] at hrendered
    refine ⟨⟨a.fullText settings, (a.render_spec settings 0).ok ha, hrendered⟩, ?_⟩
    exact .of_fullKey (congrArg ValueKey.annot hkey)

/-- A case of it: two spellings of one class, in an array of an annotation, beside what is not a
number. -/
theorem spellings_may_be_replaced :
    (Raw.value (.classLiteral ⟨"[I"⟩)).Equals {} (.value (.classLiteral ⟨"int[]"⟩)) ∧
      (Raw.annot ⟨"A", some
          [⟨"x", .array [.classLiteral ⟨"[I"⟩, .scalar (.floating .double .nan)]⟩]⟩).Equals {}
        (.annot ⟨"A", some
          [⟨"x", .array [.classLiteral ⟨"int[]"⟩, .scalar (.floating .double .nan)]⟩]⟩) := by
  obtain ⟨hvalues, -⟩ := equality_is_congruence {}
  have hequal : (Raw.value (.classLiteral ⟨"[I"⟩)).Equals {} (.value (.classLiteral ⟨"int[]"⟩)) :=
    rfl
  have hpath : Value.Replaced (.classLiteral ⟨"[I"⟩) (.classLiteral ⟨"int[]"⟩)
      (.annot ⟨"A", some
        [⟨"x", .array [.classLiteral ⟨"[I"⟩, .scalar (.floating .double .nan)]⟩]⟩)
      (.annot ⟨"A", some
        [⟨"x", .array [.classLiteral ⟨"int[]"⟩, .scalar (.floating .double .nan)]⟩]⟩) :=
    .single ⟨[.parameter "A" [] "x" [], .item [] [.scalar (.floating .double .nan)]], rfl, rfl⟩
  exact ⟨hequal, (hvalues _ _ hequal).2.annots _ _ hpath (by decide) (by decide)⟩

/-- It is not so that every value is equal to itself: with arrays in arrays beyond the bound, it
cannot be compared. -/
theorem deep_values_are_not_compared :
    ¬∀ (settings : Settings) (v : Value), (Raw.value v).Equals settings (.value v) := by
  intro halways
  -- three arrays in each other, under a bound of one
  have hequal := halways ⟨1, "value", by decide, by decide⟩ (.array [.array [.array []]])
  cases hequal

end AnnoTree
