import AnnoTree.Proofs.Order.Building

/-!
# Equality by keys

Values are equal if their keys are the same, as parameters and annotations are, and comparing them
fails if one of the two is nested too deep. The key of a value is a tree of its own, but the keys of
parameters and annotations hold texts. So what a key tells of a value is worth knowing once: its
text, its variant, and whether it is there at all.

## Main definitions

- `Value.SameVariant`: two values of one variant, and two scalars of one kind.

## Main statements

- `ValueKey.same_iff`: keys that are found the same are one key.
- `Value.equals_iff`: what it is for values to be equal.
- `Value.fullText_of_fullKey`: values of one key have one text.
-/

namespace AnnoTree

variable {settings : Settings}

/-! ## §1 Keys that are the same -/

-- The recursion is that of the comparison, on the first key; keys of two variants differ at once.
mutual

private theorem same_iff_aux : ∀ k l : ValueKey, k.same l = true ↔ k = l
  | .scalar s, l => by cases l <;> simp [ValueKey.same]
  | .string s, l => by cases l <;> simp [ValueKey.same]
  | .array ks, l => by cases l <;> simp [ValueKey.same, sameList_iff_aux ks]
  | .enumConst a, l => by cases l <;> simp [ValueKey.same]
  | .classLiteral a, l => by cases l <;> simp [ValueKey.same]
  | .annot a, l => by cases l <;> simp [ValueKey.same]
  | .absent, l => by cases l <;> simp [ValueKey.same]
termination_by structural k => k

private theorem sameList_iff_aux :
    ∀ ks ls : List ValueKey, ValueKey.sameList ks ls = true ↔ ks = ls
  | [], ls => by cases ls <;> simp [ValueKey.sameList]
  | k :: ks, ls => by cases ls <;> simp [ValueKey.sameList, same_iff_aux k, sameList_iff_aux ks]
termination_by structural ks => ks

end

/-- Keys that are found the same are one key. -/
theorem ValueKey.same_iff {k l : ValueKey} : k.same l = true ↔ k = l :=
  same_iff_aux k l

/-! ## §2 Equal values -/

theorem Value.equal_spec (settings : Settings) (v w : Value) :
    WalkSpec settings.maxDepth [.compare, .render]
      (v.Fits settings.maxDepth 0 ∧ w.Fits settings.maxDepth 0)
      ((v.fullKey settings).same (w.fullKey settings)) (v.equal settings w) := by
  refine WalkSpec.congr ?_ (WalkSpec.bind (v.key_spec settings 0)
    (WalkSpec.bind (w.key_spec settings 0) (WalkSpec.pure _)))
  simp

/-- **Values are equal** if they fit and their keys are the same. -/
theorem Value.equals_iff {v w : Value} :
    (Raw.value v).Equals settings (.value w) ↔
      (v.Fits settings.maxDepth 0 ∧ w.Fits settings.maxDepth 0) ∧
        v.fullKey settings = w.fullKey settings := by
  have hequal : (Raw.value v).equal settings (.value w) = liftWalk (v.equal settings w) := rfl
  rw [Raw.Equals, hequal, liftWalk_eq_ok, (Value.equal_spec settings v w).eq_ok_iff,
    ValueKey.same_iff]

/-- Comparing two values fails exactly if one of them is nested too deep. -/
theorem Value.equal_fails_iff {v w : Value} :
    (∃ walk, (Raw.value v).equal settings (.value w) =
      .error (.tooDeep ⟨settings.maxDepth, walk⟩)) ↔
      ¬v.Fits settings.maxDepth 0 ∨ ¬w.Fits settings.maxDepth 0 := by
  have hequal : (Raw.value v).equal settings (.value w) = liftWalk (v.equal settings w) := rfl
  rw [hequal, ← Decidable.not_and_iff_not_or_not]
  constructor
  · rintro ⟨walk, hfailed⟩ hfits
    rw [(Value.equal_spec settings v w).ok hfits] at hfailed
    cases hfailed
  · intro hfits
    obtain ⟨walk, -, hfailed⟩ := (Value.equal_spec settings v w).tooDeep hfits
    rw [hfailed]
    exact ⟨walk, rfl⟩

/-! ## §3 What a key tells -/

/-- Two values of one variant, and two scalars of one kind. -/
inductive Value.SameVariant : Value → Value → Prop where
  | scalar {s t : Scalar} (kind : s.kind = t.kind) : Value.SameVariant (.scalar s) (.scalar t)
  | string (s t : Str) : Value.SameVariant (.string s) (.string t)
  | array (vs ws : List Value) : Value.SameVariant (.array vs) (.array ws)
  | enumConst (a b : EnumConst) : Value.SameVariant (.enumConst a) (.enumConst b)
  | classLiteral (a b : ClassLiteral) : Value.SameVariant (.classLiteral a) (.classLiteral b)
  | annot (a b : Annot) : Value.SameVariant (.annot a) (.annot b)
  | absent : Value.SameVariant .absent .absent

theorem Value.SameVariant.of_fullKey {v w : Value} (h : v.fullKey settings = w.fullKey settings) :
    v.SameVariant w := by
  cases v <;> cases w <;> simp only [Value.fullKey, reduceCtorEq] at h
  case scalar.scalar s t => exact .scalar (congrArg Scalar.kind (ValueKey.scalar.inj h))
  case absent.absent => exact .absent
  all_goals constructor

theorem Value.isAbsent_of_fullKey {v w : Value} (h : v.fullKey settings = w.fullKey settings) :
    v.isAbsent = w.isAbsent := by
  cases Value.SameVariant.of_fullKey h <;> rfl

/-- The text of a class literal is that of its key. -/
theorem ClassLiteral.key_text (c : ClassLiteral) : c.key.text = c.text := by
  unfold ClassLiteral.key ClassLiteral.text
  cases c.signature? <;> rfl

/-- Two lists that look the same to one function look the same to another one, if that holds of
their items. -/
theorem map_eq_map_of_forall {α β γ : Type} {f : α → β} {g : α → γ} {xs ys : List α}
    (hitems : ∀ x ∈ xs, ∀ y, f x = f y → g x = g y) (h : xs.map f = ys.map f) :
    xs.map g = ys.map g := by
  induction xs generalizing ys with
  | nil =>
    rw [List.map_nil, eq_comm, List.map_eq_nil_iff] at h
    rw [h]
  | cons x xs ih =>
    cases ys with
    | nil => cases h
    | cons y ys =>
      obtain ⟨hx, hxs⟩ := List.forall_mem_cons.mp hitems
      rw [List.map_cons, List.map_cons, List.cons.injEq] at h ⊢
      exact ⟨hx y h.1, ih hxs h.2⟩

private theorem fullText_of_fullKey_cases (settings : Settings) :
    TreeCases
      (fun v => ∀ w : Value, v.fullKey settings = w.fullKey settings →
        v.fullText settings = w.fullText settings)
      (fun _ => True) where
  scalar s w h := by
    cases w <;> cases h
    rfl
  string t w h := by
    cases w <;> cases h
    rfl
  array items ih w h := by
    cases w <;> try cases h
    next others =>
      rw [Value.fullKey, Value.fullKey, ValueKey.array.injEq, Value.fullKeyList_eq_map,
        Value.fullKeyList_eq_map] at h
      rw [Value.fullText, Value.fullText, Value.fullTextList_eq_map, Value.fullTextList_eq_map]
      rw [map_eq_map_of_forall ih h]
  enumConst ref w h := by
    cases w <;> cases h
    rfl
  classLiteral ref w h := by
    cases w <;> try cases h
    next other =>
      have hkey : ref.key = other.key := ValueKey.classLiteral.inj h
      rw [Value.fullText, Value.fullText, ← ref.key_text, ← other.key_text, hkey]
  annot a _ w h := by
    cases w <;> try cases h
    next b => exact Annot.fullText_of_fullKey (ValueKey.annot.inj h)
  absent w h := by
    cases w <;> cases h
    rfl
  -- the key of an annotation holds texts already, so nothing is needed of what is below it
  node _ _ := trivial

/-- **Values of one key have one text.** -/
theorem Value.fullText_of_fullKey {v w : Value} (h : v.fullKey settings = w.fullKey settings) :
    v.fullText settings = w.fullText settings :=
  (fullText_of_fullKey_cases settings).all.1 v w h

/-- Values of one key give parameters of one key, under any name. -/
theorem Parameter.fullKey_of_value {v w : Value} (name : Str)
    (h : v.fullKey settings = w.fullKey settings) :
    Parameter.fullKey settings ⟨name, v⟩ = Parameter.fullKey settings ⟨name, w⟩ := by
  simp only [Parameter.fullKey, Value.isAbsent_of_fullKey h, Value.fullText_of_fullKey h]

end AnnoTree
