import AnnoTree.Proofs.Nesting.Tree
import AnnoTree.Proofs.Results
import AnnoTree.Value.Key
import AnnoTree.Value.Payload
import Mathlib.Tactic.Common

/-!
# What walks come to

Rendering, serializing and comparing count the level they are at, each in its own recursion. Here
each of them is given one specification: a result that does not know of levels at all, and the
condition on the levels of the tree under which the walk gives it.

## Main definitions

- `WalkSpec`: a walk gives a result if the tree fits, and stops at the limit if not.
- `Value.fullText`, `Value.fullPayload`, `Value.fullKey` and those of annotations: the results.

## Main statements

- `Value.render_spec`, `Value.payload_spec`, `Value.key_spec` and those of annotations.
-/

namespace AnnoTree

open AnnoTree.Text

/-! ## §1 Specifications -/

/-- A walk gives `x` if the tree fits, and stops at the limit if it does not; `walks` are the names
under which it may stop. -/
structure WalkSpec {α : Type} (limit : Nat) (walks : List Walk) (fits : Prop) (x : α)
    (r : Except TooDeep α) : Prop where
  ok : fits → r = .ok x
  tooDeep : ¬fits → ∃ walk ∈ walks, r = .error ⟨limit, walk⟩

theorem checkDepth_of_le {settings : Settings} {depth : Nat} {walk : Walk}
    (h : depth ≤ settings.maxDepth) : checkDepth settings depth walk = .ok () :=
  checkDepth_eq_ok_iff.mpr (by exact_mod_cast h)

theorem checkDepth_of_lt {settings : Settings} {depth : Nat} {walk : Walk}
    (h : settings.maxDepth < depth) :
    checkDepth settings depth walk = .error ⟨settings.maxDepth, walk⟩ := by
  unfold checkDepth
  rw [if_pos (by exact_mod_cast h)]

namespace WalkSpec

variable {α β : Type} {limit : Nat} {walks : List Walk} {p q : Prop} {x : α} {y : β}
  {r : Except TooDeep α}

theorem pure (x : α) : WalkSpec limit walks True x (.ok x) where
  ok _ := rfl
  tooDeep h := absurd trivial h

theorem congr (hpq : p ↔ q) (h : WalkSpec limit walks p x r) : WalkSpec limit walks q x r where
  ok hq := h.ok (hpq.mpr hq)
  tooDeep hq := h.tooDeep (fun hp => hq (hpq.mp hp))

theorem mono {more : List Walk} (hsub : walks ⊆ more) (h : WalkSpec limit walks p x r) :
    WalkSpec limit more p x r where
  ok := h.ok
  tooDeep hp := by
    obtain ⟨walk, hwalk, hr⟩ := h.tooDeep hp
    exact ⟨walk, hsub hwalk, hr⟩

theorem checkDepth (settings : Settings) (depth : Nat) {walk : Walk} (hwalk : walk ∈ walks) :
    WalkSpec settings.maxDepth walks (depth ≤ settings.maxDepth) ()
      (AnnoTree.checkDepth settings depth walk) where
  ok h := checkDepth_of_le h
  tooDeep h := ⟨walk, hwalk, checkDepth_of_lt (Nat.lt_of_not_le h)⟩

theorem bind {f : α → Except TooDeep β} (hr : WalkSpec limit walks p x r)
    (hf : WalkSpec limit walks q y (f x)) : WalkSpec limit walks (p ∧ q) y (r >>= f) where
  ok h := by
    rw [hr.ok h.1]
    exact hf.ok h.2
  tooDeep h := by
    by_cases hp : p
    · obtain ⟨walk, hwalk, hfx⟩ := hf.tooDeep (fun hq => h ⟨hp, hq⟩)
      refine ⟨walk, hwalk, ?_⟩
      rw [hr.ok hp]
      exact hfx
    · obtain ⟨walk, hwalk, hrx⟩ := hr.tooDeep hp
      refine ⟨walk, hwalk, ?_⟩
      rw [hrx]
      rfl

theorem map (g : α → β) (h : WalkSpec limit walks p x r) :
    WalkSpec limit walks p (g x) (r.map g) where
  ok hp := by
    rw [h.ok hp]
    rfl
  tooDeep hp := by
    obtain ⟨walk, hwalk, hr⟩ := h.tooDeep hp
    refine ⟨walk, hwalk, ?_⟩
    rw [hr]
    rfl

/-- A walk over items stops at the first of them that does not fit. -/
theorem mapM {f : α → Except TooDeep β} {g : α → β} {fits : α → Prop} {items : List α}
    (h : ∀ a ∈ items, WalkSpec limit walks (fits a) (g a) (f a)) :
    WalkSpec limit walks (∀ a ∈ items, fits a) (items.map g) (items.mapM f) := by
  induction items with
  | nil => exact (pure []).congr (by simp)
  | cons a rest ih =>
    rw [List.forall_mem_cons] at h
    rw [List.mapM_cons, List.map_cons]
    refine congr ?_ (bind h.1 (bind (ih h.2) (pure (g a :: rest.map g))))
    simp

/-- A walk at an array or an annotation looks at its level first, and then at what it holds. -/
theorem level {γ : Type} (settings : Settings) (depth : Nat) {walk : Walk}
    {f : α → Except TooDeep β} {g : α → β} {fits : α → Prop} {items : List α} (k : List β → γ)
    (hwalk : walk ∈ walks)
    (h : ∀ a ∈ items, WalkSpec settings.maxDepth walks (fits a) (g a) (f a)) :
    WalkSpec settings.maxDepth walks (depth ≤ settings.maxDepth ∧ ∀ a ∈ items, fits a)
      (k (items.map g)) (do
        AnnoTree.checkDepth settings depth walk
        let ys ← items.mapM f
        return k ys) := by
  refine congr ?_ (bind (checkDepth settings depth hwalk) (bind (mapM h) (pure _)))
  rw [and_true]

/-- Whether a walk gives a result depends on the levels alone. -/
theorem exists_ok_iff (h : WalkSpec limit walks p x r) : (∃ y, r = .ok y) ↔ p := by
  constructor
  · rintro ⟨y, hy⟩
    by_contra hp
    obtain ⟨walk, -, hr⟩ := h.tooDeep hp
    rw [hr] at hy
    cases hy
  · exact fun hp => ⟨x, h.ok hp⟩

theorem of_eq_ok (h : WalkSpec limit walks p x r) {y : α} (hy : r = .ok y) : p ∧ y = x := by
  have hp := h.exists_ok_iff.mp ⟨y, hy⟩
  rw [h.ok hp] at hy
  exact ⟨hp, (Except.ok.inj hy).symm⟩

theorem eq_ok_iff (h : WalkSpec limit walks p x r) {y : α} : r = .ok y ↔ p ∧ x = y := by
  constructor
  · intro hy
    obtain ⟨hp, rfl⟩ := h.of_eq_ok hy
    exact ⟨hp, rfl⟩
  · rintro ⟨hp, rfl⟩
    exact h.ok hp

theorem of_eq_error (h : WalkSpec limit walks p x r) {e : TooDeep} (he : r = .error e) :
    e.limit = limit ∧ e.walk ∈ walks := by
  by_cases hp : p
  · rw [h.ok hp] at he
    cases he
  · obtain ⟨walk, hwalk, hr⟩ := h.tooDeep hp
    rw [hr] at he
    cases he
    exact ⟨rfl, hwalk⟩

end WalkSpec

/-! ## §2 Texts -/

mutual

/-- The text of a value, however deep it is nested. -/
def Value.fullText (settings : Settings) : Value → Str
  | .scalar s => s.text
  | .string t => stringLiteral t
  | .array items => "\x7b" ++ joinWith ", " (Value.fullTextList settings items) ++ "\x7d"
  | .enumConst ref => ref.text
  | .classLiteral ref => ref.text
  | .annot a => Annot.fullText settings a
  | .absent => "null"
termination_by structural v => v

/-- The texts of values. -/
def Value.fullTextList (settings : Settings) : List Value → List Str
  | [] => []
  | v :: rest => Value.fullText settings v :: Value.fullTextList settings rest
termination_by structural vs => vs

/-- The text of an annotation, however deep it is nested. -/
def Annot.fullText (settings : Settings) : Annot → Str
  | ⟨name, none⟩ => annotText settings name []
  | ⟨name, some parameters⟩ => annotText settings name (Parameter.fullPairs settings parameters)
termination_by structural a => a

/-- The name of a parameter and the text of its value. -/
def Parameter.fullPair (settings : Settings) : Parameter → Str × Str
  | ⟨name, value⟩ => (name, Value.fullText settings value)
termination_by structural p => p

/-- The names of parameters and the texts of their values. -/
def Parameter.fullPairs (settings : Settings) : List Parameter → List (Str × Str)
  | [] => []
  | p :: rest => Parameter.fullPair settings p :: Parameter.fullPairs settings rest
termination_by structural ps => ps

end

section Texts

variable (settings : Settings) (depth : Nat)

theorem Value.fullTextList_eq_map (vs : List Value) :
    Value.fullTextList settings vs = vs.map (Value.fullText settings) :=
  eq_map_of_step rfl (fun _ _ => rfl) vs

theorem Parameter.fullPair_eq (p : Parameter) :
    p.fullPair settings = (p.name, p.value.fullText settings) := by
  obtain ⟨name, value⟩ := p
  rfl

theorem Parameter.fullPairs_eq_map (ps : List Parameter) :
    Parameter.fullPairs settings ps = ps.map (Parameter.fullPair settings) :=
  eq_map_of_step rfl (fun _ _ => rfl) ps

theorem Annot.fullText_eq (a : Annot) :
    a.fullText settings =
      annotText settings a.name (a.known.map (Parameter.fullPair settings)) := by
  obtain ⟨name, _ | parameters⟩ := a
  · rfl
  · simp [Annot.fullText, Annot.known, Parameter.fullPairs_eq_map]

theorem Value.renderList_eq_mapM (vs : List Value) :
    Value.renderList settings depth vs = vs.mapM (Value.render settings depth) :=
  eq_mapM_of_step (g := Value.renderList settings depth) rfl (fun _ _ => rfl) vs

theorem Parameter.renderList_eq_mapM (ps : List Parameter) :
    Parameter.renderList settings depth ps = ps.mapM (Parameter.renderPair settings depth) :=
  eq_mapM_of_step (g := Parameter.renderList settings depth) rfl (fun _ _ => rfl) ps

theorem Parameter.renderPair_eq (p : Parameter) :
    p.renderPair settings depth =
      (p.value.render settings depth).map fun t => (p.name, t) := by
  obtain ⟨name, value⟩ := p
  rw [Parameter.renderPair]
  cases Value.render settings depth value <;> rfl

theorem Annot.render_eq (a : Annot) :
    a.render settings depth = (do
      checkDepth settings depth .render
      let pairs ← a.known.mapM (Parameter.renderPair settings depth)
      return annotText settings a.name pairs) := by
  obtain ⟨name, _ | parameters⟩ := a
  · rfl
  · rw [Annot.render, Parameter.renderList_eq_mapM]
    rfl

private theorem render_cases :
    TreeCases
      (fun v => ∀ depth : Nat, WalkSpec settings.maxDepth [.render]
        (v.Fits settings.maxDepth depth) (v.fullText settings) (v.render settings depth))
      (fun a => ∀ depth : Nat, WalkSpec settings.maxDepth [.render]
        (a.Fits settings.maxDepth depth) (a.fullText settings) (a.render settings depth)) where
  scalar s _ := (WalkSpec.pure s.text).congr (by simp)
  string t _ := (WalkSpec.pure (stringLiteral t)).congr (by simp)
  array items ih depth := by
    have hitems := WalkSpec.level settings depth
      (fun texts => ("\x7b" ++ joinWith ", " texts ++ "\x7d" : Str))
      (List.mem_cons_self (a := Walk.render)) fun v hv => ih v hv (depth + 1)
    rw [Value.render, Value.renderList_eq_mapM, Value.fullText, Value.fullTextList_eq_map]
    exact hitems.congr Value.fits_array.symm
  enumConst ref _ := (WalkSpec.pure ref.text).congr (by simp)
  classLiteral ref _ := (WalkSpec.pure ref.text).congr (by simp)
  annot a ih depth := (ih (depth + 1)).congr (by simp)
  absent _ := (WalkSpec.pure ("null" : Str)).congr (by simp)
  node a ih depth := by
    rw [Annot.render_eq, Annot.fullText_eq]
    have hpairs : ∀ p ∈ a.known, WalkSpec settings.maxDepth [.render]
        (p.value.Fits settings.maxDepth depth) (p.fullPair settings)
        (p.renderPair settings depth) := by
      intro p hp
      rw [Parameter.renderPair_eq, Parameter.fullPair_eq]
      exact (ih p hp depth).map _
    have hknown :=
      WalkSpec.level settings depth (annotText settings a.name) List.mem_cons_self hpairs
    exact hknown.congr Annot.fits_iff.symm

theorem Value.render_spec (v : Value) :
    WalkSpec settings.maxDepth [.render] (v.Fits settings.maxDepth depth)
      (v.fullText settings) (v.render settings depth) :=
  (render_cases settings).all.1 v depth

theorem Annot.render_spec (a : Annot) :
    WalkSpec settings.maxDepth [.render] (a.Fits settings.maxDepth depth)
      (a.fullText settings) (a.render settings depth) :=
  (render_cases settings).all.2 a depth

end Texts

/-! ## §3 Payloads -/

mutual

/-- The stored form of a value, however deep it is nested. -/
def Value.fullPayload : Value → Json
  | .scalar s => .single s.kind.name s.literal
  | .string t => .single "string" (.string t)
  | .array items => .single "array" (.array (Value.fullPayloadList items))
  | .enumConst ref => .single "enum_value" ref.payload
  | .classLiteral ref => .single "class_ref" ref.payload
  | .annot a => .single "annotation" (Annot.fullPayload a)
  | .absent => .object []
termination_by structural v => v

/-- The stored forms of values. -/
def Value.fullPayloadList : List Value → List Json
  | [] => []
  | v :: rest => Value.fullPayload v :: Value.fullPayloadList rest
termination_by structural vs => vs

/-- The stored form of an annotation, however deep it is nested. -/
def Annot.fullPayload : Annot → Json
  | ⟨name, none⟩ => .object [("name", .string name), ("parameters", .null)]
  | ⟨name, some parameters⟩ =>
    .object [("name", .string name), ("parameters", .array (Parameter.fullPayloadList parameters))]
termination_by structural a => a

/-- The stored form of a parameter. -/
def Parameter.fullPayload : Parameter → Json
  | ⟨name, value⟩ => .object [("name", .string name), ("value", Value.fullPayload value)]
termination_by structural p => p

/-- The stored forms of parameters. -/
def Parameter.fullPayloadList : List Parameter → List Json
  | [] => []
  | p :: rest => Parameter.fullPayload p :: Parameter.fullPayloadList rest
termination_by structural ps => ps

end

section Payloads

variable (settings : Settings) (depth : Nat)

theorem Value.fullPayloadList_eq_map (vs : List Value) :
    Value.fullPayloadList vs = vs.map Value.fullPayload :=
  eq_map_of_step rfl (fun _ _ => rfl) vs

theorem Parameter.fullPayload_eq (p : Parameter) :
    p.fullPayload = .object [("name", .string p.name), ("value", p.value.fullPayload)] := by
  obtain ⟨name, value⟩ := p
  rfl

theorem Parameter.fullPayloadList_eq_map (ps : List Parameter) :
    Parameter.fullPayloadList ps = ps.map Parameter.fullPayload :=
  eq_map_of_step rfl (fun _ _ => rfl) ps

theorem Parameter.payload_eq (p : Parameter) :
    p.payload settings depth = (p.value.payload settings depth).map fun j =>
      .object [("name", .string p.name), ("value", j)] := by
  obtain ⟨name, value⟩ := p
  rw [Parameter.payload]
  cases Value.payload settings depth value <;> rfl

theorem Value.payloadList_eq_mapM (vs : List Value) :
    Value.payloadList settings depth vs = vs.mapM (Value.payload settings depth) :=
  eq_mapM_of_step (g := Value.payloadList settings depth) rfl (fun _ _ => rfl) vs

theorem Parameter.payloadList_eq_mapM (ps : List Parameter) :
    Parameter.payloadList settings depth ps = ps.mapM (Parameter.payload settings depth) :=
  eq_mapM_of_step (g := Parameter.payloadList settings depth) rfl (fun _ _ => rfl) ps

private theorem payload_cases :
    TreeCases
      (fun v => ∀ depth : Nat, WalkSpec settings.maxDepth [.serialize]
        (v.Fits settings.maxDepth depth) v.fullPayload (v.payload settings depth))
      (fun a => ∀ depth : Nat, WalkSpec settings.maxDepth [.serialize]
        (a.Fits settings.maxDepth depth) a.fullPayload (a.payload settings depth)) where
  scalar s _ := (WalkSpec.pure (Json.single s.kind.name s.literal)).congr (by simp)
  string t _ := (WalkSpec.pure (Json.single "string" (.string t))).congr (by simp)
  array items ih depth := by
    have hitems := WalkSpec.level settings depth (fun js => Json.single "array" (.array js))
      (List.mem_cons_self (a := Walk.serialize)) fun v hv => ih v hv (depth + 1)
    rw [Value.payload, Value.payloadList_eq_mapM, Value.fullPayload,
      Value.fullPayloadList_eq_map]
    exact hitems.congr Value.fits_array.symm
  enumConst ref _ := (WalkSpec.pure (Json.single "enum_value" ref.payload)).congr (by simp)
  classLiteral ref _ := (WalkSpec.pure (Json.single "class_ref" ref.payload)).congr (by simp)
  annot a ih depth := by
    rw [Value.payload, Value.fullPayload]
    refine WalkSpec.congr ?_ (WalkSpec.bind (ih (depth + 1)) (WalkSpec.pure _))
    simp
  absent _ := (WalkSpec.pure (Json.object [])).congr (by simp)
  node a ih depth := by
    have hparameters : ∀ p ∈ a.known, WalkSpec settings.maxDepth [.serialize]
        (p.value.Fits settings.maxDepth depth) p.fullPayload (p.payload settings depth) := by
      intro p hp
      rw [Parameter.payload_eq, Parameter.fullPayload_eq]
      exact (ih p hp depth).map fun j => Json.object [("name", .string p.name), ("value", j)]
    obtain ⟨name, _ | parameters⟩ := a
    · -- unknown parameters are stored as null, so there is nothing to walk over
      have hdepth : WalkSpec settings.maxDepth [.serialize] (depth ≤ settings.maxDepth) ()
          (checkDepth settings depth .serialize) :=
        WalkSpec.checkDepth settings depth List.mem_cons_self
      rw [Annot.payload, Annot.fullPayload]
      refine WalkSpec.congr ?_ (WalkSpec.bind hdepth (WalkSpec.pure _))
      simp [Annot.fits_iff, Annot.known]
    · have hknown := WalkSpec.level settings depth
        (fun js => Json.object [("name", .string name), ("parameters", .array js)])
        List.mem_cons_self hparameters
      rw [Annot.payload, Annot.fullPayload, Parameter.payloadList_eq_mapM,
        Parameter.fullPayloadList_eq_map]
      exact hknown.congr Annot.fits_iff.symm

theorem Value.payload_spec (v : Value) :
    WalkSpec settings.maxDepth [.serialize] (v.Fits settings.maxDepth depth)
      v.fullPayload (v.payload settings depth) :=
  (payload_cases settings).all.1 v depth

theorem Annot.payload_spec (a : Annot) :
    WalkSpec settings.maxDepth [.serialize] (a.Fits settings.maxDepth depth)
      a.fullPayload (a.payload settings depth) :=
  (payload_cases settings).all.2 a depth

end Payloads

/-! ## §4 Keys -/

/-- The key of a parameter, however deep its value is nested. -/
def Parameter.fullKey (settings : Settings) (p : Parameter) : ParameterKey :=
  ⟨p.name, if p.value.isAbsent then none else some (p.value.fullText settings)⟩

/-- The key of an annotation, however deep it is nested. -/
def Annot.fullKey (settings : Settings) (a : Annot) : AnnotKey :=
  ⟨a.name, a.parameters.map (·.map (Parameter.fullKey settings))⟩

mutual

/-- The key of a value, however deep it is nested. -/
def Value.fullKey (settings : Settings) : Value → ValueKey
  | .scalar s => .scalar s
  | .string t => .string t
  | .array items => .array (Value.fullKeyList settings items)
  | .enumConst ref => .enumConst ref
  | .classLiteral ref => .classLiteral ref.key
  | .annot a => .annot (a.fullKey settings)
  | .absent => .absent
termination_by structural v => v

/-- The keys of values. -/
def Value.fullKeyList (settings : Settings) : List Value → List ValueKey
  | [] => []
  | v :: rest => Value.fullKey settings v :: Value.fullKeyList settings rest
termination_by structural vs => vs

end

section Keys

variable (settings : Settings) (depth : Nat)

theorem Value.fullKeyList_eq_map (vs : List Value) :
    Value.fullKeyList settings vs = vs.map (Value.fullKey settings) :=
  eq_map_of_step rfl (fun _ _ => rfl) vs

theorem Value.keyList_eq_mapM (vs : List Value) :
    Value.keyList settings depth vs = vs.mapM (Value.key settings depth) :=
  eq_mapM_of_step (g := Value.keyList settings depth) rfl (fun _ _ => rfl) vs

/-- The key of a parameter looks at the value only if there is one, and an absent value fits. -/
theorem Parameter.key_spec (p : Parameter) :
    WalkSpec settings.maxDepth [.render] (p.value.Fits settings.maxDepth depth)
      (p.fullKey settings) (p.key settings depth) := by
  obtain ⟨name, value⟩ := p
  by_cases habsent : value.isAbsent
  · have hvalue : value = .absent := by
      cases value <;> simp [Value.isAbsent] at habsent ⊢
    subst hvalue
    exact (WalkSpec.pure _).congr (by simp)
  · simp only [Parameter.key, Parameter.fullKey, habsent, if_false, Bool.false_eq_true]
    exact WalkSpec.map (fun t => (⟨name, some t⟩ : ParameterKey))
      (Value.render_spec settings depth value)

/-- The key of an annotation is made of texts, so it may stop as a rendering. -/
theorem Annot.key_spec (a : Annot) :
    WalkSpec settings.maxDepth [.compare, .render] (a.Fits settings.maxDepth depth)
      (a.fullKey settings) (a.key settings depth) := by
  have hparameters : ∀ p ∈ a.known, WalkSpec settings.maxDepth [.compare, .render]
      (p.value.Fits settings.maxDepth depth) (p.fullKey settings) (p.key settings depth) :=
    fun p _ => (Parameter.key_spec settings depth p).mono (by simp)
  obtain ⟨name, _ | parameters⟩ := a
  · have hdepth : WalkSpec settings.maxDepth [.compare, .render] (depth ≤ settings.maxDepth) ()
        (checkDepth settings depth .compare) :=
      WalkSpec.checkDepth settings depth List.mem_cons_self
    refine WalkSpec.congr ?_ (WalkSpec.bind hdepth (WalkSpec.pure _))
    simp [Annot.fits_iff, Annot.known]
  · have hknown := WalkSpec.level settings depth (fun keys => (⟨name, some keys⟩ : AnnotKey))
      (List.mem_cons_self (a := Walk.compare)) hparameters
    exact hknown.congr Annot.fits_iff.symm

private theorem key_cases :
    TreeCases
      (fun v => ∀ depth : Nat, WalkSpec settings.maxDepth [.compare, .render]
        (v.Fits settings.maxDepth depth) (v.fullKey settings) (v.key settings depth))
      (fun _ => True) where
  scalar s _ := (WalkSpec.pure (ValueKey.scalar s)).congr (by simp)
  string t _ := (WalkSpec.pure (ValueKey.string t)).congr (by simp)
  array items ih depth := by
    have hitems := WalkSpec.level settings depth ValueKey.array
      (List.mem_cons_self (a := Walk.compare)) fun v hv => ih v hv (depth + 1)
    rw [Value.key, Value.keyList_eq_mapM, Value.fullKey, Value.fullKeyList_eq_map]
    exact hitems.congr Value.fits_array.symm
  enumConst ref _ := (WalkSpec.pure (ValueKey.enumConst ref)).congr (by simp)
  classLiteral ref _ := (WalkSpec.pure (ValueKey.classLiteral ref.key)).congr (by simp)
  -- the key of a nested annotation holds texts, so nothing is needed of what is below it
  annot a _ depth := ((Annot.key_spec settings (depth + 1) a).map ValueKey.annot).congr (by simp)
  absent _ := (WalkSpec.pure ValueKey.absent).congr (by simp)
  node _ _ := trivial

theorem Value.key_spec (v : Value) :
    WalkSpec settings.maxDepth [.compare, .render] (v.Fits settings.maxDepth depth)
      (v.fullKey settings) (v.key settings depth) :=
  (key_cases settings).all.1 v depth

end Keys

end AnnoTree
