import AnnoTree.Proofs.Loading.Sorting

/-!
# From annotations to stored forms and back

An annotation that was built in the regular way, and so were all in it, comes back from its stored
form as it was. The decoder sorts parameters again at every annotation, which changes nothing, for
they have been sorted before. What is loaded from any stored form is regular, so loading brings a
stored form into a normal one.

## Main statements

- `Annot.load_fullPayload`: the stored form of a regular annotation is loaded as that annotation.
- `payload_round_trip`: storing and loading are inverse, and loading is a normalisation.
-/

namespace AnnoTree

open Std

variable {settings : Settings} {depth : Nat}

/-! ## §1 Parameters that have been sorted -/

/-- An annotation that was built keeps its parameters sorted. -/
theorem Annot.IsRegular.sorted {a : Annot} (h : a.IsRegular settings) :
    Parameter.sorted settings a.known = .ok a.known := by
  obtain ⟨name, parameters, hbuilt⟩ := h.built
  obtain ⟨given, -, hsorts⟩ := Annot.ofRaw_sorts hbuilt
  exact hsorts.known_sorted

/-! ## §2 Decoders on what was encoded -/

theorem Value.load_name (key : PayloadKey) (j : Json) :
    Value.load settings depth (.object [(key.name, j)]) =
      Value.loadSingle settings depth [(key.name, j)] := by
  rw [Value.load, singleEntry_name]

theorem Parameter.load_object (name : Str) (j : Json) :
    Parameter.load settings depth (.object [("name", .string name), ("value", j)]) =
      (Value.load settings depth j).map fun v => ⟨name, v⟩ := by
  rfl

theorem Annot.load_object {name : Str} {j : Json} {parameters : Option (List Parameter)}
    (hname : name ≠ "") (hdepth : depth ≤ settings.maxDepth) :
    Parameter.loadField settings depth j = .ok parameters →
    Annot.load settings depth (.object [("name", .string name), ("parameters", j)]) =
      match parameters with
      | none => .ok ⟨name, none⟩
      | some ps => liftWalk (Annot.ofParameters settings name ps) := by
  intro hparameters
  have hkeys : unknownKeys ["name", "parameters"]
      [("name", Json.string name), ("parameters", j)] = [] := by
    rw [unknownKeys_eq_nil]
    simp [Entries.keys]
  have hget : Entries.get? ("name" : Str) [("name", Json.string name), ("parameters", j)] =
      some (.string name) := rfl
  have hfield : fieldOrNull "parameters" [("name", Json.string name), ("parameters", j)] = j := rfl
  rw [Annot.load, hkeys]
  simp only [hget, if_neg hname, checkDepth_of_le hdepth, Annot.loadParameters_eq, hfield,
    hparameters]
  rfl

/-- An annotation is built again of its parameters if each of them comes back. -/
theorem Annot.load_parameters {name : Str} {ps : List Parameter} (hname : name ≠ "")
    (hdepth : depth ≤ settings.maxDepth)
    (h : ∀ p ∈ ps, Parameter.load settings depth p.fullPayload = .ok p) :
    Annot.load settings depth (Annot.fullPayload ⟨name, some ps⟩) =
      liftWalk (Annot.ofParameters settings name ps) := by
  have hlist : (ps.map Parameter.fullPayload).mapM (Parameter.load settings depth) = .ok ps :=
    mapM_map_eq_ok h
  have hfield : Parameter.loadField settings depth
      (.array (ps.map Parameter.fullPayload)) = .ok (some ps) := by
    rw [Parameter.loadField, Parameter.loadList_eq_mapM, hlist]
    rfl
  rw [Annot.fullPayload, Parameter.fullPayloadList_eq_map, Annot.load_object hname hdepth hfield]

/-! ## §3 The round trip -/

theorem Value.IsSound.item {items : List Value} (h : (Value.array items).IsSound settings depth)
    {v : Value} (hv : v ∈ items) : v.IsSound settings (depth + 1) where
  fits := (Value.fits_array.mp h.fits).2 v hv
  regular b hb := h.regular b (Value.mem_annots_array.mpr ⟨v, hv, hb⟩)

theorem Annot.IsSound.parameter {a : Annot} (h : a.IsSound settings depth) {p : Parameter}
    (hp : p ∈ a.known) : p.value.IsSound settings depth where
  fits := (Annot.fits_iff.mp h.fits).2 p hp
  regular b hb := h.regular b (Annot.mem_annots.mpr (.inr ⟨p, hp, hb⟩))

private theorem load_payload_cases (settings : Settings) :
    TreeCases
      (fun v => ∀ depth : Nat, v.IsSound settings depth →
        Value.load settings depth v.fullPayload = .ok v)
      (fun a => ∀ depth : Nat, a.IsSound settings depth →
        Annot.load settings depth a.fullPayload = .ok a) where
  scalar s depth _ := by
    show Value.load settings depth (.object [((PayloadKey.scalar s.kind).name, s.literal)]) = _
    rw [Value.load_name]
    unfold Value.loadSingle
    simp only [PayloadKey.ofName?_name, Scalar.ofRaw_literal]
  string t depth _ := rfl
  array items ih depth h := by
    have hdepth := (Value.fits_array.mp h.fits).1
    have hitems : (items.map Value.fullPayload).mapM
        (Value.load settings ((depth + 1 : Nat) : Int)) = .ok items :=
      mapM_map_eq_ok fun v hv => ih v hv (depth + 1) (h.item hv)
    show Value.loadArray settings depth (.array (Value.fullPayloadList items)) = _
    rw [Value.loadArray, Value.loadList_eq_mapM, Value.fullPayloadList_eq_map,
      checkDepth_of_le hdepth]
    -- the levels of the two walks go up in step
    show (do
      let vs ← (items.map Value.fullPayload).mapM (Value.load settings ((depth + 1 : Nat) : Int))
      return Value.array vs) = _
    rw [hitems]
    rfl
  enumConst ref depth _ := rfl
  classLiteral ref depth _ := rfl
  annot a ih depth h := by
    have hload := ih (depth + 1) ⟨Value.fits_annot.mp h.fits, h.regular⟩
    show (Annot.load settings ((depth + 1 : Nat) : Int) a.fullPayload).map Value.annot = _
    rw [hload]
    rfl
  absent _ _ := rfl
  node a ih depth h := by
    have hdepth := (Annot.fits_iff.mp h.fits).1
    have hregular := h.regular a (Annot.mem_annots.mpr (.inl rfl))
    have hparameters : ∀ p ∈ a.known,
        Parameter.load settings depth p.fullPayload = .ok p := by
      intro p hp
      rw [Parameter.fullPayload_eq, Parameter.load_object, ih p hp depth (h.parameter hp)]
      cases p
      rfl
    obtain ⟨name, _ | ps⟩ := a
    · rw [Annot.fullPayload, Annot.load_object hregular.named hdepth rfl]
    · -- the decoder sorts again, but what was built is sorted already
      have hsorted : Parameter.sorted settings ps = .ok ps := hregular.sorted
      refine (Annot.load_parameters hregular.named hdepth hparameters).trans ?_
      show liftWalk (Annot.ofParameters settings name ps) = .ok ⟨name, some ps⟩
      rw [Annot.ofParameters, hsorted]
      rfl

/-- The stored form of a regular annotation is loaded as that annotation. -/
theorem Annot.load_fullPayload {a : Annot} (h : a.IsSound settings depth) :
    Annot.load settings depth a.fullPayload = .ok a :=
  (load_payload_cases settings).all.2 a depth h

theorem Raw.equal_self {a : Annot} (h : a.Fits settings.maxDepth 0) :
    (Raw.annot a).equal settings (.annot a) = .ok true :=
  Annot.equals_iff.mpr ⟨⟨h, h⟩, rfl⟩

/-- **The round trip**: an annotation that was built from raw parameters and has a name, as have all
in it, comes back from its stored form as it was. What is loaded from any stored form is such an
annotation and has a stored form, and loading that again gives the same stored form. -/
theorem payload_round_trip (settings : Settings) :
    (∀ (a : Annot) (j : Json), (∀ b ∈ a.annots, b.IsRegular settings) →
      a.payload settings 0 = .ok j →
      ∃ b, Annot.load settings 0 j = .ok b ∧ b = a ∧
        (Raw.annot b).equal settings (.annot a) = .ok true ∧ b.payload settings 0 = .ok j) ∧
    (∀ (depth : Nat) (stored : Json) (a : Annot), Annot.load settings depth stored = .ok a →
      (∀ b ∈ a.annots, b.IsRegular settings) ∧
      ∃ j, a.payload settings 0 = .ok j ∧
        ∃ b, Annot.load settings 0 j = .ok b ∧ b.payload settings 0 = .ok j) := by
  have hforth : ∀ a : Annot, a.Fits settings.maxDepth 0 → (∀ b ∈ a.annots, b.IsRegular settings) →
      a.payload settings 0 = .ok a.fullPayload ∧ Annot.load settings 0 a.fullPayload = .ok a :=
    fun a hfits hregular =>
      ⟨(a.payload_spec settings 0).ok hfits, Annot.load_fullPayload ⟨hfits, hregular⟩⟩
  refine ⟨fun a j hregular hpayload => ?_, fun depth stored a hload => ?_⟩
  · -- that there is a stored form says that the levels are within the bound
    obtain ⟨hfits, rfl⟩ := (a.payload_spec settings 0).of_eq_ok hpayload
    exact ⟨a, (hforth a hfits hregular).2, rfl, Raw.equal_self hfits, hpayload⟩
  · have hsound := ((loadSpecs settings stored).annot depth).of_eq_ok hload
    obtain ⟨hpayload, hagain⟩ := hforth a (hsound.fits.mono (Nat.zero_le depth)) hsound.regular
    exact ⟨hsound.regular, a.fullPayload, hpayload, a, hagain, hpayload⟩

/-- A case of it: an annotation in an array in a parameter of an annotation. -/
theorem nested_annotation_comes_back :
    ∃ j b, Annot.payload {} 0 ⟨"A", some [⟨"x", .array [.annot ⟨"B", none⟩]⟩]⟩ = .ok j ∧
      Annot.load {} 0 j = .ok b ∧ b = ⟨"A", some [⟨"x", .array [.annot ⟨"B", none⟩]⟩]⟩ := by
  have hregular : ∀ b ∈ Annot.annots ⟨"A", some [⟨"x", .array [.annot ⟨"B", none⟩]⟩]⟩,
      b.IsRegular {} := by
    simp only [Annot.annots, Parameter.annotsList, Parameter.annots, Value.annots,
      Value.annotsList, List.append_nil, List.forall_mem_cons]
    refine ⟨⟨⟨.text "A", .mapping [(.text "x", .list [.annot ⟨"B", none⟩])], rfl⟩, by decide⟩,
      ⟨⟨.text "B", .null, rfl⟩, by decide⟩, by simp⟩
  obtain ⟨b, hload, hb, -⟩ := (payload_round_trip {}).1 _ _ hregular rfl
  exact ⟨_, b, rfl, hload, hb⟩

end AnnoTree
