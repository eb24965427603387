import AnnoTree.Proofs.Loading.Leaves
import AnnoTree.Proofs.Order.Sorted

/-!
# What is loaded

The two decoders, of values and of annotations, accept exactly the layout, and refuse anything
else in one of two ways: as a fault of the stored form, or for going too deep. What they give is
within the limit, and every annotation in it was built in the regular way.

## Main definitions

- `LoadSpec`: what a decoder accepts, and what is known of its results.
- `Annot.IsRegular`: an annotation that was built from raw parameters and has a name.

## Main statements

- `loadSpecs`: the specifications of all decoders.
- `load_accepts_layout`: stored forms are loaded exactly if they have the layout.
-/

namespace AnnoTree

/-! ## §1 Specifications -/

/-- A decoder gives something good for what is accepted, and for anything else it reports a fault
of the stored form or stops at the limit. -/
structure LoadSpec {α : Type} (limit : Nat) (accepted : Prop) (good : α → Prop)
    (r : Except Failure α) : Prop where
  ok : accepted → ∃ x, r = .ok x ∧ good x
  fails : ¬accepted →
    (∃ f, r = .error (.payload f)) ∨ r = .error (.tooDeep ⟨limit, .deserialize⟩)

namespace LoadSpec

variable {α β : Type} {limit : Nat} {p q : Prop} {good : α → Prop} {fine : β → Prop}
  {r : Except Failure α}

theorem pure {x : α} (hp : p) (hx : good x) : LoadSpec limit p good (.ok x) where
  ok _ := ⟨x, rfl, hx⟩
  fails h := absurd hp h

theorem refuse {f : PayloadFault} (hp : ¬p) : LoadSpec limit p good (payloadFault f) where
  ok h := absurd h hp
  fails _ := .inl ⟨f, rfl⟩

theorem congr (hpq : p ↔ q) (h : LoadSpec limit p good r) : LoadSpec limit q good r where
  ok hq := h.ok (hpq.mpr hq)
  fails hq := h.fails fun hp => hq (hpq.mp hp)

theorem checkDepth (settings : Settings) (depth : Nat) :
    LoadSpec settings.maxDepth (depth ≤ settings.maxDepth)
      (fun _ => depth ≤ settings.maxDepth)
      (liftWalk (AnnoTree.checkDepth settings depth .deserialize)) where
  ok h := by
    refine ⟨(), ?_, h⟩
    rw [checkDepth_of_le h]
    rfl
  fails h := by
    right
    rw [checkDepth_of_lt (Nat.lt_of_not_le h)]
    rfl

theorem bind {f : α → Except Failure β} (hr : LoadSpec limit p good r)
    (hf : ∀ x, good x → LoadSpec limit q fine (f x)) :
    LoadSpec limit (p ∧ q) fine (r >>= f) where
  ok h := by
    obtain ⟨x, hx, hgood⟩ := hr.ok h.1
    rw [hx]
    exact (hf x hgood).ok h.2
  fails h := by
    by_cases hp : p
    · obtain ⟨x, hx, hgood⟩ := hr.ok hp
      rw [hx]
      exact (hf x hgood).fails fun hq => h ⟨hp, hq⟩
    · rcases hr.fails hp with ⟨fault, hfault⟩ | hdeep
      · left
        refine ⟨fault, ?_⟩
        rw [hfault]
        rfl
      · right
        rw [hdeep]
        rfl

theorem map {f : α → β} (hr : LoadSpec limit p good r) (hf : ∀ x, good x → fine (f x)) :
    LoadSpec limit p fine (r.map f) := by
  have h : LoadSpec limit (p ∧ True) fine (r >>= fun x => .ok (f x)) :=
    bind hr fun x hx => pure trivial (hf x hx)
  exact congr (by simp) h

/-- A list is accepted if its items are; the first one that is not decides how it fails. -/
theorem mapM {f : α → Except Failure β} {accepted : α → Prop} {items : List α}
    (h : ∀ a ∈ items, LoadSpec limit (accepted a) fine (f a)) :
    LoadSpec limit (∀ a ∈ items, accepted a) (fun ys => ∀ y ∈ ys, fine y) (items.mapM f) := by
  induction items with
  | nil => exact pure (by simp) (by simp)
  | cons a rest ih =>
    rw [List.forall_mem_cons] at h
    rw [List.mapM_cons]
    refine congr ?_ (bind h.1 fun y hy => bind (ih h.2) fun ys hys =>
      pure trivial (List.forall_mem_cons.mpr ⟨hy, hys⟩))
    simp

/-- A leaf is loaded if it can be read, and is a fault of the stored form otherwise. -/
theorem ofResult {ε : Type} {s : Except ε α} {t : Except Failure β}
    (hs : (∃ x, s = .ok x) ↔ p) (hok : ∀ x, s = .ok x → ∃ y, t = .ok y ∧ fine y)
    (herror : ∀ e, s = .error e → ∃ f, t = payloadFault f) : LoadSpec limit p fine t where
  ok hp := by
    obtain ⟨x, hx⟩ := hs.mpr hp
    exact hok x hx
  fails hp := by
    left
    cases s with
    | ok x => exact absurd (hs.mp ⟨x, rfl⟩) hp
    | error e => exact herror e rfl

/-- Whether a decoder gives a result. -/
theorem exists_ok_iff (h : LoadSpec limit p good r) : (∃ x, r = .ok x) ↔ p := by
  constructor
  · rintro ⟨x, hx⟩
    by_contra hp
    rcases h.fails hp with ⟨fault, hfault⟩ | hdeep
    · rw [hfault] at hx
      cases hx
    · rw [hdeep] at hx
      cases hx
  · intro hp
    obtain ⟨x, hx, -⟩ := h.ok hp
    exact ⟨x, hx⟩

theorem of_eq_ok (h : LoadSpec limit p good r) {x : α} (hx : r = .ok x) : good x := by
  obtain ⟨y, hy, hgood⟩ := h.ok (h.exists_ok_iff.mp ⟨x, hx⟩)
  rw [hx] at hy
  cases hy
  exact hgood

theorem of_eq_error (h : LoadSpec limit p good r) {e : Failure} (he : r = .error e) :
    (∃ f, e = .payload f) ∨ e = .tooDeep ⟨limit, .deserialize⟩ := by
  have hp : ¬p := by
    intro hp
    obtain ⟨x, hx, -⟩ := h.ok hp
    rw [hx] at he
    cases he
  rcases h.fails hp with ⟨fault, hfault⟩ | hdeep
  · rw [hfault] at he
    cases he
    exact .inl ⟨fault, rfl⟩
  · rw [hdeep] at he
    cases he
    exact .inr rfl

end LoadSpec

/-! ## §2 Regular annotations -/

/-- An annotation that was built from raw parameters and has a name. -/
structure Annot.IsRegular (settings : Settings) (a : Annot) : Prop where
  built : ∃ name parameters : Raw, Annot.ofRaw settings name parameters = .ok a
  named : a.name ≠ ""

/-- A value at a level is within the limit, and all its annotations are regular. -/
structure Value.IsSound (settings : Settings) (depth : Nat) (v : Value) : Prop where
  fits : v.Fits settings.maxDepth depth
  regular : ∀ b ∈ v.annots, b.IsRegular settings

/-- An annotation at a level is within the limit, and it and all those in it are regular. -/
structure Annot.IsSound (settings : Settings) (depth : Nat) (a : Annot) : Prop where
  fits : a.Fits settings.maxDepth depth
  regular : ∀ b ∈ a.annots, b.IsRegular settings

section Sound

variable {settings : Settings} {depth : Nat}

theorem Value.IsSound.array {items : List Value} (hdepth : depth ≤ settings.maxDepth)
    (h : ∀ v ∈ items, v.IsSound settings (depth + 1)) :
    (Value.array items).IsSound settings depth where
  fits := Value.fits_array.mpr ⟨hdepth, fun v hv => (h v hv).fits⟩
  regular b hb := by
    obtain ⟨v, hv, hbv⟩ := Value.mem_annots_array.mp hb
    exact (h v hv).regular b hbv

theorem Value.IsSound.annot {a : Annot} (h : a.IsSound settings (depth + 1)) :
    (Value.annot a).IsSound settings depth where
  fits := Value.fits_annot.mpr h.fits
  regular := h.regular

/-- A leaf holds no annotation. -/
theorem Value.IsSound.leaf {v : Value} (hlevels : v.levels depth = []) (hannots : v.annots = []) :
    v.IsSound settings depth where
  fits n hn := by simp [hlevels] at hn
  regular b hb := by simp [hannots] at hb

theorem Annot.IsSound.node {a : Annot} (hdepth : depth ≤ settings.maxDepth)
    (hregular : a.IsRegular settings) (h : ∀ p ∈ a.known, p.value.IsSound settings depth) :
    a.IsSound settings depth where
  fits := Annot.fits_iff.mpr ⟨hdepth, fun p hp => (h p hp).fits⟩
  regular b hb := by
    rcases Annot.mem_annots.mp hb with rfl | ⟨p, hp, hbp⟩
    · exact hregular
    · exact (h p hp).regular b hbp

/-- Parameters may be given as they are. -/
theorem Parameter.listOfRaw_parameters (settings : Settings) (ps : List Parameter) :
    Parameter.listOfRaw settings (.list (ps.map .parameter)) = .ok (some ps) := by
  have hitems : (ps.map Raw.parameter).mapM (Parameter.ofItem settings) = .ok ps := by
    induction ps with
    | nil => rfl
    | cons p rest ih =>
      rw [List.map_cons, List.mapM_cons, ih]
      rfl
  simp only [Parameter.listOfRaw, Raw.items?, hitems]
  rfl

theorem Annot.ofRaw_parameters (settings : Settings) (name : Str) (ps : List Parameter) :
    Annot.ofRaw settings (.text name) (.list (ps.map .parameter)) =
      liftWalk (Annot.ofParameters settings name ps) := by
  have hsorted : Parameter.sortedOfRaw settings (.list (ps.map .parameter)) =
      (liftWalk (Parameter.sorted settings ps)).map some := by
    rw [Parameter.sortedOfRaw, Parameter.listOfRaw_parameters]
    rfl
  rw [Annot.ofRaw, hsorted, Annot.ofParameters]
  cases Parameter.sorted settings ps <;> rfl

theorem Annot.ofRaw_null (settings : Settings) (name : Str) :
    Annot.ofRaw settings (.text name) .null = .ok ⟨name, none⟩ :=
  rfl

/-- Parameters that are within the limit where they stand are so at the level of sorting. -/
theorem Annot.ofParameters_spec {name : Str} {ps : List Parameter} (hname : name ≠ "")
    (hdepth : depth ≤ settings.maxDepth) (h : ∀ p ∈ ps, p.value.IsSound settings depth) :
    ∃ a, Annot.ofParameters settings name ps = .ok a ∧ a.IsSound settings depth := by
  have hfits : ∀ p ∈ ps, p.value.Fits settings.maxDepth 0 :=
    fun p hp => (h p hp).fits.mono (Nat.zero_le depth)
  have hsorted := (Parameter.sorted_spec settings ps).ok (.inr hfits)
  have hbuilt : Annot.ofParameters settings name ps =
      .ok ⟨name, some (Parameter.fullSort settings ps)⟩ := by
    rw [Annot.ofParameters, hsorted]
    rfl
  have hraw : Annot.ofRaw settings (.text name) (.list (ps.map .parameter)) =
      .ok ⟨name, some (Parameter.fullSort settings ps)⟩ := by
    rw [Annot.ofRaw_parameters, hbuilt]
    rfl
  refine ⟨_, hbuilt, Annot.IsSound.node hdepth ⟨⟨_, _, hraw⟩, hname⟩ fun p hp => ?_⟩
  -- sorting neither adds nor loses a parameter
  exact h p ((Parameter.fullSort_perm ps).mem_iff.mp hp)

/-- What loading makes of a name and of parameters, if any are known. -/
theorem Annot.ofLoaded_spec {name : Str} {parameters : Option (List Parameter)}
    (hname : name ≠ "") (hdepth : depth ≤ settings.maxDepth) :
    (∀ p ∈ parameters.getD [], p.value.IsSound settings depth) →
      LoadSpec settings.maxDepth True (Annot.IsSound settings depth)
        (match parameters with
        | none => .ok ⟨name, none⟩
        | some ps => liftWalk (Annot.ofParameters settings name ps)) := by
  intro h
  cases parameters with
  | none =>
    have hregular : Annot.IsRegular settings ⟨name, none⟩ :=
      ⟨⟨.text name, .null, Annot.ofRaw_null settings name⟩, hname⟩
    exact LoadSpec.pure trivial (Annot.IsSound.node hdepth hregular (by simp [Annot.known]))
  | some ps =>
    rw [Option.getD_some] at h
    obtain ⟨a, hbuilt, hsound⟩ := Annot.ofParameters_spec hname hdepth h
    simp only [hbuilt]
    exact LoadSpec.pure trivial hsound

end Sound

/-! ## §3 The decoders as walks -/

section Decoders

variable (settings : Settings) (depth : Int)

theorem Value.loadList_eq_mapM (js : List Json) :
    Value.loadList settings depth js = js.mapM (Value.load settings depth) :=
  eq_mapM_of_step (g := Value.loadList settings depth) rfl (fun _ _ => rfl) js

theorem Parameter.loadList_eq_mapM (js : List Json) :
    Parameter.loadList settings depth js = js.mapM (Parameter.load settings depth) :=
  eq_mapM_of_step (g := Parameter.loadList settings depth) rfl (fun _ _ => rfl) js

theorem Annot.loadParameters_eq (entries : List (Str × Json)) :
    Annot.loadParameters settings depth entries =
      Parameter.loadField settings depth (fieldOrNull "parameters" entries) := by
  induction entries with
  | nil => rfl
  | cons e rest ih =>
    obtain ⟨key, j⟩ := e
    by_cases hkey : key = "parameters"
    · simp [Annot.loadParameters, fieldOrNull, Entries.get?, hkey]
    · simpa [Annot.loadParameters, fieldOrNull, Entries.get?, hkey] using ih

theorem Value.loadField_eq (entries : List (Str × Json)) :
    Value.loadField settings depth entries =
      Value.load settings depth (fieldOrNull "value" entries) := by
  induction entries with
  | nil => rfl
  | cons e rest ih =>
    obtain ⟨key, j⟩ := e
    by_cases hkey : key = "value"
    · simp [Value.loadField, fieldOrNull, Entries.get?, hkey]
    · simpa [Value.loadField, fieldOrNull, Entries.get?, hkey] using ih

end Decoders

/-! ## §4 What each decoder accepts -/

/-- The specifications of all decoders at one stored value. -/
structure LoadSpecs (settings : Settings) (j : Json) : Prop where
  value : ∀ depth : Nat, LoadSpec settings.maxDepth (ValueLayout settings.maxDepth depth j)
    (Value.IsSound settings depth) (Value.load settings depth j)
  array : ∀ depth : Nat, LoadSpec settings.maxDepth (HeldLayout settings.maxDepth depth .array j)
    (Value.IsSound settings depth) (Value.loadArray settings depth j)
  annot : ∀ depth : Nat, LoadSpec settings.maxDepth (AnnotLayout settings.maxDepth depth j)
    (Annot.IsSound settings depth) (Annot.load settings depth j)
  parameters : ∀ depth : Nat,
    LoadSpec settings.maxDepth (ParametersLayout settings.maxDepth depth j)
      (fun ps => ∀ p ∈ ps.getD [], p.value.IsSound settings depth)
      (Parameter.loadField settings depth j)
  parameter : ∀ depth : Nat,
    LoadSpec settings.maxDepth (ParameterLayout settings.maxDepth depth j)
      (fun p => p.value.IsSound settings depth) (Parameter.load settings depth j)

section Steps

variable {settings : Settings} {depth : Nat} {j : Json}

theorem Value.loadArray_spec (h : ∀ c ∈ j.parts, LoadSpecs settings c) :
    LoadSpec settings.maxDepth (HeldLayout settings.maxDepth depth .array j)
      (Value.IsSound settings depth) (Value.loadArray settings depth j) := by
  cases j with
  | array items =>
    have hlayout : HeldLayout settings.maxDepth depth .array (.array items) ↔
        depth ≤ settings.maxDepth ∧
          (∀ j ∈ items, ValueLayout settings.maxDepth (depth + 1) j) ∧ True := by
      constructor
      · rintro (_ | _ | ⟨hdepth, heach⟩)
        exact ⟨hdepth, heach, trivial⟩
      · rintro ⟨hdepth, heach, -⟩
        exact .array hdepth heach
    have hitems := LoadSpec.mapM fun j hj => (h j hj).value (depth + 1)
    rw [Value.loadArray, Value.loadList_eq_mapM]
    exact LoadSpec.congr hlayout.symm (LoadSpec.bind (LoadSpec.checkDepth settings depth)
      fun _ hdepth => LoadSpec.bind hitems fun vs hvs =>
        LoadSpec.pure trivial (Value.IsSound.array hdepth hvs))
  | _ => exact LoadSpec.refuse nofun

theorem Parameter.loadField_spec (h : ∀ c ∈ j.parts, LoadSpecs settings c) :
    LoadSpec settings.maxDepth (ParametersLayout settings.maxDepth depth j)
      (fun ps => ∀ p ∈ ps.getD [], p.value.IsSound settings depth)
      (Parameter.loadField settings depth j) := by
  cases j with
  | null => exact LoadSpec.pure .null (by simp)
  | array items =>
    have hlayout : ParametersLayout settings.maxDepth depth (.array items) ↔
        ∀ j ∈ items, ParameterLayout settings.maxDepth depth j := by
      constructor
      · rintro (_ | heach)
        exact heach
      · exact .array
    rw [Parameter.loadField, Parameter.loadList_eq_mapM]
    exact LoadSpec.congr hlayout.symm
      (LoadSpec.map (LoadSpec.mapM fun j hj => (h j hj).parameter depth) fun ps hps => hps)
  | _ => exact LoadSpec.refuse nofun

/-- A field that is missing counts as null. -/
theorem LoadSpecs.field {entries : List (Str × Json)}
    (h : ∀ c ∈ (Json.object entries).parts, LoadSpecs settings c) (key : Str) :
    LoadSpecs settings (fieldOrNull key entries) := by
  cases hkey : Entries.get? key entries with
  | some c =>
    rw [fieldOrNull, hkey]
    exact h c (Json.mem_parts_of_get? hkey)
  | none =>
    rw [fieldOrNull, hkey]
    exact {
      value := fun _ => LoadSpec.pure .null (Value.IsSound.leaf rfl rfl)
      array := fun _ => LoadSpec.refuse nofun
      annot := fun _ => LoadSpec.refuse nofun
      parameters := fun _ => LoadSpec.pure .null (by simp)
      parameter := fun _ => LoadSpec.refuse nofun }

theorem Parameter.load_spec (h : ∀ c ∈ j.parts, LoadSpecs settings c) :
    LoadSpec settings.maxDepth (ParameterLayout settings.maxDepth depth j)
      (fun p => p.value.IsSound settings depth) (Parameter.load settings depth j) := by
  cases j with
  | object entries =>
    rw [Parameter.load]
    split
    next name hname =>
      split
      next unknown more hunknown =>
        apply LoadSpec.refuse
        rintro ⟨-, hkeys, -⟩
        rw [unknownKeys_eq_nil.mpr hkeys] at hunknown
        cases hunknown
      next hunknown =>
        have hlayout : ValueLayout settings.maxDepth depth (fieldOrNull "value" entries) ↔
            ParameterLayout settings.maxDepth depth (.object entries) := by
          constructor
          · exact .object hname (unknownKeys_eq_nil.mp hunknown)
          · rintro ⟨-, -, hvalue⟩
            exact hvalue
        rw [Value.loadField_eq]
        exact LoadSpec.congr hlayout
          (LoadSpec.map ((LoadSpecs.field h "value").value depth) fun v hv => hv)
    next hname =>
      apply LoadSpec.refuse
      rintro ⟨hnamed, -, -⟩
      exact hname _ hnamed
  | _ => exact LoadSpec.refuse nofun

/-- The checks come in the order of the decoder: keys, name, level, parameters. -/
theorem Annot.load_spec (h : ∀ c ∈ j.parts, LoadSpecs settings c) :
    LoadSpec settings.maxDepth (AnnotLayout settings.maxDepth depth j)
      (Annot.IsSound settings depth) (Annot.load settings depth j) := by
  cases j with
  | object entries =>
    rw [Annot.load]
    split
    next unknown more hunknown =>
      apply LoadSpec.refuse
      rintro ⟨hkeys, -, -, -, -⟩
      rw [unknownKeys_eq_nil.mpr hkeys] at hunknown
      cases hunknown
    next hunknown =>
      split
      next name hname =>
        split
        next hempty =>
          apply LoadSpec.refuse
          rintro ⟨-, hnamed, hnonempty, -, -⟩
          rw [hname] at hnamed
          cases hnamed
          exact hnonempty hempty
        next hnonempty =>
          -- what is left to check is the level and the parameters
          have hlayout : depth ≤ settings.maxDepth ∧
              ParametersLayout settings.maxDepth depth (fieldOrNull "parameters" entries) ∧
                True ↔ AnnotLayout settings.maxDepth depth (.object entries) := by
            constructor
            · rintro ⟨hdepth, hparameters, -⟩
              exact .object (unknownKeys_eq_nil.mp hunknown) hname hnonempty hdepth hparameters
            · rintro ⟨-, -, -, hdepth, hparameters⟩
              exact ⟨hdepth, hparameters, trivial⟩
          have hparameters := (LoadSpecs.field h "parameters").parameters depth
          rw [Annot.loadParameters_eq]
          exact LoadSpec.congr hlayout (LoadSpec.bind (LoadSpec.checkDepth settings depth)
            fun _ hdepth => LoadSpec.bind hparameters fun ps hps =>
              Annot.ofLoaded_spec hnonempty hdepth hps)
      next hname =>
        apply LoadSpec.refuse
        rintro ⟨-, hnamed, -, -, -⟩
        exact hname _ hnamed
  | _ => exact LoadSpec.refuse nofun

/-- What is held under the one key of a value. -/
theorem Value.loadSingle_spec {key : PayloadKey} (h : LoadSpecs settings j) :
    LoadSpec settings.maxDepth (HeldLayout settings.maxDepth depth key j)
      (Value.IsSound settings depth) (Value.loadSingle settings depth [(key.name, j)]) := by
  unfold Value.loadSingle
  simp only [PayloadKey.ofName?_name]
  cases key with
  | scalar kind =>
    have hlayout : ScalarLayout kind j ↔ HeldLayout settings.maxDepth depth (.scalar kind) j := by
      constructor
      · exact .scalar
      · rintro (hliteral | _)
        exact hliteral
    refine LoadSpec.ofResult (Scalar.ofRaw_ok_iff.trans hlayout) (fun s hs => ?_) fun e he => ?_
    · simp only [hs]
      exact ⟨_, rfl, Value.IsSound.leaf rfl rfl⟩
    · simp only [he]
      exact ⟨_, rfl⟩
  | string =>
    cases j with
    | string s => exact LoadSpec.pure .string (Value.IsSound.leaf rfl rfl)
    | _ => exact LoadSpec.refuse nofun
  | array => exact h.array depth
  | enumConst =>
    have hlayout : TextsLayout ["type_name", "constant_name"] j ↔
        HeldLayout settings.maxDepth depth .enumConst j := by
      constructor
      · exact .enumConst
      · rintro (_ | _ | _ | htexts)
        exact htexts
    refine LoadSpec.ofResult (EnumConst.ofPayload_ok_iff.trans hlayout) (fun e he => ?_)
      fun e he => ?_
    · simp only [he]
      exact ⟨_, rfl, Value.IsSound.leaf rfl rfl⟩
    · simp only [he]
      exact ⟨_, rfl⟩
  | classLiteral =>
    have hlayout : TextsLayout ["type_descriptor"] j ↔
        HeldLayout settings.maxDepth depth .classLiteral j := by
      constructor
      · exact .classLiteral
      · rintro (_ | _ | _ | _ | htexts)
        exact htexts
    refine LoadSpec.ofResult (ClassLiteral.ofPayload_ok_iff.trans hlayout) (fun c hc => ?_)
      fun e he => ?_
    · simp only [hc]
      exact ⟨_, rfl, Value.IsSound.leaf rfl rfl⟩
    · simp only [he]
      exact ⟨_, rfl⟩
  | annot =>
    have hlayout : AnnotLayout settings.maxDepth (depth + 1) j ↔
        HeldLayout settings.maxDepth depth .annot j := by
      constructor
      · exact .annot
      · rintro (_ | _ | _ | _ | _ | hannot)
        exact hannot
    exact LoadSpec.congr hlayout
      (LoadSpec.map (h.annot (depth + 1)) fun a ha => Value.IsSound.annot ha)

theorem valueLayout_single {limit : Nat} {s : Str} :
    ValueLayout limit depth (.object [(s, j)]) ↔
      ∃ key : PayloadKey, s = key.name ∧ HeldLayout limit depth key j := by
  constructor
  · rintro (_ | _ | hheld)
    exact ⟨_, rfl, hheld⟩
  · rintro ⟨key, rfl, hheld⟩
    exact .single hheld

theorem Value.load_spec (h : ∀ c ∈ j.parts, LoadSpecs settings c) :
    LoadSpec settings.maxDepth (ValueLayout settings.maxDepth depth j)
      (Value.IsSound settings depth) (Value.load settings depth j) := by
  cases j with
  | null => exact LoadSpec.pure .null (Value.IsSound.leaf rfl rfl)
  | object entries =>
    match entries with
    | [] => exact LoadSpec.pure .empty (Value.IsSound.leaf rfl rfl)
    | [(s, j)] =>
      cases hs : PayloadKey.ofName? s with
      | none =>
        obtain ⟨fault, hfault⟩ := singleEntry_unknown hs
        rw [Value.load, hfault]
        refine LoadSpec.refuse (f := fault) ?_
        rw [valueLayout_single]
        rintro ⟨key, rfl, -⟩
        rw [PayloadKey.ofName?_name] at hs
        cases hs
      | some key =>
        obtain rfl := PayloadKey.ofName?_eq_some.mp hs
        have hlayout : HeldLayout settings.maxDepth depth key j ↔
            ValueLayout settings.maxDepth depth (.object [(key.name, j)]) := by
          rw [valueLayout_single]
          constructor
          · exact fun hheld => ⟨key, rfl, hheld⟩
          · rintro ⟨other, hname, hheld⟩
            rw [PayloadKey.name_inj hname]
            exact hheld
        rw [Value.load, singleEntry_name]
        exact LoadSpec.congr hlayout (Value.loadSingle_spec (h j (by simp [Json.parts])))
    | e :: f :: rest =>
      obtain ⟨fault, hfault⟩ := singleEntry_several e f rest
      rw [Value.load, hfault]
      exact LoadSpec.refuse (f := fault) nofun
  | _ => exact LoadSpec.refuse nofun

end Steps

/-- **What the decoders accept**, at every stored value. -/
theorem loadSpecs (settings : Settings) (j : Json) : LoadSpecs settings j := by
  induction j using Json.induct_parts with
  | h j ih =>
    exact {
      value := fun _ => Value.load_spec ih
      array := fun _ => Value.loadArray_spec ih
      annot := fun _ => Annot.load_spec ih
      parameters := fun _ => Parameter.loadField_spec ih
      parameter := fun _ => Parameter.load_spec ih }

/-- **The layout is what is loaded**: a stored annotation or value is loaded at a level exactly if
it has the layout at that level, and any other is refused as a fault of the stored form or at the
limit of nesting. -/
theorem load_accepts_layout (settings : Settings) :
    (∀ (depth : Nat) (j : Json),
      ((∃ a, Annot.load settings depth j = .ok a) ↔ AnnotLayout settings.maxDepth depth j) ∧
      ∀ e, Annot.load settings depth j = .error e →
        (∃ f, e = .payload f) ∨ e = .tooDeep ⟨settings.maxDepth, .deserialize⟩) ∧
    (∀ (depth : Nat) (j : Json),
      ((∃ v, Value.load settings depth j = .ok v) ↔ ValueLayout settings.maxDepth depth j) ∧
      ∀ e, Value.load settings depth j = .error e →
        (∃ f, e = .payload f) ∨ e = .tooDeep ⟨settings.maxDepth, .deserialize⟩) := by
  refine ⟨fun depth j => ?_, fun depth j => ?_⟩
  · have hspec := (loadSpecs settings j).annot depth
    exact ⟨hspec.exists_ok_iff, fun e => hspec.of_eq_error⟩
  · have hspec := (loadSpecs settings j).value depth
    exact ⟨hspec.exists_ok_iff, fun e => hspec.of_eq_error⟩

end AnnoTree
