import AnnoTree.Proofs.Loading.Acceptance
import AnnoTree.Proofs.Order.Laws

/-!
# The order in which parameters are given

Building an annotation sorts its parameters, and the sort is stable: parameters of equal keys keep
the order in which they were given. So two orders of one list of parameters may build different
annotations. But the sequence of keys is the same, and all that comparison, hashing and rendering
see of an annotation is read off the keys.

## Main definitions

- `Annot.Same`: comparison, equality and hashing do not tell two annotations apart.
- `BuildsAlike`: what may come of building from two lists of parameters.

## Main statements

- `Parameter.fullSort_keys`: the keys of sorted parameters do not depend on the order given.
- `Annot.fullText_of_fullKey`: annotations of one key have one text.
- `building_ignores_order`: permuted lists of parameters build alike.
-/

namespace AnnoTree

open Std

variable {settings : Settings}

/-! ## §1 What a key knows -/

/-- The name of a parameter and the text of its value, read off the key. -/
def ParameterKey.pair (k : ParameterKey) : Str × Str :=
  (k.name, k.shown.getD "null")

/-- The key of an absent value holds no text, and an absent value is rendered as null. -/
theorem Parameter.pair_fullKey (p : Parameter) :
    (p.fullKey settings).pair = p.fullPair settings := by
  obtain ⟨name, value⟩ := p
  cases value <;> rfl

theorem Annot.parameters_fullKey (a : Annot) :
    (a.fullKey settings).parameters.getD [] = a.known.map (Parameter.fullKey settings) := by
  obtain ⟨name, _ | parameters⟩ := a <;> rfl

/-- Annotations of one key have one text. -/
theorem Annot.fullText_of_fullKey {a b : Annot} (h : a.fullKey settings = b.fullKey settings) :
    a.fullText settings = b.fullText settings := by
  have hname : a.name = b.name := congrArg AnnotKey.name h
  have hkeys : a.known.map (Parameter.fullKey settings) =
      b.known.map (Parameter.fullKey settings) := by
    rw [← a.parameters_fullKey, ← b.parameters_fullKey, h]
  -- names and texts of the parameters are in the keys
  have hpairs : ∀ ps : List Parameter, ps.map (Parameter.fullPair settings) =
      (ps.map (Parameter.fullKey settings)).map ParameterKey.pair := by
    intro ps
    rw [List.map_map]
    exact List.map_congr_left fun p _ => p.pair_fullKey.symm
  rw [Annot.fullText_eq, Annot.fullText_eq, hname, hpairs, hpairs, hkeys]

theorem Annot.parameterNames_of_fullKey {a b : Annot}
    (h : a.fullKey settings = b.fullKey settings) : a.parameterNames = b.parameterNames := by
  have hnames : ∀ c : Annot, c.parameterNames =
      ((c.fullKey settings).parameters.getD []).map ParameterKey.name := by
    intro c
    rw [c.parameters_fullKey, List.map_map]
    rfl
  rw [hnames, hnames, h]

/-! ## §2 Annotations that are not told apart -/

/-- Comparison, equality and hashing do not tell two annotations apart. -/
structure Annot.Same (settings : Settings) (a b : Annot) : Prop where
  compared : (Raw.annot a).compareNumber settings (.annot b) = .ok 0
  equal : (Raw.annot a).equal settings (.annot b) = .ok true
  key : ∃ k, a.key settings 0 = .ok k ∧ b.key settings 0 = .ok k

theorem Annot.Same.of_fullKey {a b : Annot} (ha : a.Fits settings.maxDepth 0)
    (hb : b.Fits settings.maxDepth 0) (h : a.fullKey settings = b.fullKey settings) :
    a.Same settings b := by
  refine ⟨?compared, Annot.equals_iff.mpr ⟨⟨ha, hb⟩, h⟩, a.fullKey settings,
    (a.key_spec settings 0).ok ha, ?key⟩
  case compared =>
    have heq : (b.fullKey settings).compare (b.fullKey settings) = .eq := ReflCmp.compare_self
    rw [(Annot.orderedByKeys settings).compareNumber_ok ha hb, h, heq]
    rfl
  case key =>
    rw [h]
    exact (b.key_spec settings 0).ok hb

/-- Two walks that may stop under one name only are the same if they agree on what fits and on
what they give. -/
theorem WalkSpec.eq_of_iff {α : Type} {limit : Nat} {walk : Walk} {p q : Prop} {x y : α}
    {r s : Except TooDeep α} (hr : WalkSpec limit [walk] p x r) (hs : WalkSpec limit [walk] q y s)
    (hpq : p ↔ q) (hxy : x = y) : r = s := by
  by_cases hp : p
  · rw [hr.ok hp, hs.ok (hpq.mp hp), hxy]
  · -- there is one name under which both can stop
    obtain ⟨w, hw, hrw⟩ := hr.tooDeep hp
    obtain ⟨v, hv, hsv⟩ := hs.tooDeep fun hq => hp (hpq.mpr hq)
    rw [List.mem_singleton] at hw hv
    rw [hrw, hsv, hw, hv]

/-! ## §3 Sorting permuted parameters -/

/-- The keys of sorted parameters are the same if the keys of those given are, in any order: both
lists of keys are sorted, and keys that are not told apart are the same key. -/
theorem Parameter.fullSort_keys_of_perm {ps qs : List Parameter}
    (h : (ps.map (Parameter.fullKey settings)).Perm (qs.map (Parameter.fullKey settings))) :
    (Parameter.fullSort settings ps).map (Parameter.fullKey settings) =
      (Parameter.fullSort settings qs).map (Parameter.fullKey settings) := by
  have hsorted : ∀ rs : List Parameter,
      ((Parameter.fullSort settings rs).map (Parameter.fullKey settings)).Pairwise
        fun k l => (k.compare l).isLE = true := by
    intro rs
    rw [List.pairwise_map]
    exact (Parameter.fullSort_pairwise rs).imp fun hle => Parameter.mayPrecede_iff.mp hle
  have hperm : ((Parameter.fullSort settings ps).map (Parameter.fullKey settings)).Perm
      ((Parameter.fullSort settings qs).map (Parameter.fullKey settings)) :=
    ((Parameter.fullSort_perm ps).map _).trans (h.trans ((Parameter.fullSort_perm qs).map _).symm)
  refine List.Perm.eq_of_pairwise ?_ (hsorted ps) (hsorted qs) hperm
  intro k l _ _ hkl hlk
  exact LawfulEqCmp.eq_of_compare (OrientedCmp.isLE_antisymm hkl hlk)

/-- The keys of sorted parameters do not depend on the order in which they were given. -/
theorem Parameter.fullSort_keys {ps qs : List Parameter} (h : ps.Perm qs) :
    (Parameter.fullSort settings ps).map (Parameter.fullKey settings) =
      (Parameter.fullSort settings qs).map (Parameter.fullKey settings) :=
  Parameter.fullSort_keys_of_perm (h.map _)

/-- Building sorts, so it looks at two parameters or more. -/
theorem Annot.build_spec (settings : Settings) (name : Str) (ps : List Parameter) :
    WalkSpec settings.maxDepth [.render]
      (ps.length ≤ 1 ∨ ∀ p ∈ ps, p.value.Fits settings.maxDepth 0)
      ⟨name, some (Parameter.fullSort settings ps)⟩ (Annot.ofParameters settings name ps) :=
  (Parameter.sorted_spec settings ps).map fun sorted => (⟨name, some sorted⟩ : Annot)

theorem Annot.fullKey_build (settings : Settings) (name : Str) {ps qs : List Parameter}
    (h : ps.Perm qs) :
    Annot.fullKey settings ⟨name, some (Parameter.fullSort settings ps)⟩ =
      Annot.fullKey settings ⟨name, some (Parameter.fullSort settings qs)⟩ := by
  simp only [Annot.fullKey, Option.map_some, Parameter.fullSort_keys h]

theorem Annot.fits_build (settings : Settings) (name : Str) {limit depth : Nat}
    {ps : List Parameter} :
    Annot.Fits limit depth ⟨name, some (Parameter.fullSort settings ps)⟩ ↔
      depth ≤ limit ∧ ∀ p ∈ ps, p.value.Fits limit depth := by
  have hmem : ∀ p, p ∈ Parameter.fullSort settings ps ↔ p ∈ ps :=
    fun p => (Parameter.fullSort_perm ps).mem_iff
  simp only [Annot.fits_iff, Annot.known, Option.getD_some, hmem]

/-! ## §4 Building ignores order -/

/-- The annotation that is built of a name and parameters. -/
def builtOf (settings : Settings) (name : Str) (ps : List Parameter) : Except Failure Annot :=
  Annot.ofRaw settings (.text name) (.list (ps.map .parameter))

/-- What may come of building under one name from two lists of parameters. -/
inductive BuildsAlike (settings : Settings) (name : Str) (ps qs : List Parameter) : Prop where
  /-- Of several parameters one is nested too deep, so that its key cannot be made. -/
  | refused (several : 2 ≤ ps.length) (deep : ∃ p ∈ ps, p.TooDeeplyNested settings)
      (left : builtOf settings name ps = .error (.tooDeep ⟨settings.maxDepth, .render⟩))
      (right : builtOf settings name qs = .error (.tooDeep ⟨settings.maxDepth, .render⟩))
  /-- A lone parameter is not looked at. If it is nested too deep, comparing fails later. -/
  | lone (p : Parameter) (a : Annot) (single : ps = [p]) (deep : p.TooDeeplyNested settings)
      (left : builtOf settings name ps = .ok a) (right : builtOf settings name qs = .ok a)
      (compared : (Raw.annot a).compareNumber settings (.annot a) =
        .error (.tooDeep ⟨settings.maxDepth, .render⟩))
  /-- The two annotations are not told apart, and have the same names and the same text. -/
  | same (a b : Annot) (left : builtOf settings name ps = .ok a)
      (right : builtOf settings name qs = .ok b) (same : a.Same settings b)
      (names : a.parameterNames = b.parameterNames)
      (rendered : ∀ depth, a.render settings depth = b.render settings depth)

theorem builtOf_ok {name : Str} {ps : List Parameter}
    (h : ps.length ≤ 1 ∨ ∀ p ∈ ps, p.value.Fits settings.maxDepth 0) :
    builtOf settings name ps = .ok ⟨name, some (Parameter.fullSort settings ps)⟩ := by
  rw [builtOf, Annot.ofRaw_parameters, (Annot.build_spec settings name ps).ok h]
  rfl

theorem builtOf_tooDeep {name : Str} {ps : List Parameter}
    (h : ¬(ps.length ≤ 1 ∨ ∀ p ∈ ps, p.value.Fits settings.maxDepth 0)) :
    builtOf settings name ps = .error (.tooDeep ⟨settings.maxDepth, .render⟩) := by
  obtain ⟨walk, hwalk, hbuilt⟩ := (Annot.build_spec settings name ps).tooDeep h
  rw [List.mem_singleton] at hwalk
  rw [builtOf, Annot.ofRaw_parameters, hbuilt, hwalk]
  rfl

/-- An annotation with one parameter that is nested too deep cannot be compared. -/
theorem Annot.compareNumber_lone {name : Str} {p : Parameter}
    (h : ¬p.value.Fits settings.maxDepth 0) (b : Annot) :
    (Raw.annot ⟨name, some [p]⟩).compareNumber settings (.annot b) =
      .error (.tooDeep ⟨settings.maxDepth, .render⟩) := by
  obtain ⟨walk, hwalk, hkey⟩ := (p.key_spec settings 0).tooDeep h
  rw [List.mem_singleton] at hwalk
  subst hwalk
  have hannot : Annot.key settings 0 ⟨name, some [p]⟩ = .error ⟨settings.maxDepth, .render⟩ := by
    simp only [Annot.key, checkDepth_of_le (Nat.zero_le _), List.mapM_cons, hkey]
    rfl
  simp only [Raw.compareNumber, Raw.compare, Raw.order?, Annot.compare, hannot]
  rfl

/-- Parameters that fit have keys, and the two annotations have one key. -/
theorem BuildsAlike.of_fits (name : Str) {ps qs : List Parameter} (h : ps.Perm qs)
    (hfits : ∀ p ∈ ps, p.value.Fits settings.maxDepth 0) : BuildsAlike settings name ps qs := by
  have hqs : ∀ q ∈ qs, q.value.Fits settings.maxDepth 0 := by
    simpa only [h.mem_iff] using hfits
  have hkey := Annot.fullKey_build settings name h
  have hleft := (Annot.fits_build settings name).mpr ⟨Nat.zero_le _, hfits⟩
  have hright := (Annot.fits_build settings name).mpr ⟨Nat.zero_le _, hqs⟩
  refine .same _ _ (builtOf_ok (.inr hfits)) (builtOf_ok (.inr hqs))
    (Annot.Same.of_fullKey hleft hright hkey) (Annot.parameterNames_of_fullKey hkey) ?_
  intro depth
  -- at any level the two annotations fit or do not fit together
  refine WalkSpec.eq_of_iff (Annot.render_spec settings depth _)
    (Annot.render_spec settings depth _) ?_ (Annot.fullText_of_fullKey hkey)
  simp only [Annot.fits_build, h.mem_iff]

/-- Of several parameters all keys are made, in either order, so a deep one is found. -/
theorem BuildsAlike.of_several (name : Str) {ps qs : List Parameter} (h : ps.Perm qs)
    (hseveral : 2 ≤ ps.length) (hdeep : ∃ p ∈ ps, ¬p.value.Fits settings.maxDepth 0) :
    BuildsAlike settings name ps qs := by
  have hrefused : ∀ rs : List Parameter, rs.Perm ps →
      builtOf settings name rs = .error (.tooDeep ⟨settings.maxDepth, .render⟩) := by
    intro rs hperm
    obtain ⟨p, hp, hpdeep⟩ := hdeep
    apply builtOf_tooDeep
    rintro (hsingle | hfits)
    · rw [hperm.length_eq] at hsingle
      omega
    · exact hpdeep (hfits p (hperm.mem_iff.mpr hp))
  simp only [← Parameter.tooDeeplyNested_iff] at hdeep
  exact .refused hseveral hdeep (hrefused ps (.refl ps)) (hrefused qs h.symm)

/-- A lone parameter has no other order, and no key of it is made. -/
theorem BuildsAlike.of_lone (name : Str) {p : Parameter} {qs : List Parameter}
    (h : [p].Perm qs) (hdeep : ¬p.value.Fits settings.maxDepth 0) :
    BuildsAlike settings name [p] qs := by
  obtain rfl : qs = [p] := List.perm_singleton.mp h.symm
  have hbuilt : builtOf settings name [p] =
      .ok ⟨name, some (Parameter.fullSort settings [p])⟩ :=
    builtOf_ok (.inl (Nat.le_refl 1))
  have hsort : Parameter.fullSort settings [p] = [p] := List.mergeSort_singleton p
  rw [hsort] at hbuilt
  exact .lone p _ rfl (Parameter.tooDeeplyNested_iff.mpr hdeep) hbuilt hbuilt
    (Annot.compareNumber_lone hdeep _)

/-- **Building ignores order**: a list of parameters and any permutation of it are both refused for
their nesting, or build annotations that comparison, equality and hashing do not tell apart and
that have the same names and the same text. Only a lone parameter that is nested too deep is built
without being comparable. -/
theorem building_ignores_order (settings : Settings) (name : Str) {ps qs : List Parameter}
    (h : ps.Perm qs) : BuildsAlike settings name ps qs := by
  by_cases hfits : ∀ p ∈ ps, p.value.Fits settings.maxDepth 0
  · exact .of_fits name h hfits
  · have hdeep : ∃ p ∈ ps, ¬p.value.Fits settings.maxDepth 0 := by
      simpa only [not_forall, exists_prop] using hfits
    -- how many parameters there are decides whether the deep one is looked at
    rcases ps with _ | ⟨p, _ | ⟨q, rest⟩⟩
    · obtain ⟨p, hp, -⟩ := hdeep
      cases hp
    · obtain ⟨r, hr, hrdeep⟩ := hdeep
      obtain rfl := List.mem_singleton.mp hr
      exact .of_lone name h hrdeep
    · exact .of_several name h (by simp) hdeep

/-- A case of it: two parameters of one name and one text, in either order. -/
theorem tied_parameters_build_alike :
    [Parameter.mk "x" (.scalar (.integer .int 1 (by decide))),
      ⟨"x", .scalar (.integer .long 1 (by decide))⟩].Perm
      [⟨"x", .scalar (.integer .long 1 (by decide))⟩,
        ⟨"x", .scalar (.integer .int 1 (by decide))⟩] ∧
    BuildsAlike {} "A"
      [⟨"x", .scalar (.integer .int 1 (by decide))⟩,
        ⟨"x", .scalar (.integer .long 1 (by decide))⟩]
      [⟨"x", .scalar (.integer .long 1 (by decide))⟩,
        ⟨"x", .scalar (.integer .int 1 (by decide))⟩] :=
  ⟨.swap _ _ [], building_ignores_order {} "A" (.swap _ _ [])⟩

/-- It is not so that what is built can always be compared: with arrays in arrays beyond the bound
in its only parameter, an annotation is built and does not compare equal to itself. -/
theorem not_all_built_are_comparable :
    ¬∀ (settings : Settings) (name : Str) (ps qs : List Parameter), ps.Perm qs →
      (builtOf settings name ps = .error (.tooDeep ⟨settings.maxDepth, .render⟩) ∧
        builtOf settings name qs = .error (.tooDeep ⟨settings.maxDepth, .render⟩)) ∨
      ∃ a b, builtOf settings name ps = .ok a ∧ builtOf settings name qs = .ok b ∧
        a.Same settings b ∧ a.parameterNames = b.parameterNames ∧
        ∀ text, a.render settings 0 = .ok text ↔ b.render settings 0 = .ok text := by
  intro halways
  -- three arrays in each other, under a bound of one
  have h := halways ⟨1, "value", by decide, by decide⟩ "A"
    [⟨"x", .array [.array [.array []]]⟩] [⟨"x", .array [.array [.array []]]⟩] (.refl _)
  rcases h with ⟨hrefused, -⟩ | ⟨a, b, ha, hb, hsame, -, -⟩
  · rw [builtOf_ok (.inl (by decide))] at hrefused
    cases hrefused
  · rw [hb] at ha
    cases ha
    rw [builtOf_ok (.inl (by decide)), Parameter.fullSort, List.mergeSort_singleton] at hb
    cases hb
    have hcompared := hsame.compared
    rw [Annot.compareNumber_lone (by decide)] at hcompared
    cases hcompared

end AnnoTree
