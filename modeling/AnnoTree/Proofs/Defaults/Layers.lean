import AnnoTree.Annot.Defaults
import AnnoTree.Proofs.Entries
import AnnoTree.Proofs.Order.Building

/-!
# Layers of defaults

Overlaying defaults fills a table: each name has the value that came last, where written values
come after all defaults. The parameters of the table are sorted, and since their names are distinct
no order of filling is left to be seen. So two layers of defaults are one layer, and a layer that
is there already adds nothing.

## Main definitions

- `Parameter.latest`: of each name the parameter that came last.
- `Annot.withLayer`: an annotation with defaults that are given as parameters.

## Main statements

- `Parameter.latest_perm`: a table of parameters is known by the last value of each name.
- `Annot.withDefaults_spec`: what becomes of an annotation with defaults.
- `default_layers_compose`: layers of defaults compose.
-/

namespace AnnoTree

variable {settings : Settings}

/-! ## §1 The last parameter of each name -/

/-- Of each name the parameter that came last, at the place of the first. -/
def Parameter.latest (ps : List Parameter) : List Parameter :=
  (Entries.ofList (Parameter.entries ps)).map fun e => ⟨e.1, e.2⟩

/-- The value of a name that came last. -/
def Parameter.lastValue? (ps : List Parameter) (name : Str) : Option Value :=
  Entries.get? name (Parameter.entries ps).reverse

theorem Parameter.keys_entries (ps : List Parameter) :
    Entries.keys (Parameter.entries ps) = ps.map Parameter.name := by
  rw [Entries.keys, Parameter.entries, List.map_map]
  rfl

theorem Parameter.entries_latest (ps : List Parameter) :
    Parameter.entries (Parameter.latest ps) = Entries.ofList (Parameter.entries ps) := by
  rw [Parameter.latest, Parameter.entries, List.map_map]
  exact List.map_id _

theorem Parameter.nodup_latest (ps : List Parameter) :
    ((Parameter.latest ps).map Parameter.name).Nodup := by
  rw [← Parameter.keys_entries, Parameter.entries_latest]
  exact Entries.nodup_keys_ofList _

theorem Parameter.get?_latest (ps : List Parameter) (name : Str) :
    Entries.get? name (Parameter.entries (Parameter.latest ps)) =
      Parameter.lastValue? ps name := by
  rw [Parameter.entries_latest, Entries.get?_ofList]
  rfl

theorem Parameter.mem_latest {p : Parameter} {ps : List Parameter} :
    p ∈ Parameter.latest ps ↔ Parameter.lastValue? ps p.name = some p.value := by
  have hnodup := Entries.nodup_keys_ofList (Parameter.entries ps)
  rw [← Parameter.get?_latest, Parameter.entries_latest,
    Entries.get?_eq_some_iff_of_nodup hnodup, Parameter.latest, List.mem_map]
  constructor
  · rintro ⟨e, he, rfl⟩
    exact he
  · intro h
    refine ⟨_, h, ?_⟩
    cases p
    rfl

/-- **A table of parameters is known by the last value of each name.** -/
theorem Parameter.latest_perm {ps qs : List Parameter}
    (h : ∀ name, Parameter.lastValue? ps name = Parameter.lastValue? qs name) :
    (Parameter.latest ps).Perm (Parameter.latest qs) := by
  apply (List.perm_ext_iff_of_nodup (Parameter.nodup_latest ps).of_map
    (Parameter.nodup_latest qs).of_map).mpr
  intro p
  rw [Parameter.mem_latest, Parameter.mem_latest, h]

/-! ## §2 Rearranging and extending -/

theorem Parameter.lastValue?_append (ps qs : List Parameter) (name : Str) :
    Parameter.lastValue? (ps ++ qs) name =
      (Parameter.lastValue? qs name).or (Parameter.lastValue? ps name) := by
  simp only [Parameter.lastValue?, Parameter.entries, List.map_append, List.reverse_append,
    Entries.get?_append]

/-- Of parameters of distinct names, a rearrangement has the same values. -/
theorem Parameter.lastValue?_of_perm {ps qs : List Parameter} (h : ps.Perm qs)
    (hnames : (qs.map Parameter.name).Nodup) (name : Str) :
    Parameter.lastValue? ps name = Entries.get? name (Parameter.entries qs) := by
  have hentries : (Parameter.entries qs).Perm (Parameter.entries ps).reverse :=
    (h.symm.map _).trans (List.reverse_perm _).symm
  rw [← Parameter.keys_entries] at hnames
  exact (Entries.get?_perm_of_nodup hentries hnames name).symm

/-- Parameters in front of others lose no value of those. -/
theorem Parameter.latest_subset_append (ps qs : List Parameter) :
    Parameter.latest qs ⊆ Parameter.latest (ps ++ qs) := by
  intro p hp
  rw [Parameter.mem_latest] at hp
  rw [Parameter.mem_latest, Parameter.lastValue?_append, hp, Option.some_or]

theorem Parameter.latest_length_le (ps qs : List Parameter) :
    (Parameter.latest qs).length ≤ (Parameter.latest (ps ++ qs)).length :=
  ((Parameter.nodup_latest qs).of_map.subperm (Parameter.latest_subset_append ps qs)).length_le

/-- What has been sorted on the way still has the last values. -/
theorem Parameter.latest_fullSort_perm (outer inner : List Parameter) :
    (Parameter.latest (outer ++ Parameter.fullSort settings (Parameter.latest inner))).Perm
      (Parameter.latest (outer ++ inner)) := by
  apply Parameter.latest_perm
  intro name
  have hperm : (Parameter.fullSort settings (Parameter.latest inner)).Perm
      (Parameter.latest inner) := Parameter.fullSort_perm _
  rw [Parameter.lastValue?_append, Parameter.lastValue?_append,
    Parameter.lastValue?_of_perm hperm (Parameter.nodup_latest inner), Parameter.get?_latest]

/-! ## §3 Overlays -/

/-- Parameters of distinct names are tied only with themselves. -/
theorem Parameter.eq_of_tied {ps : List Parameter} (hnames : (ps.map Parameter.name).Nodup) :
    ∀ p ∈ ps, ∀ q ∈ ps, p.fullKey settings = q.fullKey settings → p = q := by
  intro p hp q hq hkey
  exact List.inj_on_of_nodup_map hnames hp hq (congrArg ParameterKey.name hkey)

/-- The order in which parameters of distinct names are given is lost. -/
theorem Annot.ofParameters_of_perm (name : Str) {ps qs : List Parameter} (h : ps.Perm qs)
    (hnames : (qs.map Parameter.name).Nodup) :
    Annot.ofParameters settings name ps = Annot.ofParameters settings name qs := by
  apply WalkSpec.eq_of_iff (Annot.build_spec settings name ps) (Annot.build_spec settings name qs)
  · simp only [h.length_eq, h.mem_iff]
  · rw [Parameter.fullSort_eq_of_perm h (Parameter.eq_of_tied hnames)]

theorem Annot.overlay_eq (a : Annot) (defaults : List Parameter) :
    a.overlay defaults = Parameter.latest (defaults ++ a.known) := by
  rw [Annot.overlay, Entries.insertAll_ofList, Parameter.latest, Parameter.entries,
    Parameter.entries, Parameter.entries, List.map_append]

theorem Annot.withDefaults_of_ne_nil (a : Annot) {defaults : List Parameter} (h : defaults ≠ []) :
    a.withDefaults settings defaults =
      Annot.ofParameters settings a.name (Parameter.latest (defaults ++ a.known)) := by
  rw [Annot.withDefaults, List.isEmpty_eq_false_iff.mpr h, Annot.overlay_eq]
  rfl

/-- **What becomes of an annotation with defaults**: the last values are sorted, unless there is
only one. -/
theorem Annot.withDefaults_spec (settings : Settings) (a : Annot) {defaults : List Parameter}
    (h : defaults ≠ []) :
    WalkSpec settings.maxDepth [.render]
      ((Parameter.latest (defaults ++ a.known)).length ≤ 1 ∨
        ∀ p ∈ Parameter.latest (defaults ++ a.known), p.value.Fits settings.maxDepth 0)
      ⟨a.name, some (Parameter.fullSort settings (Parameter.latest (defaults ++ a.known)))⟩
      (a.withDefaults settings defaults) := by
  rw [Annot.withDefaults_of_ne_nil a h]
  exact Annot.build_spec settings a.name _

/-! ## §4 Layers -/

/-- A layer over what has been sorted is a layer over what was there before. -/
theorem Annot.withDefaults_sorted (a : Annot) {inner outer : List Parameter} (h : outer ≠ []) :
    Annot.withDefaults settings
        ⟨a.name, some (Parameter.fullSort settings (Parameter.latest (inner ++ a.known)))⟩ outer =
      a.withDefaults settings (outer ++ inner) := by
  have hboth : outer ++ inner ≠ [] := List.append_ne_nil_of_left_ne_nil h inner
  rw [Annot.withDefaults_of_ne_nil _ h, Annot.withDefaults_of_ne_nil _ hboth, List.append_assoc]
  exact Annot.ofParameters_of_perm a.name (Parameter.latest_fullSort_perm outer _)
    (Parameter.nodup_latest _)

/-- Two layers of defaults come to what one layer comes to. -/
theorem Annot.withDefaults_append (a : Annot) (inner outer : List Parameter) :
    (a.withDefaults settings inner >>= fun b => b.withDefaults settings outer) =
      a.withDefaults settings (outer ++ inner) := by
  by_cases houter : outer = []
  · -- without an outer layer the annotation stays as it is
    subst houter
    rw [List.nil_append]
    cases a.withDefaults settings inner <;> rfl
  by_cases hinner : inner = []
  · subst hinner
    rw [List.append_nil]
    rfl
  have hfirst := Annot.withDefaults_spec settings a hinner
  have hboth := Annot.withDefaults_spec settings a
    (List.append_ne_nil_of_left_ne_nil houter inner)
  have hsecond := hboth
  rw [← Annot.withDefaults_sorted a houter] at hsecond
  refine WalkSpec.eq_of_iff (WalkSpec.bind hfirst hsecond) hboth ?_ rfl
  rw [List.append_assoc]
  -- the last values of the inner layer are among those of both, so they are refused with them
  have hsub := Parameter.latest_subset_append outer (inner ++ a.known)
  have hlength := Parameter.latest_length_le outer (inner ++ a.known)
  constructor
  · intro h
    exact h.2
  · intro h
    refine ⟨?_, h⟩
    rcases h with hsingle | hfits
    · left
      exact hlength.trans hsingle
    · right
      intro p hp
      exact hfits p (hsub hp)

/-- A layer that is there already adds nothing. -/
theorem Annot.withDefaults_twice (a : Annot) (defaults : List Parameter) :
    a.withDefaults settings (defaults ++ defaults) = a.withDefaults settings defaults := by
  by_cases h : defaults = []
  · subst h
    rfl
  · rw [Annot.withDefaults_of_ne_nil a (List.append_ne_nil_of_left_ne_nil h defaults),
      Annot.withDefaults_of_ne_nil a h]
    apply Annot.ofParameters_of_perm a.name ?_ (Parameter.nodup_latest _)
    apply Parameter.latest_perm
    intro name
    simp only [Parameter.lastValue?_append, Option.or_self]

/-- An annotation with defaults that are given as parameters. -/
def Annot.withLayer (settings : Settings) (a : Annot) (layer : List Parameter) :
    Except Failure Annot :=
  a.withRawDefaults settings (.list (layer.map .parameter))

theorem Annot.withLayer_eq (a : Annot) (layer : List Parameter) :
    a.withLayer settings layer = liftWalk (a.withDefaults settings layer) := by
  rw [Annot.withLayer, Annot.withRawDefaults, Parameter.listOfRaw_parameters]
  rfl

/-- Defaults are refused only for a value that is too deep to be sorted. -/
theorem Annot.withLayer_eq_error {a : Annot} {layer : List Parameter} {e : Failure}
    (h : a.withLayer settings layer = .error e) :
    e = .tooDeep ⟨settings.maxDepth, .render⟩ := by
  rw [Annot.withLayer_eq] at h
  by_cases hlayer : layer = []
  · subst hlayer
    cases h
  · cases hmerged : a.withDefaults settings layer with
    | ok b =>
      rw [hmerged] at h
      cases h
    | error tooDeep =>
      obtain ⟨hlimit, hwalk⟩ := (Annot.withDefaults_spec settings a hlayer).of_eq_error hmerged
      obtain ⟨limit, walk⟩ := tooDeep
      obtain rfl : limit = settings.maxDepth := hlimit
      obtain rfl : walk = .render := List.mem_singleton.mp hwalk
      rw [hmerged] at h
      cases h
      rfl

/-- **Layers of defaults compose**: an inner layer and then an outer one come to what the outer
defaults followed by the inner ones come to in one layer, and both fail only together, for a value
that is too deep. What has a layer already stays as it is under the same layer. -/
theorem default_layers_compose (settings : Settings) (a : Annot) (inner outer : List Parameter) :
    (a.withLayer settings inner >>= fun b => b.withLayer settings outer) =
        a.withLayer settings (outer ++ inner) ∧
      (∀ e, a.withLayer settings (outer ++ inner) = .error e →
        e = .tooDeep ⟨settings.maxDepth, .render⟩) ∧
      ∀ b, a.withLayer settings inner = .ok b → b.withLayer settings inner = .ok b := by
  have hcompose : ∀ outer : List Parameter,
      (a.withLayer settings inner >>= fun b => b.withLayer settings outer) =
        a.withLayer settings (outer ++ inner) := by
    intro outer
    simp only [Annot.withLayer_eq, ← Annot.withDefaults_append a inner outer]
    cases a.withDefaults settings inner <;> rfl
  refine ⟨hcompose outer, fun e h => Annot.withLayer_eq_error h, ?_⟩
  intro b hb
  -- the same layer twice is one layer
  have htwice := hcompose inner
  rw [Annot.withLayer_eq a (inner ++ inner), Annot.withDefaults_twice, ← Annot.withLayer_eq,
    hb] at htwice
  exact htwice

end AnnoTree
