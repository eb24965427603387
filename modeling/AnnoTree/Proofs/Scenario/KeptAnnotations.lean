import AnnoTree.Proofs.Defaults.Merged
import AnnoTree.Scenario

/-!
# Annotations that a scenario keeps

The first step that needs the annotation builds it, of the name and the parameters given by then,
and it is kept until another one is named. Later steps add defaults to it. A parameter that is given
in the meantime goes into the list of parameters but not into the annotation that is kept, so that a
rendering may lack it; naming alone drops what was kept.

What the steps since the last naming have done is told by the sequence of steps itself: it is cut
where the annotation was built. The invariant is `BuiltBy`; a step keeps it, and so does every run.

## Main definitions

- `State.after`, `State.merged`: the state after some steps, and the defaults they have merged.
- `Step.Effect`: what a step can do that names no annotation.
- `BuiltBy`: how an annotation comes to be kept.
- `State.IsCurrent`: what is kept has the name and all parameters given last.

## Main statements

- `Step.effect`, `BuiltBy.step`, `exists_builtBy`: a step and a run keep the invariant.
- `State.isSome_annot_after`: what is kept stays until another annotation is named.
- `BuiltBy.isCurrent_iff`: when what is kept is current.
- `late_parameters_are_left_out`: what is kept after any steps.
-/

namespace AnnoTree

variable {settings : Settings}

/-! ## §1 Names of annotations -/

/-- A name as it is given, a text or the octets of one, and as an annotation has it. -/
inductive NamedBy : Raw → Str → Prop where
  | text (name : Str) : NamedBy (.text name) name
  | octets {octets : List Text.Octet} {name : List Char}
      (whole : Text.decodeUtf8 octets = .whole name) :
      NamedBy (.bytes octets) (String.ofList name)

theorem namedBy_of_textField {field name : Str} {raw : Raw}
    (h : textField field raw = .ok name) : NamedBy raw name := by
  unfold textField at h
  split at h
  · cases h
    exact .text name
  · split at h
    next hwhole =>
      cases h
      exact .octets hwhole
    next => cases h
  · cases h

/-- What is built has the name that was given for it. -/
theorem Annot.namedBy_of_ofRaw {name raw : Raw} {a : Annot}
    (h : Annot.ofRaw settings name raw = .ok a) : NamedBy name a.name :=
  namedBy_of_textField (Annot.ofRaw_eq_ok.mp h).1

/-- What is built of parameters has their names. -/
theorem Annot.mem_names_of_ofRaw {name : Raw} {ps : List Parameter} {a : Annot}
    (h : Annot.ofRaw settings name (.list (ps.map .parameter)) = .ok a) (n : Str) :
    n ∈ a.parameterNames ↔ n ∈ ps.map Parameter.name := by
  obtain ⟨given, hgiven, hsorts⟩ := Annot.ofRaw_sorts h
  rw [Parameter.listOfRaw_parameters] at hgiven
  cases hgiven
  cases hsorts with
  | sorted name result =>
    obtain ⟨-, rfl⟩ := (Parameter.sorted_spec settings ps).of_eq_ok result
    exact ((Parameter.fullSort_perm ps).map Parameter.name).mem_iff

/-- Defaults add their names, and leave that of the annotation. -/
theorem Annot.names_withDefaults {a b : Annot} {layer : List Parameter}
    (h : a.withDefaults settings layer = .ok b) :
    b.name = a.name ∧
      ∀ n, n ∈ b.parameterNames ↔ n ∈ a.parameterNames ∨ n ∈ layer.map Parameter.name := by
  by_cases hlayer : layer = []
  · subst hlayer
    cases h
    exact ⟨rfl, by simp⟩
  · have hfills := Annot.withDefaults_fillsIn hlayer h
    exact ⟨hfills.name, hfills.names⟩

namespace Scenario

/-! ## §2 Runs -/

/-- The state after some steps, whether or not they succeed. -/
def State.after (settings : Settings) (s : State) (steps : List Step) : State :=
  steps.foldl (fun s step => (step.run settings s).1) s

theorem State.after_append (s : State) (first second : List Step) :
    s.after settings (first ++ second) = (s.after settings first).after settings second :=
  List.foldl_append

namespace Step

/-- Whether a step names an annotation. -/
def isNaming : Step → Bool
  | .named _ => true
  | _ => false

/-- Whether a step gives a parameter. -/
def isGift : Step → Bool
  | .parameter _ _ | .enumParameter _ _ => true
  | _ => false

/-- Whether a step needs the annotation. -/
def isUse : Step → Bool
  | .defaults _ _ _ _ | .rendered | .lookedUp _ => true
  | _ => false

/-- The parameter that a step gives, if one can be made. -/
def given? (settings : Settings) : Step → Option Parameter
  | .parameter name value => (Parameter.ofRaw settings name value).toOption
  | .enumParameter name qualified =>
    (Parameter.ofRaw settings name (.enumConst (enumConstOf qualified))).toOption
  | _ => none

/-- The defaults that a step has to merge. -/
def supplied (settings : Settings) : Step → List Parameter
  | .defaults first firstValue second secondValue =>
    match (defaultsOf settings first firstValue second secondValue).bind
        (Parameter.listOfRaw settings) with
    | .ok layer => layer.getD []
    | .error _ => []
  | _ => []

/-- The defaults that a step merges in a state: none if it fails. -/
def merged (settings : Settings) (s : State) (step : Step) : List Parameter :=
  match (step.run settings s).2 with
  | .ok _ => step.supplied settings
  | .error _ => []

end Step

/-- The defaults that steps merge from a state on, later ones in front. -/
def State.merged (settings : Settings) (s : State) : List Step → List Parameter
  | [] => []
  | step :: rest =>
    State.merged settings (step.run settings s).1 rest ++ step.merged settings s

theorem State.after_concat (s : State) (steps : List Step) (step : Step) :
    s.after settings (steps ++ [step]) = (step.run settings (s.after settings steps)).1 := by
  rw [after_append]
  rfl

theorem State.merged_concat (s : State) (steps : List Step) (step : Step) :
    s.merged settings (steps ++ [step]) =
      step.merged settings (s.after settings steps) ++ s.merged settings steps := by
  induction steps generalizing s with
  | nil => simp [State.merged, State.after]
  | cons first rest ih =>
    rw [List.cons_append, State.merged, ih, List.append_assoc]
    rfl

/-! ## §3 What a step can do -/

/-- An annotation that a state has: the one that is kept, or else the one that is built of its name
and its parameters. -/
inductive State.Has (settings : Settings) (s : State) : Annot → Prop where
  | kept {a : Annot} (annot : s.annot = some a) : State.Has settings s a
  | built {a : Annot} (unkept : s.annot = none)
      (result : Annot.ofRaw settings s.name (.list (s.parameters.map .parameter)) = .ok a) :
      State.Has settings s a

theorem State.Has.eq_of_annot {s : State} {a b : Annot} (h : s.Has settings b)
    (ha : s.annot = some a) : b = a := by
  cases h with
  | kept annot => exact Option.some.inj (annot.symm.trans ha)
  | built unkept =>
    rw [unkept] at ha
    cases ha

/-- The annotation that is built is the one that the state has; where that fails, nothing
changes. -/
theorem State.build_cases (settings : Settings) (s : State) :
    (∃ a, s.Has settings a ∧ s.build settings = ({ s with annot := some a }, .ok a)) ∨
      ∃ f, s.build settings = (s, .error f) := by
  unfold build
  split
  next a hkept =>
    refine .inl ⟨a, .kept hkept, ?_⟩
    rw [← hkept]
  next hunkept =>
    split
    next => exact .inr ⟨_, rfl⟩
    next =>
      split
      next a hbuilt => exact .inl ⟨a, .built hunkept hbuilt, rfl⟩
      next f _ => exact .inr ⟨f, rfl⟩

/-- A step that needs the annotation keeps the one that the state has, or fails where there is
none. -/
theorem State.withAnnot_cases (settings : Settings) (s : State)
    (use : State → Annot → Result Unit) :
    (∃ a, s.Has settings a ∧ s.withAnnot settings use = use { s with annot := some a } a) ∨
      ∃ f, s.withAnnot settings use = (s, .error f) := by
  rcases s.build_cases settings with ⟨a, hhas, hbuild⟩ | ⟨f, hbuild⟩
  · exact .inl ⟨a, hhas, by rw [withAnnot, hbuild]⟩
  · exact .inr ⟨f, by rw [withAnnot, hbuild]⟩

/-- What a step can do that names no annotation: it leaves the name, it may give a parameter, and it
leaves the annotation, unless it needs it and merges defaults into the one that the state has. -/
structure Step.Effect (settings : Settings) (s : State) (step : Step) (after : State) : Prop where
  name : after.name = s.name
  parameters : after.parameters = s.parameters ++ (step.given? settings).toList
  annot : (after.annot = s.annot ∧ step.merged settings s = []) ∨
    (step.isUse = true ∧ ∃ a b, s.Has settings a ∧
      a.withDefaults settings (step.merged settings s) = .ok b ∧ after.annot = some b)

/-- Naming drops what was kept. -/
theorem Step.annot_of_isNaming {step : Step} (h : step.isNaming = true) (s : State) :
    (step.run settings s).1.annot = none := by
  cases step with
  | named name => rfl
  | _ => cases h

theorem Step.given?_of_isUse {step : Step} (h : step.isUse = true) :
    step.given? settings = none := by
  cases step with
  | «defaults» | rendered | lookedUp => rfl
  | _ => cases h

theorem Step.given?_of_not_isGift {step : Step} (h : step.isGift = false) :
    step.given? settings = none := by
  cases step with
  | parameter | enumParameter => cases h
  | _ => rfl

/-- A step that has no defaults to merge merges none. -/
theorem Step.merged_eq_nil {step : Step} (h : step.supplied settings = []) (s : State) :
    step.merged settings s = [] := by
  rw [merged, h]
  split <;> rfl

/-- A step that only gives a parameter, or fails to make it. -/
theorem Step.effect_add {s : State} {step : Step} {p : Except Failure Parameter}
    (hrun : step.run settings s = s.add p) (hgiven : step.given? settings = p.toOption)
    (hsupplied : step.supplied settings = []) :
    step.Effect settings s (step.run settings s).1 := by
  have hannot := merged_eq_nil hsupplied s
  rw [hrun]
  cases p with
  | ok p => exact ⟨rfl, by rw [hgiven]; rfl, .inl ⟨rfl, hannot⟩⟩
  | error f => exact ⟨rfl, by rw [hgiven]; exact (List.append_nil _).symm, .inl ⟨rfl, hannot⟩⟩

/-- A step that needs the annotation, and leaves it as it is. -/
theorem Step.effect_withAnnot {s : State} {step : Step} {use : State → Annot → Result Unit}
    (hrun : step.run settings s = s.withAnnot settings use) (hgiven : step.given? settings = none)
    (hisUse : step.isUse = true)
    (huse : ∀ a, s.Has settings a →
      step.run settings s = use { s with annot := some a } a →
      (use { s with annot := some a } a).1.name = s.name ∧
      (use { s with annot := some a } a).1.parameters = s.parameters ∧
      ∃ b, a.withDefaults settings (step.merged settings s) = .ok b ∧
        (use { s with annot := some a } a).1.annot = some b) :
    step.Effect settings s (step.run settings s).1 := by
  rcases s.withAnnot_cases settings use with ⟨a, hhas, hcase⟩ | ⟨f, hcase⟩
  · have hresult := hrun.trans hcase
    obtain ⟨hname, hparameters, b, hmerged, hannot⟩ := huse a hhas hresult
    rw [hresult]
    exact ⟨hname, by simp [hgiven, hparameters], .inr ⟨hisUse, a, b, hhas, hmerged, hannot⟩⟩
  · -- a step that finds no annotation merges nothing, whatever it was given to merge
    have hresult := hrun.trans hcase
    have hmerged : step.merged settings s = [] := by
      rw [merged, hresult]
    rw [hresult]
    exact ⟨rfl, by simp [hgiven], .inl ⟨rfl, hmerged⟩⟩

/-- Defaults that are merged are those of the step. -/
theorem Step.effect_defaults (s : State) (first firstValue second secondValue : Raw) :
    (Step.defaults first firstValue second secondValue).Effect settings s
      ((Step.defaults first firstValue second secondValue).run settings s).1 := by
  apply effect_withAnnot rfl rfl rfl
  intro a hhas hresult
  rw [merged, hresult]
  dsimp only
  split
  next b hmerged =>
    obtain ⟨raw, hraw, hmerged⟩ := bind_eq_ok.mp hmerged
    obtain ⟨layer, hlayer, hmerged⟩ := Annot.withRawDefaults_eq_ok hmerged
    have hsupplied : (defaultsOf settings first firstValue second secondValue).bind
        (Parameter.listOfRaw settings) = .ok layer := by
      rw [hraw]
      exact hlayer
    refine ⟨rfl, rfl, b, ?_, rfl⟩
    rw [supplied, hsupplied]
    exact hmerged
  next f hmerged => exact ⟨rfl, rfl, a, rfl, rfl⟩

/-- **What a step does** that names no annotation. -/
theorem Step.effect (settings : Settings) (s : State) {step : Step} (h : step.isNaming = false) :
    step.Effect settings s (step.run settings s).1 := by
  cases step with
  | named name => cases h
  | parameter name value => exact effect_add rfl rfl rfl
  | enumParameter name qualified => exact effect_add rfl rfl rfl
  | «defaults» first firstValue second secondValue =>
    exact effect_defaults s first firstValue second secondValue
  | rendered =>
    have hmerged : Step.rendered.merged settings s = [] := merged_eq_nil rfl s
    apply effect_withAnnot rfl rfl rfl
    intro a hhas hresult
    rw [hmerged]
    dsimp only
    split
    · exact ⟨rfl, rfl, a, rfl, rfl⟩
    · exact ⟨rfl, rfl, a, rfl, rfl⟩
  | lookedUp parameter =>
    have hmerged : (Step.lookedUp parameter).merged settings s = [] := merged_eq_nil rfl s
    apply effect_withAnnot rfl rfl rfl
    intro a hhas hresult
    rw [hmerged]
    dsimp only [State.keepFault]
    split
    · exact ⟨rfl, rfl, a, rfl, rfl⟩
    · exact ⟨rfl, rfl, a, rfl, rfl⟩
    · exact ⟨rfl, rfl, a, rfl, rfl⟩
  | renderingIs expected => exact ⟨rfl, (List.append_nil _).symm, .inl ⟨rfl, merged_eq_nil rfl s⟩⟩
  | lookupFailsWith title => exact ⟨rfl, (List.append_nil _).symm, .inl ⟨rfl, merged_eq_nil rfl s⟩⟩

/-! ## §4 How an annotation is kept -/

/-- A step that names no other annotation keeps one. -/
theorem Step.isSome_annot {s : State} {step : Step} (h : step.isNaming = false)
    (hs : s.annot.isSome) : (step.run settings s).1.annot.isSome := by
  obtain ⟨-, -, annot⟩ := Step.effect settings s h
  rcases annot with ⟨hsame, -⟩ | ⟨-, a, b, -, -, hb⟩
  · rwa [hsame]
  · simp [hb]

/-- **An annotation is kept until another one is named.** -/
theorem State.isSome_annot_after {s : State} {since : List Step}
    (h : ∀ step ∈ since, step.isNaming = false) (hs : s.annot.isSome) :
    (s.after settings since).annot.isSome := by
  induction since generalizing s with
  | nil => exact hs
  | cons step rest ih =>
    obtain ⟨hstep, hrest⟩ := List.forall_mem_cons.mp h
    exact ih hrest (Step.isSome_annot hstep hs)

/-- How an annotation comes to be kept after some steps: `use` is the step that built it, of the
name and the parameters given before, and the steps since then named no other one. They may have
given parameters; to the annotation they have only added defaults. -/
structure BuiltBy (settings : Settings) (before : List Step) (use : Step) (since : List Step)
    (a : Annot) : Prop where
  isUse : use.isUse = true
  unnamed : ∀ step ∈ since, step.isNaming = false
  unkept : (State.after settings {} before).annot = none
  name : (State.after settings {} (before ++ use :: since)).name =
    (State.after settings {} before).name
  parameters : (State.after settings {} (before ++ use :: since)).parameters =
    (State.after settings {} before).parameters ++ since.filterMap (Step.given? settings)
  annot : ∃ b, Annot.ofRaw settings (State.after settings {} before).name
      (.list ((State.after settings {} before).parameters.map .parameter)) = .ok b ∧
    b.withDefaults settings ((State.after settings {} before).merged settings (use :: since)) =
      .ok a

/-- A step that builds an annotation is the one by which it comes to be kept. -/
theorem BuiltBy.start {before : List Step} {use : Step} {a : Annot}
    (hunkept : (State.after settings {} before).annot = none) (hname : use.isNaming = false)
    (ha : (State.after settings {} (before ++ [use])).annot = some a) :
    BuiltBy settings before use [] a := by
  obtain ⟨name, parameters, annot⟩ := Step.effect settings
    (State.after settings {} before) hname
  rw [← State.after_concat] at name parameters annot
  rcases annot with ⟨hsame, -⟩ | ⟨hisUse, b, c, hhas, hmerged, hc⟩
  · rw [hsame, hunkept] at ha
    cases ha
  · obtain rfl : c = a := Option.some.inj (hc.symm.trans ha)
    cases hhas with
    | kept hkept =>
      rw [hunkept] at hkept
      cases hkept
    | built _ hbuilt =>
      refine ⟨hisUse, by simp, hunkept, name, ?_, b, hbuilt, ?_⟩
      · simpa [Step.given?_of_isUse hisUse] using parameters
      · simpa [State.merged] using hmerged

/-- One step more adds defaults to the annotation, if it changes it at all. -/
theorem BuiltBy.step {before since : List Step} {use step : Step} {a b : Annot}
    (h : BuiltBy settings before use since a)
    (ha : (State.after settings {} (before ++ use :: since)).annot = some a)
    (hname : step.isNaming = false)
    (hb : (State.after settings {} (before ++ use :: (since ++ [step]))).annot = some b) :
    BuiltBy settings before use (since ++ [step]) b := by
  have hsteps : before ++ use :: (since ++ [step]) = (before ++ use :: since) ++ [step] := by simp
  obtain ⟨name, parameters, annot⟩ := Step.effect settings
    (State.after settings {} (before ++ use :: since)) hname
  rw [← State.after_concat, ← hsteps] at name parameters annot
  have hlayers : (State.after settings {} before).merged settings (use :: (since ++ [step])) =
      step.merged settings (State.after settings {} (before ++ use :: since)) ++
        (State.after settings {} before).merged settings (use :: since) := by
    rw [← List.cons_append, State.merged_concat, ← State.after_append]
  obtain ⟨built, hbuilt, hmerged⟩ := h.annot
  refine ⟨h.isUse, ?_, h.unkept, name.trans h.name, ?_, built, hbuilt, ?_⟩
  · exact List.forall_mem_append.mpr ⟨h.unnamed, List.forall_mem_singleton.mpr hname⟩
  · rw [parameters, h.parameters, List.filterMap_append, List.append_assoc]
    rfl
  · rw [hlayers]
    rcases annot with ⟨hsame, hnone⟩ | ⟨-, c, d, hhas, hstep, hd⟩
    · rw [hsame, ha] at hb
      cases hb
      rwa [hnone]
    · obtain rfl : d = b := Option.some.inj (hd.symm.trans hb)
      obtain rfl := hhas.eq_of_annot ha
      -- the new layer of defaults lies over the older ones
      rw [← Annot.withDefaults_append, hmerged]
      exact hstep

/-- **Every annotation that is kept** was built by a step since the name was given. -/
theorem exists_builtBy {steps : List Step} {a : Annot}
    (h : (State.after settings {} steps).annot = some a) :
    ∃ before use since, steps = before ++ use :: since ∧ BuiltBy settings before use since a := by
  -- by induction on the run: the last step names, builds, or finds an annotation that is kept
  induction steps using List.reverseRecOn generalizing a with
  | nil => cases h
  | append_singleton steps step ih =>
    cases hname : step.isNaming with
    | true =>
      rw [State.after_concat, Step.annot_of_isNaming hname] at h
      cases h
    | false =>
      cases hkept : (State.after settings {} steps).annot with
      | none => exact ⟨steps, step, [], rfl, .start hkept hname h⟩
      | some b =>
        obtain ⟨before, use, since, rfl, hbuilt⟩ := ih hkept
        refine ⟨before, use, since ++ [step], by simp, hbuilt.step hkept hname ?_⟩
        simpa using h

/-! ## §5 Annotations that are current -/

/-- An annotation that is kept has the name given last, and all parameters given since then. -/
def State.IsCurrent (s : State) : Prop :=
  ∀ a, s.annot = some a → NamedBy s.name a.name ∧ ∀ p ∈ s.parameters, p.name ∈ a.parameterNames

/-- The names of the parameters given before an annotation was built, and of the defaults that steps
have merged from then on. -/
def builtNames (settings : Settings) (before steps : List Step) : List Str :=
  ((State.after settings {} before).parameters ++
    (State.after settings {} before).merged settings steps).map Parameter.name

namespace BuiltBy

variable {before since : List Step} {use : Step} {a : Annot}

theorem mem_names_iff (h : BuiltBy settings before use since a) (n : Str) :
    n ∈ a.parameterNames ↔ n ∈ builtNames settings before (use :: since) := by
  obtain ⟨b, hbuilt, hmerged⟩ := h.annot
  rw [(Annot.names_withDefaults hmerged).2, Annot.mem_names_of_ofRaw hbuilt, builtNames,
    List.map_append, List.mem_append]

theorem namedBy (h : BuiltBy settings before use since a) :
    NamedBy (State.after settings {} (before ++ use :: since)).name a.name := by
  obtain ⟨b, hbuilt, hmerged⟩ := h.annot
  rw [h.name, (Annot.names_withDefaults hmerged).1]
  exact Annot.namedBy_of_ofRaw hbuilt

/-- **An annotation that is kept is current** exactly if each parameter that was given when it was
built already has a name that it has nevertheless. -/
theorem isCurrent_iff (h : BuiltBy settings before use since a)
    (ha : (State.after settings {} (before ++ use :: since)).annot = some a) :
    (State.after settings {} (before ++ use :: since)).IsCurrent ↔
      ∀ p ∈ since.filterMap (Step.given? settings),
        p.name ∈ builtNames settings before (use :: since) := by
  constructor
  · intro hcurrent p hp
    rw [← h.mem_names_iff]
    apply (hcurrent a ha).2
    rw [h.parameters]
    exact List.mem_append_right _ hp
  · intro hlate c hc
    obtain rfl : c = a := Option.some.inj (hc.symm.trans ha)
    refine ⟨h.namedBy, fun p hp => ?_⟩
    rw [h.parameters] at hp
    rw [h.mem_names_iff]
    rcases List.mem_append.mp hp with hearly | hlater
    · -- what was given before the annotation was built went into it
      rw [builtNames, List.map_append]
      exact List.mem_append_left _ (List.mem_map_of_mem hearly)
    · exact hlate p hlater

end BuiltBy

/-- Steps that give the parameters of an annotation before they need it. -/
def GivesFirst (steps : List Step) : Prop :=
  ∀ before use since, steps = before ++ use :: since → use.isUse = true →
    (∀ step ∈ since, step.isNaming = false) → ∀ step ∈ since, step.isGift = false

/-- It is enough that a scenario has two halves: it tells of an annotation, and then uses it. -/
theorem givesFirst_append {gifts uses : List Step} (hgifts : ∀ step ∈ gifts, step.isUse = false)
    (huses : ∀ step ∈ uses, step.isGift = false) : GivesFirst (gifts ++ uses) := by
  intro before use since hsteps hisUse _ step hstep
  apply huses
  rcases List.append_eq_append_iff.mp hsteps with ⟨more, -, rfl⟩ | ⟨more, rfl, hrest⟩
  · exact List.mem_append_right _ (List.mem_cons_of_mem _ hstep)
  · cases more with
    | nil =>
      rw [List.nil_append] at hrest
      rw [← hrest]
      exact List.mem_cons_of_mem _ hstep
    | cons first more =>
      -- a step that uses the annotation is not in the first half
      cases hrest
      have hno := hgifts use (by simp)
      rw [hisUse] at hno
      cases hno

/-- Where parameters are given first, none comes too late. -/
theorem GivesFirst.isCurrent {steps : List Step} (h : GivesFirst steps) :
    (State.after settings {} steps).IsCurrent := by
  intro a ha
  obtain ⟨before, use, since, rfl, hbuilt⟩ := exists_builtBy ha
  have hnone : since.filterMap (Step.given? settings) = [] := by
    rw [List.filterMap_eq_nil_iff]
    intro step hstep
    apply Step.given?_of_not_isGift
    exact h before use since rfl hbuilt.isUse hbuilt.unnamed step hstep
  have hcurrent := (hbuilt.isCurrent_iff ha).mpr (by simp [hnone])
  exact hcurrent a ha

/-- A rendering is that of the annotation that is kept afterwards. -/
theorem State.rendering_of_rendered {s : State} (h : (Step.rendered.run settings s).2 = .ok ()) :
    ∃ a text, (Step.rendered.run settings s).1.annot = some a ∧ a.render settings 0 = .ok text ∧
      (Step.rendered.run settings s).1.rendering = some text := by
  rw [Step.run] at h ⊢
  rcases s.withAnnot_cases settings _ with ⟨a, -, hcase⟩ | ⟨f, hcase⟩
  · rw [hcase] at h ⊢
    dsimp only at h ⊢
    cases hrender : a.render settings 0 with
    | ok text => exact ⟨a, text, rfl, hrender, rfl⟩
    | error e =>
      rw [hrender] at h
      cases h
  · rw [hcase] at h
    cases h

/-- **A parameter that is given when the annotation was built already is left out of it.** After any
steps, an annotation that is kept was built by one of them since the last naming, of the name and
the parameters given by then, and it has got no more names than those of the defaults merged since.
So it is current exactly if the parameters given since then have no names but those. No step but
naming drops it. If all parameters are given before the annotation is needed, it always is current.
A rendering shows the annotation that is kept. -/
theorem late_parameters_are_left_out (settings : Settings) (steps : List Step) :
    (∀ a, (State.after settings {} steps).annot = some a →
      ∃ before use since, steps = before ++ use :: since ∧ BuiltBy settings before use since a ∧
        NamedBy (State.after settings {} steps).name a.name ∧
        (∀ n, n ∈ a.parameterNames ↔ n ∈ builtNames settings before (use :: since)) ∧
        ((State.after settings {} steps).IsCurrent ↔
          ∀ p ∈ since.filterMap (Step.given? settings),
            p.name ∈ builtNames settings before (use :: since))) ∧
    (∀ first since, steps = first ++ since → (State.after settings {} first).annot.isSome →
      (∀ step ∈ since, step.isNaming = false) → (State.after settings {} steps).annot.isSome) ∧
    (GivesFirst steps → (State.after settings {} steps).IsCurrent) ∧
    ((Step.rendered.run settings (State.after settings {} steps)).2 = .ok () →
      ∃ a text, (State.after settings {} (steps ++ [.rendered])).annot = some a ∧
        a.render settings 0 = .ok text ∧
        (State.after settings {} (steps ++ [.rendered])).rendering = some text) := by
  refine ⟨fun a ha => ?built, fun first since hsteps hfirst hsince => ?kept, GivesFirst.isCurrent,
    fun h => ?rendered⟩
  case built =>
    obtain ⟨before, use, since, rfl, hbuilt⟩ := exists_builtBy ha
    exact ⟨before, use, since, rfl, hbuilt, hbuilt.namedBy, hbuilt.mem_names_iff,
      hbuilt.isCurrent_iff ha⟩
  case kept =>
    rw [hsteps, State.after_append]
    exact State.isSome_annot_after hsince hfirst
  case rendered =>
    rw [State.after_concat]
    exact State.rendering_of_rendered h

/-- An annotation that is given its parameter, filled in and rendered. -/
def timeoutSteps : List Step :=
  [.named (.text "Timeout"), .parameter (.text "seconds") (.int 30),
    .defaults (.text "seconds") (.int 10) (.text "unit") (.text "SECONDS"), .rendered]

/-- A case of it: an annotation whose parameter is given first. -/
theorem filled_in_annotation_is_current :
    GivesFirst timeoutSteps ∧ (State.after {} {} timeoutSteps).IsCurrent := by
  have hgifts : ∀ step ∈ timeoutSteps.take 2, step.isUse = false := by decide
  have huses : ∀ step ∈ timeoutSteps.drop 2, step.isGift = false := by decide
  have hfirst : GivesFirst timeoutSteps := givesFirst_append hgifts huses
  exact ⟨hfirst, (late_parameters_are_left_out {} timeoutSteps).2.2.1 hfirst⟩

/-- An annotation that is given a parameter when it was rendered already, and rendered again. -/
def lateSteps : List Step :=
  [.named (.text "Foo"), .parameter (.text "value") (.int 5), .rendered,
    .parameter (.text "other") (.int 1), .rendered]

/-- The annotation that is kept may lack a parameter, and so may its rendering. -/
theorem kept_annotations_may_lack_parameters :
    ¬(State.after {} {} lateSteps).IsCurrent ∧
      (State.after {} {} lateSteps).rendering = some "@Foo(5)" := by
  have hparameters :
      (State.after {} {} lateSteps).parameters.map Parameter.name =
        (["value", "other"] : List Str) := rfl
  have hnames : (State.after {} {} lateSteps).annot.map Annot.parameterNames =
      some (["value"] : List Str) := rfl
  refine ⟨fun hcurrent => ?_, rfl⟩
  obtain ⟨a, ha, hnames⟩ := Option.map_eq_some_iff.mp hnames
  have hother : ("other" : Str) ∈ (State.after {} {} lateSteps).parameters.map Parameter.name := by
    simp [hparameters]
  obtain ⟨p, hp, hname⟩ := List.mem_map.mp hother
  have hmem := (hcurrent a ha).2 p hp
  simp [hname, hnames] at hmem

end Scenario

end AnnoTree
