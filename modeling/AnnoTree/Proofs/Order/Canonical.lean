import AnnoTree.Proofs.Defaults.Precedence
import AnnoTree.Proofs.Loading.Sorting
import AnnoTree.Proofs.Order.Descents

/-!
# Canonical order of parameters

However an annotation was obtained, it keeps its parameters in a stable ascending arrangement of
those it was given. That is an invariant: it holds of what is built and of what is loaded, and a
merge with defaults keeps it. What queries and the check of order see of an annotation follows from
it, and the check tells by neighbours whether sorting would change anything.

## Main definitions

- `IsArrangement`: a stable ascending arrangement of parameters.
- `Annot.Keeps`: an annotation keeps an arrangement of given parameters, or knows of none.
- `Annot.Obtained`: the annotations that building, loading and merging lead to.
- `Annot.IsCanonical`: what is seen of an annotation whose parameters are in order.

## Main statements

- `Parameter.isArrangement_of_sorted`: sorting gives an arrangement.
- `Annot.Obtained.sorted`: the parameters of an obtained annotation are sorted.
- `parameters_are_canonical`: every way to an annotation, and the check of order.
-/

namespace AnnoTree

open Std

variable {settings : Settings}

/-! ## §1 Arrangements -/

/-- Whether two parameters can be compared and are found equal. -/
def Parameter.foundEqual (settings : Settings) (p q : Parameter) : Bool :=
  match (Raw.parameter p).equal settings (.parameter q) with
  | .ok same => same
  | .error _ => false

/-- A stable ascending arrangement of given parameters: the same ones, none of them before a lesser
one, and those that are equal to any one parameter in the order in which they were given. -/
structure IsArrangement (settings : Settings) (given kept : List Parameter) : Prop where
  perm : kept.Perm given
  ascending : kept.Pairwise fun p q =>
    (Raw.parameter p).holds settings .greater (.parameter q) = .ok false
  stable : ∀ p : Parameter,
    kept.filter (p.foundEqual settings) = given.filter (p.foundEqual settings)

theorem Parameter.foundEqual_iff {p q : Parameter} :
    p.foundEqual settings q = true ↔ (Raw.parameter p).Equals settings (.parameter q) := by
  unfold Parameter.foundEqual Raw.Equals
  cases (Raw.parameter p).equal settings (.parameter q) <;> simp

/-- Where all parameters fit, those equal to one of them are those of its key. -/
theorem Parameter.filter_foundEqual {p : Parameter} (hp : p.value.Fits settings.maxDepth 0)
    {ps : List Parameter} (hps : ∀ q ∈ ps, q.value.Fits settings.maxDepth 0) :
    ps.filter (p.foundEqual settings) =
      ps.filter fun q => q.fullKey settings = p.fullKey settings := by
  refine List.filter_congr fun q hq => ?_
  rw [Bool.eq_iff_iff, Parameter.foundEqual_iff, Parameter.equals_iff, decide_eq_true_iff,
    and_iff_right ⟨hp, hps q hq⟩]
  exact eq_comm

theorem IsArrangement.refl_of_length_le_one {ps : List Parameter} (h : ps.length ≤ 1) :
    IsArrangement settings ps ps where
  perm := List.Perm.refl ps
  ascending := by
    match ps with
    | [] => exact List.Pairwise.nil
    | [p] => exact List.pairwise_singleton _ p
    | p :: q :: rest => simp at h
  stable _ := rfl

theorem Parameter.isArrangement_fullSort {ps : List Parameter}
    (hfits : ∀ p ∈ ps, p.value.Fits settings.maxDepth 0) :
    IsArrangement settings ps (Parameter.fullSort settings ps) := by
  have hperm : (Parameter.fullSort settings ps).Perm ps := Parameter.fullSort_perm ps
  have hsorted : ∀ p ∈ Parameter.fullSort settings ps, p.value.Fits settings.maxDepth 0 :=
    fun p hp => hfits p (hperm.mem_iff.mp hp)
  refine ⟨hperm, ?ascending, fun p => ?stable⟩
  case ascending =>
    refine (Parameter.fullSort_pairwise ps).imp_of_mem fun {p q} hp hq hle => ?_
    rw [Parameter.holds_greater (hsorted p hp) (hsorted q hq), hle]
    rfl
  case stable =>
    by_cases hp : p.value.Fits settings.maxDepth 0
    · rw [Parameter.filter_foundEqual hp hsorted, Parameter.filter_foundEqual hp hfits]
      exact Parameter.fullSort_ties settings ps (p.fullKey settings)
    · -- what is nested too deep is found equal to nothing
      have hnone : p.foundEqual settings = fun _ => false := by
        refine funext fun q => Bool.eq_false_iff.mpr fun hequal => hp ?_
        exact (Parameter.equals_iff.mp (Parameter.foundEqual_iff.mp hequal)).1.1
      rw [hnone, List.filter_false, List.filter_false]

/-- **Sorting gives an arrangement.** A single parameter is not looked at, and is one. -/
theorem Parameter.isArrangement_of_sorted {given kept : List Parameter}
    (h : Parameter.sorted settings given = .ok kept) : IsArrangement settings given kept := by
  obtain ⟨hsingle | hfits, rfl⟩ := (Parameter.sorted_spec settings given).of_eq_ok h
  · have hkept : Parameter.fullSort settings given = given := by
      match given with
      | [] => exact List.mergeSort_nil
      | [p] => exact List.mergeSort_singleton p
      | p :: q :: rest => simp at hsingle
    rw [hkept]
    exact IsArrangement.refl_of_length_le_one hsingle
  · exact Parameter.isArrangement_fullSort hfits

/-! ## §2 What is seen of sorted parameters -/

/-- What is seen of an annotation whose parameters are in order. -/
structure Annot.IsCanonical (settings : Settings) (a : Annot) : Prop where
  names : a.parameterNames.Pairwise fun m n => codePointOrder m n ≠ .gt
  found : ∀ name, (a.parameter? name).isSome = true ↔ name ∈ a.parameterNames
  /-- Looking up a name finds a least one of the parameters of that name. -/
  least : ∀ name p, a.parameter? name = some p → p ∈ a.known ∧ p.name = name ∧
    ∀ q ∈ a.known, q.name = name →
      q = p ∨ (Raw.parameter p).holds settings .lessOrEqual (.parameter q) = .ok true
  checked : Check.parametersSorted.run settings a = .ok (.sorted a.known.length)

/-- Names are compared first. -/
theorem Parameter.names_of_mayPrecede {p q : Parameter} (h : p.mayPrecede settings q = true) :
    codePointOrder p.name q.name ≠ .gt := by
  intro hgt
  rw [← compare_eq_codePointOrder] at hgt
  have hkeys : (p.fullKey settings).compare (q.fullKey settings) = .gt := by
    show (Ord.compare p.name q.name).then _ = .gt
    rw [hgt]
    rfl
  rw [Parameter.mayPrecede, hkeys] at h
  cases h

theorem Annot.parameter?_isSome {a : Annot} {name : Str} :
    (a.parameter? name).isSome = true ↔ name ∈ a.parameterNames := by
  simp [Annot.parameter?, Annot.parameterNames]

/-- The first parameter of a name is before all others of that name. -/
theorem Annot.eq_or_rel_of_parameter? {a : Annot} {R : Parameter → Parameter → Prop}
    (h : a.known.Pairwise R) {name : Str} {p : Parameter} (hp : a.parameter? name = some p) :
    p ∈ a.known ∧ p.name = name ∧ ∀ q ∈ a.known, q.name = name → q = p ∨ R p q := by
  obtain ⟨hname, before, after, hknown, hbefore⟩ := List.find?_eq_some_iff_append.mp hp
  refine ⟨by simp [hknown], eq_of_beq hname, fun q hq hqname => ?_⟩
  rw [hknown] at h hq
  rcases List.mem_append.mp hq with hq | hq
  · -- nothing of that name comes earlier
    simpa [hqname] using hbefore q hq
  · have hafter := (List.pairwise_append.mp h).2.1
    rcases List.mem_cons.mp hq with rfl | hq
    · exact .inl rfl
    · exact .inr ((List.pairwise_cons.mp hafter).1 q hq)

theorem Annot.isCanonical_of_length_le_one {a : Annot} (h : a.known.length ≤ 1) :
    a.IsCanonical settings := by
  obtain ⟨name, parameters⟩ := a
  have hrel : ∀ R : Parameter → Parameter → Prop, (Annot.known ⟨name, parameters⟩).Pairwise R := by
    intro R
    match hknown : Annot.known ⟨name, parameters⟩ with
    | [] => exact List.Pairwise.nil
    | [p] => exact List.pairwise_singleton R p
    | p :: q :: rest => simp [hknown] at h
  refine ⟨List.pairwise_map.mpr (hrel _), fun _ => Annot.parameter?_isSome,
    fun n p hp => Annot.eq_or_rel_of_parameter? (hrel fun p q =>
      (Raw.parameter p).holds settings .lessOrEqual (.parameter q) = .ok true) hp, ?checked⟩
  case checked =>
    rw [Check.run]
    match hknown : Annot.known ⟨name, parameters⟩ with
    | [] => rfl
    | [p] => rfl
    | p :: q :: rest => simp [hknown] at h

/-- **What is seen of sorted parameters**: names in order, the least parameter of each name, and a
check that passes. -/
theorem Annot.isCanonical_of_sorted {a : Annot}
    (h : Parameter.sorted settings a.known = .ok a.known) : a.IsCanonical settings := by
  obtain ⟨hsingle | hfits, -⟩ := (Parameter.sorted_spec settings a.known).of_eq_ok h
  · exact Annot.isCanonical_of_length_le_one hsingle
  · have hsorted := Parameter.pairwise_of_sorted h
    refine ⟨?names, fun _ => Annot.parameter?_isSome, ?least,
      Check.run_parametersSorted_of_pairwise hfits hsorted⟩
    case names =>
      exact List.pairwise_map.mpr (hsorted.imp fun hle => Parameter.names_of_mayPrecede hle)
    case least =>
      intro name p hp
      obtain ⟨hmem, hname, hleast⟩ := Annot.eq_or_rel_of_parameter? hsorted hp
      refine ⟨hmem, hname, fun q hq hqname => (hleast q hq hqname).imp_right fun hle => ?_⟩
      rw [Parameter.holds_lessOrEqual (hfits p hmem) (hfits q hq), hle]

/-! ## §3 Ways to an annotation -/

/-- An annotation keeps an arrangement of the parameters it was given, or knows of none if nothing
was known of them. -/
inductive Annot.Keeps (settings : Settings) : Option (List Parameter) → Annot → Prop where
  | unknown (name : Str) : Annot.Keeps settings none ⟨name, none⟩
  | arranged (name : Str) {given kept : List Parameter}
      (arrangement : IsArrangement settings given kept) :
      Annot.Keeps settings (some given) ⟨name, some kept⟩

/-- The annotations that are built of raw values, loaded from stored forms at any level, or merged
with defaults. -/
inductive Annot.Obtained (settings : Settings) : Annot → Prop where
  | built {name parameters : Raw} {a : Annot}
      (result : Annot.ofRaw settings name parameters = .ok a) : Annot.Obtained settings a
  | loaded {depth : ℤ} {stored : Json} {a : Annot}
      (result : Annot.load settings depth stored = .ok a) : Annot.Obtained settings a
  | merged {a b : Annot} {defaults : Raw} (obtained : Annot.Obtained settings a)
      (result : a.withRawDefaults settings defaults = .ok b) : Annot.Obtained settings b

theorem Annot.Sorts.keeps {given : Option (List Parameter)} {a : Annot}
    (h : a.Sorts settings given) : a.Keeps settings given := by
  cases h with
  | unknown name => exact .unknown name
  | sorted name result => exact .arranged name (Parameter.isArrangement_of_sorted result)

/-- **Merging** sorts the overlaid parameters, or leaves the annotation as it is. -/
theorem Annot.withRawDefaults_sorts {a b : Annot} {raw : Raw}
    (h : a.withRawDefaults settings raw = .ok b) :
    ∃ defaults, Parameter.listOfRaw settings raw = .ok defaults ∧
      (defaults.getD [] = [] → b = a) ∧
      (defaults.getD [] ≠ [] → b.Sorts settings (some (a.overlay (defaults.getD [])))) := by
  obtain ⟨defaults, hlist, hmerged⟩ := Annot.withRawDefaults_eq_ok h
  refine ⟨defaults, hlist, fun hempty => ?_, fun hne => ?_⟩
  · rw [hempty] at hmerged
    cases hmerged
    rfl
  · rw [Annot.withDefaults, List.isEmpty_eq_false_iff.mpr hne] at hmerged
    exact Annot.sorts_of_ofParameters hmerged

/-- **Sorted parameters are an invariant** of all ways to an annotation. -/
theorem Annot.Obtained.sorted {a : Annot} (h : a.Obtained settings) :
    Parameter.sorted settings a.known = .ok a.known := by
  induction h with
  | built result =>
    obtain ⟨_, -, hsorts⟩ := Annot.ofRaw_sorts result
    exact hsorts.known_sorted
  | loaded result =>
    obtain ⟨_, _, -, -, hsorts⟩ := Annot.load_sorts result
    exact hsorts.known_sorted
  | merged _ result ih =>
    obtain ⟨defaults, -, hsame, hsorts⟩ := Annot.withRawDefaults_sorts result
    by_cases hempty : defaults.getD [] = []
    · rw [hsame hempty]
      exact ih
    · exact (hsorts hempty).known_sorted

/-! ## §4 The check and the sort -/

/-- Sorting changes nothing exactly if nothing is out of place. -/
theorem Parameter.fullSort_eq_self_iff {ps : List Parameter} :
    Parameter.fullSort settings ps = ps ↔
      ps.Pairwise fun p q => p.mayPrecede settings q = true := by
  constructor
  · intro hsorted
    rw [← hsorted]
    exact Parameter.fullSort_pairwise ps
  · exact List.mergeSort_of_pairwise

/-- **The check agrees with the sort**: it passes exactly where building again changes nothing, and
otherwise reports the first descent. -/
theorem Check.run_parametersSorted_iff_builtOf {name : Str} {ps : List Parameter}
    (hfits : ∀ p ∈ ps, ¬p.TooDeeplyNested settings) :
    ∃ verdict, Check.parametersSorted.run settings ⟨name, some ps⟩ = .ok verdict ∧
      (verdict.passed = true ↔ builtOf settings name ps = .ok ⟨name, some ps⟩) ∧
      (verdict.passed = false → ∃ i p q, verdict = .outOfOrder name i p.name q.name ∧
        IsFirstDescent settings ps i p q) := by
  have hfits : ∀ p ∈ ps, p.value.Fits settings.maxDepth 0 := by
    simpa only [Parameter.tooDeeplyNested_iff, not_not] using hfits
  have hbuilt : builtOf settings name ps = .ok ⟨name, some ps⟩ ↔
      ps.Pairwise fun p q => p.mayPrecede settings q = true := by
    rw [builtOf_ok (.inr hfits), ← Parameter.fullSort_eq_self_iff]
    simp
  rw [hbuilt]
  rcases Check.run_parametersSorted_cases (a := ⟨name, some ps⟩) hfits with
    ⟨hrun, hsorted⟩ | ⟨i, p, q, hrun, hdescent⟩
  · exact ⟨_, hrun, iff_of_true rfl hsorted, nofun⟩
  · exact ⟨_, hrun, iff_of_false nofun (hdescent.not_pairwise hfits),
      fun _ => ⟨i, p, q, rfl, hdescent⟩⟩

/-! ## §5 Every way to an annotation -/

/-- **Parameters are canonical however an annotation was obtained.** What is built or loaded keeps
a stable ascending arrangement of what was given, and knows of no parameters exactly if nothing was
given; a merge with defaults keeps one of the overlaid parameters. So names are in order, a lookup
finds a least parameter, and the check of order passes. On parameters that fit and come in any
order the check passes exactly where building changes nothing, and otherwise reports the first
descent. -/
theorem parameters_are_canonical (settings : Settings) :
    (∀ name raw a, Annot.ofRaw settings name raw = .ok a →
      ∃ given, Parameter.listOfRaw settings raw = .ok given ∧ (given = none ↔ raw = .null) ∧
        a.Keeps settings given) ∧
    (∀ depth stored a, Annot.load settings depth stored = .ok a →
      ∃ entries given, stored = .object entries ∧
        Parameter.loadField settings depth (fieldOrNull "parameters" entries) = .ok given ∧
        (given = none ↔ fieldOrNull "parameters" entries = .null) ∧ a.Keeps settings given) ∧
    (∀ a raw b, Annot.withRawDefaults settings a raw = .ok b →
      ∃ defaults, Parameter.listOfRaw settings raw = .ok defaults ∧
        (defaults.getD [] = [] → b = a) ∧
        (defaults.getD [] ≠ [] → b.Keeps settings (some (a.overlay (defaults.getD []))))) ∧
    (∀ a, Annot.Obtained settings a → a.IsCanonical settings) ∧
    ∀ name ps, (∀ p ∈ ps, ¬Parameter.TooDeeplyNested settings p) →
      ∃ verdict, Check.parametersSorted.run settings ⟨name, some ps⟩ = .ok verdict ∧
        (verdict.passed = true ↔ builtOf settings name ps = .ok ⟨name, some ps⟩) ∧
        (verdict.passed = false → ∃ i p q, verdict = .outOfOrder name i p.name q.name ∧
          IsFirstDescent settings ps i p q) := by
  refine ⟨?built, ?loaded, ?merged, fun a h => Annot.isCanonical_of_sorted h.sorted,
    fun name ps hfits => Check.run_parametersSorted_iff_builtOf hfits⟩
  case built =>
    intro name raw a h
    obtain ⟨given, hlist, hsorts⟩ := Annot.ofRaw_sorts h
    exact ⟨given, hlist, Parameter.listOfRaw_eq_none_iff hlist, hsorts.keeps⟩
  case loaded =>
    intro depth stored a h
    obtain ⟨entries, given, hstored, hload, hsorts⟩ := Annot.load_sorts h
    exact ⟨entries, given, hstored, hload, Parameter.loadField_eq_none_iff hload, hsorts.keeps⟩
  case merged =>
    intro a raw b h
    obtain ⟨defaults, hlist, hsame, hsorts⟩ := Annot.withRawDefaults_sorts h
    exact ⟨defaults, hlist, hsame, fun hne => (hsorts hne).keeps⟩

/-- A case of it: two parameters in the wrong order are put in order by building, and reported where
they were not built. -/
theorem swapped_parameters_are_put_in_order :
    builtOf {} "A" [⟨"b", .absent⟩, ⟨"a", .absent⟩] =
        .ok ⟨"A", some [⟨"a", .absent⟩, ⟨"b", .absent⟩]⟩ ∧
      Annot.IsCanonical {} ⟨"A", some [⟨"a", .absent⟩, ⟨"b", .absent⟩]⟩ ∧
      Check.parametersSorted.run {} ⟨"A", some [⟨"b", .absent⟩, ⟨"a", .absent⟩]⟩ =
        .ok (.outOfOrder "A" 0 "b" "a") ∧
      ∃ p q, IsFirstDescent {} [⟨"b", .absent⟩, ⟨"a", .absent⟩] 0 p q := by
  obtain ⟨-, -, -, hcanonical, hcheck⟩ := parameters_are_canonical {}
  have hbuilt : builtOf {} "A" [⟨"b", .absent⟩, ⟨"a", .absent⟩] =
      .ok ⟨"A", some [⟨"a", .absent⟩, ⟨"b", .absent⟩]⟩ := by
    rw [builtOf_ok (.inr (by decide)), Parameter.fullSort_pair, if_neg (by decide)]
  refine ⟨hbuilt, hcanonical _ (.built hbuilt), rfl, ?descent⟩
  case descent =>
    obtain ⟨verdict, hrun, -, hfailed⟩ := hcheck "A" [⟨"b", .absent⟩, ⟨"a", .absent⟩] (by
      simp only [Parameter.tooDeeplyNested_iff, not_not]
      decide)
    cases hrun
    obtain ⟨i, p, q, hverdict, hdescent⟩ := hfailed rfl
    obtain ⟨-, rfl, -, -⟩ := Verdict.outOfOrder.inj hverdict
    exact ⟨p, q, hdescent⟩

end AnnoTree
