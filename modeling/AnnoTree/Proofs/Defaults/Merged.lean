import AnnoTree.Proofs.Equality.Keys
import AnnoTree.Proofs.Loading.Leaves
import AnnoTree.Proofs.Order.Canonical

/-!
# What a merge gives

A merge with defaults fills a table: no name of the annotation or of the defaults is lost, none is
added, and none comes twice. What was written stays, and only names that were not written take their
values from the defaults. So a merged annotation passes the check of order and the check of names,
whatever the two lists were, and defaults of different names may be listed in any order.

## Main definitions

- `Annot.FillsIn`: what an annotation has to be to come of another one and of defaults.

## Main statements

- `Parameter.exists_append_of_lastValue?`: the last value of a name, with what stands around it.
- `Check.run_namesUnique_iff`: the check of names passes exactly on distinct names.
- `merge_fills_in_names`: what a merge gives.
-/

namespace AnnoTree

variable {settings : Settings}

/-! ## §1 Last values -/

/-- The last value of a name is that of a parameter that has none of its name behind it. -/
theorem Parameter.exists_append_of_lastValue? {ps : List Parameter} {name : Str} {value : Value}
    (h : Parameter.lastValue? ps name = some value) :
    ∃ before after, ps = before ++ ⟨name, value⟩ :: after ∧ name ∉ after.map Parameter.name := by
  induction ps with
  | nil => cases h
  | cons p rest ih =>
    rw [Parameter.lastValue?_cons] at h
    by_cases hlater : name ∈ rest.map Parameter.name
    · obtain ⟨last, hlast⟩ := Parameter.exists_lastValue? hlater
      rw [hlast, Option.some_or] at h
      obtain ⟨before, after, rfl, hafter⟩ := ih (hlast.trans h)
      exact ⟨p :: before, after, rfl, hafter⟩
    · rw [Parameter.lastValue?_eq_none hlater, Option.none_or] at h
      split at h
      · next hname =>
        cases h
        subst hname
        exact ⟨[], rest, by cases p; rfl, hlater⟩
      · cases h

/-- Only the parameters of a name have a say in its last value. -/
theorem Parameter.lastValue?_filter (ps : List Parameter) (name : Str) :
    Parameter.lastValue? (ps.filter fun p => p.name = name) name =
      Parameter.lastValue? ps name := by
  induction ps with
  | nil => rfl
  | cons p rest ih =>
    by_cases hname : p.name = name
    · rw [List.filter_cons_of_pos (by simpa using hname), Parameter.lastValue?_cons,
        Parameter.lastValue?_cons, ih]
    · rw [List.filter_cons_of_neg (by simpa using hname), Parameter.lastValue?_cons, ih,
        if_neg hname, Option.or_none]

/-- Each name keeps its place in the table exactly if it has a last value. -/
theorem Parameter.mem_names_latest {ps : List Parameter} {name : Str} :
    name ∈ (Parameter.latest ps).map Parameter.name ↔ name ∈ ps.map Parameter.name := by
  rw [Parameter.mem_names_iff, Parameter.get?_latest]
  refine ⟨?_, Parameter.exists_lastValue?⟩
  rintro ⟨value, hvalue⟩
  by_contra hname
  rw [Parameter.lastValue?_eq_none hname] at hvalue
  cases hvalue

/-! ## §2 Names -/

/-- No name comes more than once exactly if the names are distinct. -/
theorem repeatedNames_eq_nil {names : List Str} : repeatedNames names = [] ↔ names.Nodup := by
  rw [repeatedNames, Text.sortedSet_eq_nil, List.filter_eq_nil_iff, List.nodup_iff_count_le_one]
  simp only [decide_eq_true_eq, not_lt]
  constructor
  · intro h name
    by_cases hname : name ∈ names
    · exact h name hname
    · rw [List.count_eq_zero_of_not_mem hname]
      exact Nat.zero_le 1
  · exact fun h name _ => h name

/-- **The check of names** passes exactly on distinct names. -/
theorem Check.run_namesUnique_iff {a : Annot} :
    Check.namesUnique.run settings a = .ok .unique ↔ a.parameterNames.Nodup := by
  rw [← repeatedNames_eq_nil, Check.run]
  cases repeatedNames a.parameterNames with
  | nil => simp
  | cons name more => simp

/-- Distinct names in order are strictly in order. -/
theorem pairwise_lt_of_nodup {names : List Str} (hnodup : names.Nodup)
    (hsorted : names.Pairwise fun m n => codePointOrder m n ≠ .gt) :
    names.Pairwise fun m n => codePointOrder m n = .lt := by
  refine hsorted.imp₂ (fun m n hle hne => ?_) hnodup
  cases horder : codePointOrder m n with
  | lt => rfl
  | eq =>
    rw [← compare_eq_codePointOrder] at horder
    exact absurd (Std.LawfulEqCmp.eq_of_compare horder) hne
  | gt => exact absurd horder hle

/-! ## §3 What a merge gives -/

/-- What an annotation has to be to come of another one and of defaults. -/
structure Annot.FillsIn (settings : Settings) (written : Annot) (defaults : List Parameter)
    (merged : Annot) : Prop where
  name : merged.name = written.name
  known : merged.parameters = some merged.known
  ascending : merged.parameterNames.Pairwise fun m n => codePointOrder m n = .lt
  names : ∀ n, n ∈ merged.parameterNames ↔
    n ∈ written.parameterNames ∨ n ∈ defaults.map Parameter.name
  /-- A name that was written keeps a value that was written for it. -/
  kept : ∀ n ∈ written.parameterNames, ∃ value, ⟨n, value⟩ ∈ written.known ∧
    merged.parameter? n = some ⟨n, value⟩
  /-- Another name has the value that comes last among the defaults. -/
  supplied : ∀ n ∈ defaults.map Parameter.name, n ∉ written.parameterNames →
    ∃ before value after, defaults = before ++ ⟨n, value⟩ :: after ∧
      n ∉ after.map Parameter.name ∧ merged.parameter? n = some ⟨n, value⟩
  inOrder : Check.parametersSorted.run settings merged = .ok (.sorted merged.known.length)
  unique : Check.namesUnique.run settings merged = .ok .unique

theorem Annot.withDefaults_fillsIn {a b : Annot} {defaults : List Parameter} (hne : defaults ≠ [])
    (h : a.withDefaults settings defaults = .ok b) : a.FillsIn settings defaults b := by
  obtain ⟨-, hb⟩ := (Annot.withDefaults_spec settings a hne).of_eq_ok h
  have hlookup := Annot.parameter?_withDefaults hne h
  -- sorting rearranges the table, and in the table no name comes twice
  have hperm : b.parameterNames.Perm
      ((Parameter.latest (defaults ++ a.known)).map Parameter.name) := by
    rw [hb]
    exact (Parameter.fullSort_perm _).map _
  have hnodup : b.parameterNames.Nodup := hperm.nodup_iff.mpr (Parameter.nodup_latest _)
  -- what was sorted is canonical, which settles the order and its check
  have hsorts : b.Sorts settings (some (a.overlay defaults)) := by
    rw [Annot.withDefaults, List.isEmpty_eq_false_iff.mpr hne] at h
    exact Annot.sorts_of_ofParameters h
  have hcanonical := Annot.isCanonical_of_sorted hsorts.known_sorted
  refine ⟨?name, ?known, pairwise_lt_of_nodup hnodup hcanonical.names, ?names, ?kept, ?supplied,
    hcanonical.checked, Check.run_namesUnique_iff.mpr hnodup⟩
  case name => rw [hb]
  case known =>
    rw [hb]
    rfl
  case names =>
    intro n
    rw [hperm.mem_iff, Parameter.mem_names_latest, List.map_append, List.mem_append, or_comm]
    rfl
  case kept =>
    intro n hn
    obtain ⟨value, hvalue⟩ := Parameter.exists_lastValue? hn
    obtain ⟨before, after, hknown, -⟩ := Parameter.exists_append_of_lastValue? hvalue
    refine ⟨value, by simp [hknown], ?_⟩
    rw [hlookup, hvalue]
    rfl
  case supplied =>
    intro n hn hnot
    obtain ⟨value, hvalue⟩ := Parameter.exists_lastValue? hn
    obtain ⟨before, after, hdefaults, hafter⟩ := Parameter.exists_append_of_lastValue? hvalue
    refine ⟨before, value, after, hdefaults, hafter, ?_⟩
    rw [hlookup, Parameter.lastValue?_eq_none hnot, hvalue]
    rfl

/-- **Defaults of different names may be listed in any order**: it is enough that those of each name
stay in theirs. -/
theorem Annot.withDefaults_of_filter (a : Annot) {defaults others : List Parameter}
    (h : ∀ name, others.filter (fun p => p.name = name) = defaults.filter fun p => p.name = name) :
    a.withDefaults settings others = a.withDefaults settings defaults := by
  have hmem : ∀ p, p ∈ others ↔ p ∈ defaults := by
    intro p
    have hfilter := congrArg (p ∈ ·) (h p.name)
    simpa only [List.mem_filter, decide_true, and_true] using iff_of_eq hfilter
  by_cases hne : defaults = []
  · have hothers : others = [] := List.eq_nil_iff_forall_not_mem.mpr fun p hp => by
      simpa [hne] using (hmem p).mp hp
    rw [hne, hothers]
  · have hothers : others ≠ [] := by
      rintro rfl
      exact hne (List.eq_nil_iff_forall_not_mem.mpr fun p hp => by simpa using (hmem p).mpr hp)
    -- a table is known by the last values, and those by the parameters of each name
    rw [Annot.withDefaults_of_ne_nil a hothers, Annot.withDefaults_of_ne_nil a hne]
    apply Annot.ofParameters_of_perm a.name ?_ (Parameter.nodup_latest _)
    apply Parameter.latest_perm
    intro name
    rw [Parameter.lastValue?_append, Parameter.lastValue?_append,
      ← Parameter.lastValue?_filter others, h name, Parameter.lastValue?_filter]

/-- **What a merge gives**: without any default the annotation itself, and else an annotation of the
same name. Its names are strictly in order and those of both lists; a name that was written keeps a
value that was written for it, and another one has the last of its defaults. It passes the check of
order and the check of names. Defaults in which those of each name stay in their order give the same
annotation, and so the same stored form. -/
theorem merge_fills_in_names (settings : Settings) (a : Annot) :
    a.withLayer settings [] = .ok a ∧
      ∀ defaults b, defaults ≠ [] → a.withLayer settings defaults = .ok b →
        a.FillsIn settings defaults b ∧
        ∀ others : List Parameter,
          (∀ name, others.filter (fun p => p.name = name) =
            defaults.filter fun p => p.name = name) →
          a.withLayer settings others = .ok b := by
  refine ⟨rfl, fun defaults b hne h => ?_⟩
  rw [Annot.withLayer_eq, liftWalk_eq_ok] at h
  refine ⟨Annot.withDefaults_fillsIn hne h, fun others hothers => ?_⟩
  rw [Annot.withLayer_eq, Annot.withDefaults_of_filter a hothers, h]
  rfl

/-- A case of it: an annotation in which a name comes twice, and defaults in which another one
does. -/
theorem doubled_names_are_filled_in :
    [Parameter.mk "y" (.string "c"), ⟨"y", .string "d"⟩] ≠ [] ∧
      Annot.withLayer {} ⟨"A", some [⟨"x", .string "a"⟩, ⟨"x", .string "b"⟩]⟩
          [⟨"y", .string "c"⟩, ⟨"y", .string "d"⟩] =
        .ok ⟨"A", some [⟨"x", .string "b"⟩, ⟨"y", .string "d"⟩]⟩ ∧
      Annot.FillsIn {} ⟨"A", some [⟨"x", .string "a"⟩, ⟨"x", .string "b"⟩]⟩
        [⟨"y", .string "c"⟩, ⟨"y", .string "d"⟩]
        ⟨"A", some [⟨"x", .string "b"⟩, ⟨"y", .string "d"⟩]⟩ := by
  have hmerged : Annot.withLayer {} ⟨"A", some [⟨"x", .string "a"⟩, ⟨"x", .string "b"⟩]⟩
      [⟨"y", .string "c"⟩, ⟨"y", .string "d"⟩] =
        .ok ⟨"A", some [⟨"x", .string "b"⟩, ⟨"y", .string "d"⟩]⟩ := by
    have hlatest : Parameter.latest ([⟨"y", .string "c"⟩, ⟨"y", .string "d"⟩] ++
        Annot.known ⟨"A", some [⟨"x", .string "a"⟩, ⟨"x", .string "b"⟩]⟩) =
          [⟨"y", .string "d"⟩, ⟨"x", .string "b"⟩] := rfl
    have hspec := Annot.withDefaults_spec {}
      ⟨"A", some [⟨"x", .string "a"⟩, ⟨"x", .string "b"⟩]⟩
      (List.cons_ne_nil (Parameter.mk "y" (.string "c")) [⟨"y", .string "d"⟩])
    rw [hlatest, Parameter.fullSort_pair, if_neg (by decide)] at hspec
    rw [Annot.withLayer_eq, hspec.ok (.inr (by decide))]
    rfl
  obtain ⟨-, hfills⟩ :=
    merge_fills_in_names {} ⟨"A", some [⟨"x", .string "a"⟩, ⟨"x", .string "b"⟩]⟩
  have hne := List.cons_ne_nil (Parameter.mk "y" (.string "c")) [⟨"y", .string "d"⟩]
  exact ⟨hne, hmerged, (hfills _ _ hne hmerged).1⟩

end AnnoTree
