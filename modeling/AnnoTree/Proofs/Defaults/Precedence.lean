import AnnoTree.Proofs.Defaults.Layers
import AnnoTree.Proofs.Loading.Sorting
import AnnoTree.Proofs.Order.Building
import AnnoTree.Value.Encoding

/-!
# Written values and defaults

A name that is written keeps a written value under defaults. Where it is written more than once,
looking it up finds the first of its values, but overlaying defaults keeps the last. So defaults,
even of other names, may change what is seen of a name that is written twice.

## Main statements

- `Annot.parameter?_eq`: looking up a parameter finds the first value of its name.
- `Annot.parameter?_withDefaults`: defaults leave the last value of a name.
- `merge_keeps_the_last_value`: what is seen of a written name after a merge.
-/

namespace AnnoTree

variable {settings : Settings}

/-! ## §1 Looking up a name -/

/-- Looking up a parameter finds the first value of its name. -/
theorem Annot.parameter?_eq (a : Annot) (name : Str) :
    a.parameter? name =
      (Entries.get? name (Parameter.entries a.known)).map fun v => ⟨name, v⟩ := by
  unfold Annot.parameter? Parameter.entries
  induction a.known with
  | nil => rfl
  | cons p rest ih =>
    obtain ⟨n, value⟩ := p
    by_cases h : n = name
    · subst h
      simp [Entries.get?]
    · have hne : (n == name) = false := beq_eq_false_iff_ne.mpr h
      simp only [List.map_cons, List.find?_cons, Entries.get?, hne, Bool.false_eq_true, if_false]
      exact ih

theorem Parameter.mem_names_iff {ps : List Parameter} {name : Str} :
    name ∈ ps.map Parameter.name ↔
      ∃ value, Entries.get? name (Parameter.entries ps) = some value := by
  rw [← Parameter.keys_entries, Entries.mem_keys_iff]

/-- A parameter in front counts only if none of its name comes later. -/
theorem Parameter.lastValue?_cons (p : Parameter) (rest : List Parameter) (name : Str) :
    Parameter.lastValue? (p :: rest) name =
      (Parameter.lastValue? rest name).or (if p.name = name then some p.value else none) := by
  have hsplit := Parameter.lastValue?_append [p] rest name
  have hsingle : Parameter.lastValue? [p] name = if p.name = name then some p.value else none := by
    by_cases h : p.name = name <;>
      simp [Parameter.lastValue?, Parameter.entries, Entries.get?, h]
  rw [← hsingle]
  exact hsplit

/-- A name that is there has a last value. -/
theorem Parameter.exists_lastValue? {ps : List Parameter} {name : Str}
    (h : name ∈ ps.map Parameter.name) : ∃ value, Parameter.lastValue? ps name = some value := by
  unfold Parameter.lastValue?
  rw [← Entries.mem_keys_iff, Entries.keys, List.map_reverse, List.mem_reverse]
  rw [← Parameter.keys_entries] at h
  exact h

/-- A name that is not there has none. -/
theorem Parameter.lastValue?_eq_none {ps : List Parameter} {name : Str}
    (h : name ∉ ps.map Parameter.name) : Parameter.lastValue? ps name = none := by
  rw [Parameter.lastValue?, Option.eq_none_iff_forall_ne_some]
  intro v hv
  apply h
  rw [← Parameter.keys_entries, ← List.mem_reverse, Entries.keys, ← List.map_reverse]
  exact Entries.mem_keys_iff.mpr ⟨v, hv⟩

/-- A name that is written once has one value, which is both its first and its last. -/
theorem Parameter.lastValue?_of_count {ps : List Parameter} {name : Str}
    (h : (ps.map Parameter.name).count name = 1) :
    Parameter.lastValue? ps name = Entries.get? name (Parameter.entries ps) := by
  induction ps with
  | nil => simp at h
  | cons p rest ih =>
    obtain ⟨n, value⟩ := p
    rw [Parameter.lastValue?_cons]
    by_cases hname : n = name
    · -- the name does not come again
      subst hname
      have hcount : (rest.map Parameter.name).count n = 0 := by
        simpa using h
      rw [Parameter.lastValue?_eq_none (List.count_eq_zero.mp hcount), Option.none_or]
      simp [Parameter.entries, Entries.get?]
    · have hcount : (rest.map Parameter.name).count name = 1 := by
        simpa [hname] using h
      rw [ih hcount]
      simp [Parameter.entries, Entries.get?, hname]

/-! ## §2 Looking up after a merge -/

/-- Defaults leave the last value of a name, and written values come after all defaults. -/
theorem Annot.parameter?_withDefaults {a b : Annot} {defaults : List Parameter}
    (hne : defaults ≠ []) (h : a.withDefaults settings defaults = .ok b) (name : Str) :
    b.parameter? name = ((Parameter.lastValue? a.known name).or
      (Parameter.lastValue? defaults name)).map fun v => ⟨name, v⟩ := by
  obtain ⟨-, rfl⟩ := (Annot.withDefaults_spec settings a hne).of_eq_ok h
  have hperm : (Parameter.latest (defaults ++ a.known)).Perm
      (Parameter.fullSort settings (Parameter.latest (defaults ++ a.known))) :=
    (Parameter.fullSort_perm _).symm
  have hnames := Parameter.nodup_latest (defaults ++ a.known)
  rw [← Parameter.keys_entries] at hnames
  have hentries : (Parameter.entries (Parameter.latest (defaults ++ a.known))).Perm
      (Parameter.entries (Parameter.fullSort settings (Parameter.latest (defaults ++ a.known)))) :=
    hperm.map _
  -- the names are distinct, so sorting does not change what is found
  have hfound := Entries.get?_perm_of_nodup hentries hnames name
  rw [Annot.parameter?_eq, ← Parameter.lastValue?_append, ← Parameter.get?_latest]
  exact congrArg (Option.map fun v => (⟨name, v⟩ : Parameter)) hfound.symm

theorem Annot.withRawDefaults_eq_ok {a b : Annot} {raw : Raw}
    (h : a.withRawDefaults settings raw = .ok b) :
    ∃ defaults, Parameter.listOfRaw settings raw = .ok defaults ∧
      a.withDefaults settings (defaults.getD []) = .ok b := by
  obtain ⟨defaults, hlist, h⟩ := bind_eq_ok.mp h
  exact ⟨defaults, hlist, liftWalk_eq_ok.mp h⟩

/-- **After a merge a written name has the last of its written values**, or still the first if
there are no defaults at all. So what is seen of the name does not change exactly if there are no
defaults or its first and last values are the same; a name that is written once is safe. -/
theorem merge_keeps_the_last_value {a b : Annot} {raw : Raw} {name : Str}
    (hmerged : a.withRawDefaults settings raw = .ok b) (hwritten : name ∈ a.parameterNames) :
    ∃ defaults first last, Parameter.listOfRaw settings raw = .ok defaults ∧
      a.parameter? name = some ⟨name, first⟩ ∧ Parameter.lastValue? a.known name = some last ∧
      b.parameter? name = some ⟨name, if (defaults.getD []).isEmpty then first else last⟩ ∧
      (b.parameter? name = a.parameter? name ↔ defaults.getD [] = [] ∨ first = last) ∧
      (a.parameterNames.count name = 1 → first = last) := by
  obtain ⟨defaults, hlist, hdefaults⟩ := Annot.withRawDefaults_eq_ok hmerged
  obtain ⟨first, hfirst⟩ := Parameter.mem_names_iff.mp hwritten
  obtain ⟨last, hlast⟩ := Parameter.exists_lastValue? hwritten
  have hbefore : a.parameter? name = some ⟨name, first⟩ := by
    rw [Annot.parameter?_eq, hfirst]
    rfl
  have hafter : b.parameter? name =
      some ⟨name, if (defaults.getD []).isEmpty then first else last⟩ := by
    by_cases hempty : defaults.getD [] = []
    · rw [hempty] at hdefaults
      cases hdefaults
      rw [hbefore, hempty]
      rfl
    · rw [Annot.parameter?_withDefaults hempty hdefaults, hlast,
        List.isEmpty_eq_false_iff.mpr hempty]
      rfl
  refine ⟨defaults, first, last, hlist, hbefore, hlast, hafter, ?_, ?_⟩
  · rw [hafter, hbefore, Option.some.injEq, Parameter.mk.injEq]
    by_cases hempty : defaults.getD [] = []
    · simp [hempty]
    · simp only [List.isEmpty_eq_false_iff.mpr hempty, hempty, false_or, true_and]
      exact ⟨Eq.symm, Eq.symm⟩
  · intro honce
    have hsame := Parameter.lastValue?_of_count honce
    rw [hlast, hfirst] at hsame
    exact (Option.some.inj hsame).symm

/-- A case of it: two values of one name, under a default. -/
theorem merge_shows_the_other_value :
    Annot.withRawDefaults {} ⟨"A", some [⟨"x", .string "a"⟩, ⟨"x", .string "b"⟩]⟩
        (.list [.parameter ⟨"x", .string "c"⟩]) = .ok ⟨"A", some [⟨"x", .string "b"⟩]⟩ ∧
      ("x" : Str) ∈ Annot.parameterNames ⟨"A", some [⟨"x", .string "a"⟩, ⟨"x", .string "b"⟩]⟩ ∧
      (Annot.parameter? ⟨"A", some [⟨"x", .string "b"⟩]⟩ "x" ≠
        Annot.parameter? ⟨"A", some [⟨"x", .string "a"⟩, ⟨"x", .string "b"⟩]⟩ "x") := by
  have hmerged : Annot.withRawDefaults {}
      ⟨"A", some [⟨"x", .string "a"⟩, ⟨"x", .string "b"⟩]⟩
      (.list [.parameter ⟨"x", .string "c"⟩]) = .ok ⟨"A", some [⟨"x", .string "b"⟩]⟩ := rfl
  have hwritten : ("x" : Str) ∈ Annot.parameterNames
      ⟨"A", some [⟨"x", .string "a"⟩, ⟨"x", .string "b"⟩]⟩ := by
    decide
  refine ⟨hmerged, hwritten, ?_⟩
  obtain ⟨defaults, first, last, hlist, hfirst, hlast, -, hsame, -⟩ :=
    merge_keeps_the_last_value hmerged hwritten
  cases hlist
  cases hfirst
  cases hlast
  intro hequal
  -- there is a default, so the two values of the name would be the same
  rcases hsame.mp hequal with h | h
  · cases h
  · simp at h

/-- It is not so that a merge never changes what is seen of a written name: if it is written twice,
its other value is seen. -/
theorem merge_changes_what_is_seen :
    ¬∀ (settings : Settings) (name parameters defaults : Raw) (a b : Annot) (n : Str),
      Annot.ofRaw settings name parameters = .ok a →
      a.withRawDefaults settings defaults = .ok b → n ∈ a.parameterNames →
      ∃ p q, a.parameter? n = some p ∧ b.parameter? n = some q ∧
        q.value.equal settings p.value = .ok true := by
  intro halways
  have hbuilt : builtOf {} "A" [⟨"x", .string "a"⟩, ⟨"x", .string "b"⟩] =
      .ok ⟨"A", some [⟨"x", .string "a"⟩, ⟨"x", .string "b"⟩]⟩ := by
    rw [builtOf_ok (.inr (by decide)), Parameter.fullSort_pair, if_pos (by decide)]
  obtain ⟨p, q, hp, hq, hequal⟩ := halways {} _ _ (.list [.parameter ⟨"x", .string "c"⟩]) _
    ⟨"A", some [⟨"x", .string "b"⟩]⟩ "x" hbuilt rfl (by decide)
  cases hp
  cases hq
  cases hequal

end AnnoTree
