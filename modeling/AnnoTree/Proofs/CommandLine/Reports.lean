import AnnoTree.Proofs.Entries
import AnnoTree.Proofs.Identifier.Canonical
import AnnoTree.Proofs.Loading.RoundTrip
import AnnoTree.Proofs.Nesting.Bound
import AnnoTree.Proofs.Order.Comparators
import AnnoTree.Proofs.Order.Descents
import AnnoTree.Proofs.Rendering.WellFormed
import AnnoTree.Proofs.Storage.Deliveries

/-!
# Lines about annotations

What the commands say of one annotation. An annotation that was loaded is within the limit and has
its parameters sorted, so none of the walks of the commands fails on it: it has a rendering, and of
the three checks only that of distinct names may find something. It has an identifier, and so a
report, if its stored form is well-formed; then the lines about it are well-formed as well.

## Main definitions

- `Annot.IsReportedBy`: a line that reports the checks of an annotation.
- `Annot.IsReportable`: an annotation that can be reported on.
- `Command.Tells`: a line that a command may write about an annotation.

## Main statements

- `Annot.IsSound.check`: the verdicts about an annotation that was loaded.
- `Annot.IsSound.checkLine`, `Annot.IsSound.checkLine_of_not`: its report, and what is read from it.
- `Annot.IsSound.line`: which commands fail on it.
-/

namespace AnnoTree

open AnnoTree.Text

variable {settings : Settings} {a : Annot}

/-! ## §1 Checks -/

theorem Annot.IsSound.known_pairwise (h : a.IsSound settings 0) :
    a.known.Pairwise fun p q => p.mayPrecede settings q = true := by
  have hregular := h.regular a (Annot.mem_annots.mpr (.inl rfl))
  exact Parameter.pairwise_of_sorted hregular.sorted

/-- Checks go on after a verdict that does not end the run. -/
theorem runChecks_cons {c : Check} {rest : List Check} {v : Verdict} {vs : List Verdict}
    (hrun : c.run settings a = .ok v) (hends : v.endsRun = false)
    (hrest : runChecks settings a rest = .ok vs) :
    runChecks settings a (c :: rest) = .ok (v :: vs) := by
  rw [runChecks, hrun]
  simp only [bind, Except.bind, hends, hrest]
  rfl

/-- The verdicts about an annotation that was loaded, where that of distinct names is as given. -/
def Annot.verdicts (settings : Settings) (a : Annot) (names : Verdict) : List Verdict :=
  [.withinBound (a.reach settings.maxDepth 0) settings.maxDepth, .sorted a.known.length, names]

theorem Annot.check_verdicts (a : Annot) {names : Verdict} (h : names.check = .namesUnique) :
    (a.verdicts settings names).map Verdict.check = Check.all := by
  rw [Annot.verdicts, List.map_cons, List.map_cons, List.map_singleton, h]
  rfl

/-- The texts that a verdict tells. -/
def Verdict.texts : Verdict → List Str
  | .withinBound _ _ => []
  | .beyondBound annot _ => [annot]
  | .sorted _ => []
  | .outOfOrder annot _ left right => [annot, left, right]
  | .unique => []
  | .duplicates annot names => annot :: names

/-- The check of distinct names tells the name of the annotation and of parameters. -/
theorem Check.exists_run_namesUnique (settings : Settings) (a : Annot) :
    ∃ names : Verdict, names.check = .namesUnique ∧ Check.namesUnique.run settings a = .ok names ∧
      ∀ s ∈ names.texts, s = a.name ∨ s ∈ a.parameterNames := by
  rw [Check.run]
  split
  next => exact ⟨_, rfl, rfl, List.forall_mem_nil _⟩
  next name more hrepeated =>
    refine ⟨_, rfl, rfl, List.forall_mem_cons.mpr ⟨.inl rfl, fun s hs => .inr ?_⟩⟩
    rw [← hrepeated, repeatedNames, mem_sortedSet] at hs
    exact (List.mem_filter.mp hs).1

theorem Annot.passed_verdicts (a : Annot) {names : Verdict} (h : names.check = .namesUnique) :
    ∀ v ∈ a.verdicts settings names, v.check ≠ .namesUnique → v.passed = true := by
  simp only [Annot.verdicts, List.forall_mem_cons]
  exact ⟨fun _ => rfl, fun _ => rfl, fun hother => absurd h hother, List.forall_mem_nil _⟩

/-- **The verdicts about an annotation that was loaded**: all three checks are run, and those of
depth and order pass. -/
theorem Annot.IsSound.check (h : a.IsSound settings 0) :
    ∃ names : Verdict, names.check = .namesUnique ∧
      (∀ s ∈ names.texts, s = a.name ∨ s ∈ a.parameterNames) ∧
      a.check settings none = .ok (a.verdicts settings names) := by
  have hbounded : Check.nestingBounded.run settings a =
      .ok (.withinBound (a.reach settings.maxDepth 0) settings.maxDepth) := by
    rw [Check.run_nestingBounded, if_pos h.fits]
  -- the check of order compares without failing, since the annotation is within the limit
  have hsorted : Check.parametersSorted.run settings a = .ok (.sorted a.known.length) :=
    Check.run_parametersSorted_of_pairwise (Annot.fits_iff.mp h.fits).2 h.known_pairwise
  obtain ⟨names, hcheck, hunique, htexts⟩ := Check.exists_run_namesUnique settings a
  -- only the verdict of a limit that was passed ends a run
  have hends : names.endsRun = false := by
    cases names with
    | beyondBound annot limit => cases hcheck
    | _ => rfl
  exact ⟨names, hcheck, htexts, runChecks_cons hbounded rfl (runChecks_cons hsorted rfl
    (runChecks_cons hunique hends rfl))⟩

/-! ## §2 Reports -/

/-- Sorting the keys of an object keeps what is under them, sorted in its turn. -/
theorem Json.get?_sortKeys {entries : List (Str × Json)} (h : (Entries.keys entries).Nodup) :
    ∃ sorted, (Json.object entries).sortKeys = .object sorted ∧
      ∀ key, Entries.get? key sorted = (Entries.get? key entries).map Json.sortKeys := by
  have hperm := List.mergeSort_perm (Json.sortedInside entries) fun a b =>
    (compare a.1 b.1).isLE
  have hnodup : (Entries.keys (Json.sortedInside entries)).Nodup := by
    rwa [Json.keys_sortedInside]
  refine ⟨_, Json.sortKeys_object entries, fun key => ?_⟩
  rw [← Entries.get?_perm_of_nodup hperm.symm hnodup]
  clear hperm hnodup h
  induction entries with
  | nil => rfl
  | cons e rest ih =>
    rw [Json.sortedInside, List.map_cons, ← Json.sortedInside, Entries.get?, Entries.get?, ih]
    split
    · rfl
    · rfl

theorem Json.hasTooLongList_eq_any (items : List Json) :
    Json.hasTooLongList items = items.any Json.hasTooLong := by
  induction items with
  | nil => rfl
  | cons j rest ih => rw [Json.hasTooLongList, ih, List.any_cons]

theorem Json.hasTooLongEntries_eq_any (entries : List (Str × Json)) :
    Json.hasTooLongEntries entries = entries.any fun e => e.2.hasTooLong := by
  induction entries with
  | nil => rfl
  | cons e rest ih => rw [Json.hasTooLongEntries, ih, List.any_cons]

theorem Json.hasTooLong_sortKeys (j : Json) : j.sortKeys.hasTooLong = j.hasTooLong := by
  rw [Bool.eq_iff_iff, ← not_iff_not, Bool.not_eq_true, Bool.not_eq_true]
  refine Json.sortKeys_iff (P := fun j => j.hasTooLong = false) (Q := fun _ => True)
    (fun items => ?_) (fun entries => ?_) j
  · rw [Json.hasTooLong, Json.hasTooLongList_eq_any, List.any_eq_false]
    simp only [Bool.not_eq_true]
  · rw [Json.hasTooLong, Json.hasTooLongEntries_eq_any, List.any_eq_false]
    simp only [Bool.not_eq_true, true_and]

theorem Json.IsReadable.hasTooLong_eq_false {j : Json} (h : j.IsReadable) :
    j.hasTooLong = false := by
  induction h with
  | int hshort => exact hshort
  | array _ ih =>
    rw [Json.hasTooLong, Json.hasTooLongList_eq_any, List.any_eq_false]
    simpa using ih
  | object _ _ ih =>
    rw [Json.hasTooLong, Json.hasTooLongEntries_eq_any, List.any_eq_false]
    simpa using ih
  | _ => rfl

/-- The integers that a verdict tells. -/
def Verdict.numbers : Verdict → List ℕ
  | .withinBound depth limit => [depth, limit]
  | .beyondBound _ limit => [limit]
  | .sorted count => [count]
  | .outOfOrder _ index _ _ => [index]
  | .unique => []
  | .duplicates _ _ => []

/-- The integers that a verdict tells can be written. -/
def Verdict.IsShort (v : Verdict) : Prop :=
  ∀ n ∈ v.numbers, isTooLong n = false

theorem isTooLong_of_le {m n : ℕ} (hle : m ≤ n) (h : isTooLong n = false) :
    isTooLong m = false := by
  rw [isTooLong_eq_false] at h ⊢
  exact lt_of_le_of_lt hle h

theorem Verdict.isReadable_evidence {v : Verdict} (h : v.IsShort) :
    ∀ j ∈ v.evidence, Json.IsReadable j := by
  have hitem : ∀ kind (j : Json), j.IsReadable → (evidenceItem kind j).IsReadable :=
    fun kind j hj => .pair (by decide) (.string kind) hj
  cases v with
  | beyondBound annot limit => exact List.forall_mem_singleton.mpr (hitem _ _ (.string annot))
  | outOfOrder annot index left right =>
    exact List.forall_mem_cons.mpr ⟨hitem _ _ (.string annot),
      List.forall_mem_singleton.mpr (hitem _ _ (.int (h index List.mem_cons_self)))⟩
  | duplicates annot names =>
    intro j hj
    obtain ⟨name, -, rfl⟩ := List.mem_map.mp hj
    exact hitem _ _ (.string name)
  | _ => exact List.forall_mem_nil _

theorem Verdict.isReadable_details {v : Verdict} (h : v.IsShort) : v.details.IsReadable := by
  cases v with
  | withinBound depth limit =>
    exact .pair (by decide) (.int (h depth List.mem_cons_self))
      (.int (h limit (List.mem_cons_of_mem _ List.mem_cons_self)))
  | beyondBound annot limit => exact .single _ (.int (h limit List.mem_cons_self))
  | sorted count => exact .single _ (.int (h count List.mem_cons_self))
  | outOfOrder annot index left right => exact .pair (by decide) (.string left) (.string right)
  | unique => exact .object List.nodup_nil (List.forall_mem_nil _)
  | duplicates annot names =>
    refine .pair (by decide) (.string annot) (.array fun j hj => ?_)
    obtain ⟨name, -, rfl⟩ := List.mem_map.mp hj
    exact .string name

theorem Verdict.isReadable_report {v : Verdict} (h : v.IsShort) : v.report.IsReadable := by
  refine .object (by simp [Entries.keys]) ?_
  simp only [List.forall_mem_cons]
  exact ⟨.string _, .bool _, .string _, .string _, .string _, .string _,
    .array (isReadable_evidence h), isReadable_details h, List.forall_mem_nil _⟩

theorem Verdict.isWellFormed_evidence {v : Verdict} (h : ∀ s ∈ v.texts, s.isWellFormed = true) :
    Json.isWellFormedList v.evidence = true := by
  have hitem : ∀ (kind : String) (j : Json),
      (evidenceItem kind j).isWellFormed = j.isWellFormed := fun kind j => by
    simp [evidenceItem, Json.isWellFormed, Json.isWellFormedEntries]
  rw [Json.isWellFormedList_eq_all, List.all_eq_true]
  cases v with
  | beyondBound annot limit =>
    refine List.forall_mem_singleton.mpr ?_
    rw [hitem]
    exact h annot List.mem_cons_self
  | outOfOrder annot index left right =>
    refine List.forall_mem_cons.mpr ⟨?_, List.forall_mem_singleton.mpr (hitem "index" _)⟩
    rw [hitem]
    exact h annot List.mem_cons_self
  | duplicates annot names =>
    refine List.forall_mem_map.mpr fun name hname => ?_
    rw [hitem]
    exact h name (List.mem_cons_of_mem _ hname)
  | _ => exact List.forall_mem_nil _

theorem Verdict.isWellFormed_details {v : Verdict} (h : ∀ s ∈ v.texts, s.isWellFormed = true) :
    v.details.isWellFormed = true := by
  cases v with
  | outOfOrder annot index left right =>
    have hleft := h left (List.mem_cons_of_mem _ List.mem_cons_self)
    have hright := h right (List.mem_cons_of_mem _ (List.mem_cons_of_mem _ List.mem_cons_self))
    simp [details, Json.isWellFormed, Json.isWellFormedEntries, hleft, hright]
  | duplicates annot names =>
    have hannot := h annot List.mem_cons_self
    have hnames : Json.isWellFormedList (names.map .string) = true := by
      rw [Json.isWellFormedList_eq_all, List.all_map, List.all_eq_true]
      exact fun name hname => h name (List.mem_cons_of_mem _ hname)
    simp [details, Json.isWellFormed, Json.isWellFormedEntries, hannot, hnames]
  | _ => rfl

/-- The report of a verdict is well-formed if the texts that it tells are. -/
theorem Verdict.isWellFormed_report {v : Verdict} (h : ∀ s ∈ v.texts, s.isWellFormed = true) :
    v.report.isWellFormed = true := by
  have hconstants : v.check.name.isWellFormed = true ∧ v.reason.isWellFormed = true ∧
      v.validity.isWellFormed = true ∧ v.code.isWellFormed = true := by
    cases v <;> exact ⟨Str.isWellFormed_ofString _, Str.isWellFormed_ofString _,
      Str.isWellFormed_ofString _, Str.isWellFormed_ofString _⟩
  obtain ⟨hcheck, hreason, hvalidity, hcode⟩ := hconstants
  have hflow : (if v.stops then ("stop" : Str) else "continue").isWellFormed = true := by
    split <;> exact Str.isWellFormed_ofString _
  simp [report, Json.isWellFormed, Json.isWellFormedEntries, hcheck, hreason, hvalidity, hcode,
    hflow, isWellFormed_evidence h, isWellFormed_details h]

/-- A line reports an annotation: what is read from it is an object with the identifier of the
annotation, its name, and the reports of all three checks, of which those of depth and order have
passed. -/
def Annot.IsReportedBy (settings : Settings) (a : Annot) (line : Str) : Prop :=
  ∃ identifier verdicts entries,
    a.identifier settings = .ok identifier ∧
    a.check settings none = .ok verdicts ∧
    verdicts.map Verdict.check = Check.all ∧
    (∀ v ∈ verdicts, v.check ≠ .namesUnique → v.passed = true) ∧
    Json.read line = .ok (.object entries) ∧
    Entries.get? ("annotation_id" : Str) entries = some (.string identifier) ∧
    Entries.get? ("name" : Str) entries = some (.string a.name) ∧
    Entries.get? ("invariant_checks" : Str) entries =
      some (.array (verdicts.map fun v => v.report.sortKeys))

/-- An annotation that was loaded can be reported on: no half of a surrogate pair stands alone in
it, and the limit on nesting and the number of its parameters can be written. -/
structure Annot.IsReportable (settings : Settings) (a : Annot) : Prop where
  wellFormed : a.fullPayload.isWellFormed = true
  limit : isTooLong settings.maxDepth = false
  count : isTooLong a.known.length = false

theorem exists_entries_checkReport (identifier name : Str) (verdicts : List Verdict) :
    ∃ entries, checkReport identifier name verdicts = .object entries ∧
      (Entries.keys entries).Nodup ∧
      Entries.get? ("annotation_id" : Str) entries = some (.string identifier) ∧
      Entries.get? ("name" : Str) entries = some (.string name) ∧
      Entries.get? ("invariant_checks" : Str) entries =
        some (.array (verdicts.map Verdict.report)) :=
  ⟨_, rfl, by simp [Entries.keys], rfl, rfl, rfl⟩

theorem isReadable_checkReport (identifier name : Str) {verdicts : List Verdict}
    (h : ∀ v ∈ verdicts, v.IsShort) : (checkReport identifier name verdicts).IsReadable := by
  refine .object (by simp [Entries.keys]) ?_
  simp only [List.forall_mem_cons]
  refine ⟨.string _, .string _, .array fun j hj => ?_, List.forall_mem_nil _⟩
  obtain ⟨v, hv, rfl⟩ := List.mem_map.mp hj
  exact Verdict.isReadable_report (h v hv)

/-- The report of an annotation with a well-formed stored form is well-formed. -/
theorem isWellFormed_checkReport {identifier : Str} (hidentifier : identifier.isWellFormed = true)
    (ha : a.fullPayload.isWellFormed = true) {names : Verdict}
    (hnames : ∀ s ∈ names.texts, s = a.name ∨ s ∈ a.parameterNames) :
    (checkReport identifier a.name (a.verdicts settings names)).isWellFormed = true := by
  obtain ⟨hname, hparameters⟩ := Annot.isWellFormed_fullPayload_iff.mp ha
  have htexts : ∀ s ∈ names.texts, s.isWellFormed = true := by
    intro s hs
    rcases hnames s hs with rfl | hs
    · exact hname
    · obtain ⟨p, hp, rfl⟩ := List.mem_map.mp hs
      exact (hparameters p hp).1
  have hreports :
      Json.isWellFormedList ((a.verdicts settings names).map Verdict.report) = true := by
    simp only [Annot.verdicts, List.map_cons, List.map_nil, Json.isWellFormedList,
      Verdict.isWellFormed_report htexts,
      Verdict.isWellFormed_report (v := .withinBound _ _) (List.forall_mem_nil _),
      Verdict.isWellFormed_report (v := .sorted _) (List.forall_mem_nil _), Bool.and_self]
  simp [checkReport, Json.isWellFormed, Json.isWellFormedEntries, hidentifier, hname, hreports]

theorem Annot.IsReportable.isShort (hreport : a.IsReportable settings) (h : a.IsSound settings 0)
    {names : Verdict} (hnames : names.check = .namesUnique) :
    ∀ v ∈ a.verdicts settings names, v.IsShort := by
  have hreach : a.reach settings.maxDepth 0 ≤ settings.maxDepth := a.reach_le_iff.mpr h.fits
  have hbounded : (Verdict.withinBound (a.reach settings.maxDepth 0) settings.maxDepth).IsShort :=
    List.forall_mem_cons.mpr ⟨isTooLong_of_le hreach hreport.limit,
      List.forall_mem_cons.mpr ⟨hreport.limit, List.forall_mem_nil _⟩⟩
  have hsorted : (Verdict.sorted a.known.length).IsShort :=
    List.forall_mem_cons.mpr ⟨hreport.count, List.forall_mem_nil _⟩
  have hunique : names.IsShort := by
    cases names with
    | unique => exact List.forall_mem_nil _
    | duplicates annot repeated => exact List.forall_mem_nil _
    | _ => cases hnames
  simp only [Annot.verdicts, List.forall_mem_cons]
  exact ⟨hbounded, hsorted, hunique, List.forall_mem_nil _⟩

/-- The report of an annotation with an integer that is too long cannot be written. -/
theorem hasTooLong_checkReport (ha : a.fullPayload.isWellFormed = true)
    (h : ¬a.IsReportable settings) (identifier : Str) (names : Verdict) :
    (checkReport identifier a.name (a.verdicts settings names)).hasTooLong = true := by
  -- the texts can be encoded, so an integer is what stands in the way
  have hlong : isTooLong settings.maxDepth = true ∨ isTooLong a.known.length = true := by
    by_contra hnone
    rw [not_or, Bool.not_eq_true, Bool.not_eq_true] at hnone
    exact h ⟨ha, hnone.1, hnone.2⟩
  rcases hlong with hlong | hlong <;>
    simp [checkReport, Annot.verdicts, Verdict.report, Verdict.details, Json.hasTooLong,
      Json.hasTooLongList, Json.hasTooLongEntries, hlong]

/-- What is logged and reported of an annotation that was loaded and has an identifier. -/
theorem Annot.IsSound.checkLine_eq (h : a.IsSound settings 0) {identifier : Str}
    (hidentifier : a.identifier settings = .ok identifier) :
    ∃ names : Verdict, names.check = .namesUnique ∧
      (∀ s ∈ names.texts, s = a.name ∨ s ∈ a.parameterNames) ∧
      a.check settings none = .ok (a.verdicts settings names) ∧
      (AnnoTree.checkLine settings a).result =
        ((checkReport identifier a.name (a.verdicts settings names)).sortKeys.print
          Json.spaced).mapError .tooLong := by
  obtain ⟨names, hnames, htexts, hcheck⟩ := h.check
  refine ⟨names, hnames, htexts, hcheck, ?_⟩
  rw [AnnoTree.checkLine, hidentifier, hcheck]
  rfl

/-- An annotation with a well-formed stored form has a well-formed identifier. -/
theorem Annot.IsSound.exists_identifier (h : a.IsSound settings 0)
    (hwell : a.fullPayload.isWellFormed = true) :
    ∃ identifier, a.identifier settings = .ok identifier ∧ identifier.isWellFormed = true := by
  obtain ⟨identifier, hidentifier⟩ := exists_identifierOf_iff.mpr hwell
  refine ⟨identifier, by rw [Annot.identifier_of_fits h.fits, hidentifier], ?_⟩
  obtain ⟨octets, -, rfl⟩ := identifierOf_eq_ok_iff.mp hidentifier
  simp [Str.isWellFormed_append]

/-- **The report of an annotation that was loaded** and can be reported on, and what is read from
it. -/
theorem Annot.IsSound.checkLine (h : a.IsSound settings 0) (hreport : a.IsReportable settings) :
    ∃ line, (AnnoTree.checkLine settings a).result = .ok line ∧ a.IsReportedBy settings line ∧
      line.isWellFormed = true := by
  obtain ⟨identifier, hidentifier, hwell⟩ := h.exists_identifier hreport.wellFormed
  obtain ⟨names, hnames, htexts, hcheck, hresult⟩ := h.checkLine_eq hidentifier
  have hreadable := isReadable_checkReport identifier a.name (hreport.isShort h hnames)
  have hline : (checkReport identifier a.name (a.verdicts settings names)).isWellFormed = true :=
    isWellFormed_checkReport hwell hreport.wellFormed htexts
  have hwritten : (AnnoTree.checkLine settings a).result =
      .ok ((checkReport identifier a.name (a.verdicts settings names)).sortKeys.write
        Json.spaced) := by
    rw [hresult, Json.print, Json.hasTooLong_sortKeys, hreadable.hasTooLong_eq_false]
    rfl
  refine ⟨_, hwritten, ?_,
    by rwa [Json.isWellFormed_write, Json.isWellFormed_sortKeys]⟩
  -- the keys of a report are distinct, so it is read as it was written, sorted
  have hread := Json.read_write Json.spaced_isPlain hreadable.sortKeys
  obtain ⟨entries, hentries, hnodup, hid, hname, hchecks⟩ :=
    exists_entries_checkReport identifier a.name (a.verdicts settings names)
  obtain ⟨sorted, hsorted, hget⟩ := Json.get?_sortKeys hnodup
  rw [hentries, hsorted] at hread ⊢
  refine ⟨_, _, sorted, hidentifier, hcheck, a.check_verdicts hnames, a.passed_verdicts hnames,
    hread, ?_, ?_, ?_⟩
  · rw [hget, hid]
    rfl
  · rw [hget, hname]
    rfl
  · rw [hget, hchecks]
    simp [Json.sortKeys, Json.sortKeysList_eq_map]

/-- An annotation that cannot be reported on has no report, and the fault is that of its identifier
or of an integer. -/
theorem Annot.IsSound.checkLine_of_not (h : a.IsSound settings 0)
    (hreport : ¬a.IsReportable settings) :
    ∃ f, (AnnoTree.checkLine settings a).result = .error f ∧
      (f = .unencodable ∨ f = .tooLong .toWrite) := by
  cases hwell : a.fullPayload.isWellFormed with
  | true =>
    obtain ⟨identifier, hidentifier, -⟩ := h.exists_identifier hwell
    obtain ⟨names, -, -, -, hresult⟩ := h.checkLine_eq hidentifier
    refine ⟨_, ?_, .inr rfl⟩
    rw [hresult, Json.print, Json.hasTooLong_sortKeys, hasTooLong_checkReport hwell hreport]
    rfl
  | false =>
    -- the identifier is made before the checks are run
    refine ⟨_, ?_, .inl rfl⟩
    rw [AnnoTree.checkLine, Annot.identifier_of_fits h.fits, identifierOf_eq_error hwell]

/-! ## §3 Lines -/

/-- A line that a command may write about an annotation. -/
def Command.Tells (settings : Settings) (a : Annot) (line : Str) : Command → Prop
  | .render => a.render settings 0 = .ok line
  | .names => line = a.name
  | .check => a.IsReportedBy settings line

/-- A command can write a line about an annotation that was loaded. -/
def Command.Answers (settings : Settings) (a : Annot) : Command → Prop
  | .render => True
  | .names => True
  | .check => a.IsReportable settings

/-- **What a command makes of an annotation that was loaded**: a line, which is well-formed if the
annotation is, or a fault that ends the program with code one. -/
theorem Annot.IsSound.line (h : a.IsSound settings 0) (command : Command) :
    (command.Answers settings a → ∃ line, (command.line settings a).result = .ok line ∧
      command.Tells settings a line ∧
      (a.fullPayload.isWellFormed = true → line.isWellFormed = true)) ∧
    (¬command.Answers settings a →
      ∃ f, (command.line settings a).result = .error f ∧ f.IsOfContent) := by
  cases command with
  | render =>
    have hrender := (a.render_spec settings 0).ok h.fits
    refine ⟨fun _ => ⟨_, ?_, hrender, Annot.isWellFormed_fullText⟩,
      fun hnot => absurd trivial hnot⟩
    rw [Command.line, hrender]
    rfl
  | names =>
    exact ⟨fun _ =>
        ⟨a.name, rfl, rfl, fun hwell => (Annot.isWellFormed_fullPayload_iff.mp hwell).1⟩,
      fun hnot => absurd trivial hnot⟩
  | check =>
    refine ⟨fun hreport => ?_, fun hnot => ?_⟩
    · obtain ⟨line, hresult, htells, hwell⟩ := h.checkLine hreport
      exact ⟨line, hresult, htells, fun _ => hwell⟩
    · obtain ⟨f, hresult, rfl | rfl⟩ := h.checkLine_of_not hnot
      · exact ⟨_, hresult, fun _ => rfl⟩
      · exact ⟨_, hresult, fun _ => rfl⟩

end AnnoTree
