import AnnoTree.Proofs.Signature.Reading
import AnnoTree.Proofs.Storage.Utf8
import AnnoTree.Settings.Loading

/-!
# Where settings come from

Each setting has one source. The bound on nesting comes from the environment variable if that has a
text, else from the table of settings in the configuration file, else it is the default; the name
comes from the table, or it is the default. What hides another source hides it altogether: an entry
for the bound is not looked at where the variable has a text, not even for its faults, and a file
without a table of settings is like one that is empty.

## Main definitions

- `HasTable`, `HasNoTable`, `Says`: what a configuration file says.
- `DepthFrom`, `NameFrom`, `Gives`: the source of each setting.
- `Settings.outcome`: what loading comes to, apart from the warning about an unreadable file.

## Main statements

- `outcome_eq_ok_iff`, `exists_outcome_iff`: which settings are loaded, and when there are any.
- `outcome_congr`: what the outcome depends on where the variable has a text.
- `outcome_of_hasNoTable`: files that are like an empty one.
- `settings_come_from_one_source_each`: the sources, one by one.
-/

namespace AnnoTree

open AnnoTree.Text

/-! ## §1 What a file says -/

/-- What may be found of a configuration file: nothing, or the octets of a text. -/
inductive IsConfigFile : Except StorageFault (List Octet) → Prop where
  | missing : IsConfigFile (.error .fileNotFound)
  | text (s : String) : IsConfigFile (.ok (encodeUtf8 s))

/-- A text is a TOML document, once the ends of its lines are line feeds. -/
def IsDocument (s : String) (entries : List (String × Toml.Value)) : Prop :=
  Toml.read (foldLineEnds s.toList) = .ok entries

/-- A text is no TOML document. A text that is given up for an integer with too many digits is
neither: its reader fails on it, and loading with it. -/
def IsNoDocument (s : String) : Prop :=
  Toml.read (foldLineEnds s.toList) = .error .malformed

/-- A file has a table of settings: its text is a document, with one table in another. -/
inductive HasTable : Except StorageFault (List Octet) → List (String × Toml.Value) → Prop where
  | mk {s : String} {entries tool table : List (String × Toml.Value)}
      (document : IsDocument s entries)
      (outer : Entries.get? "tool" entries = some (.table tool))
      (inner : Entries.get? "annotation_model" tool = some (.table table)) :
      HasTable (.ok (encodeUtf8 s)) table

/-- A file has no table of settings: it is missing, or its text is no document, or a key is missing
or has a value that is no table. -/
inductive HasNoTable : Except StorageFault (List Octet) → Prop where
  | missing : HasNoTable (.error .fileNotFound)
  | noDocument {s : String} (noDocument : IsNoDocument s) : HasNoTable (.ok (encodeUtf8 s))
  | noOuter {s : String} {entries : List (String × Toml.Value)} (document : IsDocument s entries)
      (noOuter : ∀ table, Entries.get? "tool" entries ≠ some (.table table)) :
      HasNoTable (.ok (encodeUtf8 s))
  | noInner {s : String} {entries tool : List (String × Toml.Value)}
      (document : IsDocument s entries)
      (outer : Entries.get? "tool" entries = some (.table tool))
      (noInner : ∀ table, Entries.get? "annotation_model" tool ≠ some (.table table)) :
      HasNoTable (.ok (encodeUtf8 s))

/-- What a file says under a key of the table of settings. -/
inductive Says (key : String) : Except StorageFault (List Octet) → Option Toml.Value → Prop where
  | nothing {content : Except StorageFault (List Octet)} (noTable : HasNoTable content) :
      Says key content none
  | entry {content : Except StorageFault (List Octet)} {table : List (String × Toml.Value)}
      (hasTable : HasTable content table) : Says key content (Entries.get? key table)

variable {content : Except StorageFault (List Octet)} {table entries : List (String × Toml.Value)}

theorem tableAt_of_get? {key : String} (h : Entries.get? key entries = some (.table table)) :
    tableAt key entries = table := by
  rw [tableAt, h]

theorem tableAt_eq_nil {key : String}
    (h : ∀ table, Entries.get? key entries ≠ some (.table table)) : tableAt key entries = [] := by
  unfold tableAt
  split
  next sub hsub => exact absurd hsub (h sub)
  next => rfl

theorem ofFile_encodeUtf8 (s : String) :
    Config.ofFile (.ok (encodeUtf8 s)) = (Config.ofText s.toList).mapError .settings := by
  simp only [Config.ofFile, decodeUtf8_encodeUtf8]

theorem ofFile_of_isDocument {s : String} (h : IsDocument s entries) :
    Config.ofFile (.ok (encodeUtf8 s)) = .ok ⟨entries, false⟩ := by
  rw [ofFile_encodeUtf8, Config.ofText, h]
  rfl

/-- The table that is found is the one that the file has. -/
theorem HasTable.ofFile (h : HasTable content table) :
    ∃ c, Config.ofFile content = .ok c ∧ c.table = table := by
  obtain ⟨document, outer, inner⟩ := h
  refine ⟨_, ofFile_of_isDocument document, ?_⟩
  rw [Config.table, tableAt_of_get? outer, tableAt_of_get? inner]

/-- Where a file has none, the table that is found is empty. -/
theorem HasNoTable.ofFile (h : HasNoTable content) :
    ∃ c, Config.ofFile content = .ok c ∧ c.table = [] := by
  cases h with
  | missing => exact ⟨_, rfl, rfl⟩
  | @noDocument s noDocument =>
    refine ⟨⟨[], true⟩, ?_, rfl⟩
    rw [ofFile_encodeUtf8, Config.ofText, noDocument]
    rfl
  | noOuter document noOuter =>
    refine ⟨_, ofFile_of_isDocument document, ?_⟩
    rw [Config.table, tableAt_eq_nil noOuter]
    rfl
  | noInner document outer noInner =>
    refine ⟨_, ofFile_of_isDocument document, ?_⟩
    rw [Config.table, tableAt_of_get? outer, tableAt_eq_nil noInner]

/-- A document has a table of settings or has none. -/
theorem hasTable_or_hasNoTable {s : String} (document : IsDocument s entries) :
    HasNoTable (.ok (encodeUtf8 s)) ∨ ∃ table, HasTable (.ok (encodeUtf8 s)) table := by
  by_cases houter : ∃ tool, Entries.get? "tool" entries = some (.table tool)
  · obtain ⟨tool, houter⟩ := houter
    by_cases hinner : ∃ table, Entries.get? "annotation_model" tool = some (.table table)
    · obtain ⟨table, hinner⟩ := hinner
      exact .inr ⟨table, .mk document houter hinner⟩
    · exact .inl (.noInner document houter (not_exists.mp hinner))
  · exact .inl (.noOuter document (not_exists.mp houter))

/-- Every file that is missing or holds a text that is read has a table of settings or has none. -/
theorem IsConfigFile.cases (h : IsConfigFile content) {c : Config}
    (hfile : Config.ofFile content = .ok c) :
    HasNoTable content ∨ ∃ table, HasTable content table := by
  cases h with
  | missing => exact .inl .missing
  | text s =>
    rw [ofFile_encodeUtf8, Config.ofText] at hfile
    cases hread : Toml.read (foldLineEnds s.toList) with
    | ok entries => exact hasTable_or_hasNoTable hread
    | error fault =>
      rw [hread] at hfile
      cases fault with
      | malformed => exact .inl (.noDocument hread)
      | tooLong digits => cases hfile

/-! ## §2 Sources -/

/-- The variable has no text: it is not set, or it is empty. -/
def IsUnset (text : Option String) : Prop :=
  text.getD "" = ""

instance (text : Option String) : Decidable (IsUnset text) :=
  inferInstanceAs (Decidable (_ = _))

/-- The bound on nesting that comes from the text of the variable and the entry of the file. -/
inductive DepthFrom : Option String → Option Toml.Value → ℤ → Prop where
  | fromVariable {text : String} {depth : ℤ} (entry : Option Toml.Value) (nonempty : text ≠ "")
      (spells : readNumeral text = .ok depth) : DepthFrom (some text) entry depth
  | fromEntry {text : Option String} {value : Toml.Value} {depth : ℤ} (unset : IsUnset text)
      (converts : depthOfValue value = .ok depth) : DepthFrom text (some value) depth
  | byDefault {text : Option String} (unset : IsUnset text) : DepthFrom text none 64

/-- The name that comes from the entry of the file. -/
inductive NameFrom : Option Toml.Value → Str → Prop where
  | fromEntry {value : Toml.Value} {name : Str} (converts : nameOfValue value = .ok name) :
      NameFrom (some value) name
  | byDefault : NameFrom none "value"

theorem nameFrom_iff {entry : Option Toml.Value} {name : Str} :
    NameFrom entry name ↔ nameOfValue (entry.getD (.string "value")) = .ok name := by
  constructor
  · rintro (converts | _)
    · exact converts
    · rfl
  · intro h
    cases entry with
    | some value => exact .fromEntry h
    | none =>
      cases h
      exact .byDefault

theorem chooseDepth_of_isUnset {text : Option String} (h : IsUnset text) :
    chooseDepth table text =
      depthOfValue ((Entries.get? "max_nesting_depth" table).getD (.int 64)) := by
  unfold chooseDepth
  split
  next => rfl
  next => rfl
  next text hne => exact absurd h (by simpa [IsUnset] using hne)

/-- Where the variable has a text, the file is not looked at. -/
theorem chooseDepth_of_ne {text : String} (h : text ≠ "") :
    chooseDepth table (some text) =
      match readNumeral text with
      | .ok depth => .ok depth
      | .error _ => .error (.variableNotInteger text) := by
  unfold chooseDepth
  split
  next heq => cases heq
  next heq => exact absurd (Option.some.inj heq) h
  next heq =>
    cases heq
    rfl

theorem depthFrom_iff {text : Option String} {depth : ℤ} :
    DepthFrom text (Entries.get? "max_nesting_depth" table) depth ↔
      chooseDepth table text = .ok depth := by
  constructor
  · generalize hentry : Entries.get? "max_nesting_depth" table = entry
    rintro (⟨_, nonempty, spells⟩ | ⟨unset, converts⟩ | ⟨unset⟩)
    · rw [chooseDepth_of_ne nonempty, spells]
    · rw [chooseDepth_of_isUnset unset, hentry]
      exact converts
    · rw [chooseDepth_of_isUnset unset, hentry]
      rfl
  · intro h
    by_cases hunset : IsUnset text
    · rw [chooseDepth_of_isUnset hunset] at h
      cases hentry : Entries.get? "max_nesting_depth" table with
      | some value =>
        rw [hentry] at h
        exact .fromEntry hunset h
      | none =>
        rw [hentry] at h
        cases h
        exact .byDefault hunset
    · cases text with
      | none => exact absurd rfl hunset
      | some text =>
        have hne : text ≠ "" := hunset
        rw [chooseDepth_of_ne hne] at h
        cases hspells : readNumeral text with
        | ok depth =>
          rw [hspells] at h
          cases h
          exact .fromVariable _ hne hspells
        | error fault =>
          rw [hspells] at h
          cases h

/-- The settings of a table and the text of the variable. -/
def settingsOfTable (table : List (String × Toml.Value)) (text : Option String) :
    Except SettingsFault Settings := do
  let depth ← chooseDepth table text
  let name ← nameOfValue ((Entries.get? "single_element_name" table).getD (.string "value"))
  Settings.ofValues? depth name

/-! ## §3 The outcome -/

/-- The settings that are loaded, or the failure, apart from the warning about a file that is no
document. -/
def Settings.outcome (content : Except StorageFault (List Octet)) (text : Option String) :
    Except Failure Settings :=
  (Settings.load content text).map LoadedSettings.settings

/-- The outcome of a table of settings. -/
def outcomeOfTable (table : List (String × Toml.Value)) (text : Option String) :
    Except Failure Settings := do
  checkVariable text
  (settingsOfTable table text).mapError .settings

theorem outcome_of_ofFile {c : Config} (h : Config.ofFile content = .ok c) (text : Option String) :
    Settings.outcome content text = outcomeOfTable c.table text := by
  rw [Settings.outcome, Settings.load, h, outcomeOfTable]
  show Except.map LoadedSettings.settings (do
      checkVariable text
      let settings ← (settingsOfTable c.table text).mapError .settings
      return ⟨settings, c.unreadable⟩) = _
  cases checkVariable text with
  | error f => rfl
  | ok =>
    cases settingsOfTable c.table text with
    | error f => rfl
    | ok settings => rfl

/-- Values that can be used make settings, and no others do. -/
theorem ofValues?_eq_ok_iff {depth : ℤ} {name : Str} {s : Settings} :
    Settings.ofValues? depth name = .ok s ↔ (s.maxDepth : ℤ) = depth ∧ s.singleName = name := by
  unfold Settings.ofValues?
  obtain ⟨maxDepth, singleName, hdepth, hname⟩ := s
  constructor
  · intro h
    split at h
    · split at h
      · cases h
        exact ⟨by simp; omega, rfl⟩
      · cases h
    · cases h
  · rintro ⟨rfl, rfl⟩
    rw [dif_pos (by exact_mod_cast hdepth), dif_pos hname]
    rfl

/-- A text that the variable can have. -/
def CanBeSet (text : Option String) : Prop :=
  '\x00' ∉ (text.getD "").toList

theorem checkVariable_eq_ok_iff {text : Option String} :
    checkVariable text = .ok () ↔ CanBeSet text := by
  unfold checkVariable CanBeSet
  split
  next h => simpa using h
  next h => simpa using h

/-- The bound and the name that a file and the variable give. -/
inductive Gives (content : Except StorageFault (List Octet)) (text : Option String) (depth : ℤ)
    (name : Str) : Prop where
  | mk {depthEntry nameEntry : Option Toml.Value}
      (saysDepth : Says "max_nesting_depth" content depthEntry)
      (saysName : Says "single_element_name" content nameEntry)
      (depthFrom : DepthFrom text depthEntry depth) (nameFrom : NameFrom nameEntry name)

/-- What a file says is what is found in it. -/
theorem Says.ofFile {key : String} {entry : Option Toml.Value} (h : Says key content entry) :
    ∃ c, Config.ofFile content = .ok c ∧ Entries.get? key c.table = entry := by
  cases h with
  | nothing noTable =>
    obtain ⟨c, hfile, htable⟩ := noTable.ofFile
    exact ⟨c, hfile, by rw [htable]; rfl⟩
  | entry hasTable =>
    obtain ⟨c, hfile, rfl⟩ := hasTable.ofFile
    exact ⟨c, hfile, rfl⟩

theorem IsConfigFile.contains (h : IsConfigFile content) {c : Config}
    (hfile : Config.ofFile content = .ok c) (key : String) :
    Says key content (Entries.get? key c.table) := by
  rcases h.cases hfile with noTable | ⟨table, hasTable⟩
  · obtain ⟨d, hd, htable⟩ := noTable.ofFile
    obtain rfl : d = c := Except.ok.inj (hd.symm.trans hfile)
    rw [htable]
    exact .nothing noTable
  · obtain ⟨d, hd, rfl⟩ := hasTable.ofFile
    obtain rfl : d = c := Except.ok.inj (hd.symm.trans hfile)
    exact .entry hasTable

/-- What is found in a file gives what the file gives. -/
theorem gives_iff (h : IsConfigFile content) {c : Config} (hfile : Config.ofFile content = .ok c)
    {text : Option String} {depth : ℤ} {name : Str} :
    Gives content text depth name ↔ chooseDepth c.table text = .ok depth ∧
      nameOfValue ((Entries.get? "single_element_name" c.table).getD (.string "value")) =
        .ok name := by
  rw [← depthFrom_iff, ← nameFrom_iff]
  constructor
  · rintro ⟨saysDepth, saysName, depthFrom, nameFrom⟩
    obtain ⟨d, hd, rfl⟩ := saysDepth.ofFile
    obtain ⟨n, hn, rfl⟩ := saysName.ofFile
    -- there is one configuration in a file
    obtain rfl : d = c := Except.ok.inj (hd.symm.trans hfile)
    obtain rfl : n = d := Except.ok.inj (hn.symm.trans hfile)
    exact ⟨depthFrom, nameFrom⟩
  · rintro ⟨depthFrom, nameFrom⟩
    exact ⟨h.contains hfile _, h.contains hfile _, depthFrom, nameFrom⟩

/-- What a file gives is found in it. -/
theorem Gives.exists_ofFile {text : Option String} {depth : ℤ} {name : Str}
    (h : Gives content text depth name) : ∃ c, Config.ofFile content = .ok c := by
  obtain ⟨saysDepth, -, -, -⟩ := h
  obtain ⟨c, hfile, -⟩ := saysDepth.ofFile
  exact ⟨c, hfile⟩

/-- A file that cannot be read ends loading. -/
theorem outcome_of_ofFile_error {f : Failure} (h : Config.ofFile content = .error f)
    {text : Option String} {s : Settings} : Settings.outcome content text ≠ .ok s := by
  rw [Settings.outcome, Settings.load, h]
  cases checkVariable text <;> nofun

/-- **Which settings are loaded**: those of their sources. -/
theorem outcome_eq_ok_iff (h : IsConfigFile content) {text : Option String} {s : Settings} :
    Settings.outcome content text = .ok s ↔
      CanBeSet text ∧ Gives content text s.maxDepth s.singleName := by
  cases hfile : Config.ofFile content with
  | error f =>
    refine ⟨fun hs => absurd hs (outcome_of_ofFile_error hfile), fun ⟨_, hgives⟩ => ?_⟩
    obtain ⟨c, hc⟩ := hgives.exists_ofFile
    rw [hfile] at hc
    cases hc
  | ok c =>
    rw [outcome_of_ofFile hfile, gives_iff h hfile, ← checkVariable_eq_ok_iff, outcomeOfTable]
    cases checkVariable text with
    | error f => exact ⟨nofun, nofun⟩
    | ok =>
      show (settingsOfTable c.table text).mapError Failure.settings = .ok s ↔ _
      simp only [mapError_eq_ok, settingsOfTable, bind_eq_ok, ofValues?_eq_ok_iff, true_and]
      constructor
      · rintro ⟨depth, hdepth, name, hname, rfl, rfl⟩
        exact ⟨hdepth, hname⟩
      · rintro ⟨hdepth, hname⟩
        exact ⟨_, hdepth, _, hname, rfl, rfl⟩

/-- Loading gives settings exactly if the sources give values that can be used. -/
theorem exists_outcome_iff (h : IsConfigFile content) {text : Option String} :
    (∃ s, Settings.outcome content text = .ok s) ↔
      CanBeSet text ∧ ∃ depth name, Gives content text depth name ∧ 1 ≤ depth ∧ name ≠ "" := by
  constructor
  · rintro ⟨s, hs⟩
    obtain ⟨hset, hgives⟩ := (outcome_eq_ok_iff h).mp hs
    have hdepth : (1 : ℤ) ≤ s.maxDepth := by exact_mod_cast s.one_le_maxDepth
    exact ⟨hset, s.maxDepth, s.singleName, hgives, hdepth, s.singleName_ne_empty⟩
  · rintro ⟨hset, depth, name, hgives, hdepth, hname⟩
    lift depth to ℕ using by omega
    exact ⟨⟨depth, name, by omega, hname⟩, (outcome_eq_ok_iff h).mpr ⟨hset, hgives⟩⟩

/-! ## §4 Sources that are hidden -/

/-- **Where the variable has a text**, of the file only the entry for the name matters. -/
theorem outcome_congr {first second : Except StorageFault (List Octet)} {text : Option String}
    {entry : Option Toml.Value} (htext : ¬IsUnset text)
    (hfirst : Says "single_element_name" first entry)
    (hsecond : Says "single_element_name" second entry) :
    Settings.outcome first text = Settings.outcome second text := by
  obtain ⟨c, hc, hcentry⟩ := hfirst.ofFile
  obtain ⟨d, hd, hdentry⟩ := hsecond.ofFile
  have hdepth : chooseDepth c.table text = chooseDepth d.table text := by
    cases text with
    | none => exact absurd rfl htext
    | some text =>
      have hne : text ≠ "" := htext
      rw [chooseDepth_of_ne hne, chooseDepth_of_ne hne]
  rw [outcome_of_ofFile hc, outcome_of_ofFile hd]
  simp only [outcomeOfTable, settingsOfTable, hdepth, hcentry, hdentry]

theorem outcome_of_hasNoTable (h : HasNoTable content) (text : Option String) :
    Settings.outcome content text = outcomeOfTable [] text := by
  obtain ⟨c, hfile, htable⟩ := h.ofFile
  rw [outcome_of_ofFile hfile, htable]

/-- An empty file has no table of settings. -/
theorem hasNoTable_empty : HasNoTable (.ok []) := by
  have hdocument : IsDocument "" [] := rfl
  exact .noOuter hdocument nofun

/-- **Each setting comes from one source, and settings can be used.** A file that is missing or
holds a text gives settings exactly if the sources of the bound and of the name give values that can
be used, and then these. If the variable has a text, two files that say the same for the name come
to the same outcome, whatever else they say. A file without a table of settings, be it missing, no
document or one in which something else stands in the place of a table, comes to what an empty file
comes to. -/
theorem settings_come_from_one_source_each (text : Option String) :
    (∀ content, IsConfigFile content →
      (∀ s, Settings.outcome content text = .ok s ↔
        CanBeSet text ∧ Gives content text s.maxDepth s.singleName) ∧
      ((∃ s, Settings.outcome content text = .ok s) ↔
        CanBeSet text ∧ ∃ depth name, Gives content text depth name ∧ 1 ≤ depth ∧ name ≠ "")) ∧
    (∀ content s, Settings.outcome content text = .ok s → 1 ≤ s.maxDepth ∧ s.singleName ≠ "") ∧
    (¬IsUnset text → ∀ first second entry, Says "single_element_name" first entry →
      Says "single_element_name" second entry →
      Settings.outcome first text = Settings.outcome second text) ∧
    ∀ content, HasNoTable content →
      Settings.outcome content text = Settings.outcome (.ok []) text := by
  refine ⟨fun content h => ⟨fun s => outcome_eq_ok_iff h, exists_outcome_iff h⟩,
    fun content s _ => ⟨s.one_le_maxDepth, s.singleName_ne_empty⟩,
    fun htext first second entry => outcome_congr htext, fun content h => ?_⟩
  rw [outcome_of_hasNoTable h, outcome_of_hasNoTable hasNoTable_empty]

/-- A file whose entry for the bound is no integer. -/
def faultyFile : String :=
  "[tool.annotation_model]\nmax_nesting_depth = \"deep\"\n"

/-- A case of it: an entry that would be a fault by itself is hidden by the variable, and the file
is then like one that is missing. -/
theorem faulty_bound_may_be_hidden :
    ¬IsUnset (some "3") ∧
      Settings.outcome (.ok (encodeUtf8 faultyFile)) (some "3") =
        Settings.outcome (.error .fileNotFound) (some "3") ∧
      Settings.outcome (.ok (encodeUtf8 faultyFile)) none =
        .error (.settings (.depthNotInteger "deep")) := by
  have hdocument : IsDocument faultyFile
      [("tool", .table
        [("annotation_model", .table [("max_nesting_depth", .string "deep")])])] := by
    rw [IsDocument, faultyFile]
    cbv
  have htable : HasTable (.ok (encodeUtf8 faultyFile)) [("max_nesting_depth", .string "deep")] :=
    .mk hdocument rfl rfl
  have hunset : ¬IsUnset (some "3") := by decide
  refine ⟨hunset, ?hidden, ?seen⟩
  case hidden =>
    exact (settings_come_from_one_source_each (some "3")).2.2.1 hunset _ _ none (.entry htable)
      (.nothing .missing)
  case seen =>
    obtain ⟨c, hfile, htable⟩ := htable.ofFile
    rw [outcome_of_ofFile hfile, htable]
    rfl

end AnnoTree
