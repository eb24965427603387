import AnnoTree.Failure
import AnnoTree.Raw.Shown
import AnnoTree.Storage.Path
import AnnoTree.Text.Lines
import AnnoTree.Text.Utf8
import AnnoTree.Toml.Reader

/-!
# Loading settings

Settings come from a table of a configuration file. The bound on nesting may come from an
environment variable instead, and then what the file says about it is not looked at. A file that
is missing, that is no TOML document or that has no such table counts as empty; one with an integer
that is too long does not.
-/

namespace AnnoTree

open AnnoTree.Text

/-! ## §1 The file -/

/-- The name of the configuration file in a directory. -/
def configName : String := "pyproject.toml"

/-- The environment variable for the bound on nesting. -/
def depthVariable : String := "ANNOTATION_MODEL_MAX_DEPTH"

/-- The configuration file: the one that is named, or the one of a directory. -/
def configFile (directory named : Option Path) : Path :=
  named.getD ((directory.getD (Path.ofText "")).child configName)

/-- What a configuration file says. -/
structure Config where
  entries : List (String × Toml.Value)
  /-- The file is there and is no TOML document. -/
  unreadable : Bool

/-- The configuration in a text. -/
def Config.ofText (cs : List Char) : Except SettingsFault Config :=
  match Toml.read (foldLineEnds cs) with
  | .ok entries => .ok ⟨entries, false⟩
  | .error .malformed => .ok ⟨[], true⟩
  | .error (.tooLong digits) => .error (.tooLong (.toRead digits))

/-- The configuration in a file, which may not be there. -/
def Config.ofFile (content : Except StorageFault (List Octet)) : Except Failure Config :=
  match content with
  | .error .fileNotFound => .ok ⟨[], false⟩
  | .error f => .error (.storage f)
  | .ok octets =>
    match decodeUtf8 octets with
    | .whole cs => (Config.ofText cs).mapError .settings
    | _ => .error (.settings .notText)

/-- The entries of a table under a key. -/
def tableAt (key : String) (entries : List (String × Toml.Value)) :
    List (String × Toml.Value) :=
  match Entries.get? key entries with
  | some (.table sub) => sub
  | _ => []

/-- The table of settings. -/
def Config.table (c : Config) : List (String × Toml.Value) :=
  tableAt "annotation_model" (tableAt "tool" c.entries)

/-! ## §2 Values -/

/-- The integer that a value of the configuration stands for. -/
def depthOfValue : Toml.Value → Except SettingsFault Int
  | .int i => .ok i
  | .bool b => .ok (if b then 1 else 0)
  | .float .nan => .error .depthNotNumber
  | .float x =>
    match x.truncate? with
    | some i => .ok i
    | none => .error .depthInfinite
  | .string s =>
    match readNumeral s with
    | .ok i => .ok i
    | .error .malformed => .error (.depthNotInteger s)
    | .error (.tooLong digits) => .error (.tooLong (.toRead digits))
  | _ => .error .depthOfWrongType

mutual

/-- A value of the configuration as messages show it. -/
def Toml.Value.shown : Toml.Value → Str
  | .bool b => shownBool b
  | .int i => toString i
  | .float x => x.text Double.shortNames
  | .string s => quoted s
  | .moment m => m.shown
  | .array items => "[" ++ joinWith ", " (Toml.Value.shownList items) ++ "]"
  | .table entries => "\x7b" ++ joinWith ", " (Toml.Value.shownEntries entries) ++ "\x7d"
termination_by structural v => v

/-- Values of the configuration as messages show them. -/
def Toml.Value.shownList : List Toml.Value → List Str
  | [] => []
  | v :: rest => Toml.Value.shown v :: Toml.Value.shownList rest
termination_by structural vs => vs

/-- Entries of a table as messages show them. -/
def Toml.Value.shownEntries : List (String × Toml.Value) → List Str
  | [] => []
  | (key, v) :: rest => (quoted key ++ ": " ++ Toml.Value.shown v) :: Toml.Value.shownEntries rest
termination_by structural es => es

end

mutual

/-- Whether an integer in a value of the configuration is too long. -/
def Toml.Value.hasTooLong : Toml.Value → Bool
  | .int i => isTooLong i
  | .array items => Toml.Value.hasTooLongList items
  | .table entries => Toml.Value.hasTooLongEntries entries
  | _ => false
termination_by structural v => v

/-- Whether an integer in one of the values is too long. -/
def Toml.Value.hasTooLongList : List Toml.Value → Bool
  | [] => false
  | v :: rest => Toml.Value.hasTooLong v || Toml.Value.hasTooLongList rest
termination_by structural vs => vs

/-- Whether an integer in one of the entries is too long. -/
def Toml.Value.hasTooLongEntries : List (String × Toml.Value) → Bool
  | [] => false
  | (_, v) :: rest => Toml.Value.hasTooLong v || Toml.Value.hasTooLongEntries rest
termination_by structural es => es

end

/-- The text that a value of the configuration stands for. -/
def nameOfValue : Toml.Value → Except SettingsFault Str
  | .string s => .ok s
  | .moment m => .ok m.text
  | v => if v.hasTooLong then .error (.tooLong .toWrite) else .ok v.shown

/-- The bound on nesting: of the variable if it has a text, otherwise of the configuration. -/
def chooseDepth (table : List (String × Toml.Value)) (depthText : Option String) :
    Except SettingsFault Int :=
  match depthText with
  | none | some "" => depthOfValue ((Entries.get? "max_nesting_depth" table).getD (.int 64))
  | some text =>
    match readNumeral text with
    | .ok i => .ok i
    | .error _ => .error (.variableNotInteger text)

/-- The settings of a configuration. -/
def Config.settings (c : Config) (depthText : Option String) : Except SettingsFault Settings := do
  let depth ← chooseDepth c.table depthText
  let name ← nameOfValue ((Entries.get? "single_element_name" c.table).getD (.string "value"))
  Settings.ofValues? depth name

/-- Settings, and whether the configuration was left out because it could not be read. -/
structure LoadedSettings where
  settings : Settings
  ignoredConfig : Bool

/-- Succeeds for a text that the environment variable can have. -/
def checkVariable (depthText : Option String) : Except Failure Unit :=
  if (depthText.getD "").toList.contains '\x00' then .error (.storage .nulCharacter) else .ok ()

/-- The settings that a configuration file and the environment variable give. -/
def Settings.load (content : Except StorageFault (List Octet)) (depthText : Option String) :
    Except Failure LoadedSettings := do
  checkVariable depthText
  let config ← Config.ofFile content
  let settings ← (config.settings depthText).mapError .settings
  return ⟨settings, config.unreadable⟩

end AnnoTree
