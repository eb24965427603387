import AnnoTree.Raw.Comparison
import AnnoTree.Raw.Shown
import AnnoTree.Value.Payload

/-!
# Records

The form in which a raw value is stored as one row. An annotation is stored as its payload, and
other values, parameters and references by their fields; the keys of a mapping are stored as
texts. Sets, octets, foreign objects and integers that are too long have no stored form.
-/

namespace AnnoTree

open AnnoTree.Text

/-! ## §1 Values by their fields -/

mutual

/-- The fields of a value. -/
def Value.record : Value → Json
  | .scalar s =>
    .object [("kind", .string "scalar"), ("scalar_kind", .string s.kind.name), ("value", s.literal)]
  | .string t => .object [("kind", .string "string"), ("value", .string t)]
  | .array items => .object [("kind", .string "array"), ("items", .array (Value.recordList items))]
  | .enumConst ref => .object [("kind", .string "enum"), ("ref", ref.payload)]
  | .classLiteral ref => .object [("kind", .string "class"), ("ref", ref.payload)]
  | .annot a => .object [("kind", .string "annotation"), ("annotation", Annot.record a)]
  | .absent => .object [("kind", .string "absent")]
termination_by structural v => v

/-- The fields of values. -/
def Value.recordList : List Value → List Json
  | [] => []
  | v :: rest => Value.record v :: Value.recordList rest
termination_by structural vs => vs

/-- The fields of an annotation inside a value. -/
def Annot.record : Annot → Json
  | ⟨name, none⟩ => .object [("name", .string name), ("parameters", .null)]
  | ⟨name, some parameters⟩ =>
    .object [("name", .string name), ("parameters", .array (Parameter.recordList parameters))]
termination_by structural a => a

/-- The fields of a parameter. -/
def Parameter.record : Parameter → Json
  | ⟨name, value⟩ => .object [("name", .string name), ("value", Value.record value)]
termination_by structural p => p

/-- The fields of parameters. -/
def Parameter.recordList : List Parameter → List Json
  | [] => []
  | p :: rest => Parameter.record p :: Parameter.recordList rest
termination_by structural ps => ps

end

/-! ## §2 Raw values

The whole of a record is gone through before any part of it is written. So a failure on the way, of
a key or of an annotation, comes before every part that has no stored form. -/

namespace Raw

/-- The text of a key. -/
def keyText (settings : Settings) : Raw → Except Failure Str
  | .text s => .ok s
  | raw =>
    match raw.text? settings with
    | some walk => liftWalk walk
    | none => raw.print.mapError .tooLong

/-- A part of a record, or why it has no stored form. -/
abbrev Form (α : Type) := Except Failure α

/-- The entries of a mapping, if each value has a stored form. -/
def entriesForm (entries : List (Str × Form Json)) : Form (List (Str × Json)) :=
  entries.mapM fun (key, form) => form.map (key, ·)

mutual

/-- The stored form of a raw value. -/
def form (settings : Settings) : Raw → Except Failure (Form Json)
  | .null => .ok (.ok .null)
  | .bool b => .ok (.ok (.bool b))
  | .int i => .ok (if isTooLong i then .error (.tooLong .toWrite) else .ok (.int i))
  | .float x => .ok (.ok (.float x))
  | .text s => .ok (.ok (.string s))
  | .list items => do
    let js ← formList settings items
    return js.map .array
  | .tuple items => do
    let js ← formList settings items
    return js.map .array
  | .mapping entries => do
    let es ← formEntries settings entries
    return (entriesForm (Entries.ofList es)).map .object
  | .set _ => .ok (.error (.storage .notStorable))
  | .bytes _ => .ok (.error (.storage .notStorable))
  | .foreign _ => .ok (.error (.storage .notStorable))
  | .enumConst ref => .ok (.ok ref.payload)
  | .classLiteral ref => .ok (.ok ref.payload)
  | .value v => .ok (.ok v.record)
  | .parameter p => .ok (.ok p.record)
  | .annot a => (liftWalk (a.payload settings 0)).map .ok
termination_by structural r => r

/-- The stored forms of items. -/
def formList (settings : Settings) : List Raw → Except Failure (Form (List Json))
  | [] => .ok (.ok [])
  | r :: rest => do
    let j ← form settings r
    let js ← formList settings rest
    return do return (← j) :: (← js)
termination_by structural rs => rs

/-- The stored forms of the values of entries, under the texts of their keys. -/
def formEntries (settings : Settings) :
    List (Raw × Raw) → Except Failure (List (Str × Form Json))
  | [] => .ok []
  | (k, v) :: rest => do
    let key ← keyText settings k
    let j ← form settings v
    let es ← formEntries settings rest
    return (key, j) :: es
termination_by structural es => es

end

/-- The stored form of a raw value as a record of its own. -/
def record (settings : Settings) (r : Raw) : Except Failure Json := do
  let form ← r.form settings
  form

theorem record_annot (settings : Settings) (a : Annot) :
    (Raw.annot a).record settings = liftWalk (a.payload settings 0) := by
  rw [record, form]
  cases a.payload settings 0 <;> rfl

end Raw

end AnnoTree
