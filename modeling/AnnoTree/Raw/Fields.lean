import AnnoTree.Annot.Building

/-!
# Objects given by their fields

References, parameters, annotations and values may be given as a mapping of fields. Every field is
looked at in the order of declaration, then the fields that are unknown in their own order, and all
that is wrong is reported together. A raw value that no value can hold is reported alone.

A list or a tuple of items is encoded. Of anything else that yields items, each item has to be a
value already.
-/

namespace AnnoTree

/-! ## §1 Fields -/

/-- The kinds of objects that have fields. -/
inductive ObjectKind where
  | scalar
  | string
  | array
  | enumValue
  | classValue
  | annotValue
  | absent
  | enumConst
  | classLiteral
  | parameter
  | annot
  deriving DecidableEq, Repr

/-- Entries of a mapping of fields. -/
abbrev FieldEntries := List (Raw × Raw)

/-- A field that is there is read, and a field that is missing is an issue. -/
def requiredField {α : Type} (name : Str) (entries : FieldEntries)
    (read : Raw → Except Failure (Field α)) : Except Failure (Field α) :=
  match Raw.field? name entries with
  | some raw => read raw
  | none => .ok (.error [⟨[name], .missing⟩])

/-- A text under a name. -/
def readText (name : Str) (raw : Raw) : Except Failure (Field Str) :=
  .ok (textField name raw)

/-- The tag of an object, which may be left out but must be its own. -/
def tagIssues (tag : Str) (entries : FieldEntries) : List FieldIssue :=
  match Raw.field? "kind" entries with
  | none => []
  | some (.text s) => if s = tag then [] else [⟨["kind"], .literalError⟩]
  | some _ => [⟨["kind"], .literalError⟩]

/-- The name of a field whose key is no text: a number, or the key as messages show it. -/
def keyName : Raw → Str
  | .bool b => if b then "1" else "0"
  | key =>
    match key.print with
    | .ok text => text
    | .error _ => "<unprintable " ++ key.typeName ++ " object>"

/-- The issues of fields that no object of a kind has. -/
def extraIssues (known : List Str) (entries : FieldEntries) : List FieldIssue :=
  entries.filterMap fun e =>
    match e.1 with
    | .text k => if known.contains k then none else some ⟨[k], .extraForbidden⟩
    | key => some ⟨[keyName key], .invalidKey⟩

/-- The object of a field result, unless there are issues before or after it. -/
def closeFields {α : Type} (before : List FieldIssue) (field : Field α) (after : List FieldIssue) :
    Field α :=
  match before ++ issuesOf field ++ after with
  | [] => field
  | issues => .error issues

/-- The issue of a raw value that is no object of the kind. -/
def notObject {α : Type} : Field α :=
  .error [⟨[], .modelType⟩]

/-- A nested object under a name. -/
def nested {α : Type} (name : Str) (r : Except Failure (Field α)) : Except Failure (Field α) :=
  r.map (·.mapError (FieldIssue.below name))

/-! ## §2 References -/

/-- The enum constant that a raw value is or gives the fields of. -/
def EnumConst.ofFields (raw : Raw) : Except Failure (Field EnumConst) :=
  match raw with
  | .enumConst ref => .ok (.ok ref)
  | .mapping entries => do
    let typeName ← requiredField "type_name" entries (readText "type_name")
    let constantName ← requiredField "constant_name" entries (readText "constant_name")
    return closeFields [] (bothFields EnumConst.mk typeName constantName)
      (extraIssues ["type_name", "constant_name"] entries)
  | _ => .ok notObject

/-- The class literal that a raw value is or gives the fields of. -/
def ClassLiteral.ofFields (raw : Raw) : Except Failure (Field ClassLiteral) :=
  match raw with
  | .classLiteral ref => .ok (.ok ref)
  | .mapping entries => do
    let descriptor ← requiredField "type_descriptor" entries (readText "type_descriptor")
    return closeFields [] (descriptor.map ClassLiteral.mk) (extraIssues ["type_descriptor"] entries)
  | _ => .ok notObject

/-! ## §3 Parameters and annotations -/

/-- The parameter that a raw value is or gives the fields of; its value may be left out. -/
def Parameter.ofFields (settings : Settings) (raw : Raw) : Except Failure (Field Parameter) :=
  match raw with
  | .parameter p => .ok (.ok p)
  | .mapping entries => do
    let name ← requiredField "name" entries (readText "name")
    let value ← fieldOf "value" (((Raw.field? "value" entries).getD .null).encode settings 0)
    return closeFields [] (bothFields Parameter.mk name value)
      (extraIssues ["name", "value"] entries)
  | _ => .ok notObject

/-- The annotation that a raw value is or gives the fields of; its parameters may be left out. -/
def Annot.ofFields (settings : Settings) (raw : Raw) : Except Failure (Field Annot) :=
  match raw with
  | .annot a => .ok (.ok a)
  | .mapping entries => do
    let name ← requiredField "name" entries (readText "name")
    let parameters ← fieldOf "parameters"
      (Parameter.sortedOfRaw settings ((Raw.field? "parameters" entries).getD .null))
    return closeFields [] (bothFields Annot.mk name parameters)
      (extraIssues ["name", "parameters"] entries)
  | _ => .ok notObject

/-! ## §4 Values -/

/-- The value that a raw value holds already. -/
def Raw.encoded? : Raw → Option Value
  | .value v => some v
  | _ => none

/-- The modules whose objects are plain data. -/
def plainModules : List Str := [Raw.plainModule, "datetime", "collections"]

/-- The module of a full class name; a name without a dot is of the module of plain data. -/
def moduleOf (className : Str) : Str :=
  match className.toList.reverse.dropWhile (· != CodePoint.char '.') with
  | [] => Raw.plainModule
  | _ :: reversed => Str.ofList reversed.reverse

/-- What is wrong with an item that is no value. -/
def itemFault : Raw → FieldFault
  | .enumConst _ => .unionTagNotFound
  | .classLiteral _ => .unionTagNotFound
  | .parameter _ => .unionTagNotFound
  | .annot _ => .unionTagNotFound
  | .foreign name =>
    if plainModules.contains (moduleOf name) then .modelAttributesType else .unionTagNotFound
  | _ => .modelAttributesType

/-- The issue of an item that is no value, by its index. -/
def itemIssue (item : Raw) (index : Nat) : Option FieldIssue :=
  match item.encoded? with
  | some _ => none
  | none => some ⟨["items", toString index], itemFault item⟩

/-- Items that have to be values already. -/
def encodedItems (items : List Raw) : Field (List Value) :=
  match items.zipIdx.filterMap fun (item, index) => itemIssue item index with
  | [] => .ok (items.filterMap Raw.encoded?)
  | issues => .error issues

/-- The items of an array field. -/
def itemsOfRaw (settings : Settings) (raw : Raw) : Except Failure (Field (List Value)) :=
  match raw with
  | .list items => fieldOf "items" (items.mapM (Raw.encode settings 0))
  | .tuple items => fieldOf "items" (items.mapM (Raw.encode settings 0))
  | .text _ => .ok (.error [⟨["items"], .tupleType⟩])
  | .bytes _ => .ok (.error [⟨["items"], .tupleType⟩])
  | .mapping _ => .ok (.error [⟨["items"], .tupleType⟩])
  | raw =>
    match raw.items? with
    | some items => .ok (encodedItems items)
    | none => .ok (.error [⟨["items"], .tupleType⟩])

/-- The scalar that a raw value gives the fields of. Its kind and its literal are looked at before
any other field. -/
def Scalar.ofFields (settings : Settings) (entries : FieldEntries) :
    Except Failure (Field Value) :=
  match Scalar.kindOfRaw settings ((Raw.field? "scalar_kind" entries).getD .null) with
  | .error (.tooDeep e) => .error (.tooDeep e)
  | .error _ => .ok (.error [⟨[], .valueError⟩])
  | .ok kind =>
    match Scalar.ofRaw kind ((Raw.field? "value" entries).getD .null) with
    | .error (.unsupported u) => .error (.unsupported u)
    | .error .unworded => .ok (.error [⟨[], .valueError⟩])
    | .ok s =>
      .ok (closeFields (tagIssues "scalar" entries) (.ok (.scalar s))
        (extraIssues ["kind", "scalar_kind", "value"] entries))

/-- The kind of object that a value is. -/
def Value.objectKind : Value → ObjectKind
  | .scalar _ => .scalar
  | .string _ => .string
  | .array _ => .array
  | .enumConst _ => .enumValue
  | .classLiteral _ => .classValue
  | .annot _ => .annotValue
  | .absent => .absent

/-- The value of a kind that entries give the fields of. -/
def Value.ofEntries (settings : Settings) (kind : ObjectKind) (entries : FieldEntries) :
    Except Failure (Field Value) :=
  match kind with
  | .scalar => Scalar.ofFields settings entries
  | .string => do
    let text ← requiredField "value" entries (readText "value")
    return closeFields (tagIssues "string" entries) (text.map .string)
      (extraIssues ["kind", "value"] entries)
  | .array => do
    let items ← match Raw.field? "items" entries with
      | some raw => itemsOfRaw settings raw
      | none => .ok (.ok [])
    return closeFields (tagIssues "array" entries) (items.map .array)
      (extraIssues ["kind", "items"] entries)
  | .enumValue => do
    let ref ← requiredField "ref" entries fun raw => nested "ref" (EnumConst.ofFields raw)
    return closeFields (tagIssues "enum" entries) (ref.map .enumConst)
      (extraIssues ["kind", "ref"] entries)
  | .classValue => do
    let ref ← requiredField "ref" entries fun raw => nested "ref" (ClassLiteral.ofFields raw)
    return closeFields (tagIssues "class" entries) (ref.map .classLiteral)
      (extraIssues ["kind", "ref"] entries)
  | .annotValue => do
    let a ← requiredField "annotation" entries fun raw =>
      nested "annotation" (Annot.ofFields settings raw)
    return closeFields (tagIssues "annotation" entries) (a.map .annot)
      (extraIssues ["kind", "annotation"] entries)
  | .absent =>
    .ok (closeFields (tagIssues "absent" entries) (.ok .absent) (extraIssues ["kind"] entries))
  | _ => .ok notObject

/-- The value of a kind that a raw value is or gives the fields of. -/
def Value.ofFields (settings : Settings) (kind : ObjectKind) (raw : Raw) :
    Except Failure (Field Value) :=
  match raw with
  | .value v => if v.objectKind = kind then .ok (.ok v) else .ok notObject
  | .mapping entries => Value.ofEntries settings kind entries
  | _ => .ok notObject

/-! ## §5 Objects of any kind -/

/-- The issues of a field result as a failure. -/
def settleFields {α : Type} (r : Except Failure (Field α)) : Except Failure α :=
  match r with
  | .error e => .error e
  | .ok (.ok x) => .ok x
  | .ok (.error issues) => .error (.fields issues)

/-- The object of a kind that a raw value is or gives the fields of. -/
def Raw.asObject (settings : Settings) (kind : ObjectKind) (raw : Raw) : Except Failure Raw :=
  match kind with
  | .enumConst => (settleFields (EnumConst.ofFields raw)).map .enumConst
  | .classLiteral => (settleFields (ClassLiteral.ofFields raw)).map .classLiteral
  | .parameter => (settleFields (Parameter.ofFields settings raw)).map .parameter
  | .annot => (settleFields (Annot.ofFields settings raw)).map .annot
  | kind => (settleFields (Value.ofFields settings kind raw)).map .value

/-- The enum constant of two raw names. -/
def EnumConst.ofRaw (typeName constantName : Raw) : Except Failure EnumConst :=
  settleFields (EnumConst.ofFields
    (.mapping [(.text "type_name", typeName), (.text "constant_name", constantName)]))

/-- The class literal of a raw descriptor. -/
def ClassLiteral.ofRaw (descriptor : Raw) : Except Failure ClassLiteral :=
  settleFields (ClassLiteral.ofFields (.mapping [(.text "type_descriptor", descriptor)]))

/-- The string value of a raw text. -/
def Value.stringOfRaw (settings : Settings) (text : Raw) : Except Failure Value :=
  settleFields (Value.ofFields settings .string (.mapping [(.text "value", text)]))

end AnnoTree
