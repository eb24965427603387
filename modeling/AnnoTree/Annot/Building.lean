import AnnoTree.Value.Encoding
import AnnoTree.Value.Key

/-!
# Building annotations

An annotation keeps its parameters in ascending order, equal ones in the order in which they came.
Parameters may be given as a mapping, or as a sequence of parameters and of pairs of a name and a
raw value.

Sorting two parameters or more makes the key of each, so it fails if one of their values is too
deep to be rendered; a single parameter is not looked at.
-/

namespace AnnoTree

/-! ## §1 Sorting -/

/-- Whether one keyed parameter may stand before another. -/
def keyedLe (a b : ParameterKey × Parameter) : Bool :=
  a.1.compare b.1 != .gt

/-- A parameter with its key. -/
def Parameter.keyed (settings : Settings) (p : Parameter) :
    Except TooDeep (ParameterKey × Parameter) :=
  (p.key settings 0).map (·, p)

/-- The parameters in ascending order. -/
def Parameter.sorted (settings : Settings) (parameters : List Parameter) :
    Except TooDeep (List Parameter) :=
  match parameters with
  | [] => .ok []
  | [p] => .ok [p]
  | ps => do
    let keyed ← ps.mapM (Parameter.keyed settings)
    return (keyed.mergeSort keyedLe).map (·.2)

/-- The annotation of a name and known parameters. -/
def Annot.ofParameters (settings : Settings) (name : Str) (parameters : List Parameter) :
    Except TooDeep Annot :=
  (Parameter.sorted settings parameters).map fun ps => ⟨name, some ps⟩

/-- The annotation of a name of whose parameters nothing is known. -/
def Annot.ofName (name : Str) : Annot :=
  ⟨name, none⟩

/-! ## §2 Fields -/

/-- What is read from a field: a result, or the issues that stand in its way. -/
abbrev Field (α : Type) := Except (List FieldIssue) α

/-- The issues of a field. -/
def issuesOf {α : Type} : Field α → List FieldIssue
  | .ok _ => []
  | .error issues => issues

/-- Two fields together. -/
def bothFields {α β γ : Type} (f : α → β → γ) (a : Field α) (b : Field β) : Field γ :=
  match a, b with
  | .ok x, .ok y => .ok (f x y)
  | a, b => .error (issuesOf a ++ issuesOf b)

theorem bothFields_eq_ok {α β γ : Type} {f : α → β → γ} {a : Field α} {b : Field β} {z : γ} :
    bothFields f a b = .ok z ↔ ∃ x y, a = .ok x ∧ b = .ok y ∧ f x y = z := by
  cases a <;> cases b <;> simp [bothFields]

/-- What is made under a name, or what is wrong with its fields; any other failure is final. -/
def fieldOf {α : Type} (name : Str) (r : Except Failure α) : Except Failure (Field α) :=
  match r with
  | .ok x => .ok (.ok x)
  | .error (.fields issues) => .ok (.error (FieldIssue.below name issues))
  | .error e => .error e

theorem fieldOf_eq_ok {α : Type} {name : Str} {r : Except Failure α} {x : α} :
    fieldOf name r = .ok (.ok x) ↔ r = .ok x := by
  unfold fieldOf
  split <;> simp

/-- The text of a field that has to be one, or the octets of one. -/
def textField (field : Str) : Raw → Field Str
  | .text s => .ok s
  | .bytes octets =>
    match Text.decodeUtf8 octets with
    | .whole text => .ok (String.ofList text)
    | _ => .error [⟨[field], .stringUnicode⟩]
  | _ => .error [⟨[field], .stringType⟩]

/-! ## §3 Parameters of raw values -/

/-- The parameter of a raw name and a raw value. The value is encoded before the name is judged. -/
def Parameter.ofRaw (settings : Settings) (name value : Raw) : Except Failure Parameter := do
  let v ← fieldOf "value" (value.encode settings 0)
  (bothFields Parameter.mk (textField "name" name) v).mapError .fields

/-- The fields of an object, in order, as pairs of a name and a raw value. -/
def fieldPairs (fields : List (Str × Raw)) : List Raw :=
  fields.map fun (name, value) => .tuple [.text name, value]

/-- The fields of a value. -/
def Value.fieldItems : Value → List Raw
  | .scalar s =>
    fieldPairs [("kind", .text "scalar"), ("scalar_kind", .text s.kind.name), ("value", s.unwrap)]
  | .string t => fieldPairs [("kind", .text "string"), ("value", .text t)]
  | .array items =>
    fieldPairs [("kind", .text "array"), ("items", .tuple (items.map .value))]
  | .enumConst ref => fieldPairs [("kind", .text "enum"), ("ref", .enumConst ref)]
  | .classLiteral ref => fieldPairs [("kind", .text "class"), ("ref", .classLiteral ref)]
  | .annot a => fieldPairs [("kind", .text "annotation"), ("annotation", .annot a)]
  | .absent => fieldPairs [("kind", .text "absent")]

/-- The items that a raw value yields one by one; none if it is no sequence of any kind. -/
def Raw.items? : Raw → Option (List Raw)
  | .list items => some items
  | .tuple items => some items
  | .set items => some items
  | .text s => some (s.toList.map fun c => .text (Str.singleton c))
  | .bytes octets => some (octets.map fun b => .int b.toNat)
  | .mapping entries => some (entries.map (·.1))
  | .enumConst ref =>
    some (fieldPairs [("type_name", .text ref.typeName), ("constant_name", .text ref.constantName)])
  | .classLiteral ref => some (fieldPairs [("type_descriptor", .text ref.descriptor)])
  | .parameter p => some (fieldPairs [("name", .text p.name), ("value", .value p.value)])
  | .annot a =>
    let parameters := match a.parameters with
      | none => .null
      | some ps => .tuple (ps.map .parameter)
    some (fieldPairs [("name", .text a.name), ("parameters", parameters)])
  | .value v => some v.fieldItems
  | _ => none

/-- The parameter that an item of a sequence stands for. -/
def Parameter.ofItem (settings : Settings) (item : Raw) : Except Failure Parameter :=
  match item with
  | .parameter p => .ok p
  | .tuple [.text name, value] => Parameter.ofRaw settings (.text name) value
  | item => .error (.unsupported ⟨item.typeName, some .notParameter⟩)

/-- The parameters that a raw value stands for; none if nothing is known of them. -/
def Parameter.listOfRaw (settings : Settings) (raw : Raw) :
    Except Failure (Option (List Parameter)) :=
  match raw with
  | .null => .ok none
  | .mapping entries =>
    (entries.mapM fun e => Parameter.ofRaw settings e.1 e.2).map some
  | raw =>
    match raw.items? with
    | some items => (items.mapM (Parameter.ofItem settings)).map some
    | none => .error (.misuse .notIterable)

/-! ## §4 Annotations of raw values -/

/-- The sorted parameters that a raw value stands for; none if nothing is known of them. -/
def Parameter.sortedOfRaw (settings : Settings) (raw : Raw) :
    Except Failure (Option (List Parameter)) := do
  match ← Parameter.listOfRaw settings raw with
  | none => return none
  | some ps => (liftWalk (Parameter.sorted settings ps)).map some

/-- The annotation of a raw name and raw parameters. -/
def Annot.ofRaw (settings : Settings) (name parameters : Raw) : Except Failure Annot := do
  let sorted ← fieldOf "parameters" (Parameter.sortedOfRaw settings parameters)
  (bothFields Annot.mk (textField "name" name) sorted).mapError .fields

end AnnoTree
