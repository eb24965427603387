import AnnoTree.Annot.Building
import AnnoTree.Json.Basic

/-!
# Loading annotations

The annotation of a stored form. An annotation has a name and perhaps a list of parameters, a
parameter a name and perhaps a value, and a value at most one key, which says what it is. Nothing
else may be there.

The parameters of what is loaded are sorted again, so a stored form in any order is accepted.
-/

namespace AnnoTree

open AnnoTree.Text

/-! ## §1 Fields of stored objects -/

/-- A failure of a stored form. -/
def payloadFault {α : Type} (f : PayloadFault) : Except Failure α :=
  .error (.payload f)

/-- The keys that are not among those allowed, in ascending order. -/
def unknownKeys (allowed : List Str) (entries : List (Str × Json)) : List Str :=
  sortedSet ((Entries.keys entries).filter (!allowed.contains ·))

/-- The value under a key, null if there is none. -/
def fieldOrNull (key : Str) (entries : List (Str × Json)) : Json :=
  (Entries.get? key entries).getD .null

/-- The issues of text fields of a stored object, in the order of the fields, and of its keys that
are no fields, in their own order. -/
def textFieldIssues (fields : List Str) (entries : List (Str × Json)) : List FieldIssue :=
  (fields.filterMap fun f =>
    match Entries.get? f entries with
    | none => some ⟨[f], .missing⟩
    | some (.string _) => none
    | some _ => some ⟨[f], .stringType⟩) ++
  ((Entries.keys entries).filter (!fields.contains ·)).map fun k => ⟨[k], .extraForbidden⟩

/-- The text under a key. -/
def textAt (key : Str) (entries : List (Str × Json)) : Str :=
  match Entries.get? key entries with
  | some (.string s) => s
  | _ => ""

/-- The enum constant of a stored form. -/
def EnumConst.ofPayload : Json → Except (List FieldIssue) EnumConst
  | .object entries =>
    match textFieldIssues ["type_name", "constant_name"] entries with
    | [] => .ok ⟨textAt "type_name" entries, textAt "constant_name" entries⟩
    | issues => .error issues
  | _ => .error [⟨[], .modelType⟩]

/-- The class literal of a stored form. -/
def ClassLiteral.ofPayload : Json → Except (List FieldIssue) ClassLiteral
  | .object entries =>
    match textFieldIssues ["type_descriptor"] entries with
    | [] => .ok ⟨textAt "type_descriptor" entries⟩
    | issues => .error issues
  | _ => .error [⟨[], .modelType⟩]

/-! ## §2 Kinds of stored values -/

/-- What the key of a stored value announces. -/
inductive PayloadKey where
  | scalar (kind : ScalarKind)
  | string
  | array
  | enumConst
  | classLiteral
  | annot
  deriving DecidableEq, Repr

/-- The kind of value that a key announces. -/
def PayloadKey.ofName? (key : Str) : Option PayloadKey :=
  match ScalarKind.ofName? key with
  | some k => some (.scalar k)
  | none =>
    if key = "string" then some .string
    else if key = "array" then some .array
    else if key = "enum_value" then some .enumConst
    else if key = "class_ref" then some .classLiteral
    else if key = "annotation" then some .annot
    else none

/-- The single key of a stored value; none if it has no key at all. -/
def singleEntry (entries : List (Str × Json)) :
    Except Failure (Option (Str × PayloadKey × Json)) :=
  match sortedSet ((Entries.keys entries).filter fun k => (PayloadKey.ofName? k).isNone) with
  | unknown :: more => payloadFault (.unknownFields .value (unknown :: more))
  | [] =>
    match entries with
    | [] => .ok none
    | [(key, j)] => .ok ((PayloadKey.ofName? key).map fun k => (key, k, j))
    | entries => payloadFault (.severalFields (sortedSet (Entries.keys entries)))

/-! ## §3 Values and annotations -/

mutual

/-- The value of a stored form at a level. -/
def Value.load (settings : Settings) (depth : Int) : Json → Except Failure Value
  | .null => .ok .absent
  | .object entries =>
    match singleEntry entries with
    | .error e => .error e
    | .ok none => .ok .absent
    | .ok (some _) => Value.loadSingle settings depth entries
  | j => payloadFault (.notMapping .value j.typeName)
termination_by structural j => j

/-- The value of a stored form with one key. -/
def Value.loadSingle (settings : Settings) (depth : Int) :
    List (Str × Json) → Except Failure Value
  | [(key, j)] =>
    match PayloadKey.ofName? key with
    | some (.scalar kind) =>
      match Scalar.ofRaw kind (.ofJson j) with
      | .ok s => .ok (.scalar s)
      | .error f => payloadFault (f.below key)
    | some .string =>
      match j with
      | .string s => .ok (.string s)
      | j => payloadFault (.stringNotText j.typeName)
    | some .array => Value.loadArray settings depth j
    | some .enumConst =>
      match EnumConst.ofPayload j with
      | .ok e => .ok (.enumConst e)
      | .error issues => payloadFault (.faultyFields key issues)
    | some .classLiteral =>
      match ClassLiteral.ofPayload j with
      | .ok c => .ok (.classLiteral c)
      | .error issues => payloadFault (.faultyFields key issues)
    | some .annot => (Annot.load settings (depth + 1) j).map .annot
    | none => .ok .absent
  | _ => .ok .absent
termination_by structural es => es

/-- The array of a stored list at a level. -/
def Value.loadArray (settings : Settings) (depth : Int) : Json → Except Failure Value
  | .array items => do
    liftWalk (checkDepth settings depth .deserialize)
    let vs ← Value.loadList settings (depth + 1) items
    return .array vs
  | j => payloadFault (.arrayNotList j.typeName)
termination_by structural j => j

/-- The values of stored forms at a level. -/
def Value.loadList (settings : Settings) (depth : Int) : List Json → Except Failure (List Value)
  | [] => .ok []
  | j :: rest => do
    let v ← Value.load settings depth j
    let vs ← Value.loadList settings depth rest
    return v :: vs
termination_by structural js => js

/-- The annotation of a stored form at a level. -/
def Annot.load (settings : Settings) (depth : Int) : Json → Except Failure Annot
  | .object entries =>
    match unknownKeys ["name", "parameters"] entries with
    | unknown :: more => payloadFault (.unknownFields .annot (unknown :: more))
    | [] =>
      match Entries.get? ("name" : Str) entries with
      | some (.string name) =>
        if name = "" then payloadFault .unnamedAnnot
        else do
          liftWalk (checkDepth settings depth .deserialize)
          let parameters ← Annot.loadParameters settings depth entries
          match parameters with
          | none => return ⟨name, none⟩
          | some ps => liftWalk (Annot.ofParameters settings name ps)
      | _ => payloadFault .unnamedAnnot
  | j => payloadFault (.notMapping .annot j.typeName)
termination_by structural j => j

/-- The parameters among the entries of a stored annotation. -/
def Annot.loadParameters (settings : Settings) (depth : Int) :
    List (Str × Json) → Except Failure (Option (List Parameter))
  | [] => .ok none
  | (key, j) :: rest =>
    if key = "parameters" then Parameter.loadField settings depth j
    else Annot.loadParameters settings depth rest
termination_by structural es => es

/-- The parameters of the stored list of an annotation. -/
def Parameter.loadField (settings : Settings) (depth : Int) :
    Json → Except Failure (Option (List Parameter))
  | .null => .ok none
  | .array items => (Parameter.loadList settings depth items).map some
  | _ => payloadFault .parametersNotList
termination_by structural j => j

/-- The parameters of stored forms. -/
def Parameter.loadList (settings : Settings) (depth : Int) :
    List Json → Except Failure (List Parameter)
  | [] => .ok []
  | j :: rest => do
    let p ← Parameter.load settings depth j
    let ps ← Parameter.loadList settings depth rest
    return p :: ps
termination_by structural js => js

/-- The parameter of a stored form. -/
def Parameter.load (settings : Settings) (depth : Int) : Json → Except Failure Parameter
  | .object entries =>
    match Entries.get? ("name" : Str) entries with
    | some (.string name) =>
      match unknownKeys ["name", "value"] entries with
      | unknown :: more => payloadFault (.unknownFields .parameter (unknown :: more))
      | [] => (Value.loadField settings depth entries).map fun v => ⟨name, v⟩
    | _ => payloadFault .unnamedParameter
  | _ => payloadFault .unnamedParameter
termination_by structural j => j

/-- The value among the entries of a stored parameter. -/
def Value.loadField (settings : Settings) (depth : Int) :
    List (Str × Json) → Except Failure Value
  | [] => .ok .absent
  | (key, j) :: rest =>
    if key = "value" then Value.load settings depth j
    else Value.loadField settings depth rest
termination_by structural es => es

end

end AnnoTree
