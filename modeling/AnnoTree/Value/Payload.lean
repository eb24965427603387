import AnnoTree.Json.Basic
import AnnoTree.Nesting
import AnnoTree.Value.Basic

/-!
# Payloads

The stored form of annotations. A value is an object with one key, which says what the value is;
an absent value is the empty object. Levels count as in renderings.
-/

namespace AnnoTree

/-- The stored form of an enum constant. -/
def EnumConst.payload (e : EnumConst) : Json :=
  .object [("type_name", .string e.typeName), ("constant_name", .string e.constantName)]

/-- The stored form of a class literal: its descriptor as it was spelled. -/
def ClassLiteral.payload (c : ClassLiteral) : Json :=
  .object [("type_descriptor", .string c.descriptor)]

/-- An object with one entry. -/
def Json.single (key : Str) (j : Json) : Json :=
  .object [(key, j)]

mutual

/-- The stored form of a value at a level. -/
def Value.payload (settings : Settings) (depth : Nat) : Value → Except TooDeep Json
  | .scalar s => .ok (.single s.kind.name s.literal)
  | .string t => .ok (.single "string" (.string t))
  | .array items => do
    checkDepth settings depth .serialize
    let js ← Value.payloadList settings (depth + 1) items
    return .single "array" (.array js)
  | .enumConst ref => .ok (.single "enum_value" ref.payload)
  | .classLiteral ref => .ok (.single "class_ref" ref.payload)
  | .annot a => do
    let j ← Annot.payload settings (depth + 1) a
    return .single "annotation" j
  | .absent => .ok (.object [])
termination_by structural v => v

/-- The stored forms of values at a level. -/
def Value.payloadList (settings : Settings) (depth : Nat) :
    List Value → Except TooDeep (List Json)
  | [] => .ok []
  | v :: rest => do
    let j ← Value.payload settings depth v
    let js ← Value.payloadList settings depth rest
    return j :: js
termination_by structural vs => vs

/-- The stored form of an annotation at a level. -/
def Annot.payload (settings : Settings) (depth : Nat) : Annot → Except TooDeep Json
  | ⟨name, none⟩ => do
    checkDepth settings depth .serialize
    return .object [("name", .string name), ("parameters", .null)]
  | ⟨name, some parameters⟩ => do
    checkDepth settings depth .serialize
    let js ← Parameter.payloadList settings depth parameters
    return .object [("name", .string name), ("parameters", .array js)]
termination_by structural a => a

/-- The stored form of a parameter at a level. -/
def Parameter.payload (settings : Settings) (depth : Nat) : Parameter → Except TooDeep Json
  | ⟨name, value⟩ => do
    let j ← Value.payload settings depth value
    return .object [("name", .string name), ("value", j)]
termination_by structural p => p

/-- The stored forms of parameters at a level. -/
def Parameter.payloadList (settings : Settings) (depth : Nat) :
    List Parameter → Except TooDeep (List Json)
  | [] => .ok []
  | p :: rest => do
    let j ← Parameter.payload settings depth p
    let js ← Parameter.payloadList settings depth rest
    return j :: js
termination_by structural ps => ps

end

end AnnoTree
