import AnnoTree.Raw.Basic

/-!
# Raw values in messages

How a message shows a raw value: every constituent in full, texts in quotes. A value with an integer
that is too long cannot be shown.
-/

namespace AnnoTree

open AnnoTree.Text

/-- Fields of an object as messages show it. -/
def shownObject (className : Str) (fields : List (Str × Str)) : Str :=
  className ++ "(" ++ joinWith ", " (fields.map fun f => f.1 ++ "=" ++ f.2) ++ ")"

/-- A tuple as messages show it: a single item keeps its comma. -/
def shownTuple : List Str → Str
  | [s] => "(" ++ s ++ ",)"
  | items => "(" ++ joinWith ", " items ++ ")"

/-- An enum constant as messages show it. -/
def EnumConst.shown (e : EnumConst) : Str :=
  shownObject "EnumConstantRef"
    [("type_name", quoted e.typeName), ("constant_name", quoted e.constantName)]

/-- A class literal as messages show it. -/
def ClassLiteral.shown (c : ClassLiteral) : Str :=
  shownObject "ClassRef" [("type_descriptor", quoted c.descriptor)]

/-- A truth value as messages show it. -/
def shownBool (b : Bool) : Str :=
  if b then "True" else "False"

/-- The name of a scalar kind as a constant. -/
def ScalarKind.shown (k : ScalarKind) : Str :=
  "<ScalarKind." ++ k.name.toUpper ++ ": " ++ quoted k.name ++ ">"

/-- The literal of a scalar as messages show it. -/
def Scalar.shownLiteral : Scalar → Str
  | .integer _ i _ => toString i
  | .boolean b => shownBool b
  | .floating _ x => x.text Double.shortNames
  | .char c _ => quoted (Str.singleton c)

mutual

/-- A value as messages show it. -/
def Value.shown : Value → Str
  | .scalar s =>
    shownObject "ScalarValue" [("kind", quoted "scalar"), ("scalar_kind", s.kind.shown),
      ("value", s.shownLiteral)]
  | .string t => shownObject "StringValue" [("kind", quoted "string"), ("value", quoted t)]
  | .array items =>
    shownObject "ArrayValue"
      [("kind", quoted "array"), ("items", shownTuple (Value.shownList items))]
  | .enumConst ref => shownObject "EnumValue" [("kind", quoted "enum"), ("ref", ref.shown)]
  | .classLiteral ref => shownObject "ClassValue" [("kind", quoted "class"), ("ref", ref.shown)]
  | .annot a =>
    shownObject "AnnotationValue" [("kind", quoted "annotation"), ("annotation", a.shown)]
  | .absent => shownObject "AbsentValue" [("kind", quoted "absent")]
termination_by structural v => v

/-- Values as messages show them. -/
def Value.shownList : List Value → List Str
  | [] => []
  | v :: rest => Value.shown v :: Value.shownList rest
termination_by structural vs => vs

/-- An annotation as messages show it. -/
def Annot.shown : Annot → Str
  | ⟨name, none⟩ =>
    shownObject "AnnotationInstance" [("name", quoted name), ("parameters", "None")]
  | ⟨name, some parameters⟩ =>
    shownObject "AnnotationInstance"
      [("name", quoted name), ("parameters", shownTuple (Parameter.shownList parameters))]
termination_by structural a => a

/-- A parameter as messages show it. -/
def Parameter.shown : Parameter → Str
  | ⟨name, value⟩ =>
    shownObject "AnnotationParameter" [("name", quoted name), ("value", Value.shown value)]
termination_by structural p => p

/-- Parameters as messages show them. -/
def Parameter.shownList : List Parameter → List Str
  | [] => []
  | p :: rest => Parameter.shown p :: Parameter.shownList rest
termination_by structural ps => ps

end

/-- An octet inside quotes. -/
def shownOctet (quote : Char) (b : Octet) : List Char :=
  let c := Char.ofNat b.toNat
  if c = quote || c = '\\' then ['\\', c]
  else if c = '\n' then ['\\', 'n']
  else if c = '\r' then ['\\', 'r']
  else if c = '\t' then ['\\', 't']
  else if 0x20 ≤ b.toNat && b.toNat < 0x7F then [c]
  else '\\' :: 'x' :: hexDigits 2 b.toNat

/-- Octets as messages show them. -/
def shownOctets (octets : List Octet) : String :=
  let cs := octets.map fun b => Char.ofNat b.toNat
  let quote := if cs.contains '\'' && !cs.contains '"' then '"' else '\''
  String.ofList ('b' :: quote :: (octets.flatMap (shownOctet quote) ++ [quote]))

namespace Raw

mutual

/-- A raw value as messages show it. -/
def shown : Raw → Str
  | .null => "None"
  | .bool b => shownBool b
  | .int i => toString i
  | .float x => x.text Double.shortNames
  | .text s => quoted s
  | .list items => "[" ++ joinWith ", " (shownList items) ++ "]"
  | .tuple items => shownTuple (shownList items)
  | .mapping entries => "\x7b" ++ joinWith ", " (shownEntries entries) ++ "\x7d"
  | .set [] => "set()"
  | .set (item :: rest) => "\x7b" ++ joinWith ", " (shown item :: shownList rest) ++ "\x7d"
  | .bytes octets => shownOctets octets
  | .foreign name => "<" ++ name ++ " object>"
  | .enumConst ref => ref.shown
  | .classLiteral ref => ref.shown
  | .value v => v.shown
  | .parameter p => p.shown
  | .annot a => a.shown
termination_by structural r => r

/-- Raw values as messages show them. -/
def shownList : List Raw → List Str
  | [] => []
  | r :: rest => shown r :: shownList rest
termination_by structural rs => rs

/-- Entries as messages show them. -/
def shownEntries : List (Raw × Raw) → List Str
  | [] => []
  | (k, v) :: rest => (shown k ++ ": " ++ shown v) :: shownEntries rest
termination_by structural es => es

end

mutual

/-- Whether an integer in a raw value is too long. -/
def hasTooLong : Raw → Bool
  | .int i => isTooLong i
  | .list items => hasTooLongList items
  | .tuple items => hasTooLongList items
  | .set items => hasTooLongList items
  | .mapping entries => hasTooLongEntries entries
  | _ => false
termination_by structural r => r

/-- Whether an integer in one of the raw values is too long. -/
def hasTooLongList : List Raw → Bool
  | [] => false
  | r :: rest => hasTooLong r || hasTooLongList rest
termination_by structural rs => rs

/-- Whether an integer in one of the keys or values is too long. -/
def hasTooLongEntries : List (Raw × Raw) → Bool
  | [] => false
  | (k, v) :: rest => hasTooLong k || hasTooLong v || hasTooLongEntries rest
termination_by structural es => es

end

/-- A raw value as messages show it, if it can be shown. -/
def print (r : Raw) : Except TooLong Str :=
  if r.hasTooLong then .error .toWrite else .ok r.shown

end Raw

end AnnoTree
