import AnnoTree.Text.Split
import AnnoTree.Text.Utf8
import AnnoTree.Value.Basic

/-!
# Raw values

What a producer hands over before it is encoded: plain data of a dynamic kind, among it references,
parameters, annotations and values that are encoded already. Not all of it can be a value of an
annotation, and `typeName` says in messages what it was.
-/

namespace AnnoTree

open AnnoTree.Text

/-- A value of a producer. -/
inductive Raw where
  | null
  | bool (b : Bool)
  | int (i : Int)
  | float (x : Double)
  | text (s : Str)
  | list (items : List Raw)
  | tuple (items : List Raw)
  | mapping (entries : List (Raw × Raw))
  | set (items : List Raw)
  | bytes (octets : List Octet)
  /-- An object of a class that annotations know nothing of, by the full name of the class. -/
  | foreign (className : Str)
  | enumConst (ref : EnumConst)
  | classLiteral (ref : ClassLiteral)
  | value (v : Value)
  | parameter (p : Parameter)
  | annot (a : Annot)

instance : Inhabited Raw := ⟨.null⟩

namespace Raw

/-! ## §1 Names of types -/

/-- The class of a value in messages, without its module. -/
def valueClass : Value → Str
  | .scalar _ => "ScalarValue"
  | .string _ => "StringValue"
  | .array _ => "ArrayValue"
  | .enumConst _ => "EnumValue"
  | .classLiteral _ => "ClassValue"
  | .annot _ => "AnnotationValue"
  | .absent => "AbsentValue"

/-- The module of plain data, which messages leave out. -/
def plainModule : Str := "builtins"

/-- The part of a dotted name after its last dot. -/
def lastSegment (s : Str) : Str :=
  Str.ofList (s.toList.reverse.takeWhile (· != CodePoint.char '.')).reverse

/-- The class of a raw value in messages, without its module. -/
def className : Raw → Str
  | .null => "NoneType"
  | .bool _ => "bool"
  | .int _ => "int"
  | .float _ => "float"
  | .text _ => "str"
  | .list _ => "list"
  | .tuple _ => "tuple"
  | .mapping _ => "dict"
  | .set _ => "set"
  | .bytes _ => "bytes"
  | .foreign name => lastSegment name
  | .enumConst _ => "EnumConstantRef"
  | .classLiteral _ => "ClassRef"
  | .value v => valueClass v
  | .parameter _ => "AnnotationParameter"
  | .annot _ => "AnnotationInstance"

/-- The full name of the type of a raw value in messages: plain data has no module. -/
def typeName : Raw → Str
  | .foreign name => name
  | .enumConst _ => "annotation_model.contracts.EnumConstantRef"
  | .classLiteral _ => "annotation_model.contracts.ClassRef"
  | .value v => "annotation_model.contracts." ++ valueClass v
  | .parameter _ => "annotation_model.contracts.AnnotationParameter"
  | .annot _ => "annotation_model.contracts.AnnotationInstance"
  | raw => raw.className

/-- The text that a raw value is. -/
def plainText? : Raw → Option Str
  | .text s => some s
  | _ => none

/-! ## §2 Stored data as raw values -/

mutual

/-- A JSON value as a producer would hand it over. -/
def ofJson : Json → Raw
  | .null => .null
  | .bool b => .bool b
  | .int i => .int i
  | .float x => .float x
  | .string s => .text s
  | .array items => .list (ofJsonList items)
  | .object entries => .mapping (ofJsonEntries entries)
termination_by structural j => j

/-- `ofJson` of each item. -/
def ofJsonList : List Json → List Raw
  | [] => []
  | j :: rest => ofJson j :: ofJsonList rest
termination_by structural js => js

/-- `ofJson` of each value, under the text of its key. -/
def ofJsonEntries : List (Str × Json) → List (Raw × Raw)
  | [] => []
  | (k, j) :: rest => (.text k, ofJson j) :: ofJsonEntries rest
termination_by structural es => es

end

/-- An object of a foreign class. The module of plain data is not named. -/
def ofClass (className : Str) : Raw :=
  match Text.splitAt (.char '.') className.toList with
  | [module, name] =>
    if module = plainModule.toList then .foreign (Str.ofList name) else .foreign className
  | _ => .foreign className

/-- The value under a text key. -/
def field? (name : Str) : List (Raw × Raw) → Option Raw
  | [] => none
  | (.text k, v) :: rest => if k = name then some v else field? name rest
  | _ :: rest => field? name rest

end Raw

end AnnoTree
