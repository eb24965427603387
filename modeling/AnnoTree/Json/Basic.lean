import AnnoTree.Double.Basic
import AnnoTree.Entries
import AnnoTree.Text.Str

/-!
# JSON values

The data of stored rows: integers of any size and doubles are kept apart, and an object keeps its
entries in the order in which their keys first came.
-/

namespace AnnoTree

/-- A JSON value. -/
inductive Json where
  | null
  | bool (b : Bool)
  | int (i : Int)
  | float (x : Double)
  | string (s : Str)
  | array (items : List Json)
  | object (entries : List (Str × Json))
  deriving Repr

instance : Inhabited Json := ⟨.null⟩

namespace Json

/-- The name of a value's type in messages. -/
def typeName : Json → Str
  | .null => "NoneType"
  | .bool _ => "bool"
  | .int _ => "int"
  | .float _ => "float"
  | .string _ => "str"
  | .array _ => "list"
  | .object _ => "dict"

/-! ## §1 Sorted keys -/

mutual

/-- The value with the entries of every object sorted by key. -/
def sortKeys : Json → Json
  | .array items => .array (sortKeysList items)
  | .object entries =>
    .object ((sortKeysEntries entries).mergeSort fun a b => (compare a.1 b.1).isLE)
  | .null => .null
  | .bool b => .bool b
  | .int i => .int i
  | .float x => .float x
  | .string s => .string s
termination_by structural j => j

/-- `sortKeys` in each item. -/
def sortKeysList : List Json → List Json
  | [] => []
  | j :: rest => sortKeys j :: sortKeysList rest
termination_by structural js => js

/-- `sortKeys` in each value. -/
def sortKeysEntries : List (Str × Json) → List (Str × Json)
  | [] => []
  | (k, j) :: rest => (k, sortKeys j) :: sortKeysEntries rest
termination_by structural es => es

end

end Json

end AnnoTree
