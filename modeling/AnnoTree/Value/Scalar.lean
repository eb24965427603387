import AnnoTree.Double.Text
import AnnoTree.Json.Basic
import AnnoTree.Text.Quoted

/-!
# Scalars

The literals of annotations: integers of four widths, booleans, two floating kinds that are both
held in double precision, and single UTF-16 code units. A scalar carries the proof that its
literal fits its kind.
-/

namespace AnnoTree

/-! ## §1 Kinds -/

/-- The kinds of integers. -/
inductive IntegerKind where
  | byte
  | short
  | int
  | long
  deriving DecidableEq, Repr

/-- The number of negative integers of a kind, which is that of the others too. -/
def IntegerKind.half : IntegerKind → Int
  | .byte => 0x80
  | .short => 0x8000
  | .int => 0x80000000
  | .long => 0x8000000000000000

/-- The signed range of an integer kind. -/
def IntegerKind.Holds (k : IntegerKind) (i : Int) : Prop :=
  -k.half ≤ i ∧ i < k.half

instance (k : IntegerKind) (i : Int) : Decidable (k.Holds i) := by
  unfold IntegerKind.Holds
  infer_instance

/-- The floating kinds. -/
inductive FloatingKind where
  | float
  | double
  deriving DecidableEq, Repr

/-- The kinds of scalars. -/
inductive ScalarKind where
  | integer (k : IntegerKind)
  | boolean
  | floating (k : FloatingKind)
  | char
  deriving DecidableEq, Repr

namespace ScalarKind

/-- Every kind. -/
def all : List ScalarKind :=
  [.integer .byte, .integer .short, .integer .int, .integer .long, .boolean, .floating .float,
   .floating .double, .char]

/-- The name of a kind. -/
def name : ScalarKind → String
  | .integer .byte => "byte"
  | .integer .short => "short"
  | .integer .int => "int"
  | .integer .long => "long"
  | .boolean => "boolean"
  | .floating .float => "float"
  | .floating .double => "double"
  | .char => "char"

/-- The kind of a name. -/
def ofName? (s : Str) : Option ScalarKind :=
  all.find? (·.name == s)

theorem ofName?_name (k : ScalarKind) : ofName? k.name = some k := by
  rcases k with k | _ | k | _
  · cases k <;> decide
  · decide
  · cases k <;> decide
  · decide

end ScalarKind

/-! ## §2 Scalars -/

/-- A literal of a scalar kind. -/
inductive Scalar where
  | integer (kind : IntegerKind) (value : Int) (holds : kind.Holds value)
  | boolean (value : Bool)
  | floating (kind : FloatingKind) (value : Double)
  | char (unit : CodePoint) (small : unit.toNat ≤ 0xFFFF)
  deriving DecidableEq, Repr

namespace Scalar

/-- The kind of a scalar. -/
def kind : Scalar → ScalarKind
  | .integer k _ _ => .integer k
  | .boolean _ => .boolean
  | .floating k _ => .floating k
  | .char _ _ => .char

/-- The rendered text of a scalar. -/
def text : Scalar → Str
  | .integer _ i _ => toString i
  | .boolean b => if b then "true" else "false"
  | .floating _ x => x.text Double.longNames
  | .char c _ => Text.charLiteral c

/-- The literal of a scalar in stored form. -/
def literal : Scalar → Json
  | .integer _ i _ => .int i
  | .boolean b => .bool b
  | .floating _ x => .float x
  | .char c _ => .string (Str.singleton c)

end Scalar

end AnnoTree
