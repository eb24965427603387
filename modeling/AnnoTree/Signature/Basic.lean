import AnnoTree.Text.Str

/-!
# Type signatures

What a class literal denotes: a base type or a named class, as it is or as the element of an array
of some dimensions.
-/

namespace AnnoTree

/-! ## §1 Base types -/

/-- The types that have no class. -/
inductive BaseType where
  | byte
  | char
  | double
  | float
  | int
  | long
  | short
  | boolean
  | void
  deriving DecidableEq, Repr

namespace BaseType

/-- Every base type. -/
def all : List BaseType :=
  [.byte, .char, .double, .float, .int, .long, .short, .boolean, .void]

/-- The name of a base type in source text. -/
def name : BaseType → Str
  | .byte => "byte"
  | .char => "char"
  | .double => "double"
  | .float => "float"
  | .int => "int"
  | .long => "long"
  | .short => "short"
  | .boolean => "boolean"
  | .void => "void"

/-- The letter of a base type in a field descriptor. -/
def code : BaseType → CodePoint
  | .byte => 'B'
  | .char => 'C'
  | .double => 'D'
  | .float => 'F'
  | .int => 'I'
  | .long => 'J'
  | .short => 'S'
  | .boolean => 'Z'
  | .void => 'V'

/-- The base type of a letter. -/
def ofCode? (c : CodePoint) : Option BaseType :=
  all.find? (·.code == c)

/-- The base type of a name. -/
def ofName? (s : Str) : Option BaseType :=
  all.find? (·.name == s)

theorem ofCode?_code (b : BaseType) : ofCode? b.code = some b := by
  cases b <;> decide

theorem ofName?_name (b : BaseType) : ofName? b.name = some b := by
  cases b <;> decide

end BaseType

/-! ## §2 Signatures -/

/-- The type of the elements of an array, or of a value that is no array. -/
inductive ElementType where
  | base (b : BaseType)
  | named (className : Str)
  deriving DecidableEq, Repr

/-- The name of an element type. -/
def ElementType.text : ElementType → Str
  | .base b => b.name
  | .named className => className

/-- An element type under a number of array dimensions; none of them for the type itself. -/
structure Signature where
  element : ElementType
  dimensions : Nat
  deriving DecidableEq, Repr

/-- One pair of brackets for each dimension. -/
def brackets : Nat → Str
  | 0 => ""
  | n + 1 => "[]" ++ brackets n

/-- The source text of a signature. -/
def Signature.text (s : Signature) : Str :=
  s.element.text ++ brackets s.dimensions

end AnnoTree
