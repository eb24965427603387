import AnnoTree.Sorting
import AnnoTree.Value.Reference
import AnnoTree.Value.Scalar

/-!
# Annotations and their values

An annotation is a name with parameters, and a parameter a name with a value. A value may be an
array of values or again an annotation. That nothing is known of the parameters (`none`) is not
the same as that there are none (`some []`), and an absent value is not a null literal.
-/

namespace AnnoTree

/-! ## §1 The types -/

mutual

/-- A value of an annotation parameter. -/
inductive Value where
  | scalar (s : Scalar)
  | string (text : Str)
  | array (items : List Value)
  | enumConst (ref : EnumConst)
  | classLiteral (ref : ClassLiteral)
  | annot (a : Annot)
  /-- No value was supplied. -/
  | absent

/-- A named list of parameters, or a name of whose parameters nothing is known. -/
structure Annot where
  name : Str
  parameters : Option (List Parameter)

/-- A named value. -/
structure Parameter where
  name : Str
  value : Value

end

instance : Inhabited Value := ⟨.absent⟩

/-! ## §2 Queries -/

/-- Whether no value was supplied. -/
def Value.isAbsent : Value → Bool
  | .absent => true
  | _ => false

namespace Annot

/-- The parameters that are known. -/
def known (a : Annot) : List Parameter :=
  a.parameters.getD []

/-- The names of the parameters, in order. -/
def parameterNames (a : Annot) : List Str :=
  a.known.map (·.name)

/-- The first parameter of a name. -/
def parameter? (a : Annot) (name : Str) : Option Parameter :=
  a.known.find? (·.name == name)

/-- The distinct names of annotations, in ascending order. -/
def distinctNames (annots : List Annot) : List Str :=
  Text.sortedSet (annots.map (·.name))

end Annot

end AnnoTree
