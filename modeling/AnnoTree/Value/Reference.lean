import AnnoTree.Signature.Descriptor

/-!
# References

Values that name something of the program that carries the annotation: a constant of an enum, and
a class. A reference is only a name; looking it up is a matter of `AnnoTree.Types`.

Two class literals are one if they have the same signature, however they are spelled. A spelling
that has no signature stands for itself, after all that have one.
-/

namespace AnnoTree

/-! ## §1 Enum constants -/

/-- A constant of an enum, by the name of its type and its own. -/
structure EnumConst where
  typeName : Str
  constantName : Str
  deriving DecidableEq, Repr

namespace EnumConst

/-- The rendered text of an enum constant. -/
def text (e : EnumConst) : Str :=
  e.typeName ++ "." ++ e.constantName

/-- The order of enum constants: by type name, then by constant name. -/
def compare (a b : EnumConst) : Ordering :=
  (Ord.compare a.typeName b.typeName).then (Ord.compare a.constantName b.constantName)

end EnumConst

/-! ## §2 Class literals -/

/-- A class literal, by its descriptor as it was spelled. -/
structure ClassLiteral where
  descriptor : Str
  deriving DecidableEq, Repr

/-- What decides the order of a class literal. -/
structure ClassKey where
  /-- Zero for a signature, one for a spelling without one. -/
  rank : Nat
  text : Str
  deriving DecidableEq, Repr

/-- The order of class keys. -/
def ClassKey.compare (a b : ClassKey) : Ordering :=
  (Ord.compare a.rank b.rank).then (Ord.compare a.text b.text)

namespace ClassLiteral

/-- The signature of a class literal, if its descriptor has one. -/
def signature? (c : ClassLiteral) : Option Signature :=
  (Signature.parse c.descriptor).toOption

/-- The rendered text of a class literal. -/
def text (c : ClassLiteral) : Str :=
  match c.signature? with
  | some s => s.text
  | none => c.descriptor

/-- The key of a class literal. -/
def key (c : ClassLiteral) : ClassKey :=
  match c.signature? with
  | some s => ⟨0, s.text⟩
  | none => ⟨1, c.descriptor⟩

/-- The order of class literals. -/
def compare (a b : ClassLiteral) : Ordering :=
  a.key.compare b.key

end ClassLiteral

end AnnoTree
