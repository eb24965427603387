import AnnoTree.Entries
import AnnoTree.Raw.Equality
import AnnoTree.Raw.Shown

/-!
# Entities

What references may lead to in the program that carries the annotations: enum types with their
constants, plain classes, handles of types of another system, and what else may be an attribute of
these. Every entity has an identity besides its name, since one type may be known under several
names and two types may share one.
-/

namespace AnnoTree

/-- The name of a type: its module, and its path inside the module. -/
structure TypeName where
  module : Str
  path : Str
  deriving DecidableEq, Repr

/-- The full name of a type. -/
def TypeName.full (n : TypeName) : Str :=
  n.module ++ "." ++ n.path

/-- The name of a type in messages: one of plain data has no module. -/
def TypeName.shown (n : TypeName) : Str :=
  if n.module = Raw.plainModule then n.path else n.full

/-- The name of a type without its module and the types around it. -/
def TypeName.last (n : TypeName) : Str :=
  Raw.lastSegment n.path

/-- What an entity is the same as: an object of its own, a constant of an enum type, or the only
module of a name. -/
inductive Identity where
  | object (id : Nat)
  | constant (owner : Nat) (name : Str)
  | module (name : Str)
  deriving DecidableEq, Repr

mutual

/-- Something that a name may denote. -/
inductive Entity where
  | enumType (type : EnumType)
  | classType (id : Nat) (name : TypeName) (attributes : List (Str × Entity))
  /-- A type of another system: an object of some class, known by a label only. -/
  | handle (id : Nat) (className : TypeName) (label : Str) (attributes : List (Str × Entity))
  /-- A constant of an enum type, which sees the constants and attributes of its type. -/
  | constant (owner : EnumType) (name : Str)
  | function (id : Nat) (path : Str)
  | data (id : Nat) (value : Raw)
  /-- A module that has been loaded. -/
  | module (name : Str)

/-- An enum type. -/
structure EnumType where
  id : Nat
  name : TypeName
  /-- Each name of a constant with the name of the constant itself, which is another one where two
  names share a value. -/
  constants : List (Str × Str)
  /-- Attributes that are constants of the type, each with a name of its constant. -/
  aliases : List (Str × Str)
  /-- The other attributes. -/
  attributes : List (Str × Entity)

end

instance : Inhabited Entity := ⟨.module ""⟩

/-- The constant of an enum type under one of its names. -/
def EnumType.constant? (t : EnumType) (name : Str) : Option Entity :=
  (Entries.get? name t.constants).map (.constant t)

/-- The attribute of an enum type or of one of its constants. -/
def EnumType.attribute? (t : EnumType) (name : Str) : Option Entity :=
  ((t.constant? name).or ((Entries.get? name t.aliases).bind t.constant?)).or
    (Entries.get? name t.attributes)

namespace Entity

/-! ## §1 Types -/

/-- What an entity is the same as. -/
def identity : Entity → Identity
  | .enumType t => .object t.id
  | .classType id _ _ => .object id
  | .handle id _ _ _ => .object id
  | .constant owner name => .constant owner.id name
  | .function id _ => .object id
  | .data id _ => .object id
  | .module name => .module name

/-- Whether an entity is a type of this system. -/
def isType : Entity → Bool
  | .enumType _ => true
  | .classType _ _ _ => true
  | _ => false

/-- Whether an entity is an enum type. -/
def isEnumType : Entity → Bool
  | .enumType _ => true
  | _ => false

/-- The name of a type of this system. -/
def typeName? : Entity → Option TypeName
  | .enumType t => some t.name
  | .classType _ n _ => some n
  | _ => none

/-- A class without a path as messages show it. -/
def shownClass (module : Str) : Str :=
  "<class '" ++ (if module = Raw.plainModule then ("" : Str) else module ++ ".") ++ "'>"

/-- The name by which messages call an entity that is not registered. -/
def label : Entity → Str
  | .enumType t => if t.name.path = "" then "<enum ''>" else t.name.path
  | .classType _ n _ => if n.path = "" then shownClass n.module else n.path
  | .handle _ _ l _ => l
  | .constant owner name => owner.name.last ++ "." ++ name
  | .function _ path => path
  | .data _ (.text s) => s
  | .data _ raw => raw.shown
  | .module name => "<module '" ++ name ++ "'>"

/-- The kind of an entity in messages: the last name of its class. -/
def kindName : Entity → Str
  | .enumType _ => "EnumType"
  | .classType _ _ _ => "type"
  | .handle _ className _ _ => className.last
  | .constant owner _ => owner.name.last
  | .function _ _ => "function"
  | .data _ raw => raw.className
  | .module _ => "module"

/-- What messages say of an entity that was expected to be an enum type: that it is a class, or the
name of its class. -/
def foundName : Entity → Str
  | .enumType _ => "class"
  | .classType _ _ _ => "class"
  | .handle _ className _ _ => className.shown
  | .constant owner _ => owner.name.shown
  | .function _ _ => "function"
  | .data _ raw => raw.typeName
  | .module _ => "module"

/-! ## §2 Constants and attributes -/

/-- The constant of an enum type under one of its names. -/
def constant? (name : Str) : Entity → Option Entity
  | .enumType t => t.constant? name
  | _ => none

/-- The attribute of an entity. -/
def attribute? (name : Str) : Entity → Option Entity
  | .enumType t => t.attribute? name
  | .constant owner _ => owner.attribute? name
  | .classType _ _ attributes => Entries.get? name attributes
  | .handle _ _ _ attributes => Entries.get? name attributes
  | _ => none

/-- Whether an entity is a constant of an enum type. -/
def isConstantOf (candidate type : Entity) : Bool :=
  match candidate, type with
  | .constant owner _, .enumType t => owner.id == t.id
  | _, _ => false

/-! ## §3 Declarations -/

/-- A name between single underscores is reserved. -/
def isReservedName (name : Str) : Bool :=
  match name.toList with
  | '_' :: first :: rest => first != '_' && rest.getLast? == some '_' &&
      (first :: rest).dropLast.getLast? != some '_'
  | _ => false

/-- A name between double underscores declares no constant. -/
def isHiddenName (name : Str) : Bool :=
  match name.toList with
  | '_' :: '_' :: first :: rest => first != '_' &&
      match (first :: rest).reverse with
      | '_' :: '_' :: last :: _ => last != '_'
      | _ => false
  | _ => false

/-- Succeeds for names of constants that are all different and not reserved. -/
def checkConstantNames (seen : List Str) : List Str → Except DeclarationFault Unit
  | [] => .ok ()
  | name :: rest =>
    if isReservedName name then .error (.reservedName name)
    else if seen.contains name then .error .repeatedConstant
    else checkConstantNames (name :: seen) rest

/-- The names that no constant can have. -/
def forbiddenNames : List Str := ["", "mro"]

/-- The names of constants with the names of the constants that they stand for: a value that came
before makes a name an alias. A value is looked up by hash first, so it must not be too deep. -/
def constantNames (settings : Settings) (seen : List (Str × Raw)) :
    List (Str × Raw) → Except Failure (List (Str × Str))
  | [] => .ok []
  | (name, value) :: rest => do
    if let .error (.tooDeep e) := Raw.checkHashable settings value then throw (.tooDeep e)
    match ← seen.findM? fun s => Raw.equal settings s.2 value with
    | some (own, _) =>
      let names ← constantNames settings seen rest
      return (name, own) :: names
    | none =>
      let names ← constantNames settings (seen ++ [(name, value)]) rest
      return (name, name) :: names

/-- An attribute of an enum type in its declaration: an entity, or one of its own constants. -/
inductive Declared where
  | entity (e : Entity)
  | ownConstant (name : Str)

/-- The entity of a declared attribute. -/
def Declared.entity? : Declared → Option Entity
  | .entity e => some e
  | .ownConstant _ => none

/-- The name of the constant that a declared attribute is. -/
def Declared.ownConstant? : Declared → Option Str
  | .entity _ => none
  | .ownConstant name => some name

/-- The enum type of a declaration. No attribute takes the place of a constant. -/
def enumOf (settings : Settings) (id : Nat) (name : TypeName) (values : List (Str × Raw))
    (attributes : List (Str × Declared)) : Except Failure Entity := do
  let values := values.filter fun e => !isHiddenName e.1
  (checkConstantNames [] (Entries.keys values)).mapError .declaration
  match (Entries.keys values).filter forbiddenNames.contains with
  | [] => pure ()
  | names => throw (.declaration (.forbiddenNames names))
  let constants ← constantNames settings [] values
  if (Entries.keys attributes).any fun key => Entries.hasKey key constants then
    throw (.declaration .constantReplaced)
  return .enumType {
    id, name, constants
    aliases := attributes.filterMap fun (key, d) => d.ownConstant?.map (key, ·)
    attributes := attributes.filterMap fun (key, d) => d.entity?.map (key, ·) }

end Entity

end AnnoTree
