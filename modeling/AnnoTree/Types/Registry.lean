import AnnoTree.Types.Lookup

/-!
# Registries

A lookup over an explicit list of names and types. A type that is no enum type may be declared to
be one by its name, with a table of its constants.

Messages call a type by the first name under which it is registered. Names of constants with an
underscore in front are not accessible.
-/

namespace AnnoTree

/-- A registry of types. -/
structure Registry where
  types : List (Str × Entity) := []
  /-- The names of types that count as enums. -/
  enumNames : List Str := []
  /-- The constants of types, by the name of the type. -/
  tables : List (Str × List (Str × Entity)) := []
  baseTypes : List (Str × Entity) := []

namespace Registry

/-! ## §1 Construction -/

/-- Registers a type under a name. -/
def register (r : Registry) (name : Str) (type : Entity) : Registry :=
  { r with types := Entries.insert name type r.types }

/-- The names of a registry, in order. -/
def names (r : Registry) : List Str :=
  Entries.keys r.types

/-- A type with the name of its module in front and without. -/
def namedType (type : Entity) : Except Failure (TypeName × Entity) :=
  match type.typeName? with
  | some n => .ok (n, type)
  | none => .error .noSuchProperty

/-- The registry of types under their full names and then under their paths. -/
def ofTypes (types : List Entity) : Except Failure Registry := do
  let named ← types.mapM namedType
  let full := named.map fun (n, t) => (n.full, t)
  let short := named.map fun (n, t) => (n.path, t)
  return { types := Entries.insertAll (Entries.ofList full) short }

/-! ## §2 Lookup -/

/-- The name by which messages call a type. -/
def nameOf (r : Registry) (type : Entity) : Str :=
  match r.types.find? fun e => e.2.identity == type.identity with
  | some (name, _) => name
  | none => type.label

/-- The type under a name. -/
def resolveType (r : Registry) (name : Str) : Except Failure Entity :=
  match Entries.get? name r.types with
  | some type => .ok type
  | none => Lookup.fault (.typeNotFound name)

/-- The base type under a name; a name that is not declared may be registered. -/
def resolveBase (r : Registry) (name : Str) : Except Failure Entity :=
  match Entries.get? name r.baseTypes with
  | some type => .ok type
  | none => r.resolveType name

/-- Whether a type is an enum or counts as one. -/
def isEnum (r : Registry) (type : Entity) : Bool :=
  type.isEnumType || r.enumNames.contains (r.nameOf type)

/-- An attribute of a type that is one of its constants. -/
def attributeConstant (typeName : Str) (type : Entity) (constantName : Str) :
    Except Failure Entity :=
  match type.attribute? constantName with
  | none => Lookup.fault (.constantNotFound typeName constantName)
  | some candidate =>
    if candidate.isConstantOf type then .ok candidate
    else Lookup.fault (.notAConstant typeName constantName (some candidate.kindName))

/-- The constant of a type: from the table of the type if there is one, otherwise one of its own. -/
def resolveConstant (r : Registry) (type : Entity) (constantName : Str) :
    Except Failure Entity :=
  let typeName := r.nameOf type
  if constantName.startsWith "_" then Lookup.fault (.accessDenied typeName constantName)
  else
    match Entries.get? typeName r.tables with
    | some table =>
      match Entries.get? constantName table with
      | some entity => .ok entity
      | none => Lookup.fault (.constantNotFound typeName constantName)
    | none =>
      match type.constant? constantName with
      | some entity => .ok entity
      | none => attributeConstant typeName type constantName

/-- The lookup of a registry, which it leaves as it is. -/
def lookup : Lookup Registry where
  resolveType r name := (r, r.resolveType name)
  resolveBase r name := (r, r.resolveBase name)
  isEnum := isEnum
  resolveConstant := resolveConstant

end Registry

end AnnoTree
