import AnnoTree.Types.Lookup

/-!
# Modules

A lookup that loads modules by their dotted names. A name is split at dots and dollar signs; the
longest prefix that can be loaded is the module, and the rest are attributes, one after another.

Loading `a.b.c` loads `a` and `a.b` first. A module that was loaded stays, and becomes an attribute
of the module above it; one that failed is tried again the next time. That a prefix is missing only
means that a shorter one is tried; any other failure of a module is final.
-/

namespace AnnoTree

/-! ## §1 Modules and their loading -/

/-- What happens when a module is loaded. -/
inductive ModuleBody where
  | attributes (entities : List (Str × Entity))
  /-- The module asks for another module that is missing. -/
  | missing (name : Str)
  /-- The module raises a failure of its own. -/
  | raises (text : Str)

/-- Why a module cannot be loaded. -/
inductive LoadFault where
  | missing (name : Str)
  | raised (text : Str)
  deriving DecidableEq, Repr

/-- The modules that exist, one under each name, and the attributes of those that are loaded. -/
structure Modules where
  declared : List (Str × ModuleBody)
  loaded : List (Str × List (Str × Entity)) := []
  baseTypes : List (Str × Entity) := []

namespace Modules

/-- Parts of a dotted name as one text. -/
def dotted (parts : List Str) : Str :=
  Text.joinWith "." parts

/-- The attributes of a loaded module. -/
def attributesOf (m : Modules) (name : Str) : List (Str × Entity) :=
  (Entries.get? name m.loaded).getD []

/-- Makes a loaded module an attribute of the module above it. -/
def attach (m : Modules) (above : List Str) (own full : Str) : Modules :=
  if above.isEmpty then m
  else
    let parent := dotted above
    let attributes := Entries.insert own (.module full) (m.attributesOf parent)
    { m with loaded := Entries.insert parent attributes m.loaded }

/-- Loads one module, when those above it are loaded. -/
def loadOne (m : Modules) (above : List Str) (own : Str) : Modules × Except LoadFault Unit :=
  let full := dotted (above ++ [own])
  if Entries.hasKey full m.loaded then (m, .ok ())
  else
    match Entries.get? full m.declared with
    | none => (m, .error (.missing full))
    | some (.missing name) => (m, .error (.missing name))
    | some (.raises text) => (m, .error (.raised text))
    | some (.attributes entities) =>
      let m := { m with loaded := Entries.insert full (Entries.ofList entities) m.loaded }
      (m.attach above own full, .ok ())

/-- Loads the modules of a dotted name from the top, of which those above are loaded. -/
def loadBelow (m : Modules) (above : List Str) : List Str → Modules × Except LoadFault Unit
  | [] => (m, .ok ())
  | own :: rest =>
    match m.loadOne above own with
    | (m, .ok ()) => loadBelow m (above ++ [own]) rest
    | (m, .error f) => (m, .error f)

/-- Loads the module of a dotted name. -/
def load (m : Modules) (parts : List Str) : Modules × Except LoadFault Unit :=
  m.loadBelow [] parts

/-! ## §2 Types -/

/-- The parts of a name between dots and dollar signs, without empty ones. -/
def partsOf (name : Str) : List Str :=
  let plain := name.toList.map fun c => if c = CodePoint.char '$' then CodePoint.char '.' else c
  ((Text.splitAt (.char '.') plain).filter (!·.isEmpty)).map Str.ofList

/-- Whether a missing module only means that a module has no such part: its name begins with the
name of what is missing. -/
def explains (moduleName missing : Str) : Bool :=
  missing.toList.isPrefixOf moduleName.toList

/-- Loads the longest prefix of a name that can be loaded: the first `count` parts or fewer. The
result has the parts of the module and those that are left. -/
def loadPrefix (m : Modules) (typeName : Str) (parts : List Str) :
    (count : Nat) → Modules × Except Failure (List Str × List Str)
  | 0 => (m, Lookup.fault (.typeNotFound typeName))
  | count + 1 =>
    let front := parts.take (count + 1)
    match m.load front with
    | (m, .ok ()) => (m, .ok (front, parts.drop (count + 1)))
    | (m, .error (.raised text)) => (m, .error (.moduleFailed text))
    | (m, .error (.missing name)) =>
      if explains (dotted front) name then loadPrefix m typeName parts count
      else (m, Lookup.fault (.typeNotFound typeName))

/-- The attribute of an entity or of a loaded module. -/
def attribute? (m : Modules) (name : Str) : Entity → Option Entity
  | .module own => Entries.get? name (m.attributesOf own)
  | e => e.attribute? name

/-- What is reached by following attributes. -/
def follow? (m : Modules) (start : Entity) : List Str → Option Entity
  | [] => some start
  | name :: rest =>
    match m.attribute? name start with
    | some e => m.follow? e rest
    | none => none

/-- The type under a name. -/
def resolveType (m : Modules) (name : Str) : Modules × Except Failure Entity :=
  let parts := partsOf name
  match m.loadPrefix name parts parts.length with
  | (m, .error e) => (m, .error e)
  | (m, .ok (front, rest)) =>
    match m.follow? (.module (dotted front)) rest with
    | some e => (m, if e.isType then .ok e else Lookup.fault (.typeNotFound name))
    | none => (m, Lookup.fault (.typeNotFound name))

/-! ## §3 Constants and base types -/

/-- A class of the host language. -/
def hostClass (id : Nat) (name : Str) : Entity :=
  .classType id ⟨Raw.plainModule, name⟩ []

/-- The base types of the host language. -/
def hostBaseTypes : List (Str × Entity) :=
  [("byte", hostClass 0 "int"), ("short", hostClass 0 "int"), ("int", hostClass 0 "int"),
   ("long", hostClass 0 "int"), ("boolean", hostClass 1 "bool"), ("float", hostClass 2 "float"),
   ("double", hostClass 2 "float"), ("char", hostClass 3 "str"), ("void", hostClass 4 "NoneType")]

/-- The base type under a name. -/
def resolveBase (m : Modules) (name : Str) : Except Failure Entity :=
  match Entries.get? name m.baseTypes with
  | some type => .ok type
  | none => Lookup.fault (.typeNotFound name)

/-- The constant of an enum type. -/
def resolveConstant (type : Entity) (constantName : Str) : Except Failure Entity :=
  match type.typeName? with
  | none => .error .noSuchProperty
  | some n =>
    if constantName.startsWith "_" then Lookup.fault (.accessDenied n.full constantName)
    else if !type.isEnumType then .error .noSuchProperty
    else
      match type.constant? constantName with
      | some entity => .ok entity
      | none =>
        match type.attribute? constantName with
        | none => Lookup.fault (.constantNotFound n.full constantName)
        | some candidate =>
          Lookup.fault (.notAConstant n.full constantName (some candidate.kindName))

/-- The lookup that loads modules. -/
def lookup : Lookup Modules where
  resolveType := resolveType
  resolveBase m name := (m, m.resolveBase name)
  isEnum _ type := type.isEnumType
  resolveConstant _ := resolveConstant

end Modules

end AnnoTree
