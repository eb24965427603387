import AnnoTree.Entries
import AnnoTree.Failure
import AnnoTree.Storage.Path
import AnnoTree.Text.Utf8

/-!
# File trees

Files and directories below one directory. A place is the list of names that leads to it from the
directory of the tree. Steps upward from there lead to directories that are always there, and so
does the root of all files; nothing else outside of the tree is known.

Operations that change the tree return what became of it together with their outcome, since a
failure may come after directories were made.
-/

namespace AnnoTree

open AnnoTree.Text

/-- What stands at a place. -/
inductive Node where
  | directory
  | file (octets : List Octet)
  deriving DecidableEq, Repr

/-- Files and directories by their places. -/
structure FileTree where
  nodes : List (List String × Node) := []

namespace FileTree

/-! ## §1 Looking -/

/-- The name of the root of all files among the names of a place. No other name has a slash. -/
def rootName : String := "/"

/-- Whether a place is the directory of the tree, above it, or the root of all files. -/
def isOutside (place : List String) : Bool :=
  place.all fun name => name == Path.upward || name == rootName

/-- What stands at a place. -/
def node? (t : FileTree) (place : List String) : Option Node :=
  if isOutside place then some .directory else Entries.get? place t.nodes

/-- The place one step away. Nothing is above the root of all files. -/
def step (place : List String) (part : String) : List String :=
  if part != Path.upward then place ++ [part]
  else if place = [rootName] then place
  else if isOutside place then place ++ [part]
  else place.dropLast

/-- Whether a name is too long to be looked up. -/
def isLongName (part : String) : Bool :=
  decide (Path.maxNameSize < part.utf8ByteSize)

/-- The place that steps lead to. Every place that is left has to be a directory. -/
def walk (t : FileTree) (place : List String) : List String → Except StorageFault (List String)
  | [] => .ok place
  | part :: rest =>
    match t.node? place with
    | some .directory =>
      if isLongName part then .error .nameTooLong else t.walk (step place part) rest
    | some (.file _) => .error .notADirectory
    | none => .error .fileNotFound

/-- Succeeds for a path that can be looked up at all. -/
def checkSpelling (p : Path) : Except StorageFault Unit :=
  if p.hasNul then .error .nulCharacter
  else if Path.sizeBound ≤ p.text.utf8ByteSize then .error .nameTooLong
  else .ok ()

/-- The place at which a path starts. -/
def start (p : Path) : List String :=
  if p.anchor = .here then [] else [rootName]

/-- The place of a path. -/
def place (t : FileTree) (p : Path) : Except StorageFault (List String) := do
  checkSpelling p
  t.walk (start p) p.parts

/-- What a path leads to. -/
def look (t : FileTree) (p : Path) : Except StorageFault Node := do
  let place ← t.place p
  match t.node? place with
  | some node => return node
  | none => throw .fileNotFound

/-- Whether a path leads to anything. That cannot be told of a name that is too long. -/
def exists? (t : FileTree) (p : Path) : Except StorageFault Bool :=
  match t.look p with
  | .ok _ => .ok true
  | .error .nameTooLong => .error .nameTooLong
  | .error _ => .ok false

/-- The content of a file. -/
def read (t : FileTree) (p : Path) : Except StorageFault (List Octet) := do
  match ← t.look p with
  | .file octets => return octets
  | .directory => throw .isADirectory

/-! ## §2 Changing -/

/-- Puts a node at a place. -/
def put (t : FileTree) (place : List String) (node : Node) : FileTree :=
  ⟨Entries.insert place node t.nodes⟩

/-- Makes the directories along steps that are not there yet. -/
def makeDirectories (t : FileTree) (place : List String) :
    List String → FileTree × Except StorageFault Unit
  | [] => (t, .ok ())
  | part :: rest =>
    if isLongName part then (t, .error .nameTooLong)
    else
      let next := step place part
      match t.node? next with
      | some .directory => t.makeDirectories next rest
      | some (.file _) => (t, .error (if rest.isEmpty then .fileInTheWay else .notADirectory))
      | none => (t.put next .directory).makeDirectories next rest

/-- Makes the directory that a file is to be in. -/
def makeParent (t : FileTree) (p : Path) : FileTree × Except StorageFault Unit :=
  match checkSpelling p.parent with
  | .ok () => t.makeDirectories (start p) p.parent.parts
  | .error f => (t, .error f)

/-- Changes the content of a file in a directory that is there; a new file starts empty. -/
def changeFile (t : FileTree) (p : Path) (change : List Octet → List Octet) :
    Except StorageFault FileTree := do
  let place ← t.place p
  match t.node? place with
  | some .directory => throw .isADirectory
  | some (.file octets) => return t.put place (.file (change octets))
  | none => return t.put place (.file (change []))

/-- Writes a file, and makes its directory. -/
def write (t : FileTree) (p : Path) (octets : List Octet) :
    FileTree × Except StorageFault Unit :=
  match t.makeParent p with
  | (t, .error f) => (t, .error f)
  | (t, .ok ()) =>
    match t.changeFile p fun _ => octets with
    | .ok t => (t, .ok ())
    | .error f => (t, .error f)

end FileTree

end AnnoTree
