import AnnoTree.Annot.Loading
import AnnoTree.Json.Reader
import AnnoTree.Storage.FileTree
import AnnoTree.Text.Blank
import AnnoTree.Text.Lines

/-!
# Rows

A file of rows holds one JSON object on each line that is not blank. Rows are delivered one after
another: a fault does not take back the rows before it.

A row is known by its line, counted from one over all lines of the file.
-/

namespace AnnoTree

open AnnoTree.Text

/-! ## §1 Deliveries -/

/-- Items in the order of a file, up to the first fault if there is one. -/
structure Delivery (α : Type) where
  items : List α
  failure : Option Failure

namespace Delivery

variable {α β : Type}

/-- Nothing but a fault. -/
def failing (f : Failure) : Delivery α :=
  ⟨[], some f⟩

/-- One more item in front. -/
def cons (item : α) (d : Delivery α) : Delivery α :=
  ⟨item :: d.items, d.failure⟩

/-- The items up to the first on which a function fails. -/
def mapItems (f : α → Except Failure β) (failure : Option Failure) : List α → Delivery β
  | [] => ⟨[], failure⟩
  | item :: rest =>
    match f item with
    | .ok b => (mapItems f failure rest).cons b
    | .error e => failing e

/-- A delivery through a function that may fail, and then ends the delivery. -/
def mapM (f : α → Except Failure β) (d : Delivery α) : Delivery β :=
  mapItems f d.failure d.items

end Delivery

/-! ## §2 Lines of a file -/

/-- The number of octets that are decoded together. A fault in a block holds back all of it. -/
def blockSize : Nat := 8192

/-- The lines of a file that can be read. An octet that cannot stand where it does holds back its
block and the line that reaches into it; a character that breaks off at the end of the file holds
back the last line only. -/
def fileLines (octets : List Octet) : Delivery (List Char) :=
  match decodeUtf8 octets with
  | .whole text => ⟨physicalLines text, none⟩
  | .truncated text => ⟨finishedLines text, some (.storage .notUtf8)⟩
  | .broken _ offset =>
    let blocks := octets.take (blockSize * (offset / blockSize))
    ⟨finishedLines (decodeUtf8 blocks).text, some (.storage .notUtf8)⟩

/-! ## §3 Rows -/

/-- An object on a line. -/
structure Row where
  line : Nat
  entries : List (Str × Json)

/-- The stored form of a row. -/
def Row.json (row : Row) : Json :=
  .object row.entries

/-- The failure of a line that cannot be read. -/
def Text.ReadFault.failure : ReadFault → Failure
  | .malformed => .storage .notJson
  | .tooLong digits => .tooLong (.toRead digits)

/-- The rows of lines, of which the first has the given number. -/
def rowsFrom (failure : Option Failure) (line : Nat) : List (List Char) → Delivery Row
  | [] => ⟨[], failure⟩
  | text :: rest =>
    let content := stripChars text
    if content.isEmpty then rowsFrom failure (line + 1) rest
    else
      match Json.readChars content with
      | .error f => .failing f.failure
      | .ok (.object entries) => (rowsFrom failure (line + 1) rest).cons ⟨line, entries⟩
      | .ok j => .failing (.storage (.rowNotObject line j.typeName))

/-- The rows of a file. -/
def rows (octets : List Octet) : Delivery Row :=
  let lines := fileLines octets
  rowsFrom lines.failure 1 lines.items

/-! ## §4 Annotations -/

/-- An annotation on a line. -/
structure StoredAnnot where
  line : Nat
  annot : Annot

/-- The annotation of a row. What is wrong with a payload is told with the place of the row. -/
def Row.load (settings : Settings) (path : Path) (row : Row) : Except Failure StoredAnnot :=
  match Annot.load settings 0 row.json with
  | .ok a => .ok ⟨row.line, a⟩
  | .error (.payload cause) => .error (.payload (.atRow path.text row.line cause))
  | .error f => .error f

/-- The annotations of a file. -/
def storedAnnots (settings : Settings) (path : Path) (octets : List Octet) :
    Delivery StoredAnnot :=
  (rows octets).mapM (Row.load settings path)

/-- The delivery of a file, which may not be there. -/
def deliverFile {α : Type} (deliver : List Octet → Delivery α)
    (content : Except StorageFault (List Octet)) : Delivery α :=
  match content with
  | .ok octets => deliver octets
  | .error f => .failing (.storage f)

/-- The rows of the file of a path. -/
def FileTree.rows (t : FileTree) (p : Path) : Delivery Row :=
  deliverFile AnnoTree.rows (t.read p)

/-- The annotations of the file of a path. -/
def FileTree.storedAnnots (settings : Settings) (t : FileTree) (p : Path) :
    Delivery StoredAnnot :=
  deliverFile (AnnoTree.storedAnnots settings p) (t.read p)

end AnnoTree
