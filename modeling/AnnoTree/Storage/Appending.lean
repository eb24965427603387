import AnnoTree.Json.Writer
import AnnoTree.Storage.FileTree
import AnnoTree.Storage.Record
import AnnoTree.Text.Lines

/-!
# Appending rows

A record becomes one more row at the end of a file. The directory of the file is made first, even
if the record then turns out to have no stored form, and the file itself too, if its row cannot be
encoded; nothing is written in either case.

Appending tells where the row is, by the number of lines that were there before.
-/

namespace AnnoTree

open AnnoTree.Text

/-- Where a row is: the name of its file, and its line. -/
structure RowRef where
  fileName : String
  line : Nat
  deriving DecidableEq, Repr

/-- The text of a reference to a row. -/
def RowRef.text (r : RowRef) : String :=
  r.fileName ++ "@" ++ toString r.line

/-- The text of a row. -/
def Json.rowText (j : Json) : Str :=
  j.write Json.spaced ++ "\n"

namespace FileTree

/-- What is written of a row at the end of a file, and how that ends. -/
def rowOctets (j : Json) : List Octet × Except Failure Unit :=
  match j.rowText.encode with
  | .ok octets => (octets, .ok ())
  | .error f => ([], .error f)

/-- Appends a row to a file whose directory is there, if it has a stored form. -/
def extend (t : FileTree) (p : Path) (row : Except Failure Json) :
    FileTree × Except Failure Unit :=
  match row with
  | .error f => (t, .error f)
  | .ok j =>
    let (octets, result) := rowOctets j
    match t.changeFile p (· ++ octets) with
    | .ok t => (t, result)
    | .error f => (t, .error (.storage f))

/-- Appends a record as a row. -/
def appendRecord (settings : Settings) (t : FileTree) (p : Path) (record : Raw) :
    FileTree × Except Failure Unit :=
  match t.makeParent p with
  | (t, .error f) => (t, .error (.storage f))
  | (t, .ok ()) => t.extend p (record.record settings)

/-- The line after the last one of a file. -/
def nextLine (t : FileTree) (p : Path) : Except Failure Nat := do
  if ← (t.exists? p).mapError .storage then
    match decodeUtf8 (← (t.read p).mapError .storage) with
    | .whole text => return lineCount text + 1
    | _ => throw (.storage .notUtf8)
  else return 1

/-- Appends a record as a row, and tells where it is. The null record is refused. -/
def appendRow (settings : Settings) (t : FileTree) (p : Path) (record : Raw) :
    FileTree × Except Failure RowRef :=
  match record with
  | .null => (t, .error (.storage .noAnnot))
  | record =>
    match t.nextLine p with
    | .error f => (t, .error f)
    | .ok line =>
      match t.appendRecord settings p record with
      | (t, .ok ()) => (t, .ok ⟨p.name, line⟩)
      | (t, .error f) => (t, .error f)

/-- Appends records one after another, up to the first that fails. -/
def appendRows (settings : Settings) (t : FileTree) (p : Path) :
    List Raw → FileTree × Except Failure (List RowRef)
  | [] => (t, .ok [])
  | record :: rest =>
    match t.appendRow settings p record with
    | (t, .error f) => (t, .error f)
    | (t, .ok ref) =>
      match appendRows settings t p rest with
      | (t, .ok refs) => (t, .ok (ref :: refs))
      | (t, .error f) => (t, .error f)

end FileTree

end AnnoTree
