import AnnoTree.Text.Quoted
import AnnoTree.Text.Split

/-!
# Paths

How a file is found from a directory: the names of directories on the way, and the name of the
file. A path has one spelling, without repeated slashes and without steps that stay in place.
-/

namespace AnnoTree

open AnnoTree.Text

/-- Where a way starts. -/
inductive Anchor where
  | here
  /-- At the root of all files. -/
  | root
  /-- At the root of all files, spelled with two slashes. -/
  | doubleRoot
  deriving DecidableEq, Repr

namespace Anchor

/-- The anchor that the slashes in front of a text spell: only two differ from one. -/
def ofSlashes : (count : Nat) → Anchor
  | 0 => .here
  | 2 => .doubleRoot
  | _ => .root

/-- The spelling of an anchor. -/
def text : Anchor → String
  | .here => ""
  | .root => "/"
  | .doubleRoot => "//"

end Anchor

/-- A way to a file or directory. -/
structure Path where
  anchor : Anchor
  parts : List String
  deriving DecidableEq, Repr

namespace Path

/-- The step to the directory above. -/
def upward : String := ".."

/-- The step that stays in place. -/
def inPlace : String := "."

/-- The path that a text spells. -/
def ofText (s : String) : Path :=
  let parts := (splitAt '/' s.toList).map String.ofList
  let slashes := s.toList.takeWhile (· == '/')
  ⟨.ofSlashes slashes.length, parts.filter fun part => part != "" && part != inPlace⟩

/-- The spelling of a path. -/
def text (p : Path) : String :=
  match p.anchor, p.parts with
  | .here, [] => inPlace
  | anchor, parts => anchor.text ++ "/".intercalate parts

/-- The last name of a path. -/
def name (p : Path) : String :=
  p.parts.getLast?.getD ""

/-- The path to the directory of a path. -/
def parent (p : Path) : Path :=
  { p with parts := p.parts.dropLast }

/-- The path one step further. -/
def child (p : Path) (name : String) : Path :=
  { p with parts := p.parts ++ [name] }

/-- Whether a path has a null character, and so leads nowhere. -/
def hasNul (p : Path) : Bool :=
  p.parts.any (·.toList.contains '\x00')

/-- The number of octets that no name in a path exceeds. -/
def maxNameSize : Nat := 255

/-- The number of octets that no path reaches. -/
def sizeBound : Nat := 4096

example : (ofText "./x//y/../z.txt").text = "x/y/../z.txt" := by decide

example : (ofText "//x/").text = "//x" ∧ (ofText "///x").text = "/x" := by decide

end Path

end AnnoTree
