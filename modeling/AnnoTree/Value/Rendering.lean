import AnnoTree.Nesting
import AnnoTree.Value.Basic

/-!
# Rendering

The text of a value as it stands in source code: `@Name(a = 1, b = {"x", "y"})`. A parameter that
stands alone under the name of the settings is written without its name.

Items of an array are one level below it, the value of a parameter is at the level of its
annotation, and an annotation held as a value is one level below its place.
-/

namespace AnnoTree

open AnnoTree.Text

/-- One parameter as it stands between the parentheses. -/
def pairText (pair : Str × Str) : Str :=
  pair.1 ++ " = " ++ pair.2

/-- The text of an annotation from its name and the names and texts of its parameters. -/
def annotText (settings : Settings) (name : Str) : List (Str × Str) → Str
  | [] => "@" ++ name
  | [(n, t)] =>
    if n = settings.singleName then "@" ++ name ++ "(" ++ t ++ ")"
    else "@" ++ name ++ "(" ++ pairText (n, t) ++ ")"
  | pairs => "@" ++ name ++ "(" ++ joinWith ", " (pairs.map pairText) ++ ")"

mutual

/-- The text of a value at a level. -/
def Value.render (settings : Settings) (depth : Nat) : Value → Except TooDeep Str
  | .scalar s => .ok s.text
  | .string t => .ok (stringLiteral t)
  | .array items => do
    checkDepth settings depth .render
    let texts ← Value.renderList settings (depth + 1) items
    return "\x7b" ++ joinWith ", " texts ++ "\x7d"
  | .enumConst ref => .ok ref.text
  | .classLiteral ref => .ok ref.text
  | .annot a => Annot.render settings (depth + 1) a
  | .absent => .ok "null"
termination_by structural v => v

/-- The texts of values at a level. -/
def Value.renderList (settings : Settings) (depth : Nat) :
    List Value → Except TooDeep (List Str)
  | [] => .ok []
  | v :: rest => do
    let t ← Value.render settings depth v
    let ts ← Value.renderList settings depth rest
    return t :: ts
termination_by structural vs => vs

/-- The text of an annotation at a level. -/
def Annot.render (settings : Settings) (depth : Nat) : Annot → Except TooDeep Str
  | ⟨name, none⟩ => do
    checkDepth settings depth .render
    return annotText settings name []
  | ⟨name, some parameters⟩ => do
    checkDepth settings depth .render
    let pairs ← Parameter.renderList settings depth parameters
    return annotText settings name pairs
termination_by structural a => a

/-- The name of a parameter and the text of its value. -/
def Parameter.renderPair (settings : Settings) (depth : Nat) :
    Parameter → Except TooDeep (Str × Str)
  | ⟨name, value⟩ => do
    let t ← Value.render settings depth value
    return (name, t)
termination_by structural p => p

/-- The names of parameters and the texts of their values. -/
def Parameter.renderList (settings : Settings) (depth : Nat) :
    List Parameter → Except TooDeep (List (Str × Str))
  | [] => .ok []
  | p :: rest => do
    let t ← Parameter.renderPair settings depth p
    let ts ← Parameter.renderList settings depth rest
    return t :: ts
termination_by structural ps => ps

end

/-- The text of a parameter at a level. -/
def Parameter.render (settings : Settings) (depth : Nat) (p : Parameter) :
    Except TooDeep Str :=
  (p.renderPair settings depth).map pairText

end AnnoTree
