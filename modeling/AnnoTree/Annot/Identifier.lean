import AnnoTree.Entries
import AnnoTree.Failure
import AnnoTree.Json.Writer
import AnnoTree.Sha256
import AnnoTree.Value.Payload
import AnnoTree.Value.Rendering

/-!
# Identifiers

The identifier of an annotation is a digest of its stored form in one canonical text: keys sorted,
no blanks. It depends on the content alone. A text that is not well-formed has no digest.
-/

namespace AnnoTree

/-- The one text of a JSON value: keys sorted, no blanks. -/
def Json.canonical (j : Json) : Str :=
  j.sortKeys.write Json.compact

/-- The identifier of a stored form. -/
def identifierOf (payload : Json) : Except Failure Str := do
  let octets ← payload.canonical.encode
  return "ann_" ++ Sha256.hexDigest octets

/-- The identifier of an annotation. -/
def Annot.identifier (settings : Settings) (a : Annot) : Except Failure Str := do
  let payload ← liftWalk (a.payload settings 0)
  identifierOf payload

/-- Keeps the entry of a key that is there, and adds one for a key that is not. -/
def keepFirst (entries : List (Str × Str)) (key text : Str) : List (Str × Str) :=
  if Entries.hasKey key entries then entries else entries ++ [(key, text)]

/-- The identifiers of annotations, in order of first appearance, each with the rendering of the
first annotation that has it. -/
def Annot.identifiers (settings : Settings) (annots : List Annot) :
    Except Failure (List (Str × Str)) :=
  annots.foldlM (fun entries a => do
    let key ← a.identifier settings
    let text ← liftWalk (a.render settings 0)
    return keepFirst entries key text) []

end AnnoTree
