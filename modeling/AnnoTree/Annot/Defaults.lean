import AnnoTree.Annot.Building
import AnnoTree.Entries

/-!
# Defaults

The parameters that the declaration of an annotation supplies, overlaid by those that are written
where it is used. A name that both have keeps the written value.
-/

namespace AnnoTree

/-- Names with values, of which a later one under the same name replaces an earlier one. -/
def Parameter.entries (parameters : List Parameter) : List (Str × Value) :=
  parameters.map fun p => (p.name, p.value)

/-- The defaults, with the values of an annotation put over them. -/
def Annot.overlay (a : Annot) (defaults : List Parameter) : List Parameter :=
  (Entries.insertAll (Entries.ofList (Parameter.entries defaults)) (Parameter.entries a.known)).map
    fun e => ⟨e.1, e.2⟩

/-- An annotation with defaults. Without any default it stays as it is. -/
def Annot.withDefaults (settings : Settings) (a : Annot) (defaults : List Parameter) :
    Except TooDeep Annot :=
  if defaults.isEmpty then .ok a
  else Annot.ofParameters settings a.name (a.overlay defaults)

/-- An annotation with the defaults that a raw value stands for. -/
def Annot.withRawDefaults (settings : Settings) (a : Annot) (raw : Raw) :
    Except Failure Annot := do
  let defaults ← Parameter.listOfRaw settings raw
  liftWalk (a.withDefaults settings (defaults.getD []))

end AnnoTree
