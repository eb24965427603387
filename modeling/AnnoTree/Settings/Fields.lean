import AnnoTree.Raw.Equality

/-!
# Settings given by their fields

The two settings as a producer may hand them over, of any type. A depth can be used if it compares
with a number and is not less than one, and a name if it is anything but empty, so what passes is
kept as it was given.
-/

namespace AnnoTree

/-- Whether a raw value counts as empty: null, false, a zero, or something without content. -/
def Raw.isVacant : Raw → Bool
  | .null => true
  | .text s => s.isEmpty
  | .list items => items.isEmpty
  | .tuple items => items.isEmpty
  | .mapping entries => entries.isEmpty
  | .set items => items.isEmpty
  | .bytes octets => octets.isEmpty
  | raw =>
    match raw.number? with
    | some n => n.equal (.integer 0)
    | none => false

/-- The fields of settings. -/
structure SettingsFields where
  depth : Raw := .int 64
  name : Raw := .text "value"

namespace SettingsFields

/-- Puts a field in. -/
def set (fields : SettingsFields) (entry : Str × Raw) : Except SettingsFault SettingsFields :=
  if entry.1 = "max_nesting_depth" then .ok { fields with depth := entry.2 }
  else if entry.1 = "single_element_name" then .ok { fields with name := entry.2 }
  else .error .unknownField

/-- Succeeds for fields that can be used; the depth is looked at first. -/
def check (fields : SettingsFields) : Except SettingsFault Unit :=
  match fields.depth.number? with
  | none => .error .depthOfWrongType
  | some depth =>
    if depth.lessThan (.integer 1) then .error .depthTooSmall
    else if fields.name.isVacant then .error .emptyName
    else .ok ()

/-- The fields of named entries, if they can be used. -/
def ofEntries? (entries : List (Str × Raw)) : Except SettingsFault SettingsFields := do
  let fields ← entries.foldlM set {}
  fields.check
  return fields

end SettingsFields

end AnnoTree
