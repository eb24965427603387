import AnnoTree.Text.Numeral
import AnnoTree.Text.Str

/-!
# Settings

The two settings that annotation values depend on: a bound on nesting, and the name of the
parameter that a rendering leaves out when it is the only one.
-/

namespace AnnoTree

/-- Settings that can be used: some nesting is allowed, and the name is a name. -/
structure Settings where
  /-- The greatest level that an array or an annotation may have. -/
  maxDepth : Nat := 64
  /-- The name that is not written when a parameter of that name stands alone. -/
  singleName : Str := "value"
  one_le_maxDepth : 1 ≤ maxDepth := by decide
  singleName_ne_empty : singleName ≠ "" := by decide

/-- Why values make no settings. -/
inductive SettingsFault where
  | depthTooSmall
  | emptyName
  /-- A text in the configuration spells no integer. -/
  | depthNotInteger (text : String)
  /-- The environment variable spells no integer. -/
  | variableNotInteger (text : String)
  /-- The depth is a floating-point value that is not a number. -/
  | depthNotNumber
  /-- The depth is infinite. -/
  | depthInfinite
  /-- An integer of the configuration cannot be read or written. -/
  | tooLong (cause : Text.TooLong)
  /-- The depth is nothing that a number can be made of. -/
  | depthOfWrongType
  | unknownField
  /-- The configuration is not UTF-8. -/
  | notText
  deriving DecidableEq, Repr

namespace Settings

/-- Settings from a depth and a name; the depth is looked at first. -/
def ofValues? (depth : Int) (name : Str) : Except SettingsFault Settings :=
  if hd : 1 ≤ depth then
    if hn : name ≠ "" then
      .ok ⟨depth.toNat, name, by omega, hn⟩
    else .error .emptyName
  else .error .depthTooSmall

end Settings

end AnnoTree
