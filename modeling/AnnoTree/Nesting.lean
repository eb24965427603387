import AnnoTree.Settings.Basic

/-!
# The bound on nesting

Every walk over a value counts the level it is at, and stops at an array or an annotation whose
level is beyond the bound of the settings. A walk starts at level zero, but a stored form may be
loaded at any level, also below zero.
-/

namespace AnnoTree

/-- The walks over values. -/
inductive Walk where
  | encode
  | render
  | compare
  | serialize
  | deserialize
  deriving DecidableEq, Repr

/-- The name of a walk in messages. -/
def Walk.name : Walk → Str
  | .encode => "encode"
  | .render => "render"
  | .compare => "compare"
  | .serialize => "serialize"
  | .deserialize => "deserialize"

/-- A walk that met a level beyond the bound. -/
structure TooDeep where
  limit : Nat
  walk : Walk
  deriving DecidableEq, Repr

/-- The wording for a bound as messages show it and the name of a walk. -/
def TooDeep.describe (limit walk : Str) : Str :=
  "annotation value nesting exceeds " ++ limit ++ " levels during " ++ walk

/-- The wording of a walk that went too deep. -/
def TooDeep.message (e : TooDeep) : Str :=
  describe (toString e.limit) e.walk.name

/-- Lets a walk go on at a level within the bound. -/
def checkDepth (settings : Settings) (depth : Int) (walk : Walk) : Except TooDeep Unit :=
  if settings.maxDepth < depth then .error ⟨settings.maxDepth, walk⟩ else .ok ()

theorem checkDepth_eq_ok_iff {settings : Settings} {depth : Int} {walk : Walk} :
    checkDepth settings depth walk = .ok () ↔ depth ≤ settings.maxDepth := by
  unfold checkDepth
  split <;> simp <;> omega

end AnnoTree
