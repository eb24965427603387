import AnnoTree.Annot.Loading
import Mathlib

/-!
# The layout of stored forms

What a stored annotation may look like, said without any loading. A stored value is null, an empty
object, or an object with one key, which announces what is held under it. Arrays and annotations
may be held down to a limit.

## Main definitions

- `ScalarLayout`, `TextsLayout`: literals, and objects of texts.
- `AnnotLayout`, `ParametersLayout`, `ParameterLayout`, `ValueLayout`, `HeldLayout`: the layout at
  a level.
- `Json.parts`: the stored values directly in a stored value, for induction.
-/

namespace AnnoTree

/-! ## §1 Leaves -/

/-- The number of bits of an integer kind. -/
def IntegerKind.bits : IntegerKind → Nat
  | .byte => 8
  | .short => 16
  | .int => 32
  | .long => 64

/-- The literals of a scalar kind. An integer is a literal of a floating kind if it is not beyond
the range of conversion. -/
inductive ScalarLayout : ScalarKind → Json → Prop where
  | boolean (b : Bool) : ScalarLayout .boolean (.bool b)
  | integer (k : IntegerKind) (i : Int) (low : -2 ^ (k.bits - 1) ≤ i)
      (high : i < 2 ^ (k.bits - 1)) : ScalarLayout (.integer k) (.int i)
  | floating (k : FloatingKind) (x : Double) : ScalarLayout (.floating k) (.float x)
  | whole (k : FloatingKind) (i : Int) (inRange : i.natAbs < 2 ^ 1024 - 2 ^ 970) :
      ScalarLayout (.floating k) (.int i)
  | char (c : CodePoint) (small : c.toNat ≤ 0xFFFF) :
      ScalarLayout .char (.string (Str.singleton c))

/-- An object that holds a text under each of some keys, and nothing else. -/
inductive TextsLayout (fields : List Str) : Json → Prop where
  | object (entries : List (Str × Json)) (keys : ∀ k ∈ Entries.keys entries, k ∈ fields)
      (texts : ∀ f ∈ fields, ∃ s, Entries.get? f entries = some (.string s)) :
      TextsLayout fields (.object entries)

/-- The key that announces a kind of stored value. -/
def PayloadKey.name : PayloadKey → Str
  | .scalar kind => kind.name
  | .string => "string"
  | .array => "array"
  | .enumConst => "enum_value"
  | .classLiteral => "class_ref"
  | .annot => "annotation"

/-! ## §2 Values and annotations -/

mutual

/-- An annotation at a level: an object with a name and perhaps parameters. -/
inductive AnnotLayout (limit : Nat) : Nat → Json → Prop where
  | object {depth : Nat} {entries : List (Str × Json)} {name : Str}
      (keys : ∀ k ∈ Entries.keys entries, k ∈ (["name", "parameters"] : List Str))
      (named : Entries.get? ("name" : Str) entries = some (.string name)) (nonempty : name ≠ "")
      (within : depth ≤ limit)
      (parameters : ParametersLayout limit depth (fieldOrNull "parameters" entries)) :
      AnnotLayout limit depth (.object entries)

/-- The parameters of an annotation at a level: a list of them, or null. -/
inductive ParametersLayout (limit : Nat) : Nat → Json → Prop where
  | null {depth : Nat} : ParametersLayout limit depth .null
  | array {depth : Nat} {items : List Json}
      (each : ∀ j ∈ items, ParameterLayout limit depth j) :
      ParametersLayout limit depth (.array items)

/-- A parameter of an annotation at a level: an object with a name and perhaps a value. -/
inductive ParameterLayout (limit : Nat) : Nat → Json → Prop where
  | object {depth : Nat} {entries : List (Str × Json)} {name : Str}
      (named : Entries.get? ("name" : Str) entries = some (.string name))
      (keys : ∀ k ∈ Entries.keys entries, k ∈ (["name", "value"] : List Str))
      (value : ValueLayout limit depth (fieldOrNull "value" entries)) :
      ParameterLayout limit depth (.object entries)

/-- A value at a level. -/
inductive ValueLayout (limit : Nat) : Nat → Json → Prop where
  | null {depth : Nat} : ValueLayout limit depth .null
  | empty {depth : Nat} : ValueLayout limit depth (.object [])
  | single {depth : Nat} {key : PayloadKey} {j : Json} (held : HeldLayout limit depth key j) :
      ValueLayout limit depth (.object [(key.name, j)])

/-- What is held under a key of a value at a level. -/
inductive HeldLayout (limit : Nat) : Nat → PayloadKey → Json → Prop where
  | scalar {depth : Nat} {kind : ScalarKind} {j : Json} (literal : ScalarLayout kind j) :
      HeldLayout limit depth (.scalar kind) j
  | string {depth : Nat} {s : Str} : HeldLayout limit depth .string (.string s)
  | array {depth : Nat} {items : List Json} (within : depth ≤ limit)
      (each : ∀ j ∈ items, ValueLayout limit (depth + 1) j) :
      HeldLayout limit depth .array (.array items)
  | enumConst {depth : Nat} {j : Json} (texts : TextsLayout ["type_name", "constant_name"] j) :
      HeldLayout limit depth .enumConst j
  | classLiteral {depth : Nat} {j : Json} (texts : TextsLayout ["type_descriptor"] j) :
      HeldLayout limit depth .classLiteral j
  | annot {depth : Nat} {j : Json} (annot : AnnotLayout limit (depth + 1) j) :
      HeldLayout limit depth .annot j

end

/-! ## §3 Induction over stored values -/

namespace Json

/-- The stored values directly in a stored value. -/
def parts : Json → List Json
  | .array items => items
  | .object entries => entries.map (·.2)
  | .null => []
  | .bool _ => []
  | .int _ => []
  | .float _ => []
  | .string _ => []

section Induction

variable {P : Json → Prop}

mutual

private theorem ofParts (h : ∀ j, (∀ c ∈ j.parts, P c) → P j) : ∀ j, P j
  | .array items => h (.array items) (ofItems h items)
  | .object entries => h (.object entries) (ofEntries h entries)
  | .null => h .null (by simp [parts])
  | .bool b => h (.bool b) (by simp [parts])
  | .int i => h (.int i) (by simp [parts])
  | .float x => h (.float x) (by simp [parts])
  | .string s => h (.string s) (by simp [parts])
termination_by structural j => j

private theorem ofItems (h : ∀ j, (∀ c ∈ j.parts, P c) → P j) : ∀ js : List Json, ∀ j ∈ js, P j
  | [] => by simp
  | j :: rest => List.forall_mem_cons.mpr ⟨ofParts h j, ofItems h rest⟩
termination_by structural js => js

private theorem ofEntries (h : ∀ j, (∀ c ∈ j.parts, P c) → P j) :
    ∀ es : List (Str × Json), ∀ j ∈ es.map (·.2), P j
  | [] => by simp
  | (_, j) :: rest => List.forall_mem_cons.mpr ⟨ofParts h j, ofEntries h rest⟩
termination_by structural es => es

end

/-- What holds of a stored value if it holds of its parts, holds of every one. -/
theorem induct_parts (h : ∀ j, (∀ c ∈ j.parts, P c) → P j) (j : Json) : P j :=
  ofParts h j

end Induction

theorem mem_parts_of_get? {key : Str} {entries : List (Str × Json)} {j : Json}
    (h : Entries.get? key entries = some j) : j ∈ (Json.object entries).parts := by
  induction entries with
  | nil => cases h
  | cons e rest ih =>
    obtain ⟨k, i⟩ := e
    rw [Entries.get?] at h
    split at h
    · cases h
      exact List.mem_cons_self
    · exact List.mem_cons_of_mem i (ih h)

end Json

end AnnoTree
