import AnnoTree.Proofs.Equality.Keys
import Mathlib.Logic.Relation

/-!
# Values at a place of a tree

A value that is held somewhere in another one is reached by a path: at each step it is an item of
an array or the value of a parameter of an annotation. Putting another value at the end of the path
changes the key and the text of the whole only as far as it changes those of the value.

## Main definitions

- `Frame`: one step of a path, with what stands beside it.
- `Value.placed`: the whole value, of a path and the value at its end.
- `Value.Replaced`: occurrences of a value were replaced by another one.

## Main statements

- `Value.Replaced.fullKey_eq`: replacing a value by one of the same key keeps the key of the whole.
- `Value.fullText_placed`: the text of a value stands in the text of the whole, between two texts
  that do not depend on it.
- `Annot.fullKey_eq_iff_of_placed`: annotations that hold different values at one place have one key
  exactly if the values have one text.
-/

namespace AnnoTree

open AnnoTree.Text

variable {settings : Settings}

/-! ## §1 Paths -/

/-- One step of a path, with what stands beside it. -/
inductive Frame where
  /-- To an item of an array. -/
  | item (before after : List Value)
  /-- To the value of a parameter of an annotation. -/
  | parameter (annot : Str) (before : List Parameter) (name : Str) (after : List Parameter)

/-- The value that holds another one at a step. -/
def Frame.around (value : Value) : Frame → Value
  | .item before after => .array (before ++ value :: after)
  | .parameter annot before name after => .annot ⟨annot, some (before ++ ⟨name, value⟩ :: after)⟩

/-- The value that holds another one at the end of a path, which goes from the outside in. -/
def Value.placed (value : Value) (path : List Frame) : Value :=
  path.foldr (fun frame inner => frame.around inner) value

@[simp] theorem Value.placed_nil (value : Value) : value.placed [] = value :=
  rfl

@[simp] theorem Value.placed_cons (value : Value) (frame : Frame) (path : List Frame) :
    value.placed (frame :: path) = frame.around (value.placed path) :=
  rfl

/-- Some occurrences of a value were replaced by another value, one after the other and at any
places. -/
def Value.Replaced (old new : Value) : Value → Value → Prop :=
  Relation.ReflTransGen fun v w => ∃ path, v = old.placed path ∧ w = new.placed path

/-! ## §2 Keys -/

/-- One step keeps keys that are the same. -/
theorem Frame.fullKey_around (frame : Frame) {v w : Value}
    (h : v.fullKey settings = w.fullKey settings) :
    (frame.around v).fullKey settings = (frame.around w).fullKey settings := by
  cases frame with
  | item before after =>
    simp only [Frame.around, Value.fullKey, Value.fullKeyList_eq_map, List.map_append,
      List.map_cons, h]
  | parameter annot before name after =>
    simp only [Frame.around, Value.fullKey, Annot.fullKey, Option.map_some, List.map_append,
      List.map_cons, Parameter.fullKey_of_value name h]

/-- Values of one key may stand at the end of any path. -/
theorem Value.fullKey_placed (path : List Frame) {v w : Value}
    (h : v.fullKey settings = w.fullKey settings) :
    (v.placed path).fullKey settings = (w.placed path).fullKey settings := by
  induction path with
  | nil => exact h
  | cons frame path ih => exact frame.fullKey_around ih

/-- **Replacing keeps keys**: a value may be replaced by one of the same key at any places. -/
theorem Value.Replaced.fullKey_eq {old new v w : Value} (h : Value.Replaced old new v w)
    (hkey : old.fullKey settings = new.fullKey settings) :
    v.fullKey settings = w.fullKey settings := by
  -- on the replacements one after the other, each of which keeps the key
  induction h with
  | refl => rfl
  | tail _ hstep ih =>
    obtain ⟨path, rfl, rfl⟩ := hstep
    exact ih.trans (Value.fullKey_placed path hkey)

/-! ## §3 Texts -/

/-- A text among joined texts stands between two texts that do not depend on it. -/
theorem joinWith_around (separator : Str) (before after : List Str) :
    ∃ left right, ∀ text, joinWith separator (before ++ text :: after) = left ++ text ++ right := by
  induction before with
  | nil =>
    cases after with
    | nil => exact ⟨"", "", fun text => by simp [joinWith]⟩
    | cons next rest =>
      refine ⟨"", separator ++ joinWith separator (next :: rest), fun text => ?_⟩
      rw [List.nil_append, joinWith, Str.empty_append, Str.append_assoc]
  | cons first before ih =>
    obtain ⟨left, right, hjoin⟩ := ih
    refine ⟨first ++ separator ++ left, right, fun text => ?_⟩
    have hcons : joinWith separator (first :: (before ++ text :: after)) =
        first ++ separator ++ joinWith separator (before ++ text :: after) := by
      cases before <;> rfl
    rw [List.cons_append, hcons, hjoin]
    simp only [Str.append_assoc]

/-- The text of one of the parameters stands in that of the annotation. -/
theorem annotText_around (settings : Settings) (annot : Str)
    (before after : List (Str × Str)) (name : Str) :
    ∃ left right, ∀ text,
      annotText settings annot (before ++ (name, text) :: after) = left ++ text ++ right := by
  have hpair : ∀ text, pairText (name, text) = name ++ " = " ++ text := fun _ => rfl
  by_cases hlone : before = [] ∧ after = []
  · -- whether a lone parameter is written with its name does not depend on its value
    obtain ⟨rfl, rfl⟩ := hlone
    by_cases hname : name = settings.singleName
    · refine ⟨"@" ++ annot ++ "(", ")", fun text => ?_⟩
      rw [List.nil_append, annotText, if_pos hname]
    · refine ⟨"@" ++ annot ++ "(" ++ (name ++ " = "), ")", fun text => ?_⟩
      rw [List.nil_append, annotText, if_neg hname, hpair]
      simp only [Str.append_assoc]
  · obtain ⟨left, right, hjoin⟩ :=
      joinWith_around ", " (before.map pairText) (after.map pairText)
    refine ⟨"@" ++ annot ++ "(" ++ left ++ (name ++ " = "), right ++ ")", fun text => ?_⟩
    have hseveral : annotText settings annot (before ++ (name, text) :: after) =
        "@" ++ annot ++ "(" ++
          joinWith ", " ((before ++ (name, text) :: after).map pairText) ++ ")" := by
      match before, after with
      | [], [] => exact absurd ⟨rfl, rfl⟩ hlone
      | [], _ :: _ => rfl
      | [_], _ => rfl
      | _ :: _ :: _, _ => rfl
    rw [hseveral, List.map_append, List.map_cons, hjoin, hpair]
    simp only [Str.append_assoc]

theorem Frame.fullText_around (settings : Settings) (frame : Frame) :
    ∃ left right, ∀ v : Value,
      (frame.around v).fullText settings = left ++ v.fullText settings ++ right := by
  cases frame with
  | item before after =>
    obtain ⟨left, right, hjoin⟩ := joinWith_around ", " (before.map (Value.fullText settings))
      (after.map (Value.fullText settings))
    refine ⟨"\x7b" ++ left, right ++ "\x7d", fun v => ?_⟩
    rw [Frame.around, Value.fullText, Value.fullTextList_eq_map, List.map_append, List.map_cons,
      hjoin]
    simp only [Str.append_assoc]
  | parameter annot before name after =>
    obtain ⟨left, right, htext⟩ := annotText_around settings annot
      (before.map (Parameter.fullPair settings)) (after.map (Parameter.fullPair settings)) name
    refine ⟨left, right, fun v => ?_⟩
    rw [Frame.around, Value.fullText, Annot.fullText_eq, ← htext]
    simp only [Annot.known, Option.getD_some, List.map_append, List.map_cons, Parameter.fullPair_eq]

/-- **The text of a value stands in the text of what holds it.** -/
theorem Value.fullText_placed (settings : Settings) (path : List Frame) :
    ∃ left right, ∀ v : Value,
      (v.placed path).fullText settings = left ++ v.fullText settings ++ right := by
  induction path with
  | nil => exact ⟨"", "", fun v => by simp⟩
  | cons frame path ih =>
    obtain ⟨innerLeft, innerRight, hinner⟩ := ih
    obtain ⟨left, right, houter⟩ := frame.fullText_around settings
    refine ⟨left ++ innerLeft, innerRight ++ right, fun v => ?_⟩
    rw [Value.placed_cons, houter, hinner]
    simp only [Str.append_assoc]

/-- So values of different texts give texts that differ. -/
theorem Value.fullText_placed_inj (path : List Frame) {v w : Value} :
    (v.placed path).fullText settings = (w.placed path).fullText settings ↔
      v.fullText settings = w.fullText settings := by
  obtain ⟨left, right, htext⟩ := Value.fullText_placed settings path
  rw [htext, htext, Str.append_assoc, Str.append_assoc, Str.append_right_inj, Str.append_left_inj]

/-! ## §4 Annotations around a value -/

/-- What is held by something is there. -/
theorem Value.isAbsent_placed {v w : Value} (h : v.isAbsent = w.isAbsent) (path : List Frame) :
    (v.placed path).isAbsent = (w.placed path).isAbsent := by
  match path with
  | [] => exact h
  | .item _ _ :: _ => rfl
  | .parameter _ _ _ _ :: _ => rfl

/-- **An annotation sees the text of what it holds**: annotations that hold different values at one
place have one key exactly if the values have one text. -/
theorem Annot.fullKey_eq_iff_of_placed {a b : Annot} {frame : Frame} {path : List Frame}
    {v w : Value} (ha : .annot a = v.placed (frame :: path))
    (hb : .annot b = w.placed (frame :: path)) (habsent : v.isAbsent = w.isAbsent) :
    a.fullKey settings = b.fullKey settings ↔ v.fullText settings = w.fullText settings := by
  constructor
  · intro hkey
    have htext := Annot.fullText_of_fullKey hkey
    rw [← Value.fullText_placed_inj (frame :: path), ← ha, ← hb]
    exact htext
  · intro htext
    cases frame with
    | item before after => cases ha
    | parameter annot before name after =>
      -- of the value of a parameter the key knows the text, and whether it is there
      have hparameter : Parameter.fullKey settings ⟨name, v.placed path⟩ =
          Parameter.fullKey settings ⟨name, w.placed path⟩ := by
        simp only [Parameter.fullKey, Value.isAbsent_placed habsent,
          (Value.fullText_placed_inj path).mpr htext]
      have hleft : a = ⟨annot, some (before ++ ⟨name, v.placed path⟩ :: after)⟩ :=
        Value.annot.inj ha
      have hright : b = ⟨annot, some (before ++ ⟨name, w.placed path⟩ :: after)⟩ :=
        Value.annot.inj hb
      rw [hleft, hright]
      simp only [Annot.fullKey, Option.map_some, List.map_append, List.map_cons, hparameter]

end AnnoTree
