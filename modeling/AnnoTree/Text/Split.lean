/-!
# Splitting a text

The parts of a text between the places where a separator stands. There is always at least one
part, and parts may be empty.
-/

namespace AnnoTree.Text

variable {α : Type} [DecidableEq α]

/-- The parts of a text between separators. -/
def splitAt (separator : α) : List α → List (List α)
  | [] => [[]]
  | c :: rest =>
    if c = separator then [] :: splitAt separator rest
    else
      match splitAt separator rest with
      | [] => [[c]]
      | part :: more => (c :: part) :: more

theorem splitAt_ne_nil (separator : α) (cs : List α) : splitAt separator cs ≠ [] := by
  cases cs with
  | nil => simp [splitAt]
  | cons c rest =>
    unfold splitAt
    split
    · simp
    · split <;> simp

/-- Without a separator there is one part. -/
theorem splitAt_of_not_mem {separator : α} {cs : List α} (h : separator ∉ cs) :
    splitAt separator cs = [cs] := by
  induction cs with
  | nil => rfl
  | cons c rest ih =>
    simp only [List.mem_cons, not_or] at h
    simp [splitAt, ih h.2, Ne.symm h.1]

/-- A separator ends the first part. -/
theorem splitAt_append {separator : α} {cs : List α} (h : separator ∉ cs) (rest : List α) :
    splitAt separator (cs ++ separator :: rest) = cs :: splitAt separator rest := by
  induction cs with
  | nil => simp [splitAt]
  | cons c more ih =>
    simp only [List.mem_cons, not_or] at h
    simp [splitAt, ih h.2, Ne.symm h.1]

end AnnoTree.Text
