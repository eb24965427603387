import AnnoTree.Proofs.Storage.Deliveries
import AnnoTree.Proofs.Storage.OpenLine

/-!
# Line numbers

Rows are numbered by the physical lines of their file. Lines are passed one after another: a blank
line gives nothing and an object gives a row, each under its own number, until a line is neither.
That one is a fault, and no line before it is read again or taken back.

## Main definitions

- `Text.CutsInto`: the lines of a text, said without any reading.
- `IsPassed`: a line that does not end the reading.
- `ReadsLines`: what is known of the rows of lines.

## Main statements

- `Text.cutsInto_iff`: the reader of lines decides the lines of a text.
- `readsLines_rowsFrom`: the rows of lines.
- `rows_are_numbered_by_lines`: the rows of a text.
-/

namespace AnnoTree

open AnnoTree.Text

/-! ## §1 Physical lines -/

namespace Text

/-- The lines that a text is cut into. A line feed ends a line, a carriage return ends a line, and a
carriage return with the line feed behind it is one end. What follows the last end is a line if it
is not empty. -/
inductive CutsInto : List Char → List (List Char) → Prop where
  | nil : CutsInto [] []
  | last {line : List Char} (oneLine : IsOneLine line) (nonempty : line ≠ []) :
      CutsInto line [line]
  | feed {line rest : List Char} {lines : List (List Char)} (oneLine : IsOneLine line)
      (more : CutsInto rest lines) : CutsInto (line ++ '\n' :: rest) (line :: lines)
  | returnFeed {line rest : List Char} {lines : List (List Char)} (oneLine : IsOneLine line)
      (more : CutsInto rest lines) : CutsInto (line ++ '\r' :: '\n' :: rest) (line :: lines)
  | carriage {line rest : List Char} {lines : List (List Char)} (oneLine : IsOneLine line)
      (noFeed : rest.head? ≠ some '\n') (more : CutsInto rest lines) :
      CutsInto (line ++ '\r' :: rest) (line :: lines)

theorem CutsInto.physicalLines_eq {cs : List Char} {lines : List (List Char)}
    (h : CutsInto cs lines) : physicalLines cs = lines := by
  induction h with
  | nil => rfl
  | last oneLine nonempty =>
    rw [physicalLines_of_isOneLine oneLine, if_neg (by rwa [List.isEmpty_iff])]
  | feed oneLine _ ih =>
    rw [physicalLines, physicalLinesAux_row oneLine, ← physicalLines, ih]
    rfl
  | @returnFeed line rest lines oneLine _ ih =>
    rw [physicalLines, physicalLinesAux_append_of_isOneLine oneLine, physicalLinesAux,
      ← physicalLines, ih, List.append_nil, List.reverse_reverse]
  | @carriage line rest lines oneLine noFeed _ ih =>
    rw [physicalLines, physicalLinesAux_append_of_isOneLine oneLine,
      physicalLinesAux_end rfl noFeed, ← physicalLines, ih, List.append_nil, List.reverse_reverse]

theorem cutsInto_physicalLinesAux {current : List Char} (hcurrent : IsOneLine current.reverse)
    (cs : List Char) : CutsInto (current.reverse ++ cs) (physicalLinesAux current cs) := by
  -- each branch of the reader is a constructor, the unfinished line being the one that is ended
  fun_induction physicalLinesAux current cs with
  | case1 current hempty =>
    obtain rfl := List.isEmpty_iff.mp hempty
    exact .nil
  | case2 current hempty =>
    rw [List.append_nil]
    refine .last hcurrent fun hnil => hempty ?_
    rwa [List.isEmpty_iff, ← List.reverse_eq_nil_iff]
  | case3 current rest ih => exact .feed hcurrent (ih (List.forall_mem_nil _))
  | case4 current rest ih => exact .returnFeed hcurrent (ih (List.forall_mem_nil _))
  | case5 current rest hfeed ih =>
    refine .carriage hcurrent (fun hhead => ?_) (ih (List.forall_mem_nil _))
    obtain ⟨tail, rfl⟩ := List.head?_eq_some_iff.mp hhead
    exact hfeed tail rfl
  | case6 current c rest hfeed _ hreturn ih =>
    have hline : IsOneLine (c :: current).reverse := by
      rw [List.reverse_cons]
      exact hcurrent.append (List.forall_mem_singleton.mpr ⟨hfeed, hreturn⟩)
    have hcut := ih hline
    rwa [List.reverse_cons, List.append_assoc] at hcut

/-- **The lines of a text** are those that are read. -/
theorem cutsInto_iff {cs : List Char} {lines : List (List Char)} :
    CutsInto cs lines ↔ lines = physicalLines cs := by
  constructor
  · intro h
    exact h.physicalLines_eq.symm
  · rintro rfl
    have hnil : IsOneLine (List.reverse []) := List.forall_mem_nil _
    exact cutsInto_physicalLinesAux hnil cs

end Text

/-! ## §2 Rows of lines -/

/-- What stands on a line, without the blanks around it, is an object. -/
def HoldsObject (line : List Char) (entries : List (Str × Json)) : Prop :=
  Json.readChars (stripChars line) = .ok (.object entries)

/-- A line does not end the reading: it is blank, or an object stands on it. -/
def IsPassed (line : List Char) : Prop :=
  stripChars line = [] ∨ ∃ entries, HoldsObject line entries

theorem HoldsObject.ne_nil {line : List Char} {entries : List (Str × Json)}
    (h : HoldsObject line entries) : stripChars line ≠ [] :=
  stripChars_ne_nil_of_read h

/-- A line that is not blank and on which no object stands ends the reading. -/
theorem not_isPassed {line : List Char} (hne : stripChars line ≠ [])
    (hnot : ∀ entries, ¬HoldsObject line entries) : ¬IsPassed line :=
  not_or.mpr ⟨hne, not_exists.mpr hnot⟩

/-- A fault is that of a line under a number, on which no object stands: either nothing can be read
there, or something else is, and then the fault tells the number. -/
structure IsFaultOfLine (number : ℕ) (line : List Char) (f : Failure) : Prop where
  notJson : ∀ fault, Json.readChars (stripChars line) = .error fault → f = fault.failure
  notObject : ∀ j, Json.readChars (stripChars line) = .ok j →
    f = .storage (.rowNotObject number j.typeName) ∧ f.message? =
      some ("Expected JSON object on line " ++ toString number ++ ", got " ++ j.typeName)

/-- What is known of the rows of lines, of which the first has the given number. -/
structure ReadsLines (number : ℕ) (lines : List (List Char)) (d : Delivery Row) : Prop where
  mem_iff : ∀ row : Row, row ∈ d.items ↔ ∃ i line, lines[i]? = some line ∧
    (∀ earlier ∈ lines.take i, IsPassed earlier) ∧ HoldsObject line row.entries ∧
    row.line = number + i
  ascending : d.items.Pairwise fun r s => r.line < s.line
  whole : (∀ line ∈ lines, IsPassed line) → d.failure = none
  broken : ∀ (i : ℕ) (line : List Char), lines[i]? = some line →
    (∀ earlier ∈ lines.take i, IsPassed earlier) → ¬IsPassed line →
    ∃ f, d.failure = some f ∧ IsFaultOfLine (number + i) line f

namespace ReadsLines

variable {number : ℕ} {line : List Char} {lines : List (List Char)} {d : Delivery Row}

theorem nil : ReadsLines number [] ⟨[], none⟩ where
  mem_iff row := by simp
  ascending := .nil
  whole _ := rfl
  broken i line h := by cases h

/-- A line that is passed counts, and what it gives comes before the rest. -/
theorem passed {items : List Row} (hline : IsPassed line)
    (hitems : ∀ row : Row, row ∈ items ↔
      (HoldsObject line row.entries ∧ row.line = number) ∨ row ∈ d.items)
    (hascending : items.Pairwise fun r s => r.line < s.line)
    (h : ReadsLines (number + 1) lines d) :
    ReadsLines number (line :: lines) ⟨items, d.failure⟩ where
  mem_iff row := by
    rw [hitems, h.mem_iff]
    constructor
    · rintro (⟨hobject, hnumber⟩ | ⟨i, l, hl, hpassed, hobject, hnumber⟩)
      · exact ⟨0, line, rfl, List.forall_mem_nil _, hobject, hnumber⟩
      · exact ⟨i + 1, l, hl, List.forall_mem_cons.mpr ⟨hline, hpassed⟩, hobject, by omega⟩
    · rintro ⟨_ | i, l, hl, hpassed, hobject, hnumber⟩
      · cases hl
        exact .inl ⟨hobject, hnumber⟩
      · exact .inr ⟨i, l, hl, (List.forall_mem_cons.mp hpassed).2, hobject, by omega⟩
  ascending := hascending
  whole hall := h.whole (List.forall_mem_cons.mp hall).2
  broken i l hl hpassed hnot := by
    cases i with
    | zero =>
      cases hl
      exact absurd hline hnot
    | succ i =>
      rw [← Nat.add_assoc, Nat.add_right_comm]
      exact h.broken i l hl (List.forall_mem_cons.mp hpassed).2 hnot

/-- A blank line gives nothing. -/
theorem blank (hblank : stripChars line = []) (h : ReadsLines (number + 1) lines d) :
    ReadsLines number (line :: lines) d := by
  refine passed (.inl hblank) (fun row => ?_) h.ascending h
  have hnot : ¬(HoldsObject line row.entries ∧ row.line = number) :=
    fun hobject => hobject.1.ne_nil hblank
  rw [or_iff_right hnot]

/-- An object gives a row under the number of its line. -/
theorem cons {entries : List (Str × Json)} (hread : HoldsObject line entries)
    (h : ReadsLines (number + 1) lines d) :
    ReadsLines number (line :: lines) (d.cons ⟨number, entries⟩) := by
  refine passed (.inr ⟨entries, hread⟩) (fun row => ?_) ?_ h
  · rw [List.mem_cons]
    refine or_congr_left ⟨?_, fun ⟨hobject, hnumber⟩ => ?_⟩
    · rintro rfl
      exact ⟨hread, rfl⟩
    · rw [HoldsObject, hread] at hobject
      cases hobject
      cases row
      cases hnumber
      rfl
  · refine List.pairwise_cons.mpr ⟨fun row hrow => ?_, h.ascending⟩
    obtain ⟨i, _, _, _, _, hnumber⟩ := (h.mem_iff row).mp hrow
    change number < row.line
    omega

/-- Any other line ends the reading with a fault. -/
theorem failing {f : Failure} (hnot : ¬IsPassed line) (hfault : IsFaultOfLine number line f) :
    ReadsLines number (line :: lines) (.failing f) where
  mem_iff row := by
    refine iff_of_false List.not_mem_nil ?_
    rintro ⟨_ | i, l, hl, hpassed, hobject, -⟩
    · cases hl
      exact hnot (.inr ⟨_, hobject⟩)
    · exact hnot (List.forall_mem_cons.mp hpassed).1
  ascending := .nil
  whole hall := absurd (List.forall_mem_cons.mp hall).1 hnot
  broken i l hl hpassed _ := by
    cases i with
    | zero =>
      cases hl
      exact ⟨f, rfl, hfault⟩
    | succ i => exact absurd (List.forall_mem_cons.mp hpassed).1 hnot

end ReadsLines

/-- **The rows of lines.** -/
theorem readsLines_rowsFrom (number : ℕ) (lines : List (List Char)) :
    ReadsLines number lines (rowsFrom none number lines) := by
  induction lines generalizing number with
  | nil => exact .nil
  | cons line lines ih =>
    rw [rowsFrom]
    by_cases hblank : stripChars line = []
    · rw [if_pos (List.isEmpty_iff.mpr hblank)]
      exact .blank hblank (ih (number + 1))
    · rw [if_neg (by rwa [List.isEmpty_iff])]
      split
      case h_1 fault hread =>
        refine .failing (not_isPassed hblank fun entries => ?_)
          ⟨fun other hother => ?_, fun j hj => ?_⟩
        · simp [HoldsObject, hread]
        · rw [hread] at hother
          cases hother
          rfl
        · rw [hread] at hj
          cases hj
      case h_2 entries hread => exact .cons hread (ih (number + 1))
      case h_3 j hother hread =>
        refine .failing (not_isPassed hblank fun entries => ?_)
          ⟨fun fault hfault => ?_, fun k hk => ?_⟩
        · rw [HoldsObject, hread, Except.ok.injEq]
          exact hother entries
        · rw [hread] at hfault
          cases hfault
        · rw [hread] at hk
          cases hk
          exact ⟨rfl, rfl⟩

/-! ## §3 Rows of a text -/

/-- The lines of a file that is a text. -/
theorem fileLines_encodeUtf8 (text : String) :
    fileLines (encodeUtf8 text) = ⟨physicalLines text.toList, none⟩ := by
  rw [fileLines, decodeUtf8_encodeUtf8]

/-- **Rows are numbered by lines.** A text is cut into lines in one way. The rows that are read from
it are the objects on its lines up to the first line that is neither blank nor an object, in the
order of these lines and under their numbers, counted from one. There is a fault only if there is
such a line; it comes after those rows, and if something stands on the line that is no object, it
tells its number. -/
theorem rows_are_numbered_by_lines (text : String) :
    ∃ lines, (∀ other, CutsInto text.toList other ↔ other = lines) ∧
      ReadsLines 1 lines (rows (encodeUtf8 text)) := by
  refine ⟨physicalLines text.toList, fun other => cutsInto_iff, ?_⟩
  rw [rows, fileLines_encodeUtf8]
  exact readsLines_rowsFrom 1 _

end AnnoTree
