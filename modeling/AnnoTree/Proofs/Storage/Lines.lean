import AnnoTree.Text.Blank
import AnnoTree.Text.Lines
import Mathlib

/-!
# Lines of rows

Rows without control characters, each ended by a line feed, are exactly the physical lines of the
text they make. The wide rule counts more lines than that: three characters that are no control
characters of ASCII end a line under it wherever they stand.

## Main definitions

- `Text.framed`: rows as one text.
- `Text.isInnerBreak`: the three characters.

## Main statements

- `Text.physicalLines_framed`: reading gives back the rows.
- `Text.lineCount_framed`: what the wide rule counts.
-/

namespace AnnoTree.Text

/-! ## §1 Rows -/

/-- A text has no control characters of ASCII. -/
def NoControls (cs : List CodePoint) : Prop :=
  ∀ c ∈ cs, 0x20 ≤ c.toNat

/-- Rows, each ended by a line feed. -/
def framed (rows : List (List Char)) : List Char :=
  rows.flatMap (· ++ ['\n'])

theorem framed_cons (row : List Char) (rows : List (List Char)) :
    framed (row :: rows) = row ++ '\n' :: framed rows := by
  simp [framed]

theorem NoControls.of_cons {c : CodePoint} {cs : List CodePoint} (h : NoControls (c :: cs)) :
    0x20 ≤ c.toNat ∧ NoControls cs :=
  List.forall_mem_cons.mp h

theorem NoControls.append {cs ds : List CodePoint} (hcs : NoControls cs) (hds : NoControls ds) :
    NoControls (cs ++ ds) :=
  List.forall_mem_append.mpr ⟨hcs, hds⟩

theorem noControls_map {cs : List Char} :
    NoControls (cs.map .char) ↔ ∀ c ∈ cs, 0x20 ≤ c.toNat :=
  List.forall_mem_map

/-- The characters that end physical lines are control characters. -/
theorem ne_of_least {c : Char} (h : 0x20 ≤ c.toNat) : c ≠ '\n' ∧ c ≠ '\r' := by
  constructor
  · rintro rfl
    exact absurd h (by decide)
  · rintro rfl
    exact absurd h (by decide)

/-- A text has no line feed and no carriage return. -/
def IsOneLine (cs : List Char) : Prop :=
  ∀ c ∈ cs, c ≠ '\n' ∧ c ≠ '\r'

theorem NoControls.isOneLine {cs : List Char} (h : NoControls (cs.map .char)) : IsOneLine cs :=
  fun c hc => ne_of_least (noControls_map.mp h c hc)

theorem IsOneLine.append {cs ds : List Char} (hcs : IsOneLine cs) (hds : IsOneLine ds) :
    IsOneLine (cs ++ ds) :=
  List.forall_mem_append.mpr ⟨hcs, hds⟩

/-! ## §2 Physical lines -/

theorem physicalLinesAux_cons {c : Char} (h : c ≠ '\n' ∧ c ≠ '\r') (current rest : List Char) :
    physicalLinesAux current (c :: rest) = physicalLinesAux (c :: current) rest := by
  rw [physicalLinesAux]
  · exact h.1
  · intro _ hc _
    exact h.2 hc
  · exact h.2

/-- Characters that end no line go into the unfinished one. -/
theorem physicalLinesAux_append_of_isOneLine {line : List Char} (h : IsOneLine line)
    (current rest : List Char) :
    physicalLinesAux current (line ++ rest) = physicalLinesAux (line.reverse ++ current) rest := by
  -- by induction on the line, for any unfinished line in front of it
  induction line generalizing current with
  | nil => rfl
  | cons c line ih =>
    obtain ⟨hc, hline⟩ := List.forall_mem_cons.mp h
    rw [List.cons_append, physicalLinesAux_cons hc, ih hline, List.reverse_cons, List.append_assoc]
    rfl

/-- A line in front becomes the rest of the unfinished line. -/
theorem physicalLinesAux_row {row : List Char} (h : IsOneLine row) (current rest : List Char) :
    physicalLinesAux current (row ++ '\n' :: rest) =
      (current.reverse ++ row) :: physicalLinesAux [] rest := by
  rw [physicalLinesAux_append_of_isOneLine h, physicalLinesAux, List.reverse_append,
    List.reverse_reverse]

/-- **Reading gives back the rows.** -/
theorem physicalLines_framed {rows : List (List Char)}
    (h : ∀ row ∈ rows, NoControls (row.map .char)) :
    physicalLines (framed rows) = rows := by
  unfold physicalLines
  induction rows with
  | nil => rfl
  | cons row rows ih =>
    obtain ⟨hrow, hrows⟩ := List.forall_mem_cons.mp h
    rw [framed_cons, physicalLinesAux_row hrow.isOneLine, ih hrows]
    rfl

/-! ## §3 Counted lines -/

/-- The characters that end a line under the wide rule and are no control characters of ASCII. -/
def isInnerBreak (c : Char) : Bool :=
  ['\x85', '\u2028', '\u2029'].contains c

theorem isLineBreak_of_least {c : Char} (h : 0x20 ≤ c.toNat) : isLineBreak c = isInnerBreak c := by
  have hbelow : ∀ d ∈ ['\n', '\x0b', '\x0c', '\r', '\x1c', '\x1d', '\x1e'], d.toNat < 0x20 := by
    simp
  have hcontrol : ∀ d ∈ ['\n', '\x0b', '\x0c', '\r', '\x1c', '\x1d', '\x1e'], c ≠ d := by
    rintro d hd rfl
    exact absurd (hbelow c hd) (by omega)
  simp only [List.forall_mem_cons] at hcontrol
  simp [isLineBreak, isInnerBreak, hcontrol]

theorem lineCountAux_cons {c : Char} (h : c ≠ '\r') (opened : Bool) (rest : List Char) :
    lineCountAux opened (c :: rest) =
      if isLineBreak c then lineCountAux false rest + 1 else lineCountAux true rest := by
  rw [lineCountAux]
  intro _ hc _
  exact h hc

/-- A row in front counts as one line, and one more for each line break inside. -/
theorem lineCountAux_row {row : List Char} (h : NoControls (row.map .char)) (opened : Bool)
    (rest : List Char) :
    lineCountAux opened (row ++ '\n' :: rest) =
      row.countP isInnerBreak + 1 + lineCountAux false rest := by
  induction row generalizing opened with
  | nil =>
    rw [List.nil_append, lineCountAux_cons (by decide), if_pos (by decide), List.countP_nil]
    omega
  | cons c row ih =>
    obtain ⟨hc, hrow⟩ := h.of_cons
    rw [List.cons_append, lineCountAux_cons (ne_of_least hc).2, isLineBreak_of_least hc,
      ih hrow, ih hrow, List.countP_cons]
    split
    · omega
    · omega

/-- **What the wide rule counts**: the rows, and the line breaks inside them. -/
theorem lineCount_framed {rows : List (List Char)}
    (h : ∀ row ∈ rows, NoControls (row.map .char)) :
    lineCount (framed rows) = rows.length + (rows.map fun row => row.countP isInnerBreak).sum := by
  unfold lineCount
  induction rows with
  | nil => rfl
  | cons row rows ih =>
    obtain ⟨hrow, hrows⟩ := List.forall_mem_cons.mp h
    rw [framed_cons, lineCountAux_row hrow, ih hrows, List.length_cons, List.map_cons,
      List.sum_cons]
    omega

/-! ## §4 Stripping -/

theorem dropWhile_cons_of_not {c : Char} (h : isBlank c = false) (cs : List Char) :
    (c :: cs).dropWhile isBlank = c :: cs := by
  simp [h]

/-- Nothing is stripped from a text that begins and ends with characters that are not blank. -/
theorem stripChars_of_ends {c d : Char} (hc : isBlank c = false) (hd : isBlank d = false)
    (cs : List Char) : stripChars (c :: (cs ++ [d])) = c :: (cs ++ [d]) := by
  have hreverse : (c :: (cs ++ [d])).reverse = d :: (cs.reverse ++ [c]) := by
    simp
  rw [stripChars, stripWhere, dropWhile_cons_of_not hc, hreverse, dropWhile_cons_of_not hd,
    ← hreverse, List.reverse_reverse]

end AnnoTree.Text
