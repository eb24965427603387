import AnnoTree.Proofs.Storage.Lines

/-!
# The open line

A text is closed up to its last end of a line, and what follows is the open line. The lines that are
closed do not depend on what follows them. A text behind the open line goes on with it: what is left
of it when it is stripped stays in front.

## Main definitions

- `Text.closedText`, `Text.openLine`: a text up to the last end of a line, and what follows it.

## Main statements

- `Text.physicalLines_append`: lines that are closed do not depend on what follows them.
- `Text.physicalLines_append_row`: a row goes on with the open line.
- `Text.exists_stripChars_append`: what is left of a line that goes on.
-/

namespace AnnoTree.Text

/-! ## §1 Closed lines -/

/-- Whether a physical line ends with a character. -/
def endsLine (c : Char) : Bool :=
  c == '\n' || c == '\r'

/-- A text up to the last end of a line. -/
def closedText (cs : List Char) : List Char :=
  cs.rdropWhile fun c => !endsLine c

/-- What follows the last end of a line. -/
def openLine (cs : List Char) : List Char :=
  cs.rtakeWhile fun c => !endsLine c

theorem closedText_append_openLine (cs : List Char) : closedText cs ++ openLine cs = cs :=
  List.rdropWhile_append_rtakeWhile

theorem isOneLine_openLine (cs : List Char) : IsOneLine (openLine cs) := by
  intro c hc
  have hopen := List.mem_rtakeWhile_imp hc
  simpa [endsLine] using hopen

theorem closedText_cases (cs : List Char) :
    closedText cs = [] ∨ ∃ init c, closedText cs = init ++ [c] ∧ endsLine c = true := by
  by_cases hnil : closedText cs = []
  · exact .inl hnil
  · have hlast := List.rdropWhile_last_not _ cs hnil
    rw [Bool.not_eq_true', Bool.not_eq_false] at hlast
    exact .inr ⟨_, _, (List.dropLast_append_getLast hnil).symm, hlast⟩

section Parts

variable {init line : List Char} {c : Char}

theorem openLine_of_isOneLine (hline : IsOneLine line) : openLine line = line := by
  rw [openLine, List.rtakeWhile_eq_self_iff]
  intro c hc
  simpa [endsLine] using hline c hc

/-- A line behind an end of a line is open. -/
theorem openLine_append (hc : endsLine c = true) (hline : IsOneLine line) :
    openLine (init ++ c :: line) = line := by
  have hreverse : ∀ d ∈ line.reverse, (!endsLine d) = true := by
    intro d hd
    simpa [endsLine] using hline d (List.mem_reverse.mp hd)
  rw [openLine, List.rtakeWhile, List.reverse_append, List.reverse_cons, List.append_assoc,
    List.takeWhile_append_of_pos hreverse]
  simp [hc]

theorem closedText_append (hc : endsLine c = true) (hline : IsOneLine line) :
    closedText (init ++ c :: line) = init ++ [c] := by
  have hsplit := closedText_append_openLine (init ++ c :: line)
  rw [openLine_append hc hline] at hsplit
  exact List.append_cancel_right (hsplit.trans (List.append_cons init c line))

end Parts

/-- A line that is not ended is the last one, if it has characters. -/
theorem physicalLines_of_isOneLine {cs : List Char} (h : IsOneLine cs) :
    physicalLines cs = if cs.isEmpty then [] else [cs] := by
  have haux := physicalLinesAux_append_of_isOneLine h [] []
  rw [List.append_nil, List.append_nil, physicalLinesAux] at haux
  rw [physicalLines, haux]
  simp

section Ends

variable {c : Char} {rest : List Char}

/-- A line feed ends a line, and so does a carriage return that no line feed follows. -/
theorem physicalLinesAux_end (hc : endsLine c = true) (hrest : rest.head? ≠ some '\n')
    (current : List Char) :
    physicalLinesAux current (c :: rest) = current.reverse :: physicalLinesAux [] rest := by
  simp only [endsLine, Bool.or_eq_true, beq_iff_eq] at hc
  rcases hc with rfl | rfl
  · rfl
  · rw [physicalLinesAux]
    rintro tail rfl
    exact hrest rfl

theorem physicalLinesAux_append (hc : endsLine c = true) (hrest : rest.head? ≠ some '\n')
    (current cs : List Char) :
    physicalLinesAux current (cs ++ c :: rest) =
      physicalLinesAux current (cs ++ [c]) ++ physicalLinesAux [] rest := by
  fun_induction physicalLinesAux current cs with
  | case1 | case2 =>
    rw [List.nil_append, List.nil_append, physicalLinesAux_end hc hrest,
      physicalLinesAux_end hc (by simp)]
    rfl
  | case3 current cs ih =>
    simp only [List.cons_append, physicalLinesAux, ih]
  | case4 current cs ih =>
    simp only [List.cons_append, physicalLinesAux, ih]
  | case5 current cs hfeed ih =>
    by_cases hpair : cs = [] ∧ c = '\n'
    · -- the line feed belongs to the carriage return before it
      obtain ⟨rfl, rfl⟩ := hpair
      rfl
    · have hhead : ∀ more, (cs ++ c :: more).head? ≠ some '\n' := by
        intro more
        cases cs with
        | nil => simpa using hpair
        | cons d cs =>
          rintro ⟨⟩
          exact hfeed cs rfl
      rw [List.cons_append, List.cons_append, physicalLinesAux_end rfl (hhead rest),
        physicalLinesAux_end rfl (hhead []), ih, List.cons_append]
  | case6 current d cs hfeed _ hreturn ih =>
    have hd : d ≠ '\n' ∧ d ≠ '\r' := ⟨hfeed, hreturn⟩
    rw [List.cons_append, List.cons_append, physicalLinesAux_cons hd, physicalLinesAux_cons hd, ih]

end Ends

/-- **Lines that are closed do not depend on what follows them**, unless that is the rest of their
end. -/
theorem physicalLines_append (cs : List Char) {rest : List Char} (hrest : rest.head? ≠ some '\n') :
    physicalLines (closedText cs ++ rest) =
      physicalLines (closedText cs) ++ physicalLines rest := by
  rcases closedText_cases cs with hnil | ⟨init, c, hclosed, hc⟩
  · rw [hnil]
    rfl
  · rw [hclosed, List.append_assoc]
    exact physicalLinesAux_append hc hrest [] init

theorem IsOneLine.head?_ne {cs : List Char} (h : IsOneLine cs) : cs.head? ≠ some '\n' := by
  intro hhead
  obtain ⟨rest, rfl⟩ := List.head?_eq_some_iff.mp hhead
  exact (h '\n' List.mem_cons_self).1 rfl

/-- The lines of a text are those that are closed, and the open one if it has characters. -/
theorem physicalLines_split (cs : List Char) :
    physicalLines cs = physicalLines (closedText cs) ++ physicalLines (openLine cs) := by
  rw [← physicalLines_append cs (isOneLine_openLine cs).head?_ne, closedText_append_openLine]

/-- **A row goes on with the open line**, and closes it. -/
theorem physicalLines_append_row (cs : List Char) {row : List Char} (hrow : IsOneLine row)
    (hne : row ≠ []) :
    physicalLines (cs ++ (row ++ ['\n'])) =
      physicalLines (closedText cs) ++ [openLine cs ++ row] := by
  have hline : IsOneLine (openLine cs ++ row) := (isOneLine_openLine cs).append hrow
  have hhead : (openLine cs ++ row ++ ['\n']).head? ≠ some '\n' := by
    rw [List.head?_append_of_ne_nil _ (by simp [hne])]
    exact hline.head?_ne
  have hlast : physicalLines (openLine cs ++ row ++ ['\n']) = [openLine cs ++ row] :=
    physicalLinesAux_row hline [] []
  rw [← hlast, ← physicalLines_append cs hhead, ← List.append_assoc, ← List.append_assoc,
    ← List.append_assoc, closedText_append_openLine]

/-! ## §2 Stripping a line that goes on -/

section Stripping

variable {line : List Char} {d : Char}

theorem stripChars_eq (cs : List Char) :
    stripChars cs = (cs.dropWhile isBlank).rdropWhile isBlank :=
  rfl

/-- Only a text of blanks has nothing left. -/
theorem isBlank_of_stripChars (h : stripChars line = []) : ∀ c ∈ line, isBlank c = true := by
  rw [stripChars_eq, List.rdropWhile_eq_nil_iff, ← List.dropWhile_eq_nil_iff,
    List.dropWhile_idempotent] at h
  exact List.dropWhile_eq_nil_iff.mp h

/-- Nothing is stripped from the end of a text whose last character is not blank. -/
theorem stripChars_concat (hd : isBlank d = false) (cs : List Char) :
    stripChars (cs ++ [d]) = (cs ++ [d]).dropWhile isBlank := by
  have hend : (cs ++ [d]).dropWhile isBlank = cs.dropWhile isBlank ++ [d] := by
    rw [List.dropWhile_append]
    split
    next hnil => rw [List.isEmpty_iff.mp hnil, dropWhile_cons_of_not hd, List.nil_append]
    next => rfl
  rw [stripChars_eq, hend, List.rdropWhile_concat_neg _ _ _ (by simp [hd])]

/-- The blanks of a line in front of a text are stripped. -/
theorem stripChars_append_of_blank (hline : stripChars line = []) (hd : isBlank d = false)
    (cs : List Char) : stripChars (line ++ (cs ++ [d])) = stripChars (cs ++ [d]) := by
  rw [← List.append_assoc, stripChars_concat hd, stripChars_concat hd, List.append_assoc,
    List.dropWhile_append_of_pos (isBlank_of_stripChars hline)]

/-- What is left of a line in front of a text is as without it, and the blanks between them stay. -/
theorem exists_stripChars_append (hline : stripChars line ≠ []) (hd : isBlank d = false)
    (cs : List Char) :
    ∃ gap, stripChars (line ++ (cs ++ [d])) = stripChars line ++ (gap ++ (cs ++ [d])) := by
  have hfront : line.dropWhile isBlank ≠ [] := by
    intro hnil
    rw [stripChars_eq, hnil] at hline
    exact hline rfl
  refine ⟨(line.dropWhile isBlank).rtakeWhile isBlank, ?_⟩
  rw [← List.append_assoc line, stripChars_concat hd, List.append_assoc, List.dropWhile_append,
    if_neg (by rwa [List.isEmpty_iff]), stripChars_eq, ← List.append_assoc (List.rdropWhile _ _),
    List.rdropWhile_append_rtakeWhile]

end Stripping

end AnnoTree.Text
