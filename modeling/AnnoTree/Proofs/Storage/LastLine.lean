import AnnoTree.Proofs.Json.Continuation
import AnnoTree.Proofs.Storage.Deliveries
import AnnoTree.Proofs.Storage.OpenLine
import AnnoTree.Proofs.Storage.RoundTrip

/-!
# Appending to any file

A file need not have been written row by row: its lines may end with carriage returns, be blank or
be padded, and the last one may have no end at all. A row that is appended goes on with that last
line. If it is empty or blank the row is read from it, and all that was there before stays. If it
holds an annotation there is one line with two objects, which is not read: the annotation that was
last is lost, and the new one with it.

## Main definitions

- `Delivery.andThen`: one delivery and then another.
- `lineAnnots`: what is delivered of lines.

## Main statements

- `lineAnnots_append`: what is delivered of lines that follow one another.
- `FileTree.read_of_appendRow`: what appending an annotation makes of a file.
- `appended_rows_need_a_closed_line`, `appending_may_lose_the_last_row`
-/

namespace AnnoTree

open AnnoTree.Text

/-! ## §1 Deliveries one after another -/

namespace Delivery

variable {α β : Type}

/-- One delivery and then another, unless the first ends in a fault. -/
def andThen (d e : Delivery α) : Delivery α :=
  match d.failure with
  | none => ⟨d.items ++ e.items, e.failure⟩
  | some f => ⟨d.items, some f⟩

theorem andThen_of_whole {d : Delivery α} (h : d.failure = none) (e : Delivery α) :
    d.andThen e = ⟨d.items ++ e.items, e.failure⟩ := by
  rw [andThen, h]

theorem andThen_failure_eq_none {d e : Delivery α} :
    (d.andThen e).failure = none ↔ d.failure = none ∧ e.failure = none := by
  rcases d with ⟨items, _ | f⟩
  · simp [andThen]
  · simp [andThen]

theorem cons_andThen (item : α) (d e : Delivery α) :
    (d.cons item).andThen e = (d.andThen e).cons item := by
  rcases d with ⟨items, _ | f⟩
  · rfl
  · rfl

theorem failing_andThen (f : Failure) (e : Delivery α) :
    (failing f : Delivery α).andThen e = failing f :=
  rfl

/-- A function is applied to one delivery and then to the other. -/
theorem mapM_andThen (f : α → Except Failure β) (d e : Delivery α) :
    (d.andThen e).mapM f = (d.mapM f).andThen (e.mapM f) := by
  obtain ⟨items, failure⟩ := d
  induction items with
  | nil =>
    cases failure with
    | none => rfl
    | some g => rfl
  | cons item rest ih =>
    have hfront : (⟨item :: rest, failure⟩ : Delivery α) = cons item ⟨rest, failure⟩ := rfl
    rw [hfront, cons_andThen]
    cases hitem : f item with
    | ok b => rw [mapM_cons_of_ok hitem, mapM_cons_of_ok hitem, ih, cons_andThen]
    | error g => rw [mapM_cons_of_error hitem, mapM_cons_of_error hitem, failing_andThen]

end Delivery

/-- The rows of lines and of those that follow them. -/
theorem rowsFrom_append (failure : Option Failure) (number : ℕ) (lines more : List (List Char)) :
    rowsFrom failure number (lines ++ more) =
      (rowsFrom none number lines).andThen (rowsFrom failure (number + lines.length) more) := by
  induction lines generalizing number with
  | nil => rfl
  | cons line lines ih =>
    have hnumber : number + (line :: lines).length = number + 1 + lines.length := by
      rw [List.length_cons]
      omega
    rw [List.cons_append, rowsFrom, rowsFrom, ih, hnumber]
    split
    next => rfl
    next =>
      split
      next => rfl
      next => rw [Delivery.cons_andThen]
      next => rfl

/-- The annotations that are delivered of lines, of which the first has the given number. -/
def lineAnnots (settings : Settings) (path : Path) (number : ℕ) (lines : List (List Char)) :
    Delivery StoredAnnot :=
  (rowsFrom none number lines).mapM (Row.load settings path)

section Lines

variable {settings : Settings} {path : Path} {number : ℕ} {line : List Char}

/-- **What is delivered of lines that follow one another.** -/
theorem lineAnnots_append (lines more : List (List Char)) :
    lineAnnots settings path number (lines ++ more) =
      (lineAnnots settings path number lines).andThen
        (lineAnnots settings path (number + lines.length) more) := by
  rw [lineAnnots, rowsFrom_append, Delivery.mapM_andThen]
  rfl

theorem lineAnnots_of_blank (h : stripChars line = []) :
    lineAnnots settings path number [line] = ⟨[], none⟩ := by
  rw [lineAnnots, rowsFrom, h]
  rfl

theorem lineAnnots_of_holdsAnnot {a : Annot} (h : HoldsAnnot settings line a) :
    lineAnnots settings path number [line] = ⟨[⟨number, a⟩], none⟩ := by
  obtain ⟨entries, hread, hload⟩ := h
  have hrow : Row.load settings path ⟨number, entries⟩ = .ok ⟨number, a⟩ := by
    rw [Row.load, Row.json, hload]
  rw [lineAnnots, rowsFrom_of_object hread]
  exact Delivery.mapM_cons_of_ok hrow

theorem lineAnnots_of_notJson (hne : stripChars line ≠ [])
    (h : Json.readChars (stripChars line) = .error .malformed) :
    lineAnnots settings path number [line] = .failing (.storage .notJson) := by
  rw [lineAnnots, rowsFrom, if_neg (by rwa [List.isEmpty_iff]), h]
  rfl

theorem exists_holdsAnnot_of_lineAnnots (hne : stripChars line ≠ [])
    (h : (lineAnnots settings path number [line]).failure = none) :
    ∃ a, HoldsAnnot settings line a := by
  by_contra hnone
  have hbroken := (deliversLines_rowsFrom settings path none number [line]).broken
  rw [exists_linesHold_iff, List.forall_mem_singleton] at hbroken
  obtain ⟨f, hf, -⟩ := hbroken fun hall => hnone (hall hne)
  rw [lineAnnots, hf] at h
  cases h

theorem storedAnnots_encodeUtf8 (text : String) :
    storedAnnots settings path (encodeUtf8 text) =
      lineAnnots settings path 1 (physicalLines text.toList) := by
  rw [storedAnnots, rows, fileLines, decodeUtf8_encodeUtf8]
  rfl

end Lines

/-! ## §2 A row behind the open line -/

section Rows

variable {settings : Settings} {line : List Char}

/-- The row of an object ends with its brace. -/
theorem Json.rowChars_eq_concat (entries : List (Str × Json)) :
    ∃ cs, Json.rowChars (.object entries) = cs ++ ['\x7d'] := by
  rw [Json.rowChars_object, ← List.cons_append]
  exact ⟨_, rfl⟩

theorem Annot.rowChars_ne_nil (a : Annot) : a.fullPayload.rowChars ≠ [] := by
  obtain ⟨-, entries, hobject⟩ := a.isRow_fullPayload
  rw [hobject, Json.rowChars_object]
  exact List.cons_ne_nil _ _

/-- A row behind blanks is read as it is. -/
theorem holdsAnnot_of_blank {a : Annot} (ha : a.IsSound settings 0)
    (hwell : a.fullPayload.isWellFormed = true) (hline : stripChars line = []) :
    HoldsAnnot settings (line ++ a.fullPayload.rowChars) a := by
  obtain ⟨hkeys, entries, hobject⟩ := a.isRow_fullPayload
  rw [hobject] at hkeys hwell
  obtain ⟨cs, hrow⟩ := Json.rowChars_eq_concat entries
  refine ⟨entries, ?_, hobject ▸ Annot.load_fullPayload ha⟩
  rw [hobject, hrow, stripChars_append_of_blank hline (by decide), ← hrow,
    Json.stripChars_object, Json.readChars_rowChars hkeys hwell]

/-- **A row behind an annotation** is not read, and neither is the annotation before it. -/
theorem readChars_of_holdsAnnot {a : Annot} (h : HoldsAnnot settings line a)
    (entries : List (Str × Json)) :
    stripChars (line ++ Json.rowChars (.object entries)) ≠ [] ∧
      Json.readChars (stripChars (line ++ Json.rowChars (.object entries))) =
        .error .malformed := by
  obtain ⟨found, hread, -⟩ := h
  have hline := stripChars_ne_nil_of_read hread
  obtain ⟨cs, hrow⟩ := Json.rowChars_eq_concat entries
  obtain ⟨gap, hstrip⟩ := exists_stripChars_append hline (by decide : isBlank '\x7d' = false) cs
  rw [hrow, hstrip]
  refine ⟨List.append_ne_nil_of_left_ne_nil hline _, ?_⟩
  rw [Json.readChars, List.map_append]
  refine Json.readPoints_append_eq_malformed hread fun hspace => ?_
  have hbrace := List.dropWhile_eq_nil_iff.mp hspace (.char '\x7d') (by simp)
  exact absurd hbrace (by decide)

end Rows

/-! ## §3 Appending to a file -/

namespace FileTree

variable {settings : Settings} {t u : FileTree} {p : Path}

theorem storedAnnots_of_read (settings : Settings) {text : String}
    (h : t.read p = .ok (encodeUtf8 text)) :
    t.storedAnnots settings p = lineAnnots settings p 1 (physicalLines text.toList) := by
  rw [FileTree.storedAnnots, h]
  exact storedAnnots_encodeUtf8 text

theorem payload_of_record {a : Annot} {j : Json} (h : (Raw.annot a).record settings = .ok j) :
    j = a.fullPayload ∧ a.payload settings 0 = .ok j := by
  rw [Raw.record_annot, liftWalk_eq_ok] at h
  exact ⟨((a.payload_spec settings 0).of_eq_ok h).2, h⟩

/-- **What appending an annotation makes of a file**: its row stands behind what was there, and it
has a well-formed stored form. -/
theorem read_of_appendRow {text : String} {a : Annot} {ref : RowRef}
    (hread : t.read p = .ok (encodeUtf8 text))
    (h : t.appendRow settings p (.annot a) = (u, .ok ref)) :
    u.read p = .ok (encodeUtf8 (text ++ a.fullPayload.row)) ∧
      a.payload settings 0 = .ok a.fullPayload ∧ a.fullPayload.isWellFormed = true := by
  obtain ⟨v, j, hparent, hrecord, hwell, hchange⟩ := appendRecord_eq_ok (appendRow_eq_ok h).2
  obtain ⟨rfl, hpayload⟩ := payload_of_record hrecord
  rw [makeParent_of_read hread] at hparent
  cases hparent
  refine ⟨?_, hpayload, hwell⟩
  rw [read_of_changeFile hchange, content_of_read hread, encodeUtf8_append]

/-- To a file that can be read as a text an annotation can be appended if it has a well-formed
stored form. -/
theorem exists_appendRow {text : String} {a : Annot} (hread : t.read p = .ok (encodeUtf8 text))
    {j : Json} (hj : a.payload settings 0 = .ok j) (hwell : j.isWellFormed = true) :
    ∃ u, t.appendRow settings p (.annot a) = (u, .ok ⟨p.name, lineCount text.toList + 1⟩) := by
  have hform : HasForm settings (.annot a) j := hasForm_of_payload hj
  obtain ⟨target, hplace, hnode⟩ := read_eq_ok.mp hread
  have hline : t.nextLine p = .ok (lineCount text.toList + 1) := by
    simp only [nextLine, exists?_of_read hread, hread, Except.mapError, bind, Except.bind,
      decodeUtf8_encodeUtf8, if_true, pure, Except.pure]
  have hchange : t.changeFile p (· ++ encodeUtf8 j.row) =
      .ok (t.put target (.file (t.content p ++ encodeUtf8 j.row))) :=
    changeFile_ok hplace (by simp [hnode])
  refine ⟨t.put target (.file (t.content p ++ encodeUtf8 j.row)), ?_⟩
  rw [appendRow_eq hform.1, hline, appendRecord, makeParent_of_read hread]
  simp only [extend, hform.2, Json.rowOctets_eq hwell, hchange]

end FileTree

/-! ## §4 The last line -/

section LastLine

variable {settings : Settings} {path : Path} {cs : List Char} {a : Annot}

theorem lineAnnots_split (settings : Settings) (path : Path) (cs : List Char) :
    lineAnnots settings path 1 (physicalLines cs) =
      (lineAnnots settings path 1 (physicalLines (closedText cs))).andThen
        (lineAnnots settings path (1 + (physicalLines (closedText cs)).length)
          (physicalLines (openLine cs))) := by
  rw [← lineAnnots_append, ← physicalLines_split]

theorem lineAnnots_append_row (cs : List Char) (a : Annot) :
    lineAnnots settings path 1 (physicalLines (cs ++ a.fullPayload.row.toList)) =
      (lineAnnots settings path 1 (physicalLines (closedText cs))).andThen
        (lineAnnots settings path (1 + (physicalLines (closedText cs)).length)
          [openLine cs ++ a.fullPayload.rowChars]) := by
  have hrow := (Json.noControls_rowChars a.fullPayload).isOneLine
  rw [Json.toList_row, physicalLines_append_row cs hrow a.rowChars_ne_nil, lineAnnots_append]

/-- A blank last line is read as nothing. -/
theorem lineAnnots_of_openLine_blank (hblank : stripChars (openLine cs) = []) (number : ℕ) :
    lineAnnots settings path number (physicalLines (openLine cs)) = ⟨[], none⟩ := by
  rw [physicalLines_of_isOneLine (isOneLine_openLine cs)]
  split
  next => rfl
  next => exact lineAnnots_of_blank hblank

/-- The row behind a blank last line is read as its annotation. -/
theorem lineAnnots_of_blank_openLine (hblank : stripChars (openLine cs) = [])
    (ha : a.IsSound settings 0) (hwell : a.fullPayload.isWellFormed = true)
    (hread : (lineAnnots settings path 1 (physicalLines cs)).failure = none) :
    lineAnnots settings path 1 (physicalLines (cs ++ a.fullPayload.row.toList)) =
      ⟨(lineAnnots settings path 1 (physicalLines cs)).items ++
        [⟨1 + (physicalLines (closedText cs)).length, a⟩], none⟩ := by
  have hsplit := lineAnnots_split settings path cs
  rw [lineAnnots_of_openLine_blank hblank] at hsplit
  rw [hsplit] at hread ⊢
  have hclosed := (Delivery.andThen_failure_eq_none.mp hread).1
  rw [lineAnnots_append_row, lineAnnots_of_holdsAnnot (holdsAnnot_of_blank ha hwell hblank),
    Delivery.andThen_of_whole hclosed, Delivery.andThen_of_whole hclosed, List.append_nil]

/-- A last line that holds an annotation is lost with the row behind it. -/
theorem lineAnnots_of_openLine (hopen : stripChars (openLine cs) ≠ [])
    (hread : (lineAnnots settings path 1 (physicalLines cs)).failure = none) :
    ∃ before last, (lineAnnots settings path 1 (physicalLines cs)).items = before ++ [last] ∧
      lineAnnots settings path 1 (physicalLines (cs ++ a.fullPayload.row.toList)) =
        ⟨before, some (.storage .notJson)⟩ := by
  have hne : openLine cs ≠ [] := by
    intro hnil
    rw [hnil] at hopen
    exact hopen rfl
  have hline : physicalLines (openLine cs) = [openLine cs] := by
    rw [physicalLines_of_isOneLine (isOneLine_openLine cs), if_neg (by rwa [List.isEmpty_iff])]
  rw [lineAnnots_split, hline] at hread ⊢
  obtain ⟨hclosed, hlast⟩ := Delivery.andThen_failure_eq_none.mp hread
  obtain ⟨b, hb⟩ := exists_holdsAnnot_of_lineAnnots hopen hlast
  obtain ⟨-, entries, hobject⟩ := a.isRow_fullPayload
  obtain ⟨hnonblank, hnone⟩ := readChars_of_holdsAnnot hb entries
  refine ⟨(lineAnnots settings path 1 (physicalLines (closedText cs))).items,
    ⟨1 + (physicalLines (closedText cs)).length, b⟩, ?_, ?_⟩
  · rw [lineAnnots_of_holdsAnnot hb, Delivery.andThen_of_whole hclosed]
  · rw [lineAnnots_append_row, hobject, lineAnnots_of_notJson hnonblank hnone,
      Delivery.andThen_of_whole hclosed]
    simp [Delivery.failing]

end LastLine

/-- **Appended rows need a closed line.** A file is read without a fault, and an annotation that was
built and has a name, as have all in it, is appended to it. If what follows its last end of a line
is blank, then all that was there is read as before, on its lines, and after it the annotation, on
the next line that is not closed. If not, it holds the annotation that is read last; then all others
are read as before, and the line that now holds two objects is a fault. -/
theorem appended_rows_need_a_closed_line {settings : Settings} {t u : FileTree} {p : Path}
    {text : String} {a : Annot} {ref : RowRef} (hfile : t.read p = .ok (encodeUtf8 text))
    (hread : (t.storedAnnots settings p).failure = none)
    (hregular : ∀ b ∈ a.annots, b.IsRegular settings)
    (happend : t.appendRow settings p (.annot a) = (u, .ok ref)) :
    (stripChars (openLine text.toList) = [] →
      u.storedAnnots settings p =
        ⟨(t.storedAnnots settings p).items ++
          [⟨1 + (physicalLines (closedText text.toList)).length, a⟩], none⟩) ∧
    (stripChars (openLine text.toList) ≠ [] →
      ∃ before last, (t.storedAnnots settings p).items = before ++ [last] ∧
        u.storedAnnots settings p = ⟨before, some (.storage .notJson)⟩) := by
  obtain ⟨hfile', hj, hwell⟩ := FileTree.read_of_appendRow hfile happend
  have ha : a.IsSound settings 0 := ⟨((a.payload_spec settings 0).of_eq_ok hj).1, hregular⟩
  have hstored := FileTree.storedAnnots_of_read settings hfile
  have hstored' := FileTree.storedAnnots_of_read settings hfile'
  rw [String.toList_append] at hstored'
  rw [hstored] at hread
  rw [hstored, hstored']
  exact ⟨fun hblank => lineAnnots_of_blank_openLine hblank ha hwell hread,
    fun hopen => lineAnnots_of_openLine hopen hread⟩

/-! ## §5 A file of one row -/

/-- A tree with one file of a text. -/
def FileTree.ofText (text : String) : FileTree :=
  ⟨[(["r"], .file (encodeUtf8 text))]⟩

theorem FileTree.read_ofText (text : String) :
    (FileTree.ofText text).read (.ofText "r") = .ok (encodeUtf8 text) :=
  FileTree.read_eq_ok.mpr ⟨["r"], rfl, rfl⟩

section OneRow

variable {settings : Settings} {a : Annot}

theorem Annot.isSound_ofName {name : Str} (h : name ≠ "") :
    (Annot.ofName name).IsSound settings 0 where
  fits := by simp [Annot.fits_iff, Annot.ofName, Annot.known]
  regular := Annot.isRegular_ofName h

theorem holdsAnnot_rowChars (ha : a.IsSound settings 0)
    (hwell : a.fullPayload.isWellFormed = true) : HoldsAnnot settings a.fullPayload.rowChars a := by
  have hrow := holdsAnnot_of_blank ha hwell (rfl : stripChars [] = [])
  rwa [List.nil_append] at hrow

/-- The file of a row holds its annotation. -/
theorem holdsAnnots_row (ha : a.IsSound settings 0) (hwell : a.fullPayload.isWellFormed = true) :
    HoldsAnnots settings (encodeUtf8 a.fullPayload.row) [a] := by
  refine ⟨_, rfl, ?_⟩
  have hline := (Json.noControls_rowChars a.fullPayload).isOneLine
  rw [Json.toList_row, physicalLines, physicalLinesAux_row hline]
  exact .row (holdsAnnot_rowChars ha hwell) .nil

/-- A row without its line feed is the open line, and is read. -/
theorem lineAnnots_rowChars (path : Path) (ha : a.IsSound settings 0)
    (hwell : a.fullPayload.isWellFormed = true) :
    stripChars (openLine a.fullPayload.rowChars) ≠ [] ∧
      lineAnnots settings path 1 (physicalLines a.fullPayload.rowChars) = ⟨[⟨1, a⟩], none⟩ := by
  have hrow := holdsAnnot_rowChars ha hwell
  have hline := (Json.noControls_rowChars a.fullPayload).isOneLine
  constructor
  · rw [openLine_of_isOneLine hline]
    exact fun hblank => not_holdsAnnot_of_blank hblank a hrow
  · rw [physicalLines_of_isOneLine hline, if_neg (by simp [a.rowChars_ne_nil]),
      lineAnnots_of_holdsAnnot hrow]

/-- Blanks behind a row are the open line, and are read as nothing. -/
theorem lineAnnots_row (path : Path) (ha : a.IsSound settings 0)
    (hwell : a.fullPayload.isWellFormed = true) {blanks : List Char}
    (hline : IsOneLine blanks) (hblank : stripChars blanks = []) :
    openLine (a.fullPayload.row.toList ++ blanks) = blanks ∧
      physicalLines (closedText (a.fullPayload.row.toList ++ blanks)) =
        [a.fullPayload.rowChars] ∧
      lineAnnots settings path 1 (physicalLines (a.fullPayload.row.toList ++ blanks)) =
        ⟨[⟨1, a⟩], none⟩ := by
  have htext : a.fullPayload.row.toList ++ blanks =
      a.fullPayload.rowChars ++ '\n' :: blanks := by
    rw [Json.toList_row, List.append_assoc]
    rfl
  have hopen : openLine (a.fullPayload.row.toList ++ blanks) = blanks := by
    rw [htext, openLine_append rfl hline]
  have hclosed : physicalLines (closedText (a.fullPayload.row.toList ++ blanks)) =
      [a.fullPayload.rowChars] := by
    rw [htext, closedText_append rfl hline]
    exact physicalLinesAux_row (Json.noControls_rowChars a.fullPayload).isOneLine [] []
  refine ⟨hopen, hclosed, ?_⟩
  rw [lineAnnots_split, hclosed, lineAnnots_of_openLine_blank (by rwa [hopen]),
    lineAnnots_of_holdsAnnot (holdsAnnot_rowChars ha hwell)]
  rfl

end OneRow

/-- A case of it: behind a row and a line of blanks that is not ended. -/
theorem row_comes_after_blanks :
    ∃ u ref, (FileTree.ofText ((Annot.ofName "A").fullPayload.row ++ "\t ")).appendRow {}
        (.ofText "r") (.annot (.ofName "B")) = (u, .ok ref) ∧
      u.storedAnnots {} (.ofText "r") = ⟨[⟨1, .ofName "A"⟩, ⟨2, .ofName "B"⟩], none⟩ := by
  have hfile := FileTree.read_ofText ((Annot.ofName "A").fullPayload.row ++ "\t ")
  have hA : (Annot.ofName "A").IsSound {} 0 := Annot.isSound_ofName (by decide)
  have hB : (Annot.ofName "B").payload {} 0 = .ok (Annot.ofName "B").fullPayload := rfl
  have hblanks : IsOneLine "\t ".toList := by simp [IsOneLine]
  obtain ⟨hopen, hclosed, hread⟩ := lineAnnots_row (.ofText "r") hA (by decide) hblanks rfl
  rw [← String.toList_append] at hopen hclosed hread
  have hstored := (FileTree.storedAnnots_of_read {} hfile).trans hread
  obtain ⟨u, happend⟩ := FileTree.exists_appendRow hfile hB (by decide)
  obtain ⟨hkept, -⟩ := appended_rows_need_a_closed_line hfile (by rw [hstored])
    (Annot.isRegular_ofName (by decide)) happend
  refine ⟨u, _, happend, ?_⟩
  rw [hkept (by rw [hopen]; rfl), hstored, hclosed]
  rfl

/-- It is not so that appending keeps all annotations that a file holds: where the last row has no
line feed, it is lost with the new one. -/
theorem appending_may_lose_the_last_row :
    ¬∀ (settings : Settings) (t u : FileTree) (p : Path) (text : String) (a : Annot) (ref : RowRef),
      t.read p = .ok (encodeUtf8 text) → (t.storedAnnots settings p).failure = none →
      (∀ b ∈ a.annots, b.IsRegular settings) →
      t.appendRow settings p (.annot a) = (u, .ok ref) →
      (u.storedAnnots settings p).failure = none ∧
        (u.storedAnnots settings p).items.map StoredAnnot.annot =
          (t.storedAnnots settings p).items.map StoredAnnot.annot ++ [a] := by
  intro halways
  have hfile := FileTree.read_ofText (String.ofList (Annot.ofName "A").fullPayload.rowChars)
  have hA : (Annot.ofName "A").IsSound {} 0 := Annot.isSound_ofName (by decide)
  have hB : (Annot.ofName "B").payload {} 0 = .ok (Annot.ofName "B").fullPayload := rfl
  obtain ⟨hopen, hread⟩ := lineAnnots_rowChars (.ofText "r") hA (by decide)
  obtain ⟨u, happend⟩ := FileTree.exists_appendRow hfile hB (by decide)
  obtain ⟨hfailure, -⟩ := halways {} _ u _ _ _ _ hfile
    (by rw [FileTree.storedAnnots_of_read {} hfile, String.toList_ofList, hread])
    (Annot.isRegular_ofName (by decide)) happend
  -- after the row of the new annotation there is one line with both
  obtain ⟨before, last, -, hlost⟩ := lineAnnots_of_openLine (a := .ofName "B") hopen (by rw [hread])
  rw [FileTree.storedAnnots_of_read {} (FileTree.read_of_appendRow hfile happend).1,
    String.toList_append, String.toList_ofList, hlost] at hfailure
  cases hfailure

end AnnoTree
