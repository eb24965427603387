import AnnoTree.Proofs.Identifier.Canonical
import AnnoTree.Proofs.Storage.Files
import AnnoTree.Proofs.Storage.RowText
import AnnoTree.Proofs.Storage.Utf8
import AnnoTree.Storage.Row

/-!
# Files of rows

A file that only rows were appended to holds their texts, one after another. Appending one more
adds its text, and refers to it by the number of lines that the wide rule counts before it; reading
gives the rows back under their physical lines.

## Main definitions

- `FileTree.HoldsRows`: a file holds the rows of some stored values, or is yet to be made for the
  first one.
- `lineAfter`: the line that a reference names after some rows.

## Main statements

- `FileTree.appendRow_of_holdsRows`: what appending one row does.
- `FileTree.appendRows_of_holdsRows`: what appending a list of rows does.
- `rows_rowsOctets`: what is read from the octets of rows.
-/

namespace AnnoTree

open AnnoTree.Text

/-! ## §1 Octets of rows -/

/-- The octets of the rows of well-formed values. -/
def rowsOctets (js : List Json) : List Octet :=
  js.flatMap fun j => encodeUtf8 j.row

theorem rowsOctets_concat (js : List Json) (j : Json) :
    rowsOctets (js ++ [j]) = rowsOctets js ++ encodeUtf8 j.row := by
  simp [rowsOctets]

theorem rowsOctets_eq (js : List Json) :
    rowsOctets js = (framed (js.map Json.rowChars)).flatMap String.utf8EncodeChar := by
  simp only [rowsOctets, framed, encodeUtf8, Json.toList_row, List.flatMap_map,
    List.flatMap_assoc]

theorem decodeUtf8_rowsOctets (js : List Json) :
    decodeUtf8 (rowsOctets js) = .whole (framed (js.map Json.rowChars)) := by
  rw [rowsOctets_eq]
  exact decodeUtf8Aux_chars _ [] 0

/-- The number of line breaks inside rows that only the wide rule counts. -/
def innerBreaks (js : List Json) : ℕ :=
  (js.map fun j => j.rowChars.countP isInnerBreak).sum

/-- The line that a reference names after some rows. -/
def lineAfter (js : List Json) : ℕ :=
  js.length + innerBreaks js + 1

theorem noControls_rows (js : List Json) :
    ∀ row ∈ js.map Json.rowChars, NoControls (row.map .char) := by
  intro row hrow
  obtain ⟨j, -, rfl⟩ := List.mem_map.mp hrow
  exact j.noControls_rowChars

theorem lineCount_rows (js : List Json) :
    lineCount (framed (js.map Json.rowChars)) + 1 = lineAfter js := by
  rw [lineCount_framed (noControls_rows js), List.length_map, List.map_map]
  rfl

/-- A file with the row of one annotation. -/
def oneRowFile : FileTree :=
  ⟨[(["x"], .file (rowsOctets [(Annot.ofName "A").fullPayload]))]⟩

/-! ## §2 One more row -/

namespace FileTree

variable {settings : Settings} {t u : FileTree} {p : Path}

/-- A file holds the rows of stored values, which are well-formed, and nothing else. -/
inductive HoldsRows (t : FileTree) (p : Path) : List Json → Prop where
  | there {js : List Json} (well : ∀ j ∈ js, j.isWellFormed = true)
      (read : t.read p = .ok (rowsOctets js)) : HoldsRows t p js
  | fresh (empty : t.IsFresh p) : HoldsRows t p []

theorem HoldsRows.isWellFormed {js : List Json} (h : t.HoldsRows p js) :
    ∀ j ∈ js, j.isWellFormed = true := by
  cases h with
  | there well read => exact well
  | fresh empty => exact List.forall_mem_nil _

theorem HoldsRows.content {js : List Json} (h : t.HoldsRows p js) :
    (t.makeParent p).1.content p = rowsOctets js := by
  cases h with
  | there well read =>
    rw [makeParent_of_read read]
    exact content_of_read read
  | fresh empty => exact empty

/-- A file that can be read holds its rows. -/
theorem HoldsRows.read_eq {js : List Json} (h : t.HoldsRows p js) {octets : List Octet}
    (hread : t.read p = .ok octets) : octets = rowsOctets js := by
  rw [← h.content, makeParent_of_read hread]
  exact (content_of_read hread).symm

/-- The line after the rows of a file is found, and is counted under the wide rule. -/
theorem nextLine_of_holdsRows {js : List Json} (h : t.HoldsRows p js) (hwrite : t.CanWrite p) :
    t.nextLine p = .ok (lineAfter js) := by
  rcases exists?_of_canWrite hwrite with hmissing | ⟨octets, hread⟩
  · -- a file that is not there has no rows
    cases h with
    | there well read =>
      rw [exists?_of_read read] at hmissing
      cases hmissing
    | fresh empty =>
      simp only [nextLine, hmissing]
      rfl
  · obtain rfl := h.read_eq hread
    simp only [nextLine, exists?_of_read hread, hread, Except.mapError, bind, Except.bind,
      decodeUtf8_rowsOctets, if_true, pure, Except.pure, lineCount_rows]

/-- A record that is there has a stored form. -/
def HasForm (settings : Settings) (record : Raw) (j : Json) : Prop :=
  record ≠ .null ∧ record.record settings = .ok j

theorem hasForm_of_payload {a : Annot} {j : Json} (h : a.payload settings 0 = .ok j) :
    HasForm settings (.annot a) j := by
  refine ⟨by simp, ?_⟩
  rw [Raw.record_annot, h]
  rfl

/-- The text of a record is added to a file of rows, if it is well-formed. -/
theorem appendRecord_of_holdsRows {js : List Json} (h : t.HoldsRows p js)
    (hwrite : t.CanWrite p) {record : Raw} {j : Json} (hrecord : HasForm settings record j)
    (hwell : j.isWellFormed = true) :
    ∃ u, t.appendRecord settings p record = (u, .ok ()) ∧
      u.read p = .ok (rowsOctets (js ++ [j])) := by
  obtain ⟨u, target, hparent, hplace, hnode⟩ := canWrite_iff.mp hwrite
  -- the row goes behind what the file holds once the directories are made
  have hcontent := h.content
  rw [hparent] at hcontent
  have hchange : u.changeFile p (· ++ encodeUtf8 j.row) =
      .ok (u.put target (.file (u.content p ++ encodeUtf8 j.row))) :=
    changeFile_ok hplace hnode
  refine ⟨u.put target (.file (u.content p ++ encodeUtf8 j.row)), ?_, ?_⟩
  · simp only [appendRecord, hparent, extend, hrecord.2, Json.rowOctets_eq hwell, hchange]
  · rw [read_of_changeFile hchange, hcontent, rowsOctets_concat]

theorem appendRow_eq {record : Raw} (h : record ≠ .null) :
    t.appendRow settings p record =
      match t.nextLine p with
      | .error f => (t, .error f)
      | .ok line =>
        match t.appendRecord settings p record with
        | (t, .ok ()) => (t, .ok ⟨p.name, line⟩)
        | (t, .error f) => (t, .error f) := by
  cases record <;> first | rfl | exact absurd rfl h

/-- **Appending one row** adds it to the rows of a file, and refers to it by the line after those
that were there. -/
theorem appendRow_of_holdsRows {js : List Json} (h : t.HoldsRows p js) (hwrite : t.CanWrite p)
    {record : Raw} {j : Json} (hrecord : HasForm settings record j)
    (hwell : j.isWellFormed = true) :
    ∃ u, t.appendRow settings p record = (u, .ok ⟨p.name, lineAfter js⟩) ∧
      u.read p = .ok (rowsOctets (js ++ [j])) := by
  obtain ⟨u, happend, hread⟩ := appendRecord_of_holdsRows h hwrite hrecord hwell
  refine ⟨u, ?_, hread⟩
  rw [appendRow_eq hrecord.1, nextLine_of_holdsRows h hwrite]
  simp only [happend]

/-- **A record that was appended** has a well-formed stored form, whose row was added to the file
once its directory was made. -/
theorem appendRecord_eq_ok {record : Raw} (h : t.appendRecord settings p record = (u, .ok ())) :
    ∃ v j, t.makeParent p = (v, .ok ()) ∧ record.record settings = .ok j ∧
      j.isWellFormed = true ∧ v.changeFile p (· ++ encodeUtf8 j.row) = .ok u := by
  rw [appendRecord] at h
  split at h
  next => cases h
  next v hparent =>
    unfold extend at h
    split at h
    next => cases h
    next j hj =>
      dsimp only at h
      split at h
      next w hchange =>
        -- the file is changed in any case, but only a row that can be encoded is a success
        cases hwell : j.isWellFormed with
        | true =>
          rw [Json.rowOctets_eq hwell] at h hchange
          cases h
          exact ⟨v, j, hparent, hj, hwell, hchange⟩
        | false =>
          rw [Json.rowOctets_eq_error hwell] at h
          cases h
      next => cases h

/-- A row that was appended is that of a record. -/
theorem appendRow_eq_ok {record : Raw} {ref : RowRef}
    (h : t.appendRow settings p record = (u, .ok ref)) :
    record ≠ .null ∧ t.appendRecord settings p record = (u, .ok ()) := by
  have hrecord : record ≠ .null := by
    rintro rfl
    cases h
  refine ⟨hrecord, ?_⟩
  rw [appendRow_eq hrecord] at h
  split at h
  next => cases h
  next line hline =>
    split at h
    next v happend =>
      cases h
      exact happend
    next => cases h

/-- A file that a row was appended to could be written. -/
theorem canWrite_of_appendRow {record : Raw} {ref : RowRef}
    (h : t.appendRow settings p record = (u, .ok ref)) : t.CanWrite p := by
  obtain ⟨v, j, hparent, -, -, hchange⟩ := appendRecord_eq_ok (appendRow_eq_ok h).2
  obtain ⟨target, hplace, hnode⟩ := place_of_changeFile hchange
  exact canWrite_iff.mpr ⟨v, target, hparent, hplace, hnode⟩

/-- The stored form of a record that was appended is well-formed. -/
theorem isWellFormed_of_appendRow {record : Raw} {ref : RowRef} {j : Json}
    (hform : HasForm settings record j) (h : t.appendRow settings p record = (u, .ok ref)) :
    j.isWellFormed = true := by
  obtain ⟨-, k, -, hrecord, hwell, -⟩ := appendRecord_eq_ok (appendRow_eq_ok h).2
  rw [hform.2] at hrecord
  cases hrecord
  exact hwell

/-! ## §3 A list of rows -/

/-- The references to rows that come after others. -/
def refsAfter (name : String) (before js : List Json) : List RowRef :=
  (List.range js.length).map fun i => ⟨name, lineAfter (before ++ js.take i)⟩

theorem refsAfter_cons (name : String) (before : List Json) (j : Json) (js : List Json) :
    refsAfter name before (j :: js) =
      ⟨name, lineAfter before⟩ :: refsAfter name (before ++ [j]) js := by
  simp [refsAfter, List.range_succ_eq_map]

/-- What appending rows makes of a file: it holds them after those that were there, or nothing was
to be appended. -/
inductive Extended (t : FileTree) (p : Path) (before js : List Json) (u : FileTree) : Prop where
  | grown (appended : js ≠ []) (read : u.read p = .ok (rowsOctets (before ++ js)))
  | unchanged (nothing : js = []) (same : u = t)

/-- A file of rows stays one. -/
theorem Extended.holdsRows {before js : List Json} (h : t.HoldsRows p before)
    (hwell : ∀ j ∈ js, j.isWellFormed = true) (hextended : Extended t p before js u) :
    u.HoldsRows p (before ++ js) := by
  cases hextended with
  | grown _ read => exact .there (List.forall_mem_append.mpr ⟨h.isWellFormed, hwell⟩) read
  | unchanged nothing same =>
    subst nothing same
    rwa [List.append_nil]

/-- **Appending rows** of well-formed values: each is added after those before it and is referred to
by the line after them. -/
theorem appendRows_of_holdsRows {before : List Json} (h : t.HoldsRows p before)
    (hwrite : t.CanWrite p) {records : List Raw} {js : List Json}
    (hrecords : List.Forall₂ (HasForm settings) records js)
    (hwell : ∀ j ∈ js, j.isWellFormed = true) :
    ∃ u, t.appendRows settings p records = (u, .ok (refsAfter p.name before js)) ∧
      Extended t p before js u := by
  -- by induction on the records, for any rows that are there already
  induction hrecords generalizing t before with
  | nil => exact ⟨t, rfl, .unchanged rfl rfl⟩
  | @cons record j records js hrecord hrecords ih =>
    obtain ⟨hj, hjs⟩ := List.forall_mem_cons.mp hwell
    obtain ⟨v, happend, hread⟩ := appendRow_of_holdsRows h hwrite hrecord hj
    have hone : ∀ k ∈ before ++ [j], k.isWellFormed = true :=
      List.forall_mem_append.mpr ⟨h.isWellFormed, List.forall_mem_singleton.mpr hj⟩
    obtain ⟨u, hrest, hextended⟩ := ih (.there hone hread) (canWrite_of_read hread) hjs
    refine ⟨u, ?_, .grown (List.cons_ne_nil j js) ?_⟩
    · rw [appendRows, happend]
      simp only [hrest, refsAfter_cons]
    · cases hextended with
      | grown _ read => rwa [List.append_assoc] at read
      | unchanged nothing same =>
        subst nothing same
        exact hread

/-- The stored forms of records that were appended are well-formed. -/
theorem isWellFormed_of_appendRows {records : List Raw} {js : List Json}
    (hrecords : List.Forall₂ (HasForm settings) records js) {refs : List RowRef}
    (hrun : t.appendRows settings p records = (u, .ok refs)) :
    ∀ j ∈ js, j.isWellFormed = true := by
  induction hrecords generalizing t refs with
  | nil => exact List.forall_mem_nil _
  | @cons record j records js hrecord hrecords ih =>
    rw [appendRows] at hrun
    split at hrun
    next => cases hrun
    next v ref happend =>
      split at hrun
      next w refs hrest =>
        cases hrun
        exact List.forall_mem_cons.mpr ⟨isWellFormed_of_appendRow hrecord happend, ih hrest⟩
      next => cases hrun

/-- A run of appending that succeeds is such a run. -/
theorem appendRows_eq_ok {before : List Json} (h : t.HoldsRows p before) {records : List Raw}
    {js : List Json} (hrecords : List.Forall₂ (HasForm settings) records js)
    {refs : List RowRef} (hrun : t.appendRows settings p records = (u, .ok refs)) :
    refs = refsAfter p.name before js ∧ Extended t p before js u := by
  have hwell := isWellFormed_of_appendRows hrecords hrun
  cases hrecords with
  | nil =>
    cases hrun
    exact ⟨rfl, .unchanged rfl rfl⟩
  | @cons record j records js hrecord hrecords =>
    -- the first row could be appended, so the file can be written
    have hwrite : t.CanWrite p := by
      rw [appendRows] at hrun
      split at hrun
      next => cases hrun
      next v ref happend => exact canWrite_of_appendRow happend
    obtain ⟨v, hrun', hextended⟩ :=
      appendRows_of_holdsRows h hwrite (.cons hrecord hrecords) hwell
    rw [hrun] at hrun'
    cases hrun'
    exact ⟨rfl, hextended⟩

end FileTree

/-! ## §4 Reading rows -/

/-- A stored value is an object that can be written as a row and read back. -/
def Json.IsRow (j : Json) : Prop :=
  j.IsReadable ∧ ∃ entries, j = .object entries

theorem rowsFrom_rowChars {js : List Json} (h : ∀ j ∈ js, j.IsRow)
    (hwell : ∀ j ∈ js, j.isWellFormed = true) (line : ℕ) :
    ∃ items, rowsFrom none line (js.map Json.rowChars) = ⟨items, none⟩ ∧
      items.map Row.json = js ∧ items.map Row.line = List.range' line js.length := by
  induction js generalizing line with
  | nil => exact ⟨[], rfl, rfl, rfl⟩
  | cons j js ih =>
    obtain ⟨⟨hkeys, entries, rfl⟩, hjs⟩ := List.forall_mem_cons.mp h
    obtain ⟨hj, hwells⟩ := List.forall_mem_cons.mp hwell
    obtain ⟨items, hrest, hjson, hline⟩ := ih hjs hwells (line + 1)
    have hcontent : (Json.rowChars (.object entries)).isEmpty = false := by
      rw [Json.rowChars_object]
      rfl
    refine ⟨⟨line, entries⟩ :: items, ?_, ?_, ?_⟩
    · rw [List.map_cons, rowsFrom, Json.stripChars_object, hcontent, if_neg Bool.false_ne_true]
      simp only [Json.readChars_rowChars hkeys hj, hrest]
      rfl
    · rw [List.map_cons, hjson]
      rfl
    · rw [List.map_cons, hline]
      rfl

/-- **What is read from the octets of rows**: the stored values, on lines that are counted from
one. -/
theorem rows_rowsOctets {js : List Json} (h : ∀ j ∈ js, j.IsRow)
    (hwell : ∀ j ∈ js, j.isWellFormed = true) :
    ∃ items, rows (rowsOctets js) = ⟨items, none⟩ ∧ items.map Row.json = js ∧
      items.map Row.line = List.range' 1 js.length := by
  have hlines : fileLines (rowsOctets js) = ⟨js.map Json.rowChars, none⟩ := by
    rw [fileLines, decodeUtf8_rowsOctets]
    simp only [physicalLines_framed (noControls_rows js)]
  rw [rows, hlines]
  exact rowsFrom_rowChars h hwell 1

/-! ## §5 Annotations as records -/

variable {settings : Settings}

theorem Annot.isRow_fullPayload (a : Annot) : a.fullPayload.IsRow := by
  refine ⟨a.isReadable_fullPayload, ?_⟩
  obtain ⟨name, _ | ps⟩ := a
  · exact ⟨_, rfl⟩
  · exact ⟨_, rfl⟩

theorem isRow_of_fullPayloads (xs : List Annot) : ∀ j ∈ xs.map Annot.fullPayload, j.IsRow := by
  intro j hj
  obtain ⟨a, -, rfl⟩ := List.mem_map.mp hj
  exact a.isRow_fullPayload

/-- The stored forms of annotations that have one are those of records. -/
theorem hasForms_of_payloads {xs : List Annot}
    (h : ∀ a ∈ xs, ∃ j, a.payload settings 0 = .ok j) :
    List.Forall₂ (FileTree.HasForm settings) (xs.map .annot) (xs.map Annot.fullPayload) := by
  rw [List.forall₂_map_left_iff, List.forall₂_map_right_iff, List.forall₂_same]
  intro a ha
  obtain ⟨j, hj⟩ := h a ha
  obtain ⟨-, rfl⟩ := (a.payload_spec settings 0).of_eq_ok hj
  exact FileTree.hasForm_of_payload hj

namespace FileTree

variable {t u : FileTree} {p : Path} {xs : List Annot}

/-- The stored forms of annotations that were appended are well-formed. -/
theorem isWellFormed_of_appended (hstored : ∀ a ∈ xs, ∃ j, a.payload settings 0 = .ok j)
    {refs : List RowRef} (hrun : t.appendRows settings p (xs.map .annot) = (u, .ok refs)) :
    ∀ a ∈ xs, a.fullPayload.isWellFormed = true :=
  List.forall_mem_map.mp (isWellFormed_of_appendRows (hasForms_of_payloads hstored) hrun)

/-- **Which annotations can be appended** to a file of rows that can be written, among those that
have a stored form. -/
theorem exists_appendRows_iff {before : List Json} (hholds : t.HoldsRows p before)
    (hwrite : t.CanWrite p) (hstored : ∀ a ∈ xs, ∃ j, a.payload settings 0 = .ok j) :
    (∃ u refs, t.appendRows settings p (xs.map .annot) = (u, .ok refs)) ↔
      ∀ a ∈ xs, a.fullPayload.isWellFormed = true := by
  constructor
  · rintro ⟨u, refs, hrun⟩
    exact isWellFormed_of_appended hstored hrun
  · intro hwell
    obtain ⟨u, hrun, -⟩ := appendRows_of_holdsRows hholds hwrite (hasForms_of_payloads hstored)
      (List.forall_mem_map.mpr hwell)
    exact ⟨u, _, hrun⟩

end FileTree

end AnnoTree
