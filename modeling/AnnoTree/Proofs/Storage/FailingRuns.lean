import AnnoTree.Proofs.Storage.Appending
import AnnoTree.Proofs.Storage.Trees

/-!
# Runs of appending that fail

Items are appended one after another: an item that is missing, or whose annotation has no stored
form or one that cannot be encoded, ends the run with its fault. The rows of the items in front of
it stay, and nothing is written of it or of what follows, for everything that may fail comes before
the one step that writes.

The fault may leave directories that were made on the way to the file. So a path with a step upward
may lead to a file afterwards to which it did not lead before; a file counts as missing here only if
it is still missing once those directories are made. A row that cannot be encoded fails when the
file is open already, which makes a missing file.

## Main definitions

- `FileTree.HoldsText`: a file holds a text, or is missing.
- `itemFault?`, `faultIndex`: why an item has no row, and where the first such item is.
- `StopsAtFault`: the rows and the result of a run up to the first item at fault.
- `FileTree.textAfter`: the text of a file after a run.

## Main statements

- `FileTree.appendRow_of_payload`, `FileTree.appendRow_of_row`, `FileTree.appendRow_of_fault`: what
  one item does.
- `failing_runs_leave_whole_rows`: what a run leaves.
-/

namespace AnnoTree

open AnnoTree.Text
open CodePoint (char)

variable {settings : Settings}

/-! ## §1 Items -/

/-- The record of an item, which may be missing. -/
def Raw.ofItem : Option Annot → Raw
  | none => .null
  | some a => .annot a

/-- Why an item has no row: it is missing, or its annotation has no stored form, or one in which
half of a surrogate pair stands alone. -/
def itemFault? (settings : Settings) : Option Annot → Option Failure
  | none => some (.storage .noAnnot)
  | some a =>
    match a.payload settings 0 with
    | .ok j => if j.isWellFormed then none else some .unencodable
    | .error e => some (.tooDeep e)

/-- The number of items in front of the first one at fault. -/
def faultIndex (settings : Settings) (items : List (Option Annot)) : ℕ :=
  items.findIdx fun item => (itemFault? settings item).isSome

/-- A row is that of an item: the text of its stored form and one line feed, with no other line feed
in it. -/
def IsRowOf (settings : Settings) (item : Option Annot) (row : String) : Prop :=
  ∃ a j, item = some a ∧ a.payload settings 0 = .ok j ∧ (row : Str) = j.write Json.spaced ++ "\n" ∧
    char '\n' ∉ (j.write Json.spaced).toList

theorem Json.isRowOf {a : Annot} {j : Json} (h : a.payload settings 0 = .ok j)
    (hwell : j.isWellFormed = true) : IsRowOf settings (some a) j.row := by
  refine ⟨a, j, rfl, h, Json.ofString_row hwell, fun hfeed => ?_⟩
  rw [Json.write, Str.toList_ofList, ← Json.map_rowChars hwell] at hfeed
  exact absurd (j.noControls_rowChars _ hfeed) (by decide)

theorem itemFault?_eq_none {item : Option Annot} (h : itemFault? settings item = none) :
    ∃ a j, item = some a ∧ a.payload settings 0 = .ok j ∧ j.isWellFormed = true := by
  cases item with
  | none => cases h
  | some a =>
    rw [itemFault?] at h
    cases hpayload : a.payload settings 0 with
    | ok j =>
      refine ⟨a, j, rfl, hpayload, ?_⟩
      simpa [hpayload] using h
    | error e =>
      rw [hpayload] at h
      cases h

/-- The rows and the result of a run: a row for each item in front of the first one at fault, and
the fault of that one, or references to all rows if there is none. -/
structure StopsAtFault (settings : Settings) (items : List (Option Annot)) (rows : List String)
    (result : Except Failure (List RowRef)) : Prop where
  length : rows.length = faultIndex settings items
  each : ∀ (i : ℕ) (row : String), rows[i]? = some row →
    ∃ item, items[i]? = some item ∧ IsRowOf settings item row
  fault : ∀ item, items[faultIndex settings items]? = some item →
    ∃ f, itemFault? settings item = some f ∧ result = .error f
  done : items.length = faultIndex settings items →
    ∃ refs, result = .ok refs ∧ refs.length = items.length

namespace StopsAtFault

variable {items : List (Option Annot)} {item : Option Annot} {rows : List String}
variable {result : Except Failure (List RowRef)}

theorem nil : StopsAtFault settings [] [] (.ok []) where
  length := rfl
  each i row h := by cases h
  fault item h := by cases h
  done _ := ⟨[], rfl, rfl⟩

/-- An item at fault ends the run. -/
theorem failing {f : Failure} (h : itemFault? settings item = some f)
    (items : List (Option Annot)) : StopsAtFault settings (item :: items) [] (.error f) := by
  have hindex : faultIndex settings (item :: items) = 0 := by
    simp [faultIndex, List.findIdx_cons, h]
  exact {
    length := hindex.symm
    each := fun i row hrow => by cases hrow
    fault := fun other hother => by
      rw [hindex] at hother
      cases hother
      exact ⟨f, h, rfl⟩
    done := fun hall => by
      rw [hindex] at hall
      cases hall }

/-- An item that has a row goes before those after it. -/
theorem cons {row : String} {ref : RowRef} (hitem : itemFault? settings item = none)
    (hrow : IsRowOf settings item row) (h : StopsAtFault settings items rows result) :
    StopsAtFault settings (item :: items) (row :: rows) (result.map (ref :: ·)) := by
  have hindex : faultIndex settings (item :: items) = faultIndex settings items + 1 := by
    simp [faultIndex, List.findIdx_cons, hitem]
  exact {
    length := by rw [hindex, List.length_cons, h.length]
    each := fun i other hother => by
      cases i with
      | zero =>
        cases hother
        exact ⟨item, rfl, hrow⟩
      | succ i => exact h.each i other hother
    fault := fun other hother => by
      rw [hindex] at hother
      obtain ⟨f, hf, rfl⟩ := h.fault other hother
      exact ⟨f, hf, rfl⟩
    done := fun hall => by
      rw [hindex, List.length_cons, Nat.add_right_cancel_iff] at hall
      obtain ⟨refs, rfl, hlength⟩ := h.done hall
      exact ⟨ref :: refs, rfl, by rw [List.length_cons, List.length_cons, hlength]⟩ }

end StopsAtFault

/-! ## §2 What a file holds -/

namespace FileTree

variable {t u : FileTree} {p : Path} {old : Option String}

/-- A file holds a text, or is missing and stays so when the directories on the way to it are
made. -/
inductive HoldsText (t : FileTree) (p : Path) : Option String → Prop where
  | there {text : String} (read : t.read p = .ok (encodeUtf8 text)) : HoldsText t p (some text)
  | missing (before : t.exists? p = .ok false)
      (after : (t.makeParent p).1.exists? p = .ok false) : HoldsText t p none

/-- The text of a file after a run that appended rows to it: the text that was there, and the rows.
A missing file is made for the first row, and for one that cannot be encoded. -/
def textAfter (old : Option String) (rows : List String) (result : Except Failure (List RowRef)) :
    Option String :=
  match rows, result with
  | [], .error .unencodable => some (old.getD "")
  | [], _ => old
  | rows, _ => some (old.getD "" ++ String.join rows)

theorem textAfter_some (text : String) (rows : List String)
    (result : Except Failure (List RowRef)) :
    textAfter (some text) rows result = some (text ++ String.join rows) := by
  unfold textAfter
  split <;> simp

theorem textAfter_cons (old : Option String) (row : String) (rows : List String)
    (result other : Except Failure (List RowRef)) :
    textAfter old (row :: rows) result = textAfter (some (old.getD "" ++ row)) rows other := by
  rw [textAfter_some, textAfter]
  · simp [String.append_assoc]
  · simp
  · simp

/-- A row is appended to the text that was there, or to nothing. -/
theorem HoldsText.content (h : t.HoldsText p old) :
    (t.makeParent p).1.content p = encodeUtf8 (old.getD "") := by
  cases h with
  | there read =>
    rw [makeParent_of_read read]
    exact content_of_read read
  | missing before after =>
    refine isFresh_of_read_ne fun octets hread => ?_
    rw [exists?_of_read hread] at after
    cases after

/-- A file that can be written and is missing stays so if there is no step upward on its way. -/
theorem IsTree.holdsText (h : t.IsTree) (hdown : Path.upward ∉ p.parts)
    (hmissing : t.exists? p = .ok false) (hwrite : t.CanWrite p) : t.HoldsText p none := by
  obtain ⟨u, target, hparent, hplace, hnode⟩ := canWrite_iff.mp hwrite
  refine .missing hmissing ?_
  have hread := h.read_makeParent_ne hdown hmissing
  rw [hparent] at hread ⊢
  -- a directory cannot be written, and a file could be read
  cases hfound : u.node? target with
  | none =>
    have hlook : u.look p = .error .fileNotFound := by
      rw [look, hplace]
      simp only [bind, Except.bind, hfound]
      rfl
    rw [exists?, hlook]
  | some node =>
    cases node with
    | directory => exact absurd hfound hnode
    | file octets => exact absurd (read_eq_ok.mpr ⟨target, hplace, hfound⟩) (hread octets)

/-- The line after the text of a file is found. -/
theorem HoldsText.exists_nextLine (h : t.HoldsText p old) :
    ∃ line, t.nextLine p = .ok line := by
  cases h with
  | @there text read =>
    refine ⟨lineCount text.toList + 1, ?_⟩
    simp only [nextLine, exists?_of_read read, read, Except.mapError, bind, Except.bind,
      decodeUtf8_encodeUtf8, if_true, pure, Except.pure]
  | missing before after =>
    refine ⟨1, ?_⟩
    rw [nextLine, before]
    rfl

/-- A file that can be written is the same once the directories on the way to it are made. -/
theorem HoldsText.makeParent (h : t.HoldsText p old) (hwrite : t.CanWrite p) :
    ∃ u, t.makeParent p = (u, .ok ()) ∧ u.HoldsText p old := by
  obtain ⟨u, target, hparent, hplace, -⟩ := canWrite_iff.mp hwrite
  refine ⟨u, hparent, ?_⟩
  cases h with
  | there read =>
    rw [makeParent_of_read read] at hparent
    cases hparent
    exact .there read
  | missing before after =>
    rw [hparent] at after
    exact .missing after (by rwa [makeParent_of_place hplace])

/-! ## §3 One item -/

/-- **A stored form** is appended to what a file holds as far as its row is written, and the file is
there afterwards. -/
theorem appendRow_of_payload (h : t.HoldsText p old) (hwrite : t.CanWrite p) {a : Annot} {j : Json}
    (hpayload : a.payload settings 0 = .ok j) {octets : List Octet} {result : Except Failure Unit}
    (hrow : rowOctets j = (octets, result)) :
    ∃ u ref, t.appendRow settings p (.annot a) = (u, result.map fun _ => ref) ∧
      u.read p = .ok (encodeUtf8 (old.getD "") ++ octets) := by
  obtain ⟨line, hline⟩ := h.exists_nextLine
  obtain ⟨u, target, hparent, hplace, hnode⟩ := canWrite_iff.mp hwrite
  have hchange : u.changeFile p (· ++ octets) =
      .ok (u.put target (.file (u.content p ++ octets))) := changeFile_ok hplace hnode
  have hcontent := h.content
  rw [hparent] at hcontent
  refine ⟨u.put target (.file (u.content p ++ octets)), ⟨p.name, line⟩, ?_, ?_⟩
  · have hform : HasForm settings (.annot a) j := hasForm_of_payload hpayload
    rw [appendRow_eq hform.1, hline, appendRecord, hparent]
    simp only [extend, hform.2, hrow, hchange]
    cases result <;> rfl
  · rw [read_of_changeFile hchange, hcontent]

/-- **An item that has a row** is appended to what a file holds. -/
theorem appendRow_of_row (h : t.HoldsText p old) (hwrite : t.CanWrite p) {a : Annot} {j : Json}
    (hpayload : a.payload settings 0 = .ok j) (hwell : j.isWellFormed = true) :
    ∃ u ref, t.appendRow settings p (.annot a) = (u, .ok ref) ∧
      u.read p = .ok (encodeUtf8 (old.getD "" ++ j.row)) := by
  obtain ⟨u, ref, happend, hread⟩ :=
    appendRow_of_payload h hwrite hpayload (Json.rowOctets_eq hwell)
  exact ⟨u, ref, happend, by rw [hread, encodeUtf8_append]⟩

/-- **An item at fault** is refused with its fault, and the file is as it was, or is empty where it
was missing and the row cannot be encoded. -/
theorem appendRow_of_fault (h : t.HoldsText p old) (hwrite : t.CanWrite p) {item : Option Annot}
    {f : Failure} (hfault : itemFault? settings item = some f) :
    ∃ u, t.appendRow settings p (.ofItem item) = (u, .error f) ∧
      u.HoldsText p (textAfter old [] (.error f)) := by
  cases item with
  | none =>
    cases hfault
    exact ⟨t, rfl, h⟩
  | some a =>
    rw [itemFault?] at hfault
    -- a row that cannot be encoded is found when the file is open, one that is too deep before
    cases hpayload : a.payload settings 0 with
    | ok j =>
      rw [hpayload] at hfault
      cases hwell : j.isWellFormed with
      | true => simp [hwell] at hfault
      | false =>
        obtain rfl : f = .unencodable := by simpa [hwell, eq_comm] using hfault
        obtain ⟨u, ref, happend, hread⟩ :=
          appendRow_of_payload h hwrite hpayload (Json.rowOctets_eq_error hwell)
        rw [List.append_nil] at hread
        exact ⟨u, happend, .there hread⟩
    | error e =>
      rw [hpayload] at hfault
      cases hfault
      -- the directory is made before it is found that there is nothing to be written
      obtain ⟨line, hline⟩ := h.exists_nextLine
      obtain ⟨u, hparent, hu⟩ := h.makeParent hwrite
      refine ⟨u, ?_, hu⟩
      have hrecord : (Raw.annot a).record settings = .error (.tooDeep e) := by
        rw [Raw.record_annot, hpayload]
        rfl
      rw [Raw.ofItem, appendRow_eq (by simp), hline, appendRecord, hparent]
      simp only [extend, hrecord]

/-! ## §4 Runs -/

/-- **What a run leaves** of a file that can be written. -/
theorem appendRows_of_holdsText (h : t.HoldsText p old) (hwrite : t.CanWrite p)
    (items : List (Option Annot)) :
    ∃ u result rows, t.appendRows settings p (items.map .ofItem) = (u, result) ∧
      StopsAtFault settings items rows result ∧ u.HoldsText p (textAfter old rows result) := by
  -- by induction on the items, for whatever the file holds when the first of them is appended
  induction items generalizing t old with
  | nil => exact ⟨t, .ok [], [], rfl, .nil, h⟩
  | cons item items ih =>
    rw [List.map_cons, appendRows]
    cases hfault : itemFault? settings item with
    | some f =>
      obtain ⟨u, happend, hu⟩ := appendRow_of_fault h hwrite hfault
      refine ⟨u, .error f, [], ?_, .failing hfault items, hu⟩
      rw [happend]
    | none =>
      obtain ⟨a, j, rfl, hpayload, hwell⟩ := itemFault?_eq_none hfault
      obtain ⟨v, ref, happend, hread⟩ := appendRow_of_row h hwrite hpayload hwell
      obtain ⟨u, result, rows, hrest, hstops, hu⟩ := ih (.there hread) (canWrite_of_read hread)
      refine ⟨u, result.map (ref :: ·), j.row :: rows, ?_,
        hstops.cons hfault (Json.isRowOf hpayload hwell), ?_⟩
      · simp only [Raw.ofItem, happend, hrest]
        cases result <;> rfl
      · rwa [textAfter_cons old j.row rows _ result]

/-- To a file that is no text nothing is appended. -/
theorem appendRow_of_notUtf8 {octets : List Octet} (hread : t.read p = .ok octets)
    (hnot : ∀ text, octets ≠ encodeUtf8 text) (item : Option Annot) :
    ∃ f, t.appendRow settings p (.ofItem item) = (t, .error f) := by
  cases item with
  | none => exact ⟨_, rfl⟩
  | some a =>
    refine ⟨.storage .notUtf8, ?_⟩
    have hline : t.nextLine p = .error (.storage .notUtf8) := by
      simp only [nextLine, exists?_of_read hread, hread, Except.mapError, bind, Except.bind,
        if_true]
      cases hdecode : decodeUtf8 octets with
      | whole text => exact absurd (decodeUtf8_eq_whole_iff.mp hdecode) (hnot _)
      | truncated text => rfl
      | broken text offset => rfl
    rw [Raw.ofItem, appendRow_eq (by simp), hline]

/-- A record for which the file cannot be written leaves the directories that were made for it. -/
theorem appendRecord_of_not_canWrite (h : ¬t.CanWrite p) (record : Raw) :
    ∃ f, t.appendRecord settings p record = ((t.makeParent p).1, .error f) := by
  rw [appendRecord]
  split
  next v f hparent => exact ⟨.storage f, by rw [hparent]⟩
  next v hparent =>
    rw [hparent]
    unfold extend
    split
    next f hrecord => exact ⟨f, rfl⟩
    next j hrecord =>
      dsimp only
      split
      next w hchange =>
        obtain ⟨target, hplace, hnode⟩ := place_of_changeFile hchange
        exact absurd (canWrite_iff.mpr ⟨v, target, hparent, hplace, hnode⟩) h
      next f hchange => exact ⟨.storage f, rfl⟩

/-- To a file that cannot be written nothing is appended. -/
theorem appendRow_of_not_canWrite (h : ¬t.CanWrite p) (record : Raw) :
    ∃ u f, t.appendRow settings p record = (u, .error f) ∧ (u = t ∨ u = (t.makeParent p).1) := by
  unfold appendRow
  split
  next => exact ⟨t, _, rfl, .inl rfl⟩
  next =>
    split
    next f hline => exact ⟨t, f, rfl, .inl rfl⟩
    next line hline =>
      obtain ⟨f, happend⟩ : ∃ f, t.appendRecord settings p record =
          ((t.makeParent p).1, .error f) := appendRecord_of_not_canWrite h record
      rw [happend]
      exact ⟨_, f, rfl, .inr rfl⟩

end FileTree

/-- **Runs that fail leave whole rows.** If the file can be written, and holds a text or is missing,
the run stops at the first item at fault, if there is one, and the file has grown by the rows of the
items in front of it; a missing file for which there are none stays missing, unless the row of the
first item cannot be encoded, which makes it. A file that is no text stays as it is. If the file
cannot be written, the first item fails, and at most directories are made for it. Where everything
stands in a directory it does so after the run too, and a missing file that can be written stays
missing when its directories are made, if there is no step upward on its way. -/
theorem failing_runs_leave_whole_rows (settings : Settings) (t : FileTree) (p : Path)
    (items : List (Option Annot)) :
    (∀ old, t.HoldsText p old → t.CanWrite p →
      ∃ u result rows, t.appendRows settings p (items.map .ofItem) = (u, result) ∧
        StopsAtFault settings items rows result ∧
        u.HoldsText p (FileTree.textAfter old rows result)) ∧
    (∀ octets, t.read p = .ok octets → (∀ text, octets ≠ encodeUtf8 text) → items ≠ [] →
      ∃ f, t.appendRows settings p (items.map .ofItem) = (t, .error f)) ∧
    (¬t.CanWrite p → items ≠ [] →
      ∃ u f, t.appendRows settings p (items.map .ofItem) = (u, .error f) ∧
        (u = t ∨ u = (t.makeParent p).1)) ∧
    (t.IsTree →
      (t.appendRows settings p (items.map .ofItem)).1.IsTree ∧
      (Path.upward ∉ p.parts → t.exists? p = .ok false → t.CanWrite p → t.HoldsText p none)) := by
  refine ⟨fun old h hwrite => FileTree.appendRows_of_holdsText h hwrite items, ?_, ?_,
    fun htree => ⟨htree.appendRows p _, htree.holdsText⟩⟩
  · intro octets hread hnot hne
    obtain ⟨item, items, rfl⟩ := List.exists_cons_of_ne_nil hne
    obtain ⟨f, happend⟩ : ∃ f, t.appendRow settings p (.ofItem item) = (t, .error f) :=
      FileTree.appendRow_of_notUtf8 hread hnot item
    refine ⟨f, ?_⟩
    rw [List.map_cons, FileTree.appendRows, happend]
  · intro h hne
    obtain ⟨item, items, rfl⟩ := List.exists_cons_of_ne_nil hne
    obtain ⟨u, f, happend, hu⟩ : ∃ u f, t.appendRow settings p (.ofItem item) = (u, .error f) ∧
        (u = t ∨ u = (t.makeParent p).1) := FileTree.appendRow_of_not_canWrite h _
    refine ⟨u, f, ?_, hu⟩
    rw [List.map_cons, FileTree.appendRows, happend]

/-- A tree with one file that is no text. -/
def notText : FileTree :=
  ⟨[(["r"], .file [0xFF])]⟩

theorem read_notText_ne (text : String) : [0xFF] ≠ encodeUtf8 text := by
  intro heq
  have hdecode := decodeUtf8_encodeUtf8 text
  rw [← heq] at hdecode
  cases hdecode

/-- Cases of it: a missing item behind a row, a file that is no text, a file in the way, and a path
of names only. -/
theorem run_stops_at_a_missing_item :
    (∃ u, FileTree.appendRows {} {} (.ofText "r")
        ([some (.ofName "B"), none, some (.ofName "C")].map .ofItem) =
          (u, .error (.storage .noAnnot)) ∧
      u.read (.ofText "r") = .ok (encodeUtf8 (Annot.ofName "B").fullPayload.row)) ∧
    (∃ f, notText.appendRows {} (.ofText "r") ([some (.ofName "B")].map .ofItem) =
      (notText, .error f)) ∧
    (∃ u f, notText.appendRows {} (.ofText "r/x") ([some (.ofName "B")].map .ofItem) =
      (u, .error f) ∧ (u = notText ∨ u = (notText.makeParent (.ofText "r/x")).1)) ∧
    FileTree.HoldsText {} (.ofText "n/r") none := by
  obtain ⟨htext, -, -, -⟩ := failing_runs_leave_whole_rows {} {} (.ofText "r")
    [some (.ofName "B"), none, some (.ofName "C")]
  obtain ⟨-, -, -, hmissing⟩ := failing_runs_leave_whole_rows {} {} (.ofText "n/r") []
  obtain ⟨-, hoctets, -, -⟩ := failing_runs_leave_whole_rows {} notText (.ofText "r")
    [some (.ofName "B")]
  obtain ⟨-, -, hclosed, -⟩ := failing_runs_leave_whole_rows {} notText (.ofText "r/x")
    [some (.ofName "B")]
  refine ⟨?_, hoctets _ rfl read_notText_ne (by simp), hclosed nofun (by simp),
    (hmissing FileTree.isTree_empty).2 (by decide) rfl rfl⟩
  obtain ⟨u, result, rows, hrun, hstops, hholds⟩ := htext none (.missing rfl rfl) rfl
  obtain ⟨f, hf, rfl⟩ := hstops.fault none rfl
  cases hf
  refine ⟨u, hrun, ?_⟩
  -- one item is in front of the one that is missing
  obtain ⟨row, rfl⟩ := List.length_eq_one_iff.mp (hstops.length.trans rfl)
  obtain ⟨item, hitem, a, j, rfl, hpayload, hrow, -⟩ := hstops.each 0 row rfl
  cases hitem
  obtain ⟨-, rfl⟩ := (Annot.payload_spec {} 0 _).of_eq_ok hpayload
  rw [← Json.rowText, ← Json.ofString_row (by decide), Str.ofString_inj] at hrow
  subst hrow
  cases hholds with
  | there read => simpa using read

/-- An annotation that is nested too deep under a bound of one level. -/
def tooDeepItem : Option Annot :=
  some ⟨"B", some [⟨"x", .array [.array [.array []]]⟩]⟩

/-- It is not so that the first item at fault always leaves a missing file missing: the directory
that is made for it may be the one that a step upward leaves. And items without a fault are not
always appended: a file may stand where a directory is needed. Nor are all items appended that have
stored forms, be the file one that can be written: half of a surrogate pair may stand alone in a
name. -/
theorem first_fault_may_uncover_a_file :
    (¬∀ (settings : Settings) (t u : FileTree) (p : Path) (items : List (Option Annot))
        (result : Except Failure (List RowRef)),
      t.exists? p = .ok false → faultIndex settings items = 0 →
      t.appendRows settings p (items.map .ofItem) = (u, result) → u.exists? p = .ok false) ∧
    (¬∀ (settings : Settings) (t : FileTree) (p : Path) (items : List (Option Annot)),
      t.exists? p = .ok false → (∀ item ∈ items, itemFault? settings item = none) →
      ∃ u refs, t.appendRows settings p (items.map .ofItem) = (u, .ok refs)) ∧
    ¬∀ (settings : Settings) (t : FileTree) (p : Path) (items : List (Option Annot)),
      t.exists? p = .ok false → t.CanWrite p →
      (∀ item ∈ items, ∃ a j, item = some a ∧ a.payload settings 0 = .ok j) →
      ∃ u refs, t.appendRows settings p (items.map .ofItem) = (u, .ok refs) := by
  refine ⟨?_, ?_, ?_⟩
  · intro halways
    have hstill := halways { maxDepth := 1 } oneRowFile (oneRowFile.put ["n"] .directory)
      (.ofText "n/../x") [tooDeepItem] _ rfl rfl rfl
    cases hstill
  · intro halways
    obtain ⟨u, refs, hrun⟩ := halways {} notText (.ofText "r/x") [some (.ofName "B")] rfl
      (List.forall_mem_singleton.mpr rfl)
    cases hrun
  · intro halways
    let lone : Annot := .ofName (Str.singleton (.half 0))
    obtain ⟨u, refs, hrun⟩ := halways {} {} (.ofText "r") [some lone] rfl rfl
      (List.forall_mem_singleton.mpr ⟨lone, _, rfl, rfl⟩)
    cases hrun

end AnnoTree
