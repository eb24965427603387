import AnnoTree.Proofs.Loading.RoundTrip
import AnnoTree.Proofs.Storage.Appending
import AnnoTree.Proofs.Storage.Trees

/-!
# Annotations come back from a file

Annotations that are appended to a file in which nothing is yet are read from it again: as many as
were appended, in order, each as it was, on lines that are counted from one.

A missing path need not lead to a file in which nothing is yet (`FileTree.IsFresh`). With a step
upward it may lead to one that has rows, as soon as the directory that the step leaves is made;
without such a step it does not (`FileTree.IsTree.isFresh`). And if nothing is appended, a missing
file stays missing and cannot be read.

## Main definitions

- `FileTree.Delivers`: what is read from a file is some annotations.
- `FileTree.IsUnused`: rows that are appended to a file are its first.

## Main statements

- `storedAnnots_rowsOctets`: the annotations of a file of their rows.
- `appended_annotations_come_back`: the round trip through a file.
-/

namespace AnnoTree

open AnnoTree.Text

variable {settings : Settings}

/-! ## §1 Annotations of rows -/

/-- Rows of the stored forms of annotations are loaded as these annotations. -/
theorem mapItems_load (path : Path) {items : List Row} {xs : List Annot}
    (hsound : ∀ a ∈ xs, a.IsSound settings 0) (h : items.map Row.json = xs.map Annot.fullPayload) :
    ∃ found, Delivery.mapItems (Row.load settings path) none items = ⟨found, none⟩ ∧
      found.map StoredAnnot.annot = xs ∧
      found.map StoredAnnot.line = items.map Row.line := by
  -- by induction on the rows, each of which is loaded apart from the others
  induction items generalizing xs with
  | nil =>
    rw [List.map_nil, eq_comm, List.map_eq_nil_iff] at h
    subst h
    exact ⟨[], rfl, rfl, rfl⟩
  | cons row items ih =>
    cases xs with
    | nil => cases h
    | cons a xs =>
      obtain ⟨hrow, hitems⟩ := List.cons.inj h
      obtain ⟨ha, hxs⟩ := List.forall_mem_cons.mp hsound
      obtain ⟨found, hrest, hannots, hlines⟩ := ih hxs hitems
      have hload : Row.load settings path row = .ok ⟨row.line, a⟩ := by
        have hback : Annot.load settings 0 a.fullPayload = .ok a := Annot.load_fullPayload ha
        rw [Row.load, hrow, hback]
      refine ⟨⟨row.line, a⟩ :: found, ?_, ?_, ?_⟩
      · simp only [Delivery.mapItems, hload, hrest]
        rfl
      · rw [List.map_cons, hannots]
      · rw [List.map_cons, hlines]
        rfl

/-- **The annotations of a file of their rows** are delivered in order and on their lines. -/
theorem storedAnnots_rowsOctets (path : Path) {xs : List Annot}
    (hsound : ∀ a ∈ xs, a.IsSound settings 0)
    (hwell : ∀ a ∈ xs, a.fullPayload.isWellFormed = true) :
    ∃ found, storedAnnots settings path (rowsOctets (xs.map Annot.fullPayload)) = ⟨found, none⟩ ∧
      found.map StoredAnnot.annot = xs ∧
      found.map StoredAnnot.line = List.range' 1 xs.length := by
  obtain ⟨items, hitems, hjson, hline⟩ :=
    rows_rowsOctets (isRow_of_fullPayloads xs) (List.forall_mem_map.mpr hwell)
  obtain ⟨found, hfound, hannots, hlines⟩ := mapItems_load path hsound hjson
  refine ⟨found, ?_, hannots, ?_⟩
  · rw [storedAnnots, hitems]
    exact hfound
  · rw [hlines, hline, List.length_map]

/-- An annotation without parameters is regular if it has a name. -/
theorem Annot.isRegular_ofName {name : Str} (h : name ≠ "") :
    ∀ b ∈ (Annot.ofName name).annots, b.IsRegular settings := by
  rw [Annot.ofName, Annot.annots, List.forall_mem_singleton]
  exact ⟨⟨.text name, .null, Annot.ofRaw_null settings name⟩, h⟩

/-! ## §2 The round trip -/

/-- What is read from a file is these annotations, in order and on lines that are counted from
one. -/
structure FileTree.Delivers (settings : Settings) (t : FileTree) (p : Path) (xs : List Annot) :
    Prop where
  annots : (t.storedAnnots settings p).items.map StoredAnnot.annot = xs
  annotLines : (t.storedAnnots settings p).items.map StoredAnnot.line = List.range' 1 xs.length
  payloads : (t.rows p).items.map (fun row => .ok row.json) =
    xs.map fun a => a.payload settings 0
  rowLines : (t.rows p).items.map Row.line = List.range' 1 xs.length

/-- A file of the rows of annotations delivers them, and nothing else. -/
theorem FileTree.delivers_of_read {t : FileTree} {p : Path} {xs : List Annot}
    (hsound : ∀ a ∈ xs, a.IsSound settings 0)
    (hwell : ∀ a ∈ xs, a.fullPayload.isWellFormed = true)
    (hread : t.read p = .ok (rowsOctets (xs.map Annot.fullPayload))) :
    t.Delivers settings p xs ∧ (t.storedAnnots settings p).failure = none ∧
      (t.rows p).failure = none := by
  obtain ⟨found, hfound, hannots, hlines⟩ := storedAnnots_rowsOctets p hsound hwell
  obtain ⟨items, hitems, hjson, hline⟩ :=
    rows_rowsOctets (isRow_of_fullPayloads xs) (List.forall_mem_map.mpr hwell)
  have hstored : t.storedAnnots settings p = ⟨found, none⟩ := by
    rw [FileTree.storedAnnots, hread]
    exact hfound
  have hrows : t.rows p = ⟨items, none⟩ := by
    rw [FileTree.rows, hread]
    exact hitems
  rw [List.length_map] at hline
  refine ⟨⟨?_, ?_, ?_, ?_⟩, ?_, ?_⟩
  · rw [hstored, hannots]
  · rw [hstored, hlines]
  · have hpayloads : xs.map (fun a => a.payload settings 0) =
        (xs.map Annot.fullPayload).map .ok := by
      rw [List.map_map]
      refine List.map_congr_left fun a ha => ?_
      exact (a.payload_spec settings 0).ok (hsound a ha).fits
    rw [hrows, hpayloads, ← hjson, List.map_map]
    rfl
  · rw [hrows, hline]
  · rw [hstored]
  · rw [hrows]

/-- From a file that is not there nothing is read but a fault. -/
theorem FileTree.delivers_of_fault {t : FileTree} {p : Path} {f : StorageFault}
    (hread : t.read p = .error f) :
    t.Delivers settings p [] ∧ (t.storedAnnots settings p).failure = some (.storage f) ∧
      (t.rows p).failure = some (.storage f) := by
  have hstored : t.storedAnnots settings p = ⟨[], some (.storage f)⟩ := by
    rw [FileTree.storedAnnots, hread]
    rfl
  have hrows : t.rows p = ⟨[], some (.storage f)⟩ := by
    rw [FileTree.rows, hread]
    rfl
  rw [hstored, hrows]
  exact ⟨⟨by rw [hstored]; rfl, by rw [hstored]; rfl, by rw [hrows]; rfl, by rw [hrows]; rfl⟩,
    rfl, rfl⟩

/-- Rows that are appended to a file are its first: it is empty, or it is missing without a step
upward on its way, or whatever its way is, nothing is in it once its directories are made. -/
inductive FileTree.IsUnused (t : FileTree) (p : Path) : Prop
  | empty (read : t.read p = .ok [])
  | missing (tree : t.IsTree) (down : Path.upward ∉ p.parts) (missing : t.exists? p = .ok false)
  | fresh (fresh : t.IsFresh p)

theorem FileTree.IsUnused.isFresh {t : FileTree} {p : Path} (h : t.IsUnused p) : t.IsFresh p := by
  cases h with
  | empty read => exact isFresh_of_read_nil read
  | missing tree down missing => exact tree.isFresh down missing
  | fresh fresh => exact fresh

/-- **The round trip through a file**: annotations that were built from raw parameters and have a
name, as have all in them, and that have a stored form, can be appended to a file that can be
written exactly if no half of a surrogate pair stands alone in them. If nothing was in the file they
are then read from it as they were, and nothing else. Reading fails only if there is no file,
nothing having been appended. -/
theorem appended_annotations_come_back {t : FileTree} {p : Path} {xs : List Annot}
    (hregular : ∀ a ∈ xs, ∀ b ∈ a.annots, b.IsRegular settings)
    (hstored : ∀ a ∈ xs, ∃ j, a.payload settings 0 = .ok j) (hunused : t.IsUnused p) :
    (t.CanWrite p →
      ((∃ u refs, t.appendRows settings p (xs.map .annot) = (u, .ok refs)) ↔
        ∀ a ∈ xs, a.fullPayload.isWellFormed = true)) ∧
    ∀ u refs, t.appendRows settings p (xs.map .annot) = (u, .ok refs) →
      u.Delivers settings p xs ∧
      ((u.storedAnnots settings p).failure = none ↔ xs ≠ [] ∨ ∃ octets, t.read p = .ok octets) ∧
      ((u.rows p).failure = none ↔ xs ≠ [] ∨ ∃ octets, t.read p = .ok octets) := by
  have hholds : t.HoldsRows p [] := .fresh hunused.isFresh
  have hforms := hasForms_of_payloads hstored
  have hsound : ∀ a ∈ xs, a.IsSound settings 0 := by
    intro a ha
    obtain ⟨j, hj⟩ := hstored a ha
    exact ⟨((a.payload_spec settings 0).of_eq_ok hj).1, hregular a ha⟩
  refine ⟨fun hwrite => FileTree.exists_appendRows_iff hholds hwrite hstored, fun u refs hrun => ?_⟩
  have hwell := FileTree.isWellFormed_of_appended hstored hrun
  obtain ⟨-, hextended⟩ := FileTree.appendRows_eq_ok hholds hforms hrun
  cases hextended with
  | grown appended read =>
    obtain ⟨hdelivers, hannots, hrows⟩ := FileTree.delivers_of_read hsound hwell read
    have hsome : xs ≠ [] := by
      rintro rfl
      exact appended rfl
    exact ⟨hdelivers, by simp [hannots, hsome], by simp [hrows, hsome]⟩
  | unchanged nothing same =>
    -- nothing was appended, so what is read depends on whether the file was there
    subst same
    obtain rfl : xs = [] := List.map_eq_nil_iff.mp nothing
    cases hread : u.read p with
    | ok octets =>
      obtain rfl := hholds.read_eq hread
      obtain ⟨hdelivers, hannots, hrows⟩ := FileTree.delivers_of_read hsound hwell hread
      exact ⟨hdelivers, by simp [hannots], by simp [hrows]⟩
    | error f =>
      obtain ⟨hdelivers, hannots, hrows⟩ := FileTree.delivers_of_fault hread
      exact ⟨hdelivers, by simp [hannots], by simp [hrows]⟩

/-- A case of it: an annotation with a line separator in a string, and another one, and no file. -/
theorem separated_string_comes_back :
    ∃ u refs, FileTree.appendRows {} {} (.ofText "r")
        [.annot ⟨"A", some [⟨"x", .string "\u2028"⟩]⟩, .annot (.ofName "B")] = (u, .ok refs) ∧
      u.Delivers {} (.ofText "r") [⟨"A", some [⟨"x", .string "\u2028"⟩]⟩, .ofName "B"] ∧
      (u.storedAnnots {} (.ofText "r")).failure = none := by
  have hregular : ∀ a ∈ [Annot.mk "A" (some [⟨"x", .string "\u2028"⟩]), .ofName "B"],
      ∀ b ∈ a.annots, b.IsRegular {} := by
    rw [List.forall_mem_cons, List.forall_mem_singleton]
    refine ⟨?_, Annot.isRegular_ofName (by decide)⟩
    simp only [Annot.annots, Parameter.annotsList, Parameter.annots, Value.annots,
      List.append_nil, List.forall_mem_singleton]
    exact ⟨⟨.text "A", .mapping [(.text "x", .text "\u2028")], rfl⟩, by decide⟩
  have hstored : ∀ a ∈ [Annot.mk "A" (some [⟨"x", .string "\u2028"⟩]), .ofName "B"],
      ∃ j, a.payload {} 0 = .ok j := by
    rw [List.forall_mem_cons, List.forall_mem_singleton]
    exact ⟨⟨_, rfl⟩, ⟨_, rfl⟩⟩
  have hunused : FileTree.IsUnused {} (.ofText "r") :=
    .missing FileTree.isTree_empty (by decide) rfl
  obtain ⟨hwritable, hread⟩ := appended_annotations_come_back hregular hstored hunused
  have hwell : ∀ a ∈ [Annot.mk "A" (some [⟨"x", .string "\u2028"⟩]), .ofName "B"],
      a.fullPayload.isWellFormed = true := by decide
  obtain ⟨u, refs, hrun⟩ := (hwritable rfl).mpr hwell
  obtain ⟨hdelivers, hfailure, -⟩ := hread u refs hrun
  exact ⟨u, refs, hrun, hdelivers, hfailure.mpr (.inl (by simp))⟩

/-- A row that is appended around a missing directory comes after the row of a file that the path
did not lead to before. -/
theorem appendRows_around :
    oneRowFile.exists? (.ofText "n/../x") = .ok false ∧
    ∃ u, oneRowFile.appendRows {} (.ofText "n/../x") [.annot (.ofName "B")] =
        (u, .ok [⟨"x", 1⟩]) ∧
      u.read (.ofText "n/../x") =
        .ok (rowsOctets ([Annot.ofName "A", .ofName "B"].map Annot.fullPayload)) := by
  have hmissing : oneRowFile.exists? (.ofText "n/../x") = .ok false := rfl
  have hline : oneRowFile.nextLine (.ofText "n/../x") = .ok 1 := rfl
  have hform : FileTree.HasForm {} (.annot (.ofName "B")) (Annot.ofName "B").fullPayload :=
    ⟨by simp, rfl⟩
  -- before and after the directory is made, which makes the file found
  have hmade : oneRowFile.makeParent (.ofText "n/../x") =
      (oneRowFile.put ["n"] .directory, .ok ()) := rfl
  have hfound : (oneRowFile.put ["n"] .directory).read (.ofText "n/../x") =
      .ok (rowsOctets [(Annot.ofName "A").fullPayload]) := rfl
  obtain ⟨u, happend, hread⟩ := FileTree.appendRecord_of_holdsRows (.there (by decide) hfound)
    (FileTree.canWrite_of_read hfound) hform (by decide)
  refine ⟨hmissing, u, ?_, hread⟩
  rw [FileTree.appendRecord, FileTree.makeParent_of_read hfound] at happend
  rw [FileTree.appendRows, FileTree.appendRow_eq hform.1, hline, FileTree.appendRecord, hmade]
  simp only [happend]
  rfl

/-- It is not so that what was appended to a missing or empty file is always what is read from it:
a path may lead around a directory that is yet to be made to a file with a row, and a file to which
nothing was appended may stay missing. -/
theorem missing_files_may_have_rows :
    (¬∀ (settings : Settings) (t u : FileTree) (p : Path) (xs : List Annot) (refs : List RowRef),
      (∀ a ∈ xs, ∀ b ∈ a.annots, b.IsRegular settings) →
      (∀ a ∈ xs, ∃ j, a.payload settings 0 = .ok j ∧ j.isWellFormed = true) →
      (t.exists? p = .ok false ∨ t.read p = .ok []) → xs ≠ [] →
      t.appendRows settings p (xs.map .annot) = (u, .ok refs) →
      (u.storedAnnots settings p).items.map StoredAnnot.annot = xs) ∧
    ¬∀ (settings : Settings) (t u : FileTree) (p : Path) (refs : List RowRef),
      (t.exists? p = .ok false ∨ t.read p = .ok []) →
      t.appendRows settings p [] = (u, .ok refs) →
      (u.storedAnnots settings p).failure = none := by
  constructor
  · intro halways
    obtain ⟨hmissing, u, hrun, hread⟩ := appendRows_around
    have hsound : ∀ a ∈ [Annot.ofName "A", .ofName "B"], a.IsSound {} 0 := by
      rw [List.forall_mem_cons, List.forall_mem_singleton]
      exact ⟨⟨by decide, Annot.isRegular_ofName (by decide)⟩,
        ⟨by decide, Annot.isRegular_ofName (by decide)⟩⟩
    -- the row that was there is delivered as well
    have hboth := (FileTree.delivers_of_read hsound (by decide) hread).1.annots
    have hone := halways {} oneRowFile u (.ofText "n/../x") [.ofName "B"] [⟨"x", 1⟩]
      (List.forall_mem_singleton.mpr (Annot.isRegular_ofName (by decide)))
      (List.forall_mem_singleton.mpr ⟨_, rfl, by decide⟩) (.inl hmissing) (by simp) hrun
    rw [hboth] at hone
    simp at hone
  · intro halways
    have hfailure := halways {} {} {} (.ofText "x") [] (.inl rfl) rfl
    cases hfailure

end AnnoTree
