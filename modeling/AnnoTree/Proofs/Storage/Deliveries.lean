import AnnoTree.CommandLine.Run
import AnnoTree.Proofs.Loading.Acceptance
import AnnoTree.Proofs.Storage.Utf8

/-!
# What files deliver

A file is accepted if it is UTF-8 and every line of it is blank or holds an annotation. Reading it
delivers the annotations of its lines in order; reading any other file delivers some annotations and
then a fault of the content. What is delivered was loaded, so it is sound in either case.

## Main definitions

- `LinesHold`, `HoldsAnnots`: the annotations of lines, and of a file, in order.
- `IsAccepted`: the files that hold annotations only, said line by line.
- `DeliversLines`, `DeliversFile`: what is known of a delivery.

## Main statements

- `exists_holdsAnnots_iff`: a file holds annotations exactly if it is accepted.
- `deliversLines_rowsFrom`: what is delivered of lines, whatever follows them.
- `deliversFile_storedAnnots`: what is delivered of a file.
-/

namespace AnnoTree

open AnnoTree.Text

variable {settings : Settings} {path : Path}

/-! ## §1 Lines and files of annotations -/

/-- A line on which something is read is not blank. -/
theorem stripChars_ne_nil_of_read {line : List Char} {j : Json}
    (h : Json.readChars (stripChars line) = .ok j) : stripChars line ≠ [] := by
  intro hblank
  rw [hblank] at h
  cases h

/-- A line with an object on it gives a row, whatever follows it. -/
theorem rowsFrom_of_object {line : List Char} {entries : List (Str × Json)}
    (h : Json.readChars (stripChars line) = .ok (.object entries)) (failure : Option Failure)
    (number : ℕ) (more : List (List Char)) :
    rowsFrom failure number (line :: more) =
      (rowsFrom failure (number + 1) more).cons ⟨number, entries⟩ := by
  have hne := stripChars_ne_nil_of_read h
  rw [rowsFrom, if_neg (by rwa [List.isEmpty_iff]), h]

/-- What stands on a line is the stored form of an annotation. -/
def HoldsAnnot (settings : Settings) (line : List Char) (a : Annot) : Prop :=
  ∃ entries, Json.readChars (stripChars line) = .ok (.object entries) ∧
    Annot.load settings 0 (.object entries) = .ok a

theorem HoldsAnnot.unique {line : List Char} {a b : Annot} (ha : HoldsAnnot settings line a)
    (hb : HoldsAnnot settings line b) : a = b := by
  obtain ⟨entries, hread, hload⟩ := ha
  obtain ⟨entries', hread', hload'⟩ := hb
  rw [hread] at hread'
  cases hread'
  rw [hload] at hload'
  exact Except.ok.inj hload'

theorem not_holdsAnnot_of_blank {line : List Char} (h : stripChars line = []) (a : Annot) :
    ¬HoldsAnnot settings line a := by
  rintro ⟨entries, hread, -⟩
  exact stripChars_ne_nil_of_read hread h

/-- The annotations of lines, in order; there are none on lines of blanks. -/
inductive LinesHold (settings : Settings) : List (List Char) → List Annot → Prop where
  | nil : LinesHold settings [] []
  | blank {line : List Char} {lines : List (List Char)} {annots : List Annot}
      (blank : stripChars line = []) (rest : LinesHold settings lines annots) :
      LinesHold settings (line :: lines) annots
  | row {line : List Char} {lines : List (List Char)} {a : Annot} {annots : List Annot}
      (row : HoldsAnnot settings line a) (rest : LinesHold settings lines annots) :
      LinesHold settings (line :: lines) (a :: annots)

/-- The annotations of a file, in order. -/
def HoldsAnnots (settings : Settings) (octets : List Octet) (annots : List Annot) : Prop :=
  ∃ text : String, octets = encodeUtf8 text ∧ LinesHold settings (physicalLines text.toList) annots

/-- A file is UTF-8 and every line of it that is not blank holds an annotation. -/
def IsAccepted (settings : Settings) (octets : List Octet) : Prop :=
  ∃ text : String, octets = encodeUtf8 text ∧
    ∀ line ∈ physicalLines text.toList, stripChars line ≠ [] → ∃ a, HoldsAnnot settings line a

theorem exists_linesHold_iff {lines : List (List Char)} :
    (∃ annots, LinesHold settings lines annots) ↔
      ∀ line ∈ lines, stripChars line ≠ [] → ∃ a, HoldsAnnot settings line a := by
  induction lines with
  | nil => exact ⟨fun _ => List.forall_mem_nil _, fun _ => ⟨[], .nil⟩⟩
  | cons line lines ih =>
    rw [List.forall_mem_cons, ← ih]
    constructor
    · rintro ⟨annots, h⟩
      cases h with
      | blank blank rest => exact ⟨fun hne => absurd blank hne, _, rest⟩
      | row row rest => exact ⟨fun _ => ⟨_, row⟩, _, rest⟩
    · rintro ⟨hline, annots, hrest⟩
      by_cases hblank : stripChars line = []
      · exact ⟨annots, .blank hblank hrest⟩
      · obtain ⟨a, hrow⟩ := hline hblank
        exact ⟨a :: annots, .row hrow hrest⟩

theorem exists_holdsAnnots_iff {octets : List Octet} :
    (∃ annots, HoldsAnnots settings octets annots) ↔ IsAccepted settings octets := by
  constructor
  · rintro ⟨annots, text, htext, hlines⟩
    exact ⟨text, htext, exists_linesHold_iff.mp ⟨annots, hlines⟩⟩
  · rintro ⟨text, htext, hlines⟩
    obtain ⟨annots, hannots⟩ := exists_linesHold_iff.mpr hlines
    exact ⟨annots, text, htext, hannots⟩

/-! ## §2 Deliveries of lines -/

namespace Delivery

variable {α β : Type} {f : α → Except Failure β} {item : α} {d : Delivery α}

theorem mapM_cons_of_ok {b : β} (h : f item = .ok b) :
    (d.cons item).mapM f = (d.mapM f).cons b := by
  rw [mapM, cons, mapItems, h]
  rfl

theorem mapM_cons_of_error {e : Failure} (h : f item = .error e) :
    (d.cons item).mapM f = failing e := by
  rw [mapM, cons, mapItems, h]

end Delivery

/-- A failure is one of the content of a file: the program ends with code one and reports it. -/
def Failure.IsOfContent (f : Failure) : Prop :=
  ∀ path, f.ending? path = some (1, .failure f)

/-- What is known of the annotations that are delivered of lines, where `failure` is what follows
the lines. -/
structure DeliversLines (settings : Settings) (lines : List (List Char))
    (failure : Option Failure) (d : Delivery StoredAnnot) : Prop where
  sound : ∀ x ∈ d.items, x.annot.IsSound settings 0
  whole : ∀ annots, LinesHold settings lines annots →
    d.items.map StoredAnnot.annot = annots ∧ d.failure = failure
  broken : (¬∃ annots, LinesHold settings lines annots) → ∃ f, d.failure = some f ∧ f.IsOfContent

namespace DeliversLines

variable {lines : List (List Char)} {line : List Char} {failure : Option Failure}
variable {d : Delivery StoredAnnot}

theorem nil : DeliversLines settings [] failure ⟨[], failure⟩ where
  sound := List.forall_mem_nil _
  whole annots h := by
    cases h
    exact ⟨rfl, rfl⟩
  broken h := absurd ⟨[], .nil⟩ h

theorem blank (hblank : stripChars line = []) (h : DeliversLines settings lines failure d) :
    DeliversLines settings (line :: lines) failure d where
  sound := h.sound
  whole annots hlines := by
    cases hlines with
    | blank _ rest => exact h.whole annots rest
    | row row rest => exact absurd row (not_holdsAnnot_of_blank hblank _)
  broken hnone := h.broken fun ⟨annots, hlines⟩ => hnone ⟨annots, .blank hblank hlines⟩

/-- A line that is neither blank nor holds an annotation ends the delivery. -/
theorem failing {f : Failure} (hne : stripChars line ≠ [])
    (hnot : ∀ a, ¬HoldsAnnot settings line a) (hf : f.IsOfContent) :
    DeliversLines settings (line :: lines) failure (.failing f) where
  sound := List.forall_mem_nil _
  whole annots hlines := by
    cases hlines with
    | blank blank rest => exact absurd blank hne
    | row row rest => exact absurd row (hnot _)
  broken _ := ⟨f, rfl, hf⟩

theorem cons {x : StoredAnnot} (hrow : HoldsAnnot settings line x.annot)
    (h : DeliversLines settings lines failure d) :
    DeliversLines settings (line :: lines) failure (d.cons x) where
  sound := by
    obtain ⟨entries, -, hload⟩ := hrow
    exact List.forall_mem_cons.mpr ⟨((loadSpecs settings _).annot 0).of_eq_ok hload, h.sound⟩
  whole annots hlines := by
    cases hlines with
    | blank blank rest => exact absurd hrow (not_holdsAnnot_of_blank blank _)
    | row row rest =>
      obtain ⟨hitems, hfailure⟩ := h.whole _ rest
      refine ⟨?_, hfailure⟩
      rw [Delivery.cons, List.map_cons, hitems, hrow.unique row]
  broken hnone := h.broken fun ⟨annots, hlines⟩ => hnone ⟨_, .row hrow hlines⟩

end DeliversLines

/-- A row gives its annotation, or a fault of the content. -/
theorem Row.load_cases (settings : Settings) (path : Path) (row : Row) :
    (∃ a, Annot.load settings 0 row.json = .ok a ∧ row.load settings path = .ok ⟨row.line, a⟩) ∨
      (∀ a, Annot.load settings 0 row.json ≠ .ok a) ∧
        ∃ f, row.load settings path = .error f ∧ f.IsOfContent := by
  rw [Row.load]
  cases hload : Annot.load settings 0 row.json with
  | ok a => exact .inl ⟨a, rfl, rfl⟩
  | error e =>
    -- an annotation that is refused has a faulty payload or is nested too deeply
    refine .inr ⟨fun a => nofun, ?_⟩
    rcases ((loadSpecs settings row.json).annot 0).of_eq_error hload with ⟨cause, rfl⟩ | rfl
    · exact ⟨_, rfl, fun _ => rfl⟩
    · exact ⟨_, rfl, fun _ => rfl⟩

/-- **What is delivered of lines**, whatever follows them. -/
theorem deliversLines_rowsFrom (settings : Settings) (path : Path) (failure : Option Failure)
    (number : ℕ) (lines : List (List Char)) :
    DeliversLines settings lines failure
      ((rowsFrom failure number lines).mapM (Row.load settings path)) := by
  -- a blank line adds nothing, one that holds an annotation adds it, any other ends the delivery
  induction lines generalizing number with
  | nil => exact .nil
  | cons line lines ih =>
    rw [rowsFrom]
    by_cases hblank : stripChars line = []
    · rw [if_pos (List.isEmpty_iff.mpr hblank)]
      exact .blank hblank (ih (number + 1))
    · rw [if_neg (by rwa [List.isEmpty_iff])]
      -- a line that is not read as an object holds nothing
      have hnot : (∀ entries, Json.readChars (stripChars line) ≠ .ok (.object entries)) →
          ∀ a, ¬HoldsAnnot settings line a := by
        rintro hnone a ⟨entries, hread, -⟩
        exact hnone entries hread
      split
      case h_1 fault hread =>
        refine .failing hblank (hnot (by simp [hread])) fun _ => ?_
        cases fault <;> rfl
      case h_2 entries hread =>
        rcases Row.load_cases settings path ⟨number, entries⟩ with
          ⟨a, hload, hrow⟩ | ⟨hnone, f, hrow, hcontent⟩
        · rw [Delivery.mapM_cons_of_ok hrow]
          exact .cons ⟨entries, hread, hload⟩ (ih (number + 1))
        · rw [Delivery.mapM_cons_of_error hrow]
          refine .failing hblank ?_ hcontent
          rintro a ⟨entries', hread', hload⟩
          rw [hread] at hread'
          cases hread'
          exact hnone a hload
      case h_3 j hobject hread =>
        refine .failing hblank (hnot fun entries hentries => ?_) fun _ => rfl
        rw [hread] at hentries
        exact hobject entries (Except.ok.inj hentries)

/-! ## §3 Deliveries of files -/

/-- What is known of the annotations that are delivered of a file. -/
structure DeliversFile (settings : Settings) (octets : List Octet)
    (d : Delivery StoredAnnot) : Prop where
  sound : ∀ x ∈ d.items, x.annot.IsSound settings 0
  whole : ∀ annots, HoldsAnnots settings octets annots →
    d.items.map StoredAnnot.annot = annots ∧ d.failure = none
  broken : (¬∃ annots, HoldsAnnots settings octets annots) →
    ∃ f, d.failure = some f ∧ f.IsOfContent

theorem holdsAnnots_iff_of_whole {octets : List Octet} {text : List Char}
    (h : decodeUtf8 octets = .whole text) (annots : List Annot) :
    HoldsAnnots settings octets annots ↔ LinesHold settings (physicalLines text) annots := by
  constructor
  · rintro ⟨s, rfl, hlines⟩
    rw [decodeUtf8_encodeUtf8] at h
    cases h
    exact hlines
  · intro hlines
    refine ⟨String.ofList text, decodeUtf8_eq_whole_iff.mp h, ?_⟩
    rwa [String.toList_ofList]

/-- Octets that cannot be decoded hold nothing. -/
theorem not_holdsAnnots {octets : List Octet} (h : ∀ text, decodeUtf8 octets ≠ .whole text) :
    ¬∃ annots, HoldsAnnots settings octets annots := by
  rintro ⟨annots, s, rfl, -⟩
  exact h s.toList (decodeUtf8_encodeUtf8 s)

/-- What is delivered of the lines before octets that cannot be decoded, and then a fault. -/
theorem DeliversFile.of_notUtf8 {octets : List Octet} {lines : List (List Char)}
    {d : Delivery StoredAnnot} (h : ∀ text, decodeUtf8 octets ≠ .whole text)
    (hlines : DeliversLines settings lines (some (.storage .notUtf8)) d) :
    DeliversFile settings octets d where
  sound := hlines.sound
  whole annots hannots := absurd ⟨annots, hannots⟩ (not_holdsAnnots h)
  broken _ := by
    -- the fault is that of the octets if all lines before them hold annotations
    by_cases hsome : ∃ annots, LinesHold settings lines annots
    · obtain ⟨annots, hannots⟩ := hsome
      exact ⟨_, (hlines.whole annots hannots).2, fun _ => rfl⟩
    · exact hlines.broken hsome

/-- **What is delivered of a file.** -/
theorem deliversFile_storedAnnots (settings : Settings) (path : Path) (octets : List Octet) :
    DeliversFile settings octets (storedAnnots settings path octets) := by
  rw [storedAnnots, rows]
  cases hdecode : decodeUtf8 octets with
  | whole text =>
    have hfile : fileLines octets = ⟨physicalLines text, none⟩ := by rw [fileLines, hdecode]
    have hlines := deliversLines_rowsFrom settings path none 1 (physicalLines text)
    rw [hfile]
    refine ⟨hlines.sound, fun annots hannots => ?_, fun hnone => ?_⟩
    · exact hlines.whole annots ((holdsAnnots_iff_of_whole hdecode annots).mp hannots)
    · apply hlines.broken
      rintro ⟨annots, hannots⟩
      exact hnone ⟨annots, (holdsAnnots_iff_of_whole hdecode annots).mpr hannots⟩
  | truncated text =>
    have hfile : (fileLines octets).failure = some (.storage .notUtf8) := by
      rw [fileLines, hdecode]
    rw [hfile]
    exact .of_notUtf8 (by simp [hdecode]) (deliversLines_rowsFrom settings path _ 1 _)
  | broken text offset =>
    have hfile : (fileLines octets).failure = some (.storage .notUtf8) := by
      rw [fileLines, hdecode]
    rw [hfile]
    exact .of_notUtf8 (by simp [hdecode]) (deliversLines_rowsFrom settings path _ 1 _)

/-- A file does not hold two lists of annotations. -/
theorem HoldsAnnots.unique {octets : List Octet} {annots others : List Annot}
    (h : HoldsAnnots settings octets annots) (hother : HoldsAnnots settings octets others) :
    annots = others := by
  have hfile := deliversFile_storedAnnots settings (.ofText "") octets
  rw [← (hfile.whole annots h).1, (hfile.whole others hother).1]

end AnnoTree
