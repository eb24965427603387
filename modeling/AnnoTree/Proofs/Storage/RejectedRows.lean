import AnnoTree.Proofs.Storage.LastLine
import AnnoTree.Proofs.Storage.LineNumbers

/-!
# Rejected rows

An object that is no annotation ends the delivery of a file: the annotations of the lines before it
are delivered, and then the fault. What is wrong with the stored form is told with the place of the
row. That the row is nested too deep is not: this fault passes as it is, and its wording has no
colon, so it cannot be taken for one with a place.

## Main definitions

- `Failure.IsLocatedAt`: the message of a failure begins with the place of a row.
- `Failure.inRow`: a fault of a row, with its place if it is told.
- `RejectsRow`: the first line of a file that is no annotation is an object.

## Main statements

- `Failure.isLocatedAt_inRow_iff`: which faults of rows are told with their place.
- `RejectsRow.storedAnnots_spec`: what is delivered of a file with a rejected row.
- `only_deep_rows_are_not_located`, `deep_rows_are_not_located`
-/

namespace AnnoTree

open AnnoTree.Text
open CodePoint (char)

/-! ## §1 Places in messages -/

/-- The message of a failure begins with the path and the number of a line. -/
def Failure.IsLocatedAt (path : Path) (number : ℕ) (f : Failure) : Prop :=
  ∃ rest : Str, f.message? = some (path.text ++ ":" ++ toString number ++ ": " ++ rest)

theorem TooDeep.colon_not_mem_message (e : TooDeep) : char ':' ∉ e.message.toList := by
  have hlimit : ':' ∉ (toString e.limit).toList := by
    rw [Json.toList_toString_nat]
    intro hcolon
    have hdigit := Json.allDigits_toDigits e.limit _ hcolon
    simp at hdigit
  have hwalk : char ':' ∉ e.walk.name.toList := by
    cases e.walk <;> decide
  unfold TooDeep.message TooDeep.describe
  simp only [Str.toList_append, Str.toList_ofString, List.mem_append, not_or]
  refine ⟨⟨⟨by decide, ?_⟩, by decide⟩, hwalk⟩
  rw [List.mem_map_of_injective fun _ _ => CodePoint.char.inj]
  exact hlimit

/-- That a walk went too deep is told without a place. -/
theorem TooDeep.not_isLocatedAt (e : TooDeep) (path : Path) (number : ℕ) :
    ¬(Failure.tooDeep e).IsLocatedAt path number := by
  rintro ⟨rest, hmessage⟩
  -- a place has a colon behind the path
  apply e.colon_not_mem_message
  rw [Option.some.inj hmessage]
  simp

/-- A fault of a row: what is wrong with its stored form is told with its place. -/
def Failure.inRow (path : Path) (number : ℕ) : Failure → Failure
  | .payload cause => .payload (.atRow path.text number cause)
  | f => f

/-- **Which faults of rows are told with their place**, among those of objects that are no
annotations: all but that of nesting. -/
theorem Failure.isLocatedAt_inRow_iff {settings : Settings} {j : Json} {f : Failure}
    (h : Annot.load settings 0 j = .error f) (path : Path) (number : ℕ) :
    (f.inRow path number).IsLocatedAt path number ↔
      f ≠ .tooDeep ⟨settings.maxDepth, .deserialize⟩ := by
  rcases ((loadSpecs settings j).annot 0).of_eq_error h with ⟨cause, rfl⟩ | rfl
  · exact iff_of_true ⟨cause.message, rfl⟩ nofun
  · exact iff_of_false (TooDeep.not_isLocatedAt _ path number) (not_not_intro rfl)

/-! ## §2 The first row that is rejected -/

/-- The first line of a file that is neither blank nor an annotation holds an object. It has the
number, the annotations are those of the lines before it, and loading the object gives the fault. -/
inductive RejectsRow (settings : Settings) (octets : List Octet) : ℕ → List Annot → Failure → Prop
  | intro {before more : List (List Char)} {line : List Char} {entries : List (Str × Json)}
      {annots : List Annot} {f : Failure}
      (lines : (fileLines octets).items = before ++ line :: more)
      (earlier : LinesHold settings before annots)
      (object : HoldsObject line entries)
      (rejected : Annot.load settings 0 (.object entries) = .error f) :
      RejectsRow settings octets (before.length + 1) annots f

section Rejected

variable {settings : Settings} {octets : List Octet} {number : ℕ} {annots : List Annot}
variable {f : Failure}

theorem Row.load_eq_error {row : Row} (h : Annot.load settings 0 row.json = .error f)
    (path : Path) : row.load settings path = .error (f.inRow path row.line) := by
  rw [Row.load, h]
  cases f <;> rfl

/-- Nothing is delivered of a rejected row but its fault, whatever lines follow it. -/
theorem mapM_rowsFrom_of_rejected {line : List Char} {entries : List (Str × Json)}
    (hobject : HoldsObject line entries)
    (hrejected : Annot.load settings 0 (.object entries) = .error f) (path : Path)
    (failure : Option Failure) (number : ℕ) (more : List (List Char)) :
    (rowsFrom failure number (line :: more)).mapM (Row.load settings path) =
      .failing (f.inRow path number) := by
  have hrow : Row.load settings path ⟨number, entries⟩ = .error (f.inRow path number) :=
    Row.load_eq_error hrejected path
  rw [rowsFrom_of_object hobject]
  exact Delivery.mapM_cons_of_error hrow

/-- **What is delivered of a file with a rejected row**: the annotations before it, and its
fault. -/
theorem RejectsRow.storedAnnots_spec (h : RejectsRow settings octets number annots f)
    (path : Path) :
    (storedAnnots settings path octets).items.map StoredAnnot.annot = annots ∧
      (storedAnnots settings path octets).failure = some (f.inRow path number) := by
  obtain @⟨before, more, line, entries, _, _, hlines, hearlier, hobject, hrejected⟩ := h
  obtain ⟨hitems, hwhole⟩ := (deliversLines_rowsFrom settings path none 1 before).whole _ hearlier
  -- the lines before the row are delivered whole, and behind them the row is met first
  rw [storedAnnots, rows, hlines, rowsFrom_append, Delivery.mapM_andThen,
    mapM_rowsFrom_of_rejected hobject hrejected, Delivery.andThen_of_whole hwhole,
    Nat.add_comm 1 before.length]
  refine ⟨?_, rfl⟩
  rw [Delivery.failing, List.append_nil, hitems]

end Rejected

/-- **Only deep rows are not located.** A file has a row that is rejected, and all lines before it
are blank or annotations. Those annotations are delivered in order, and then a failure. Its message
begins with the path and the number of the line unless the row is nested too deep; then it is told
as any other walk tells it. -/
theorem only_deep_rows_are_not_located {settings : Settings} {t : FileTree} {path : Path}
    {octets : List Octet} {number : ℕ} {annots : List Annot} {f : Failure}
    (hfile : t.read path = .ok octets) (h : RejectsRow settings octets number annots f) :
    (t.storedAnnots settings path).items.map StoredAnnot.annot = annots ∧
      (t.storedAnnots settings path).failure = some (f.inRow path number) ∧
      ((f.inRow path number).IsLocatedAt path number ↔
        f ≠ .tooDeep ⟨settings.maxDepth, .deserialize⟩) := by
  obtain ⟨hitems, hfailure⟩ := h.storedAnnots_spec path
  rw [FileTree.storedAnnots, hfile]
  obtain ⟨-, -, -, hrejected⟩ := h
  exact ⟨hitems, hfailure, Failure.isLocatedAt_inRow_iff hrejected path _⟩

/-! ## §3 A rejected row behind another -/

/-- A line behind the row of an annotation is the second of the file. -/
theorem rejectsRow_behind_row {settings : Settings} {a : Annot} {line : List Char}
    {entries : List (Str × Json)} {f : Failure} (ha : a.IsSound settings 0)
    (hwell : a.fullPayload.isWellFormed = true) (hline : IsOneLine line)
    (hobject : HoldsObject line entries)
    (hrejected : Annot.load settings 0 (.object entries) = .error f) :
    RejectsRow settings (encodeUtf8 (a.fullPayload.row ++ String.ofList line)) 2 [a] f := by
  have hne : line ≠ [] := by
    rintro rfl
    exact hobject.ne_nil rfl
  have hrow := (Json.noControls_rowChars a.fullPayload).isOneLine
  have hlines : (fileLines (encodeUtf8 (a.fullPayload.row ++ String.ofList line))).items =
      [a.fullPayload.rowChars] ++ [line] := by
    rw [fileLines_encodeUtf8, String.toList_append, Json.toList_row, String.toList_ofList,
      List.append_assoc]
    exact (CutsInto.feed hrow (.last hline hne)).physicalLines_eq
  exact .intro hlines (.row (holdsAnnot_rowChars ha hwell) .nil) hobject hrejected

/-- The row of a stored form holds an object, whether it is loaded or not. -/
theorem exists_holdsObject_rowChars {a : Annot} (hwell : a.fullPayload.isWellFormed = true) :
    ∃ entries, a.fullPayload = .object entries ∧ HoldsObject a.fullPayload.rowChars entries := by
  obtain ⟨hkeys, entries, hobject⟩ := a.isRow_fullPayload
  rw [hobject] at hkeys hwell ⊢
  refine ⟨entries, rfl, ?_⟩
  rw [HoldsObject, Json.stripChars_object, Json.readChars_rowChars hkeys hwell]

/-- A case of it: an object without a name behind the row of an annotation. -/
theorem unnamed_row_is_located :
    ((FileTree.ofText ((Annot.ofName "A").fullPayload.row ++ "\x7b\x7d")).storedAnnots {}
        (.ofText "r")).items.map StoredAnnot.annot = [.ofName "A"] ∧
      ((FileTree.ofText ((Annot.ofName "A").fullPayload.row ++ "\x7b\x7d")).storedAnnots {}
        (.ofText "r")).failure = some (.payload (.atRow "r" 2 .unnamedAnnot)) := by
  have hA : (Annot.ofName "A").IsSound {} 0 := Annot.isSound_ofName (by decide)
  have hline : IsOneLine "\x7b\x7d".toList := by simp [IsOneLine]
  have hobject : HoldsObject "\x7b\x7d".toList [] := rfl
  have hrejects := rejectsRow_behind_row hA (by decide) hline hobject
    (rfl : Annot.load {} 0 (.object []) = .error (.payload .unnamedAnnot))
  rw [String.ofList_toList] at hrejects
  obtain ⟨hitems, hfailure, -⟩ := only_deep_rows_are_not_located (FileTree.read_ofText _) hrejects
  exact ⟨hitems, hfailure⟩

/-- It is not so that all rejected rows are located: one that is nested too deep is not. -/
theorem deep_rows_are_not_located :
    ¬∀ (settings : Settings) (t : FileTree) (path : Path) (octets : List Octet) (number : ℕ)
      (annots : List Annot) (f : Failure), t.read path = .ok octets →
      RejectsRow settings octets number annots f →
      ∃ g, (t.storedAnnots settings path).failure = some g ∧ g.IsLocatedAt path number := by
  intro halways
  -- an array one level beyond the bound, behind a row that is loaded
  let deep : Annot := ⟨"B", some [⟨"x", .array [.array [.array []]]⟩]⟩
  have hA : (Annot.ofName "A").IsSound { maxDepth := 1 } 0 := Annot.isSound_ofName (by decide)
  have hline := (Json.noControls_rowChars deep.fullPayload).isOneLine
  obtain ⟨entries, hentries, hobject⟩ := exists_holdsObject_rowChars (a := deep) (by decide)
  have hrejected : Annot.load { maxDepth := 1 } 0 deep.fullPayload =
      .error (.tooDeep ⟨1, .deserialize⟩) := rfl
  rw [hentries] at hrejected
  have hrejects := rejectsRow_behind_row hA (by decide) hline hobject hrejected
  obtain ⟨g, hfailure, hlocated⟩ := halways _ _ (.ofText "r") _ _ _ _ (FileTree.read_ofText _)
    hrejects
  rw [FileTree.storedAnnots, FileTree.read_ofText, deliverFile,
    (hrejects.storedAnnots_spec (.ofText "r")).2] at hfailure
  cases hfailure
  exact TooDeep.not_isLocatedAt _ _ _ hlocated

end AnnoTree
