import AnnoTree.Proofs.Storage.Appending

/-!
# References to rows

A row is referred to by the number of lines that the wide rule counts before it, and is found on
its physical line. The two differ by the line breaks inside the rows before it: three characters
that strings and names keep as they are in a row end a line under the wide rule only. So a
reference names the line of its row exactly if no row before it has one of these characters.

## Main statements

- `innerBreaks_eq_zero`: rows without these characters.
- `references_count_inner_breaks`: which line a reference names, and on which its row is.
-/

namespace AnnoTree

open AnnoTree.Text

variable {settings : Settings}

/-! ## §1 Rows that are referred to -/

/-- There is nothing to be counted inside rows exactly if none of them has an inner break. -/
theorem innerBreaks_eq_zero {js : List Json} :
    innerBreaks js = 0 ↔ ∀ j ∈ js, ∀ c ∈ j.rowChars, isInnerBreak c = false := by
  simp [innerBreaks, List.sum_eq_zero_iff, List.countP_eq_zero]

theorem getElem?_refsAfter (name : String) (before js : List Json) {i : ℕ} (h : i < js.length) :
    (FileTree.refsAfter name before js)[i]? =
      some ⟨name, before.length + i + 1 + innerBreaks (before ++ js.take i)⟩ := by
  have hlength : (before ++ js.take i).length = before.length + i := by
    rw [List.length_append, List.length_take, min_eq_left (Nat.le_of_lt h)]
  have hline : lineAfter (before ++ js.take i) =
      before.length + i + 1 + innerBreaks (before ++ js.take i) := by
    rw [lineAfter, hlength]
    omega
  rw [FileTree.refsAfter, List.getElem?_map, List.getElem?_range h, Option.map_some, hline]

/-! ## §2 References and lines -/

/-- The row of a file of rows that stands after some others: its line is one more than their
number. -/
theorem exists_row {js : List Json} (h : ∀ j ∈ js, j.IsRow)
    (hwell : ∀ j ∈ js, j.isWellFormed = true) {t : FileTree} {p : Path}
    (hread : t.read p = .ok (rowsOctets js)) :
    (t.rows p).failure = none ∧ (t.rows p).items.map Row.json = js ∧
      ∀ n j, js[n]? = some j →
        ∃ row, (t.rows p).items[n]? = some row ∧ row.json = j ∧ row.line = n + 1 := by
  obtain ⟨items, hitems, hjson, hline⟩ := rows_rowsOctets h hwell
  have hrows : t.rows p = ⟨items, none⟩ := by
    rw [FileTree.rows, hread]
    exact hitems
  rw [hrows]
  refine ⟨rfl, hjson, fun n j hj => ?_⟩
  rw [← hjson, List.getElem?_map, Option.map_eq_some_iff] at hj
  obtain ⟨row, hrow, hrowJson⟩ := hj
  refine ⟨row, hrow, hrowJson, ?_⟩
  -- the lines of the rows are the numbers from one on
  have hlt : n < js.length := by
    rw [← hjson, List.length_map]
    exact (List.getElem?_eq_some_iff.mp hrow).1
  have hnumber : (items.map Row.line)[n]? = some (n + 1) := by
    rw [hline, List.getElem?_range' hlt]
    simp [Nat.add_comm]
  rw [List.getElem?_map, hrow] at hnumber
  exact Option.some.inj hnumber

/-- **Which lines references name**: annotations that have a stored form can be appended to a file
of rows that can be written exactly if no half of a surrogate pair stands alone in them. Each is
then on the physical line after those before it, and its reference names a line that is later by the
number of inner breaks in the rows before it. So it names the line of its row exactly if no row
before it has an inner break. -/
theorem references_count_inner_breaks {t : FileTree} {p : Path} {xs : List Annot}
    {before : List Json} (hholds : t.HoldsRows p before) (hrows : ∀ j ∈ before, j.IsRow)
    (hstored : ∀ a ∈ xs, ∃ j, a.payload settings 0 = .ok j) :
    (t.CanWrite p →
      ((∃ u refs, t.appendRows settings p (xs.map .annot) = (u, .ok refs)) ↔
        ∀ a ∈ xs, a.fullPayload.isWellFormed = true)) ∧
    ∀ u refs, t.appendRows settings p (xs.map .annot) = (u, .ok refs) →
      refs.length = xs.length ∧ u.HoldsRows p (before ++ xs.map Annot.fullPayload) ∧
      ∀ i a, xs[i]? = some a → ∃ row,
        (u.rows p).failure = none ∧ (u.rows p).items[before.length + i]? = some row ∧
        a.payload settings 0 = .ok row.json ∧ row.line = before.length + i + 1 ∧
        refs[i]? = some ⟨p.name, row.line +
          innerBreaks (((u.rows p).items.take (before.length + i)).map Row.json)⟩ ∧
        (refs[i]? = some ⟨p.name, row.line⟩ ↔
          ∀ earlier ∈ (u.rows p).items.take (before.length + i),
            ∀ c ∈ earlier.json.rowChars, isInnerBreak c = false) := by
  have hforms := hasForms_of_payloads hstored
  refine ⟨fun hwrite => FileTree.exists_appendRows_iff hholds hwrite hstored, fun u refs hrun => ?_⟩
  have hwell := FileTree.isWellFormed_of_appended hstored hrun
  obtain ⟨rfl, hextended⟩ := FileTree.appendRows_eq_ok hholds hforms hrun
  have hheld := hextended.holdsRows hholds (List.forall_mem_map.mpr hwell)
  refine ⟨by simp [FileTree.refsAfter], hheld, ?_⟩
  intro i a hi
  obtain ⟨hlt, -⟩ := List.getElem?_eq_some_iff.mp hi
  cases hextended with
  | unchanged nothing _ =>
    -- nothing was appended, so there is no such annotation
    obtain rfl := List.map_eq_nil_iff.mp nothing
    cases hi
  | grown _ read =>
    have hall : ∀ j ∈ before ++ xs.map Annot.fullPayload, j.IsRow :=
      List.forall_mem_append.mpr ⟨hrows, isRow_of_fullPayloads xs⟩
    obtain ⟨hfailure, hjson, hrow⟩ := exists_row hall hheld.isWellFormed read
    have hplace : (before ++ xs.map Annot.fullPayload)[before.length + i]? =
        some a.fullPayload := by
      rw [List.getElem?_append_right (Nat.le_add_right _ _), Nat.add_sub_cancel_left,
        List.getElem?_map, hi]
      rfl
    obtain ⟨row, hfound, hpayload, hline⟩ := hrow _ _ hplace
    -- the rows before this one are those that were there and those of the annotations before it
    have hearlier : ((u.rows p).items.take (before.length + i)).map Row.json =
        before ++ (xs.map Annot.fullPayload).take i := by
      rw [List.map_take, hjson, List.take_length_add_append]
    have href : (FileTree.refsAfter p.name before (xs.map Annot.fullPayload))[i]? =
        some ⟨p.name, row.line +
          innerBreaks (((u.rows p).items.take (before.length + i)).map Row.json)⟩ := by
      rw [getElem?_refsAfter p.name before _ (by rwa [List.length_map]), hearlier, hline]
    obtain ⟨j, hj⟩ := hstored a (List.mem_of_getElem? hi)
    obtain ⟨hfits, -⟩ := (a.payload_spec settings 0).of_eq_ok hj
    refine ⟨row, hfailure, hfound, ?_, hline, href, ?_⟩
    · rw [hpayload]
      exact (a.payload_spec settings 0).ok hfits
    · rw [href, Option.some.injEq, RowRef.mk.injEq, eq_self_iff_true, true_and,
        Nat.add_eq_left, innerBreaks_eq_zero, List.forall_mem_map]

/-- An annotation with a line separator in a string. -/
def separated : Annot :=
  ⟨"A", some [⟨"x", .string "\u2028"⟩]⟩

theorem lineAfter_separated : lineAfter [separated.fullPayload] = 3 := by
  decide +kernel

/-- Cases of it: of two rows behind one that was there, the first has a line separator, so its own
reference names its line and the one to the second names the line after it. -/
theorem references_around_a_separator :
    ∃ u refs row later,
      oneRowFile.appendRows {} (.ofText "x") [.annot separated, .annot (.ofName "B")] =
        (u, .ok refs) ∧
      (u.rows (.ofText "x")).items[1]? = some row ∧
      (u.rows (.ofText "x")).items[2]? = some later ∧
      separated.payload {} 0 = .ok row.json ∧ Annot.payload {} 0 (.ofName "B") = .ok later.json ∧
      row.line = 2 ∧ later.line = 3 ∧ refs[0]? = some ⟨"x", 2⟩ ∧ refs[1]? = some ⟨"x", 4⟩ := by
  have hread : oneRowFile.read (.ofText "x") =
      .ok (rowsOctets [(Annot.ofName "A").fullPayload]) := rfl
  have hstored : ∀ a ∈ [separated, .ofName "B"], ∃ j, a.payload {} 0 = .ok j := by
    rw [List.forall_mem_cons, List.forall_mem_singleton]
    exact ⟨⟨_, rfl⟩, ⟨_, rfl⟩⟩
  obtain ⟨hwritable, hrefs⟩ := references_count_inner_breaks (.there (by decide) hread)
    (isRow_of_fullPayloads [.ofName "A"]) hstored
  obtain ⟨u, refs, hrun⟩ := (hwritable (FileTree.canWrite_of_read hread)).mpr (by decide)
  obtain ⟨-, hholds, hrow⟩ := hrefs u refs hrun
  obtain ⟨row, -, hfound, hpayload, hline, href, -⟩ := hrow 0 separated rfl
  obtain ⟨later, -, hlater, hlaterPayload, hlaterLine, hlaterRef, -⟩ := hrow 1 (.ofName "B") rfl
  cases hholds with
  | there well read =>
    obtain ⟨-, hjson, -⟩ :=
      exists_row (isRow_of_fullPayloads [.ofName "A", separated, .ofName "B"]) well read
    simp only [List.map_take, hjson, hline, hlaterLine] at href hlaterRef
    exact ⟨u, refs, row, later, hrun, hfound, hlater, hpayload, hlaterPayload, hline, hlaterLine,
      href, hlaterRef⟩

/-- It is not so that references always name the line of their row: the row after one with a line
separator in a string is referred to by a later line. -/
theorem references_may_miss_their_rows :
    ¬∀ (settings : Settings) (t u : FileTree) (p : Path) (xs : List Annot) (refs : List RowRef),
      (∀ a ∈ xs, ∃ j, a.payload settings 0 = .ok j) → t.HoldsRows p [] →
      t.appendRows settings p (xs.map .annot) = (u, .ok refs) →
      ∀ (i : ℕ) (ref : RowRef) (row : Row), refs[i]? = some ref →
        (u.rows p).items[i]? = some row → ref.line = row.line := by
  intro halways
  have hfresh : FileTree.HoldsRows {} (.ofText "r") [] := .fresh rfl
  have hstored : ∀ a ∈ [separated, .ofName "B"], ∃ j, a.payload {} 0 = .ok j := by
    rw [List.forall_mem_cons, List.forall_mem_singleton]
    exact ⟨⟨_, rfl⟩, ⟨_, rfl⟩⟩
  obtain ⟨u, hrun, hextended⟩ :=
    FileTree.appendRows_of_holdsRows hfresh rfl (hasForms_of_payloads hstored) (by decide)
  cases hextended with
  | unchanged nothing _ => cases nothing
  | grown _ read =>
    obtain ⟨-, -, hrow⟩ := exists_row (isRow_of_fullPayloads [separated, .ofName "B"])
      (by decide) read
    obtain ⟨row, hfound, -, hline⟩ := hrow 1 _ rfl
    have href : (FileTree.refsAfter "r" []
        ([separated, .ofName "B"].map Annot.fullPayload))[1]? = some ⟨"r", 3⟩ := by
      rw [← lineAfter_separated]
      rfl
    have hsame := halways {} {} u (.ofText "r") _ _ hstored hfresh hrun 1 _ row href hfound
    rw [hline] at hsame
    cases hsame

end AnnoTree
