import AnnoTree.Proofs.Storage.Files
import AnnoTree.Storage.Appending

/-!
# Trees in which everything stands in a directory

Nothing stands at a place unless a directory stands above it. This holds of the empty tree and of
whatever becomes of it when directories are made and files are changed. In such a tree a way
without steps upward that leads to nothing leads to nothing still after its directories are made.

## Main definitions

- `FileTree.IsTree`: everything stands in a directory.

## Main statements

- `FileTree.IsTree.makeParent`, `FileTree.IsTree.changeFile`, `FileTree.IsTree.appendRows`: what
  keeps a tree one.
- `FileTree.IsTree.isFresh`: a missing file without steps upward on its way is fresh.
-/

namespace AnnoTree.FileTree

open AnnoTree.Text

variable {t u : FileTree} {p : Path}

/-! ## §1 What keeps a tree one -/

/-- Everything stands in a directory. -/
def IsTree (t : FileTree) : Prop :=
  ∀ place name, t.node? (place ++ [name]) ≠ none → t.node? place = some .directory

theorem isOutside_of_concat {place : List String} {name : String}
    (h : isOutside (place ++ [name]) = true) : isOutside place = true := by
  rw [isOutside, List.all_append, Bool.and_eq_true] at h
  exact h.1

/-- The empty tree is one. -/
theorem isTree_empty : IsTree {} := by
  intro place name h
  by_cases houtside : isOutside (place ++ [name]) = true
  · exact if_pos (isOutside_of_concat houtside)
  · rw [node?, if_neg houtside] at h
    exact absurd rfl h

/-- What is put where a directory is above, and not in the place of one, stands in it. -/
theorem IsTree.put (h : t.IsTree) {place : List String} {name : String}
    (habove : t.node? place = some .directory)
    (hplace : t.node? (place ++ [name]) ≠ some .directory) (node : Node) :
    (t.put (place ++ [name]) node).IsTree := by
  have hself : place ≠ place ++ [name] := by
    simp
  -- a directory is not replaced, so it stands above whatever stood below it
  have hkept : ∀ other, t.node? other = some .directory →
      (t.put (place ++ [name]) node).node? other = some .directory := by
    intro other hother
    have hne : other ≠ place ++ [name] := by
      rintro rfl
      exact hplace hother
    rwa [node?_put_of_ne hne]
  intro other part hsome
  by_cases heq : other ++ [part] = place ++ [name]
  · obtain ⟨rfl, -⟩ := List.append_inj' heq rfl
    exact hkept other habove
  · rw [node?_put_of_ne heq] at hsome
    exact hkept other (h other part hsome)

/-- A step from a directory leads to a directory or to a place in it. -/
theorem IsTree.node?_step (h : t.IsTree) {here : List String}
    (hhere : t.node? here = some .directory) (part : String) :
    t.node? (step here part) = some .directory ∨ step here part = here ++ [part] := by
  unfold FileTree.step
  split
  · exact .inr rfl
  split
  · exact .inl hhere
  split
  · exact .inr rfl
  next =>
    left
    rcases List.eq_nil_or_concat here with rfl | ⟨above, name, rfl⟩
    · exact hhere
    · rw [List.concat_eq_append, List.dropLast_concat]
      rw [List.concat_eq_append] at hhere
      exact h above name (by simp [hhere])

theorem IsTree.makeDirectories (h : t.IsTree) {here : List String}
    (hhere : t.node? here = some .directory) (parts : List String) :
    (t.makeDirectories here parts).1.IsTree := by
  -- by induction on the names, for the tree that the steps before leave
  induction parts generalizing t here with
  | nil => exact h
  | cons part rest ih =>
    rw [FileTree.makeDirectories]
    split
    · exact h
    · cases hnext : t.node? (step here part) with
      | none =>
        have hstep : step here part = here ++ [part] := by
          rcases h.node?_step hhere part with hdirectory | hbelow
          · rw [hnext] at hdirectory
            cases hdirectory
          · exact hbelow
        have hnew : t.node? (step here part) ≠ some .directory := by
          simp [hnext]
        -- the new directory stands in the one that was stepped from
        have hput : (t.put (step here part) .directory).IsTree := by
          rw [hstep] at hnew ⊢
          exact h.put hhere hnew .directory
        simp only [hnext]
        exact ih hput (node?_put_self (isOutside_of_node? hnew) .directory)
      | some node =>
        cases node with
        | directory =>
          simp only [hnext]
          exact ih h hnext
        | file octets =>
          simp only [hnext]
          exact h

theorem node?_start (t : FileTree) (p : Path) : t.node? (start p) = some .directory := by
  unfold start
  split <;> rfl

/-- Making the directory of a file keeps a tree one. -/
theorem IsTree.makeParent (h : t.IsTree) (p : Path) : (t.makeParent p).1.IsTree := by
  rw [FileTree.makeParent]
  split
  · exact h.makeDirectories (t.node?_start p) _
  · exact h

/-- The place of a way that is no directory has a directory above it. -/
theorem IsTree.above_of_walk (h : t.IsTree) {here target parts : List String}
    (hhere : t.node? here = some .directory) (htarget : t.node? target ≠ some .directory)
    (hwalk : t.walk here parts = .ok target) :
    ∃ above name, target = above ++ [name] ∧ t.node? above = some .directory := by
  induction parts generalizing here with
  | nil =>
    cases hwalk
    exact absurd hhere htarget
  | cons part rest ih =>
    obtain ⟨-, -, hrest⟩ := walk_cons_ok.mp hwalk
    cases rest with
    | nil =>
      cases hrest
      rcases h.node?_step hhere part with hdirectory | hbelow
      · exact absurd hdirectory htarget
      · exact ⟨here, part, hbelow, hhere⟩
    | cons next more => exact ih (walk_cons_ok.mp hrest).1 hrest

/-- Changing a file keeps a tree one. -/
theorem IsTree.changeFile (h : t.IsTree) {change : List Octet → List Octet}
    (hchange : t.changeFile p change = .ok u) : u.IsTree := by
  obtain ⟨target, hplace, hnode⟩ := place_of_changeFile hchange
  rw [changeFile_ok hplace hnode] at hchange
  cases hchange
  obtain ⟨-, hwalk⟩ := place_eq_ok.mp hplace
  obtain ⟨above, name, rfl, habove⟩ := h.above_of_walk (t.node?_start p) hnode hwalk
  exact h.put habove hnode _

section Appending

variable {settings : Settings}

theorem IsTree.appendRecord (h : t.IsTree) (p : Path) (record : Raw) :
    (t.appendRecord settings p record).1.IsTree := by
  have hmade := h.makeParent p
  rw [FileTree.appendRecord]
  split
  next v f hparent =>
    rw [hparent] at hmade
    exact hmade
  next v hparent =>
    rw [hparent] at hmade
    unfold extend
    split
    · exact hmade
    · -- however much of the row is written, the file is where it was
      dsimp only
      split
      next w hchange => exact hmade.changeFile hchange
      next => exact hmade

theorem IsTree.appendRow (h : t.IsTree) (p : Path) (record : Raw) :
    (t.appendRow settings p record).1.IsTree := by
  unfold FileTree.appendRow
  split
  · exact h
  · split
    · exact h
    · have happended : (t.appendRecord settings p record).1.IsTree := h.appendRecord p record
      split
      next heq =>
        rw [heq] at happended
        exact happended
      next heq =>
        rw [heq] at happended
        exact happended

/-- **Appending rows keeps a tree one**, also up to a row that fails. -/
theorem IsTree.appendRows (h : t.IsTree) (p : Path) (records : List Raw) :
    (t.appendRows settings p records).1.IsTree := by
  -- by induction on the records, for the tree that those before leave
  induction records generalizing t with
  | nil => exact h
  | cons record rest ih =>
    have hrow : (t.appendRow settings p record).1.IsTree := h.appendRow p record
    rw [FileTree.appendRows]
    split
    next heq =>
      rw [heq] at hrow
      exact hrow
    next v ref heq =>
      rw [heq] at hrow
      have hrest := ih hrow
      split
      next heq =>
        rw [heq] at hrest
        exact hrest
      next heq =>
        rw [heq] at hrest
        exact hrest

end Appending

/-! ## §2 Missing files -/

/-- Making directories makes no file. -/
theorem node?_of_makeDirectories {here parts place : List String} {octets : List Octet}
    (h : (t.makeDirectories here parts).1.node? place = some (.file octets)) :
    t.node? place = some (.file octets) := by
  induction parts generalizing t here with
  | nil => exact h
  | cons part rest ih =>
    rw [FileTree.makeDirectories] at h
    split at h
    · exact h
    · cases hnext : t.node? (step here part) with
      | none =>
        simp only [hnext] at h
        have hput := ih h
        have hnew : t.node? (step here part) ≠ some .directory := by
          simp [hnext]
        have hne : place ≠ step here part := by
          rintro rfl
          rw [node?_put_self (isOutside_of_node? hnew)] at hput
          cases hput
        rwa [node?_put_of_ne hne] at hput
      | some node =>
        cases node with
        | directory =>
          simp only [hnext] at h
          exact ih h
        | file octets =>
          simp only [hnext] at h
          exact h

theorem node?_of_makeParent {place : List String} {octets : List Octet}
    (h : (t.makeParent p).1.node? place = some (.file octets)) :
    t.node? place = some (.file octets) := by
  rw [FileTree.makeParent] at h
  split at h
  · exact node?_of_makeDirectories h
  · exact h

/-- A way without steps upward leads down along its names. -/
theorem walk_down {here target parts : List String} (hdown : Path.upward ∉ parts)
    (h : t.walk here parts = .ok target) : target = here ++ parts := by
  induction parts generalizing here with
  | nil =>
    cases h
    exact (List.append_nil _).symm
  | cons part rest ih =>
    obtain ⟨hpart, hrest⟩ := not_or.mp (List.mem_cons.not.mp hdown)
    obtain ⟨-, -, hwalk⟩ := walk_cons_ok.mp h
    have hstep : step here part = here ++ [part] := by
      rw [FileTree.step, if_pos (bne_iff_ne.mpr (Ne.symm hpart))]
    rw [hstep] at hwalk
    rw [ih hrest hwalk, List.append_assoc]
    rfl

/-- Above whatever stands below a place, a directory stands there. -/
theorem IsTree.node?_above (h : t.IsTree) {here : List String} (part : String)
    (rest : List String) (hsome : t.node? (here ++ part :: rest) ≠ none) :
    t.node? here = some .directory := by
  -- by induction on the names below from the last one, which is taken off in each step
  induction rest using List.reverseRecOn with
  | nil => exact h here part hsome
  | append_singleton rest name ih =>
    apply ih
    rw [h (here ++ part :: rest) name (by simpa using hsome)]
    simp

/-- A way down to something can be gone, if no name on it is too long. -/
theorem IsTree.walk_of_node? (h : t.IsTree) {here parts : List String}
    (hdown : Path.upward ∉ parts) (hshort : ∀ part ∈ parts, isLongName part = false)
    (hsome : t.node? (here ++ parts) ≠ none) : t.walk here parts = .ok (here ++ parts) := by
  induction parts generalizing here with
  | nil => rw [List.append_nil, walk]
  | cons part rest ih =>
    obtain ⟨hpart, hrest⟩ := not_or.mp (List.mem_cons.not.mp hdown)
    obtain ⟨hname, hnames⟩ := List.forall_mem_cons.mp hshort
    have hstep : step here part = here ++ [part] := by
      rw [FileTree.step, if_pos (bne_iff_ne.mpr (Ne.symm hpart))]
    have hassoc : here ++ part :: rest = (here ++ [part]) ++ rest := by
      simp
    refine walk_cons_ok.mpr ⟨h.node?_above part rest hsome, hname, ?_⟩
    rw [hstep, hassoc]
    rw [hassoc] at hsome
    exact ih hrest hnames hsome

/-- A missing file without a step upward on its way is not found once its directories are made. -/
theorem IsTree.read_makeParent_ne (h : t.IsTree) (hdown : Path.upward ∉ p.parts)
    (hmissing : t.exists? p = .ok false) (octets : List Octet) :
    (t.makeParent p).1.read p ≠ .ok octets := by
  intro hread
  obtain ⟨target, hplace, hfile⟩ := read_eq_ok.mp hread
  obtain ⟨hspelling, hwalk⟩ := place_eq_ok.mp hplace
  obtain rfl := walk_down hdown hwalk
  -- the file was there before, so its way could be gone
  have hbefore := node?_of_makeParent hfile
  have hsome : t.node? (start p ++ p.parts) ≠ none := by
    simp [hbefore]
  have hway := h.walk_of_node? hdown (isLongName_of_walk hwalk) hsome
  have hfound := exists?_of_read (read_eq_ok.mpr ⟨_, place_eq_ok.mpr ⟨hspelling, hway⟩, hbefore⟩)
  rw [hmissing] at hfound
  cases hfound

/-- **A missing file is fresh** if there is no step upward on its way. -/
theorem IsTree.isFresh (h : t.IsTree) (hdown : Path.upward ∉ p.parts)
    (hmissing : t.exists? p = .ok false) : t.IsFresh p :=
  isFresh_of_read_ne (h.read_makeParent_ne hdown hmissing)

end AnnoTree.FileTree
