import AnnoTree.Proofs.Entries
import AnnoTree.Storage.FileTree
import Mathlib

/-!
# Files in a tree

What is put into a file is read back from it, for nothing on the way to a file is changed by it.
On the way to something that is there no directory has to be made, so making the directory of a
file does not change where its path leads or what stands there.

## Main definitions

- `FileTree.content`: what stands in a file, nothing if it cannot be read.
- `FileTree.IsFresh`: nothing is in a file once the directories on the way to it are made.
- `FileTree.CanWrite`: a file can be written, after the directories on the way to it are made.

## Main statements

- `FileTree.read_of_changeFile`: a changed file holds what it was changed to.
- `FileTree.makeParent_of_place`: on the way to a place that is found nothing is made.
- `FileTree.exists?_of_canWrite`: it can be told of a file that can be written whether it is there.
-/

namespace AnnoTree.FileTree

open AnnoTree.Text

variable {t : FileTree} {p : Path}

/-! ## §1 Walking -/

theorem walk_cons_ok {here target : List String} {part : String} {rest : List String} :
    t.walk here (part :: rest) = .ok target ↔
      t.node? here = some .directory ∧ isLongName part = false ∧
        t.walk (step here part) rest = .ok target := by
  rw [walk]
  cases hnode : t.node? here with
  | none => simp
  | some node =>
    cases node with
    | file octets => simp
    | directory =>
      cases hlong : isLongName part <;> simp

/-- No name on a way that was gone is too long. -/
theorem isLongName_of_walk {here target parts : List String}
    (h : t.walk here parts = .ok target) : ∀ part ∈ parts, isLongName part = false := by
  induction parts generalizing here with
  | nil => exact List.forall_mem_nil _
  | cons part rest ih =>
    obtain ⟨-, hlong, hrest⟩ := walk_cons_ok.mp h
    exact List.forall_mem_cons.mpr ⟨hlong, ih hrest⟩

/-- If no name is too long, walking does not fail for that. -/
theorem walk_ne_nameTooLong {here parts : List String}
    (h : ∀ part ∈ parts, isLongName part = false) : t.walk here parts ≠ .error .nameTooLong := by
  induction parts generalizing here with
  | nil => simp [walk]
  | cons part rest ih =>
    obtain ⟨hpart, hrest⟩ := List.forall_mem_cons.mp h
    rw [walk, hpart]
    cases t.node? here with
    | none => simp
    | some node =>
      cases node with
      | file octets => simp
      | directory => exact ih hrest

/-! ## §2 Putting -/

theorem node?_put_of_ne {here target : List String} (h : here ≠ target) (node : Node) :
    (t.put target node).node? here = t.node? here := by
  rw [node?, node?, put, Entries.get?_insert_of_ne h]

theorem node?_put_self {target : List String} (h : isOutside target = false) (node : Node) :
    (t.put target node).node? target = some node := by
  rw [node?, put, Entries.get?_insert_self, if_neg (ne_true_of_eq_false h)]

theorem isOutside_of_node? {target : List String} (h : t.node? target ≠ some .directory) :
    isOutside target = false := by
  by_contra houtside
  rw [Bool.not_eq_false] at houtside
  exact h (if_pos houtside)

/-- The way to a place that is no directory does not pass it, so it is not changed by what is put
there. -/
theorem walk_put {here target parts : List String} (htarget : t.node? target ≠ some .directory)
    (node : Node) (h : t.walk here parts = .ok target) :
    (t.put target node).walk here parts = .ok target := by
  -- by induction on the names: every place on the way is a directory, so not the target
  induction parts generalizing here with
  | nil => exact h
  | cons part rest ih =>
    obtain ⟨hhere, hlong, hrest⟩ := walk_cons_ok.mp h
    have hne : here ≠ target := by
      rintro rfl
      exact htarget hhere
    refine walk_cons_ok.mpr ⟨?_, hlong, ih hrest⟩
    rw [node?_put_of_ne hne, hhere]

theorem place_eq_ok {target : List String} :
    t.place p = .ok target ↔ checkSpelling p = .ok () ∧ t.walk (start p) p.parts = .ok target := by
  rw [place]
  cases checkSpelling p with
  | error f => simp [bind, Except.bind]
  | ok u => simp [bind, Except.bind]

theorem place_put {target : List String} (htarget : t.node? target ≠ some .directory)
    (node : Node) (h : t.place p = .ok target) : (t.put target node).place p = .ok target := by
  obtain ⟨hspelling, hwalk⟩ := place_eq_ok.mp h
  exact place_eq_ok.mpr ⟨hspelling, walk_put htarget node hwalk⟩

/-! ## §3 Reading -/

theorem look_eq_ok {node : Node} :
    t.look p = .ok node ↔ ∃ target, t.place p = .ok target ∧ t.node? target = some node := by
  rw [look]
  cases hplace : t.place p with
  | error f => simp [bind, Except.bind]
  | ok target =>
    cases hnode : t.node? target with
    | none => simp [bind, Except.bind, hnode, throw, throwThe, MonadExceptOf.throw]
    | some node => simp [bind, Except.bind, hnode, pure, Except.pure]

theorem read_eq_ok {octets : List Octet} :
    t.read p = .ok octets ↔
      ∃ target, t.place p = .ok target ∧ t.node? target = some (.file octets) := by
  rw [← look_eq_ok, read]
  cases hlook : t.look p with
  | error f => simp [bind, Except.bind]
  | ok node =>
    cases node with
    | directory => simp [bind, Except.bind, throw, throwThe, MonadExceptOf.throw]
    | file octets => simp [bind, Except.bind, pure, Except.pure]

/-- What stands in a file; nothing if there is none that can be read. -/
def content (t : FileTree) (p : Path) : List Octet :=
  (t.read p).toOption.getD []

theorem content_of_read {octets : List Octet} (h : t.read p = .ok octets) :
    t.content p = octets := by
  rw [content, h]
  rfl

theorem content_of_node? {target : List String} (hplace : t.place p = .ok target)
    (hnode : t.node? target = none) : t.content p = [] := by
  cases hread : t.read p with
  | error f =>
    rw [content, hread]
    rfl
  | ok octets =>
    -- nothing can be read at a place at which nothing stands
    obtain ⟨other, hother, hfile⟩ := read_eq_ok.mp hread
    rw [hplace] at hother
    cases hother
    rw [hnode] at hfile
    cases hfile

theorem exists?_of_read {octets : List Octet} (h : t.read p = .ok octets) :
    t.exists? p = .ok true := by
  obtain ⟨target, hplace, hnode⟩ := read_eq_ok.mp h
  rw [exists?, look_eq_ok.mpr ⟨target, hplace, hnode⟩]

/-! ## §4 Changing a file -/

variable {change : List Octet → List Octet}

/-- A file can be changed if its place is found and is not that of a directory. -/
theorem changeFile_ok {target : List String} (hplace : t.place p = .ok target)
    (hnode : t.node? target ≠ some .directory) :
    t.changeFile p change = .ok (t.put target (.file (change (t.content p)))) := by
  rw [changeFile, hplace]
  cases hfound : t.node? target with
  | none =>
    rw [content_of_node? hplace hfound]
    simp [bind, Except.bind, hfound, pure, Except.pure]
  | some node =>
    cases node with
    | directory => exact absurd hfound hnode
    | file octets =>
      rw [content_of_read (read_eq_ok.mpr ⟨target, hplace, hfound⟩)]
      simp [bind, Except.bind, hfound, pure, Except.pure]

theorem place_of_changeFile {u : FileTree} (h : t.changeFile p change = .ok u) :
    ∃ target, t.place p = .ok target ∧ t.node? target ≠ some .directory := by
  rw [changeFile] at h
  cases hplace : t.place p with
  | error f =>
    rw [hplace] at h
    cases h
  | ok target =>
    refine ⟨target, rfl, ?_⟩
    intro hnode
    rw [hplace] at h
    simp only [bind, Except.bind, hnode] at h
    cases h

/-- **A changed file holds what it was changed to.** -/
theorem read_of_changeFile {u : FileTree} (h : t.changeFile p change = .ok u) :
    u.read p = .ok (change (t.content p)) := by
  obtain ⟨target, hplace, hnode⟩ := place_of_changeFile h
  rw [changeFile_ok hplace hnode] at h
  cases h
  refine read_eq_ok.mpr ⟨target, place_put hnode _ hplace, ?_⟩
  exact node?_put_self (isOutside_of_node? hnode) _

/-! ## §5 Making directories -/

theorem utf8ByteSize_intercalate_dropLast (separator : String) (names : List String) :
    (separator.intercalate names.dropLast).utf8ByteSize ≤
      (separator.intercalate names).utf8ByteSize := by
  induction names with
  | nil => exact Nat.le_refl _
  | cons name rest ih =>
    cases rest with
    | nil => exact Nat.zero_le _
    | cons other more =>
      cases more with
      | nil =>
        simp only [String.intercalate_cons_cons, String.intercalate_singleton,
          List.dropLast_cons_cons, List.dropLast_singleton, String.utf8ByteSize_append]
        omega
      | cons third more =>
        simp only [List.dropLast_cons_cons, String.intercalate_cons_cons,
          String.utf8ByteSize_append] at ih ⊢
        omega

/-- The directory of a path is spelled in no more octets, or by a lone full stop. -/
theorem utf8ByteSize_parent (p : Path) :
    p.parent.text.utf8ByteSize ≤ max 1 p.text.utf8ByteSize := by
  obtain ⟨anchor, parts⟩ := p
  have hjoin := utf8ByteSize_intercalate_dropLast "/" parts
  have hdot : Path.inPlace.utf8ByteSize = 1 := by
    decide
  cases parts with
  | nil => exact le_max_right _ _
  | cons name rest =>
    have htext : (Path.text ⟨anchor, name :: rest⟩) =
        anchor.text ++ "/".intercalate (name :: rest) := by
      cases anchor <;> rfl
    rw [htext, String.utf8ByteSize_append]
    cases hparts : (name :: rest).dropLast with
    | nil =>
      rw [Path.parent, hparts]
      cases anchor with
      | here =>
        rw [Path.text, hdot]
        exact le_max_left _ _
      | root => simp [Path.text]
      | doubleRoot => simp [Path.text]
    | cons first more =>
      rw [hparts] at hjoin
      have hparent : (Path.text ⟨anchor, first :: more⟩) =
          anchor.text ++ "/".intercalate (first :: more) := by
        cases anchor <;> rfl
      rw [Path.parent, hparts, hparent, String.utf8ByteSize_append]
      omega

theorem checkSpelling_parent (h : checkSpelling p = .ok ()) : checkSpelling p.parent = .ok () := by
  unfold checkSpelling at h ⊢
  have hsize := utf8ByteSize_parent p
  split at h
  · cases h
  split at h
  · cases h
  next hnul hlong =>
    have hnone : p.parent.hasNul = false := by
      rw [Bool.not_eq_true, Path.hasNul, List.any_eq_false] at hnul
      rw [Path.hasNul, List.any_eq_false]
      intro part hpart
      exact hnul part (List.mem_of_mem_dropLast hpart)
    have hshort : ¬Path.sizeBound ≤ p.parent.text.utf8ByteSize := by
      have hbound : Path.sizeBound = 4096 := rfl
      omega
    rw [hnone, if_neg Bool.false_ne_true, if_neg hshort]

/-- On a way that can be gone nothing is made. -/
theorem makeDirectories_of_walk {here target parts : List String}
    (h : t.walk here parts = .ok target) :
    t.makeDirectories here parts.dropLast = (t, .ok ()) := by
  -- by induction on the names: every place but the last is a directory already
  induction parts generalizing here with
  | nil => rfl
  | cons part rest ih =>
    obtain ⟨hhere, hlong, hrest⟩ := walk_cons_ok.mp h
    cases rest with
    | nil => rfl
    | cons next more =>
      have hnext := (walk_cons_ok.mp hrest).1
      rw [List.dropLast_cons_cons, makeDirectories, hlong, if_neg Bool.false_ne_true]
      simp only [hnext]
      exact ih hrest

/-- **On the way to a place that is found nothing is made.** -/
theorem makeParent_of_place {target : List String} (h : t.place p = .ok target) :
    t.makeParent p = (t, .ok ()) := by
  obtain ⟨hspelling, hwalk⟩ := place_eq_ok.mp h
  rw [makeParent, checkSpelling_parent hspelling]
  exact makeDirectories_of_walk hwalk

/-- On the way to a file that can be read nothing is made. -/
theorem makeParent_of_read {octets : List Octet} (h : t.read p = .ok octets) :
    t.makeParent p = (t, .ok ()) := by
  obtain ⟨target, hplace, -⟩ := read_eq_ok.mp h
  exact makeParent_of_place hplace

/-- Nothing is in a file once the directories on the way to it are made. -/
def IsFresh (t : FileTree) (p : Path) : Prop :=
  (t.makeParent p).1.content p = []

/-- Nothing is in an empty file. -/
theorem isFresh_of_read_nil (h : t.read p = .ok []) : t.IsFresh p := by
  rw [IsFresh, makeParent_of_read h]
  exact content_of_read h

/-- Nothing is in a file that cannot be read. -/
theorem isFresh_of_read_ne (h : ∀ octets, (t.makeParent p).1.read p ≠ .ok octets) :
    t.IsFresh p := by
  cases hread : (t.makeParent p).1.read p with
  | error f =>
    rw [IsFresh, content, hread]
    rfl
  | ok octets => exact absurd hread (h octets)

/-! ## §6 Writing -/

/-- A file can be written: its directory can be made, and no directory stands in its place. -/
def CanWrite (t : FileTree) (p : Path) : Prop :=
  (t.write p []).2 = .ok ()

theorem canWrite_iff :
    t.CanWrite p ↔ ∃ u target, t.makeParent p = (u, .ok ()) ∧ u.place p = .ok target ∧
      u.node? target ≠ some .directory := by
  rw [CanWrite, write]
  rcases hparent : t.makeParent p with ⟨u, f | ⟨⟨⟩⟩⟩
  · simp
  · constructor
    · intro h
      cases hchange : u.changeFile p fun _ => [] with
      | error f => simp [hchange] at h
      | ok v =>
        obtain ⟨target, hplace, hnode⟩ := place_of_changeFile hchange
        exact ⟨u, target, rfl, hplace, hnode⟩
    · rintro ⟨u', target, heq, hplace, hnode⟩
      cases heq
      simp only [changeFile_ok hplace hnode]

/-- A file that can be read can be written. -/
theorem canWrite_of_read {octets : List Octet} (h : t.read p = .ok octets) : t.CanWrite p := by
  obtain ⟨target, hplace, hnode⟩ := read_eq_ok.mp h
  refine canWrite_iff.mpr ⟨t, target, makeParent_of_place hplace, hplace, ?_⟩
  rw [hnode]
  simp

/-- **It can be told of a file that can be written whether it is there**, and then it can be
read. -/
theorem exists?_of_canWrite (h : t.CanWrite p) :
    t.exists? p = .ok false ∨ ∃ octets, t.read p = .ok octets := by
  obtain ⟨u, target, hparent, hplace, hnode⟩ := canWrite_iff.mp h
  obtain ⟨hspelling, hwalk⟩ := place_eq_ok.mp hplace
  cases hlook : t.look p with
  | ok node =>
    right
    obtain ⟨other, hother, hfound⟩ := look_eq_ok.mp hlook
    -- nothing is made on the way, so no directory stands there
    rw [makeParent_of_place hother] at hparent
    cases hparent
    rw [hplace] at hother
    cases hother
    cases node with
    | directory => exact absurd hfound hnode
    | file octets => exact ⟨octets, read_eq_ok.mpr ⟨target, hplace, hfound⟩⟩
  | error f =>
    left
    -- the one fault that is not an answer would stop writing too
    have hshort : f ≠ .nameTooLong := by
      rintro rfl
      rw [look, place, hspelling] at hlook
      cases hfound : t.walk (start p) p.parts with
      | error g =>
        simp only [bind, Except.bind, hfound, Except.error.injEq] at hlook
        rw [hlook] at hfound
        exact walk_ne_nameTooLong (isLongName_of_walk hwalk) hfound
      | ok other =>
        cases hnone : t.node? other with
        | none =>
          simp [bind, Except.bind, hfound, hnone, throw, throwThe, MonadExceptOf.throw] at hlook
        | some node =>
          simp [bind, Except.bind, hfound, hnone, pure, Except.pure] at hlook
    rw [exists?, hlook]
    cases f <;> first | rfl | exact absurd rfl hshort

end AnnoTree.FileTree
