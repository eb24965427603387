import AnnoTree.Value.Basic

/-!
# Values as trees

The levels of a tree, counted without any walk of the library: a root has the level it is given,
items of an array are one level below the array, the value of a parameter is at the level of its
annotation, and an annotation held as a value is one level below its place.

## Main definitions

- `Value.levels`, `Annot.levels`: the levels of the arrays and annotations of a tree.
- `Value.Fits`, `Annot.Fits`: no level of a tree is beyond a limit.
- `Value.annots`, `Annot.annots`: the annotations of a tree.
- `TreeCases`: what an induction over values and annotations has to show.
-/

namespace AnnoTree

/-! ## §1 Levels -/

mutual

/-- The levels of the arrays and annotations of a value whose root is at a level. -/
def Value.levels (depth : Nat) : Value → List Nat
  | .array items => depth :: Value.levelsList (depth + 1) items
  | .annot a => Annot.levels (depth + 1) a
  | .scalar _ => []
  | .string _ => []
  | .enumConst _ => []
  | .classLiteral _ => []
  | .absent => []
termination_by structural v => v

/-- The levels in values at a level. -/
def Value.levelsList (depth : Nat) : List Value → List Nat
  | [] => []
  | v :: rest => Value.levels depth v ++ Value.levelsList depth rest
termination_by structural vs => vs

/-- The levels of an annotation at a level and of what it holds. -/
def Annot.levels (depth : Nat) : Annot → List Nat
  | ⟨_, none⟩ => [depth]
  | ⟨_, some parameters⟩ => depth :: Parameter.levelsList depth parameters
termination_by structural a => a

/-- The levels in the value of a parameter at a level. -/
def Parameter.levels (depth : Nat) : Parameter → List Nat
  | ⟨_, value⟩ => Value.levels depth value
termination_by structural p => p

/-- The levels in the values of parameters at a level. -/
def Parameter.levelsList (depth : Nat) : List Parameter → List Nat
  | [] => []
  | p :: rest => Parameter.levels depth p ++ Parameter.levelsList depth rest
termination_by structural ps => ps

end

theorem Value.mem_levelsList {depth n : Nat} {vs : List Value} :
    n ∈ Value.levelsList depth vs ↔ ∃ v ∈ vs, n ∈ v.levels depth := by
  induction vs with
  | nil => simp [Value.levelsList]
  | cons v rest ih => simp [Value.levelsList, ih]

theorem Parameter.mem_levelsList {depth n : Nat} {ps : List Parameter} :
    n ∈ Parameter.levelsList depth ps ↔ ∃ p ∈ ps, n ∈ p.value.levels depth := by
  induction ps with
  | nil => simp [Parameter.levelsList]
  | cons p rest ih =>
    obtain ⟨name, value⟩ := p
    simp [Parameter.levelsList, Parameter.levels, ih]

theorem Annot.mem_levels {depth n : Nat} {a : Annot} :
    n ∈ a.levels depth ↔ n = depth ∨ ∃ p ∈ a.known, n ∈ p.value.levels depth := by
  obtain ⟨name, _ | parameters⟩ := a
  · simp [Annot.levels, Annot.known]
  · simp [Annot.levels, Annot.known, Parameter.mem_levelsList]

/-! ## §2 Fitting a limit -/

/-- No array or annotation of a value is beyond the limit. -/
def Value.Fits (limit depth : Nat) (v : Value) : Prop :=
  ∀ n ∈ v.levels depth, n ≤ limit

/-- Neither an annotation nor an array or annotation in it is beyond the limit. -/
def Annot.Fits (limit depth : Nat) (a : Annot) : Prop :=
  ∀ n ∈ a.levels depth, n ≤ limit

section Fits

variable {limit depth : Nat}

instance (v : Value) : Decidable (v.Fits limit depth) := by
  unfold Value.Fits
  infer_instance

instance (a : Annot) : Decidable (a.Fits limit depth) := by
  unfold Annot.Fits
  infer_instance

@[simp] theorem Value.fits_scalar (s : Scalar) : (Value.scalar s).Fits limit depth := by
  simp [Value.Fits, Value.levels]

@[simp] theorem Value.fits_string (t : Str) : (Value.string t).Fits limit depth := by
  simp [Value.Fits, Value.levels]

@[simp] theorem Value.fits_enumConst (ref : EnumConst) :
    (Value.enumConst ref).Fits limit depth := by
  simp [Value.Fits, Value.levels]

@[simp] theorem Value.fits_classLiteral (ref : ClassLiteral) :
    (Value.classLiteral ref).Fits limit depth := by
  simp [Value.Fits, Value.levels]

@[simp] theorem Value.fits_absent : Value.absent.Fits limit depth := by
  simp [Value.Fits, Value.levels]

@[simp] theorem Value.fits_array {items : List Value} :
    (Value.array items).Fits limit depth ↔
      depth ≤ limit ∧ ∀ v ∈ items, v.Fits limit (depth + 1) := by
  simp only [Value.Fits, Value.levels, List.forall_mem_cons, Value.mem_levelsList]
  constructor
  · rintro ⟨h, hitems⟩
    exact ⟨h, fun v hv n hn => hitems n ⟨v, hv, hn⟩⟩
  · rintro ⟨h, hitems⟩
    exact ⟨h, fun n ⟨v, hv, hn⟩ => hitems v hv n hn⟩

@[simp] theorem Value.fits_annot {a : Annot} :
    (Value.annot a).Fits limit depth ↔ a.Fits limit (depth + 1) := by
  simp [Value.Fits, Annot.Fits, Value.levels]

theorem Annot.fits_iff {a : Annot} :
    a.Fits limit depth ↔ depth ≤ limit ∧ ∀ p ∈ a.known, p.value.Fits limit depth := by
  simp only [Annot.Fits, Value.Fits, Annot.mem_levels]
  constructor
  · intro h
    exact ⟨h depth (.inl rfl), fun p hp n hn => h n (.inr ⟨p, hp, hn⟩)⟩
  · rintro ⟨h, hparameters⟩ n (rfl | ⟨p, hp, hn⟩)
    · exact h
    · exact hparameters p hp n hn

end Fits

/-! ## §3 The annotations of a tree -/

mutual

/-- The annotations of a value, at any depth. -/
def Value.annots : Value → List Annot
  | .array items => Value.annotsList items
  | .annot a => Annot.annots a
  | .scalar _ => []
  | .string _ => []
  | .enumConst _ => []
  | .classLiteral _ => []
  | .absent => []
termination_by structural v => v

/-- The annotations of values. -/
def Value.annotsList : List Value → List Annot
  | [] => []
  | v :: rest => Value.annots v ++ Value.annotsList rest
termination_by structural vs => vs

/-- An annotation and those in the values of its parameters, at any depth. -/
def Annot.annots : Annot → List Annot
  | ⟨name, none⟩ => [⟨name, none⟩]
  | ⟨name, some parameters⟩ => ⟨name, some parameters⟩ :: Parameter.annotsList parameters
termination_by structural a => a

/-- The annotations of the value of a parameter. -/
def Parameter.annots : Parameter → List Annot
  | ⟨_, value⟩ => Value.annots value
termination_by structural p => p

/-- The annotations of the values of parameters. -/
def Parameter.annotsList : List Parameter → List Annot
  | [] => []
  | p :: rest => Parameter.annots p ++ Parameter.annotsList rest
termination_by structural ps => ps

end

theorem Value.mem_annots_array {a : Annot} {items : List Value} :
    a ∈ (Value.array items).annots ↔ ∃ v ∈ items, a ∈ v.annots := by
  simp only [Value.annots]
  induction items with
  | nil => simp [Value.annotsList]
  | cons v rest ih => simp [Value.annotsList, ih]

theorem Annot.mem_annots {a b : Annot} :
    b ∈ a.annots ↔ b = a ∨ ∃ p ∈ a.known, b ∈ p.value.annots := by
  have hlist : ∀ ps : List Parameter,
      b ∈ Parameter.annotsList ps ↔ ∃ p ∈ ps, b ∈ p.value.annots := by
    intro ps
    induction ps with
    | nil => simp [Parameter.annotsList]
    | cons p rest ih =>
      obtain ⟨name, value⟩ := p
      simp [Parameter.annotsList, Parameter.annots, ih]
  obtain ⟨name, _ | parameters⟩ := a
  · simp [Annot.annots, Annot.known]
  · simp [Annot.annots, Annot.known, hlist]

/-! ## §4 Induction -/

/-- What an induction over values and annotations at once has to show. -/
structure TreeCases (P : Value → Prop) (Q : Annot → Prop) : Prop where
  scalar : ∀ s, P (.scalar s)
  string : ∀ t, P (.string t)
  array : ∀ items, (∀ v ∈ items, P v) → P (.array items)
  enumConst : ∀ ref, P (.enumConst ref)
  classLiteral : ∀ ref, P (.classLiteral ref)
  annot : ∀ a, Q a → P (.annot a)
  absent : P .absent
  node : ∀ a : Annot, (∀ p ∈ a.known, P p.value) → Q a

namespace TreeCases

variable {P : Value → Prop} {Q : Annot → Prop}

mutual

private theorem ofValue (h : TreeCases P Q) : ∀ v, P v
  | .scalar s => h.scalar s
  | .string t => h.string t
  | .array items => h.array items (ofValues h items)
  | .enumConst ref => h.enumConst ref
  | .classLiteral ref => h.classLiteral ref
  | .annot a => h.annot a (ofAnnot h a)
  | .absent => h.absent
termination_by structural v => v

private theorem ofValues (h : TreeCases P Q) : ∀ vs : List Value, ∀ v ∈ vs, P v
  | [] => by simp
  | v :: rest => List.forall_mem_cons.mpr ⟨ofValue h v, ofValues h rest⟩
termination_by structural vs => vs

private theorem ofAnnot (h : TreeCases P Q) : ∀ a, Q a
  | ⟨name, none⟩ => h.node ⟨name, none⟩ (by simp [Annot.known])
  | ⟨name, some parameters⟩ =>
    h.node ⟨name, some parameters⟩ (by simpa [Annot.known] using ofParameters h parameters)
termination_by structural a => a

private theorem ofParameter (h : TreeCases P Q) : ∀ p : Parameter, P p.value
  | ⟨_, value⟩ => ofValue h value
termination_by structural p => p

private theorem ofParameters (h : TreeCases P Q) : ∀ ps : List Parameter, ∀ p ∈ ps, P p.value
  | [] => by simp
  | p :: rest => List.forall_mem_cons.mpr ⟨ofParameter h p, ofParameters h rest⟩
termination_by structural ps => ps

end

/-- Induction over all trees. -/
theorem all (h : TreeCases P Q) : (∀ v, P v) ∧ ∀ a, Q a :=
  ⟨h.ofValue, h.ofAnnot⟩

end TreeCases

/-! ## §5 Fitting at another level -/

private theorem fits_mono_cases (limit : Nat) :
    TreeCases
      (fun v => ∀ {low high : Nat}, low ≤ high → v.Fits limit high → v.Fits limit low)
      (fun a => ∀ {low high : Nat}, low ≤ high → a.Fits limit high → a.Fits limit low) where
  scalar _ := by simp
  string _ := by simp
  array items ih := by
    intro low high hle h
    rw [Value.fits_array] at h ⊢
    exact ⟨Nat.le_trans hle h.1, fun v hv => ih v hv (Nat.succ_le_succ hle) (h.2 v hv)⟩
  enumConst _ := by simp
  classLiteral _ := by simp
  annot a ih := by
    intro low high hle h
    rw [Value.fits_annot] at h ⊢
    exact ih (Nat.succ_le_succ hle) h
  absent := by simp
  node a ih := by
    intro low high hle h
    rw [Annot.fits_iff] at h ⊢
    exact ⟨Nat.le_trans hle h.1, fun p hp => ih p hp hle (h.2 p hp)⟩

theorem Value.Fits.mono {limit low high : Nat} {v : Value} (hle : low ≤ high)
    (h : v.Fits limit high) : v.Fits limit low :=
  (fits_mono_cases limit).all.1 v hle h

theorem Annot.Fits.mono {limit low high : Nat} {a : Annot} (hle : low ≤ high)
    (h : a.Fits limit high) : a.Fits limit low :=
  (fits_mono_cases limit).all.2 a hle h

end AnnoTree
