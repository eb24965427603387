import AnnoTree.Proofs.Loading.Acceptance
import AnnoTree.Proofs.Order.Laws

/-!
# What building and loading sort

Building from raw values and loading from stored forms come to one thing for parameters: those that
were given, if any are known, are sorted. Each of the two is taken apart here once, so that nothing
else has to look at its steps.

## Main definitions

- `Annot.Sorts`: an annotation of given parameters, which are sorted.

## Main statements

- `Annot.ofRaw_sorts`, `Annot.load_sorts`: building and loading sort what was given.
- `Annot.Sorts.known_sorted`: sorting again changes nothing.
-/

namespace AnnoTree

variable {settings : Settings}

/-! ## §1 Sorted parameters -/

/-- An annotation of given parameters, if any are known, which are sorted. -/
inductive Annot.Sorts (settings : Settings) : Option (List Parameter) → Annot → Prop where
  | unknown (name : Str) : Annot.Sorts settings none ⟨name, none⟩
  | sorted (name : Str) {given kept : List Parameter}
      (result : Parameter.sorted settings given = .ok kept) :
      Annot.Sorts settings (some given) ⟨name, some kept⟩

/-- Parameters that have been sorted stay as they are when they are sorted again. -/
theorem Annot.Sorts.known_sorted {given : Option (List Parameter)} {a : Annot}
    (h : a.Sorts settings given) : Parameter.sorted settings a.known = .ok a.known := by
  cases h with
  | unknown => rfl
  | sorted _ result => exact Parameter.sorted_idem result

theorem Annot.sorts_of_ofParameters {name : Str} {ps : List Parameter} {a : Annot}
    (h : Annot.ofParameters settings name ps = .ok a) : a.Sorts settings (some ps) := by
  obtain ⟨kept, hsorted, rfl⟩ := map_eq_ok.mp h
  exact .sorted name hsorted

/-! ## §2 Building -/

theorem sorts_of_sortedOfRaw {name : Str} {raw : Raw} {parameters : Option (List Parameter)}
    (h : Parameter.sortedOfRaw settings raw = .ok parameters) :
    ∃ given, Parameter.listOfRaw settings raw = .ok given ∧
      Annot.Sorts settings given ⟨name, parameters⟩ := by
  obtain ⟨given, hlist, h⟩ := bind_eq_ok.mp h
  cases given with
  | none =>
    cases h
    exact ⟨none, hlist, .unknown name⟩
  | some given =>
    obtain ⟨kept, hsorted, hkept⟩ := map_eq_ok.mp h
    cases hkept
    exact ⟨some given, hlist, .sorted name (liftWalk_eq_ok.mp hsorted)⟩

/-- Nothing is known of the parameters exactly if nothing was given for them. -/
theorem Parameter.listOfRaw_eq_none_iff {raw : Raw} {given : Option (List Parameter)}
    (h : Parameter.listOfRaw settings raw = .ok given) : given = none ↔ raw = .null := by
  have hsome : ∀ {r : Except Failure (List Parameter)}, r.map some = .ok given → given ≠ none := by
    intro r hr
    obtain ⟨ps, -, rfl⟩ := map_eq_ok.mp hr
    exact Option.some_ne_none ps
  unfold Parameter.listOfRaw at h
  split at h
  case h_1 =>
    cases h
    exact iff_of_true rfl rfl
  case h_2 => exact iff_of_false (hsome h) nofun
  case h_3 hnull _ =>
    refine iff_of_false ?_ hnull
    split at h
    · exact hsome h
    · cases h

/-- A fault of the name or of the parameters leaves no annotation. -/
theorem Annot.ofRaw_eq_ok {name raw : Raw} {a : Annot} :
    Annot.ofRaw settings name raw = .ok a ↔
      textField "name" name = .ok a.name ∧
        Parameter.sortedOfRaw settings raw = .ok a.parameters := by
  obtain ⟨n, parameters⟩ := a
  simp only [Annot.ofRaw, bind_eq_ok, mapError_eq_ok, bothFields_eq_ok, Annot.mk.injEq]
  constructor
  · rintro ⟨sorted, hsorted, n, parameters, hnamed, rfl, rfl, rfl⟩
    exact ⟨hnamed, fieldOf_eq_ok.mp hsorted⟩
  · rintro ⟨hnamed, hsorted⟩
    exact ⟨.ok parameters, fieldOf_eq_ok.mpr hsorted, n, parameters, hnamed, rfl, rfl, rfl⟩

/-- **Building** sorts the parameters given. -/
theorem Annot.ofRaw_sorts {name raw : Raw} {a : Annot}
    (h : Annot.ofRaw settings name raw = .ok a) :
    ∃ given, Parameter.listOfRaw settings raw = .ok given ∧ a.Sorts settings given := by
  obtain ⟨n, parameters⟩ := a
  exact sorts_of_sortedOfRaw (Annot.ofRaw_eq_ok.mp h).2

/-! ## §3 Loading -/

/-- **Loading** sorts the parameters that are stored. -/
theorem Annot.load_sorts {depth : ℤ} {stored : Json} {a : Annot}
    (h : Annot.load settings depth stored = .ok a) :
    ∃ entries given, stored = .object entries ∧
      Parameter.loadField settings depth (fieldOrNull "parameters" entries) = .ok given ∧
      a.Sorts settings given := by
  cases stored with
  | object entries =>
    rw [Annot.load, Annot.loadParameters_eq] at h
    split at h
    · cases h
    split at h
    case h_2 => cases h
    next name _ =>
      split at h
      · cases h
      obtain ⟨-, -, h⟩ := bind_eq_ok.mp h
      obtain ⟨given, hgiven, h⟩ := bind_eq_ok.mp h
      refine ⟨entries, given, rfl, hgiven, ?_⟩
      cases given with
      | none =>
        cases h
        exact .unknown name
      | some ps => exact Annot.sorts_of_ofParameters (liftWalk_eq_ok.mp h)
  | _ => cases h

/-- Nothing is known of the parameters exactly if none are stored. -/
theorem Parameter.loadField_eq_none_iff {depth : ℤ} {stored : Json}
    {given : Option (List Parameter)} (h : Parameter.loadField settings depth stored = .ok given) :
    given = none ↔ stored = .null := by
  cases stored with
  | null =>
    cases h
    exact iff_of_true rfl rfl
  | array items =>
    obtain ⟨ps, -, rfl⟩ := map_eq_ok.mp h
    exact iff_of_false (Option.some_ne_none ps) nofun
  | _ => cases h

end AnnoTree
