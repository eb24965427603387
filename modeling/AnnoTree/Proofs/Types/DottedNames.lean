import AnnoTree.Proofs.Types.Modules

/-!
# Parts of dotted names

The name of a type is split at dots and dollar signs, and empty parts are left out. What comes out
are parts that have neither sign in them, and joined by dots they are split into the same parts
again, so that a module has one list of parts only.

## Main definitions

- `Modules.IsPart`: a text that is a part of a name.

## Main statements

- `Modules.areParts_partsOf`: what a name is split into are parts.
- `Modules.partsOf_dotted`: parts joined by dots are split into the same parts again.
- `Modules.dotted_inj`: two lists of parts that are joined to one name are the same.
-/

namespace AnnoTree

open AnnoTree.Text
open CodePoint (char)

/-- What stands between separators has no separator in it, and nothing that is not in the text. -/
theorem Text.of_mem_splitAt {separator : CodePoint} {cs part : List CodePoint}
    (h : part ∈ splitAt separator cs) : separator ∉ part ∧ ∀ c ∈ part, c ∈ cs := by
  induction cs generalizing part with
  | nil =>
    obtain rfl := List.mem_singleton.mp h
    exact ⟨List.not_mem_nil, fun c hc => absurd hc List.not_mem_nil⟩
  | cons d rest ih =>
    rw [splitAt] at h
    split at h
    case isTrue hsep =>
      rcases List.mem_cons.mp h with rfl | hmem
      · exact ⟨List.not_mem_nil, fun c hc => absurd hc List.not_mem_nil⟩
      · exact ⟨(ih hmem).1, fun c hc => List.mem_cons_of_mem _ ((ih hmem).2 c hc)⟩
    case isFalse hsep =>
      cases hsplit : splitAt separator rest with
      | nil => exact absurd hsplit (splitAt_ne_nil separator rest)
      | cons first more =>
        rw [hsplit] at h ih
        rcases List.mem_cons.mp h with rfl | hmem
        · -- the first part begins one character earlier
          obtain ⟨hnot, hsub⟩ := ih List.mem_cons_self
          refine ⟨fun hmem => ?_, fun c hc => ?_⟩
          · rcases List.mem_cons.mp hmem with heq | hmem
            · exact hsep heq.symm
            · exact hnot hmem
          · rcases List.mem_cons.mp hc with rfl | hc
            · exact List.mem_cons_self
            · exact List.mem_cons_of_mem _ (hsub c hc)
        · obtain ⟨hnot, hsub⟩ := ih (List.mem_cons_of_mem _ hmem)
          exact ⟨hnot, fun c hc => List.mem_cons_of_mem _ (hsub c hc)⟩

namespace Modules

variable {parts others above : List Str} {own part : Str}

/-! ## §1 Parts -/

/-- A part of a name is not empty, and has no dot and no dollar sign in it. -/
structure IsPart (part : Str) : Prop where
  ne_nil : part.toList ≠ []
  noDot : char '.' ∉ part.toList
  noDollar : char '$' ∉ part.toList

/-- All of some texts are parts. -/
def AreParts (parts : List Str) : Prop :=
  ∀ part ∈ parts, IsPart part

theorem areParts_append : AreParts (parts ++ others) ↔ AreParts parts ∧ AreParts others :=
  List.forall_mem_append

theorem areParts_singleton : AreParts [part] ↔ IsPart part :=
  List.forall_mem_singleton

theorem AreParts.front (h : AreParts parts) (hfront : others <+: parts) : AreParts others :=
  fun part hmem => h part (hfront.subset hmem)

/-- The characters of a name, with dots for dollar signs. -/
def plainChars (name : Str) : List CodePoint :=
  name.toList.map fun c => if c = char '$' then char '.' else c

theorem partsOf_eq (name : Str) :
    partsOf name = ((splitAt (char '.') (plainChars name)).filter (!·.isEmpty)).map Str.ofList :=
  rfl

theorem dollar_not_mem_plainChars (name : Str) : char '$' ∉ plainChars name := by
  rw [plainChars, List.mem_map]
  rintro ⟨c, -, hc⟩
  split at hc
  · cases hc
  · next hne => exact hne hc

/-- **What a name is split into are parts.** -/
theorem areParts_partsOf (name : Str) : AreParts (partsOf name) := by
  intro part hmem
  rw [partsOf_eq, List.mem_map] at hmem
  obtain ⟨cs, hcs, rfl⟩ := hmem
  obtain ⟨hsplit, hfull⟩ := List.mem_filter.mp hcs
  obtain ⟨hdot, hsub⟩ := of_mem_splitAt hsplit
  have hne : cs ≠ [] := by
    rintro rfl
    cases hfull
  refine ⟨?_, ?_, ?_⟩
  · rwa [Str.toList_ofList]
  · rwa [Str.toList_ofList]
  · rw [Str.toList_ofList]
    exact fun hdollar => dollar_not_mem_plainChars name (hsub _ hdollar)

/-! ## §2 Joining parts -/

theorem plainChars_of_not_mem {name : Str} (h : char '$' ∉ name.toList) :
    plainChars name = name.toList := by
  rw [plainChars]
  refine (List.map_congr_left fun c hc => ?_).trans (List.map_id _)
  rw [if_neg (by rintro rfl; exact h hc), id]

theorem plainChars_dotted_cons (first second : Str) (more : List Str) :
    plainChars (dotted (first :: second :: more)) =
      plainChars first ++ char '.' :: plainChars (dotted (second :: more)) := by
  have htext : dotted (first :: second :: more) = first ++ "." ++ dotted (second :: more) := rfl
  rw [htext]
  simp [plainChars]

/-- **Parts joined by dots are split into the same parts again.** -/
theorem partsOf_dotted (h : AreParts parts) : partsOf (dotted parts) = parts := by
  -- by induction on the parts, the last of which has no dot behind it
  induction parts with
  | nil => rfl
  | cons first rest ih =>
    have hfirst := h first List.mem_cons_self
    have hrest := ih fun part hmem => h part (List.mem_cons_of_mem _ hmem)
    have hplain := plainChars_of_not_mem hfirst.noDollar
    have hfull : (!first.toList.isEmpty) = true := by
      rw [Bool.not_eq_true', List.isEmpty_eq_false_iff]
      exact hfirst.ne_nil
    cases rest with
    | nil =>
      have hdotted : dotted [first] = first := rfl
      rw [hdotted, partsOf_eq, hplain, splitAt_of_not_mem hfirst.noDot, List.filter_singleton,
        hfull]
      exact congrArg (fun text => [text]) Str.ofList_toList
    | cons second more =>
      rw [partsOf_eq] at hrest ⊢
      rw [plainChars_dotted_cons, hplain, splitAt_append hfirst.noDot,
        List.filter_cons, if_pos hfull, List.map_cons, hrest, Str.ofList_toList]

/-- Two lists of parts that are joined to one name are the same. -/
theorem dotted_inj (hparts : AreParts parts) (hothers : AreParts others)
    (h : dotted parts = dotted others) : parts = others := by
  rw [← partsOf_dotted hparts, h, partsOf_dotted hothers]

/-- A module below another one determines the other one and its own last part. -/
theorem dotted_concat_inj {own' : Str} (hparts : AreParts (parts ++ [own]))
    (hothers : AreParts (others ++ [own']))
    (h : dotted (parts ++ [own]) = dotted (others ++ [own'])) : parts = others ∧ own = own' := by
  obtain ⟨hfront, hlast⟩ := List.append_inj' (dotted_inj hparts hothers h) rfl
  exact ⟨hfront, List.singleton_injective hlast⟩

end Modules

end AnnoTree
