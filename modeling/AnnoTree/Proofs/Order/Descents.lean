import AnnoTree.Annot.Check
import AnnoTree.Proofs.Order.Laws
import AnnoTree.Proofs.Order.Sorted

/-!
# The check of order

The check of order looks at neighbours only, from the left, and stops at the first two of which the
left one is greater. Since the order is transitive, where it finds none no parameter stands behind
a greater one at any distance.

## Main definitions

- `IsFirstDescent`: the first two neighbours in the wrong order.

## Main statements

- `Parameter.holds_eq`: relations of order between parameters that fit.
- `firstDescent?_cases`: the check finds the first descent, or there is no parameter out of place.
- `Check.run_parametersSorted_cases`: the check passes exactly on ascending parameters.
-/

namespace AnnoTree

variable {settings : Settings}

/-! ## §1 Relations between parameters that fit -/

section Relations

variable {p q : Parameter}

theorem Parameter.holds_eq (hp : p.value.Fits settings.maxDepth 0)
    (hq : q.value.Fits settings.maxDepth 0) (relation : Raw.OrderRelation) :
    (Raw.parameter p).holds settings relation (.parameter q) =
      .ok (relation.accepts ((p.fullKey settings).compare (q.fullKey settings))) := by
  have hcompare := (p.compare_spec settings q).ok ⟨hp, hq⟩
  simp only [Raw.holds, Raw.relate, Raw.order?, hcompare]
  rfl

theorem Parameter.holds_lessOrEqual (hp : p.value.Fits settings.maxDepth 0)
    (hq : q.value.Fits settings.maxDepth 0) :
    (Raw.parameter p).holds settings .lessOrEqual (.parameter q) =
      .ok (p.mayPrecede settings q) :=
  Parameter.holds_eq hp hq .lessOrEqual

/-- One parameter is greater than another exactly if it may not stand before it. -/
theorem Parameter.holds_greater (hp : p.value.Fits settings.maxDepth 0)
    (hq : q.value.Fits settings.maxDepth 0) :
    (Raw.parameter p).holds settings .greater (.parameter q) =
      .ok (!p.mayPrecede settings q) := by
  rw [Parameter.holds_eq hp hq, Parameter.mayPrecede]
  cases (p.fullKey settings).compare (q.fullKey settings) <;> rfl

end Relations

/-! ## §2 The first descent -/

/-- The first two neighbours of which the left one is greater, with the index of the left one. -/
structure IsFirstDescent (settings : Settings) (ps : List Parameter) (index : ℕ)
    (p q : Parameter) : Prop where
  left : ps[index]? = some p
  right : ps[index + 1]? = some q
  greater : (Raw.parameter p).holds settings .greater (.parameter q) = .ok true
  before : ∀ i < index, ∀ r s, ps[i]? = some r → ps[i + 1]? = some s →
    (Raw.parameter r).holds settings .greater (.parameter s) = .ok false

theorem IsFirstDescent.head {p q : Parameter} {rest : List Parameter}
    (h : (Raw.parameter p).holds settings .greater (.parameter q) = .ok true) :
    IsFirstDescent settings (p :: q :: rest) 0 p q where
  left := rfl
  right := rfl
  greater := h
  before i hi := absurd hi (Nat.not_lt_zero i)

/-- Another parameter in front that is not greater moves the first descent by one. -/
theorem IsFirstDescent.cons {first second p q : Parameter} {rest : List Parameter} {index : ℕ}
    (h : IsFirstDescent settings (second :: rest) index p q)
    (hfirst : (Raw.parameter first).holds settings .greater (.parameter second) = .ok false) :
    IsFirstDescent settings (first :: second :: rest) (index + 1) p q where
  left := h.left
  right := h.right
  greater := h.greater
  before i hi r s hr hs := by
    cases i with
    | zero =>
      cases hr
      cases hs
      exact hfirst
    | succ i => exact h.before i (Nat.lt_of_succ_lt_succ hi) r s hr hs

/-- What may stand before the first of sorted parameters may stand before all of them. -/
theorem Parameter.pairwise_cons_cons {p q : Parameter} {rest : List Parameter}
    (hpq : p.mayPrecede settings q = true)
    (hsorted : (q :: rest).Pairwise fun r s => r.mayPrecede settings s = true) :
    (p :: q :: rest).Pairwise fun r s => r.mayPrecede settings s = true := by
  refine List.pairwise_cons.mpr ⟨fun r hr => ?_, hsorted⟩
  rcases List.mem_cons.mp hr with rfl | hr
  · exact hpq
  · exact Parameter.mayPrecede_trans p q r hpq ((List.pairwise_cons.mp hsorted).1 r hr)

/-- **The check finds the first descent**, or there is no parameter out of place. -/
theorem firstDescent?_cases (index : ℕ) {ps : List Parameter}
    (hfits : ∀ p ∈ ps, p.value.Fits settings.maxDepth 0) :
    (firstDescent? settings index ps = .ok none ∧
        ps.Pairwise fun p q => p.mayPrecede settings q = true) ∨
      ∃ i p q, firstDescent? settings index ps = .ok (some (index + i, p, q)) ∧
        IsFirstDescent settings ps i p q := by
  induction ps generalizing index with
  | nil => exact .inl ⟨rfl, List.Pairwise.nil⟩
  | cons p rest ih =>
    cases rest with
    | nil => exact .inl ⟨rfl, List.pairwise_singleton _ p⟩
    | cons q rest =>
      obtain ⟨hp, hrest⟩ := List.forall_mem_cons.mp hfits
      have hq := hrest q List.mem_cons_self
      have hcompare := (p.compare_spec settings q).ok ⟨hp, hq⟩
      have hgreater := Parameter.holds_greater hp hq
      by_cases hle : p.mayPrecede settings q = true
      · -- the first two are in order, so the rest decides
        have hne := hle
        rw [Parameter.mayPrecede, bne_iff_ne] at hne
        have hstep : firstDescent? settings index (p :: q :: rest) =
            firstDescent? settings (index + 1) (q :: rest) := by
          rw [firstDescent?, hcompare]
          exact if_neg hne
        rw [hle, Bool.not_true] at hgreater
        rw [hstep]
        rcases ih (index + 1) hrest with ⟨hnone, hsorted⟩ | ⟨i, r, s, hsome, hdescent⟩
        · exact .inl ⟨hnone, Parameter.pairwise_cons_cons hle hsorted⟩
        · refine .inr ⟨i + 1, r, s, ?_, hdescent.cons hgreater⟩
          rw [hsome, Nat.add_assoc, Nat.add_comm 1 i]
      · rw [Bool.not_eq_true] at hle
        have heq := hle
        rw [Parameter.mayPrecede, bne_eq_false_iff_eq] at heq
        rw [hle, Bool.not_false] at hgreater
        refine .inr ⟨0, p, q, ?_, IsFirstDescent.head hgreater⟩
        rw [firstDescent?, hcompare]
        exact if_pos heq

/-- Two neighbours in the wrong order are out of place among all parameters. -/
theorem IsFirstDescent.not_pairwise {ps : List Parameter} {index : ℕ} {p q : Parameter}
    (h : IsFirstDescent settings ps index p q)
    (hfits : ∀ p ∈ ps, p.value.Fits settings.maxDepth 0) :
    ¬ps.Pairwise fun p q => p.mayPrecede settings q = true := by
  intro hsorted
  obtain ⟨hi, hp⟩ := List.getElem?_eq_some_iff.mp h.left
  obtain ⟨hj, hq⟩ := List.getElem?_eq_some_iff.mp h.right
  have hle := List.pairwise_iff_getElem.mp hsorted index (index + 1) hi hj (Nat.lt_succ_self index)
  rw [hp, hq] at hle
  have hgreater := h.greater
  rw [Parameter.holds_greater (hfits p (List.mem_of_getElem? h.left))
    (hfits q (List.mem_of_getElem? h.right)), hle] at hgreater
  cases hgreater

/-- In sorted parameters no two neighbours are in the wrong order. -/
theorem firstDescent?_of_pairwise (index : ℕ) {ps : List Parameter}
    (hfits : ∀ p ∈ ps, p.value.Fits settings.maxDepth 0)
    (hsorted : ps.Pairwise fun p q => p.mayPrecede settings q = true) :
    firstDescent? settings index ps = .ok none := by
  rcases firstDescent?_cases index hfits with ⟨hnone, -⟩ | ⟨i, p, q, -, hdescent⟩
  · exact hnone
  · exact absurd hsorted (hdescent.not_pairwise hfits)

/-! ## §3 The verdict -/

theorem Check.run_parametersSorted_of_pairwise {a : Annot}
    (hfits : ∀ p ∈ a.known, p.value.Fits settings.maxDepth 0)
    (hsorted : a.known.Pairwise fun p q => p.mayPrecede settings q = true) :
    Check.parametersSorted.run settings a = .ok (.sorted a.known.length) := by
  rw [Check.run, firstDescent?_of_pairwise 0 hfits hsorted]
  rfl

/-- **The verdict of the check of order**: it passes, and the parameters are in order, or it reports
the first descent. -/
theorem Check.run_parametersSorted_cases {a : Annot}
    (hfits : ∀ p ∈ a.known, p.value.Fits settings.maxDepth 0) :
    (Check.parametersSorted.run settings a = .ok (.sorted a.known.length) ∧
        a.known.Pairwise fun p q => p.mayPrecede settings q = true) ∨
      ∃ i p q, Check.parametersSorted.run settings a = .ok (.outOfOrder a.name i p.name q.name) ∧
        IsFirstDescent settings a.known i p q := by
  rcases firstDescent?_cases 0 hfits with ⟨hnone, hsorted⟩ | ⟨i, p, q, hsome, hdescent⟩
  · exact .inl ⟨Check.run_parametersSorted_of_pairwise hfits hsorted, hsorted⟩
  · refine .inr ⟨i, p, q, ?_, hdescent⟩
    rw [Check.run, hsome, Nat.zero_add]
    rfl

end AnnoTree
