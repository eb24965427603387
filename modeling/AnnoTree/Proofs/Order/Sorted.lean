import AnnoTree.Annot.Building
import AnnoTree.Proofs.Nesting.Walks
import AnnoTree.Proofs.Order.Comparators

/-!
# Sorted parameters

Sorting parameters makes the key of each of them first, unless there is only one. What comes of it
is the stable sort by keys, and sorting that again changes nothing: parameters of equal keys stay
where they are.

## Main statements

- `Parameter.sorted_spec`: sorting gives the stable sort if the keys can be made.
- `Parameter.sorted_idem`: what has been sorted stays as it is.
- `Parameter.fullSort_ties`: tied parameters stay in the order in which they come.
- `Parameter.fullSort_eq_of_perm`: where only equal parameters are tied, sorting gives one list.
-/

namespace AnnoTree

open Std

variable {settings : Settings}

/-! ## §1 The order of keys -/

/-- Whether one parameter may stand before another one. -/
def Parameter.mayPrecede (settings : Settings) (p q : Parameter) : Bool :=
  (p.fullKey settings).compare (q.fullKey settings) != .gt

theorem Parameter.mayPrecede_iff {p q : Parameter} :
    p.mayPrecede settings q = true ↔
      ((p.fullKey settings).compare (q.fullKey settings)).isLE = true := by
  unfold Parameter.mayPrecede
  cases (p.fullKey settings).compare (q.fullKey settings) <;> decide

theorem Parameter.mayPrecede_trans (p q r : Parameter) (hpq : p.mayPrecede settings q = true)
    (hqr : q.mayPrecede settings r = true) : p.mayPrecede settings r = true := by
  rw [Parameter.mayPrecede_iff] at hpq hqr ⊢
  exact TransCmp.isLE_trans hpq hqr

/-- Of two keys one comes first, or they are the same. -/
theorem Parameter.mayPrecede_total (p q : Parameter) :
    (p.mayPrecede settings q || q.mayPrecede settings p) = true := by
  have hswap : (q.fullKey settings).compare (p.fullKey settings) =
      ((p.fullKey settings).compare (q.fullKey settings)).swap := OrientedCmp.eq_swap
  rw [Parameter.mayPrecede, Parameter.mayPrecede, hswap]
  cases (p.fullKey settings).compare (q.fullKey settings) <;> rfl

/-! ## §2 Sorting -/

/-- The sort by keys, whether or not they can be made. -/
def Parameter.fullSort (settings : Settings) (ps : List Parameter) : List Parameter :=
  ps.mergeSort (Parameter.mayPrecede settings)

theorem Parameter.fullSort_perm (ps : List Parameter) :
    (Parameter.fullSort settings ps).Perm ps :=
  List.mergeSort_perm ps (Parameter.mayPrecede settings)

theorem Parameter.fullSort_pairwise (ps : List Parameter) :
    (Parameter.fullSort settings ps).Pairwise fun p q => p.mayPrecede settings q = true :=
  List.pairwise_mergeSort Parameter.mayPrecede_trans Parameter.mayPrecede_total ps

theorem Parameter.fullSort_idem (ps : List Parameter) :
    Parameter.fullSort settings (Parameter.fullSort settings ps) =
      Parameter.fullSort settings ps :=
  List.mergeSort_of_pairwise (Parameter.fullSort_pairwise ps)

/-- Sorting looks at the values of two parameters or more, and at none of a single one. -/
theorem Parameter.sorted_spec (settings : Settings) (ps : List Parameter) :
    WalkSpec settings.maxDepth [.render]
      (ps.length ≤ 1 ∨ ∀ p ∈ ps, p.value.Fits settings.maxDepth 0)
      (Parameter.fullSort settings ps) (Parameter.sorted settings ps) := by
  match ps with
  | [] =>
    rw [Parameter.fullSort, List.mergeSort_nil]
    exact (WalkSpec.pure []).congr (by simp)
  | [p] =>
    rw [Parameter.fullSort, List.mergeSort_singleton]
    exact (WalkSpec.pure [p]).congr (by simp)
  | p :: q :: rest =>
    have hkeyed : ∀ r ∈ p :: q :: rest, WalkSpec settings.maxDepth [.render]
        (r.value.Fits settings.maxDepth 0) (r.fullKey settings, r) (r.keyed settings) :=
      fun r _ => (r.key_spec settings 0).map (·, r)
    have hmap : (List.map (fun r => (r.fullKey settings, r)) (p :: q :: rest)).mergeSort keyedLe =
        (Parameter.fullSort settings (p :: q :: rest)).map fun r => (r.fullKey settings, r) := by
      symm
      apply List.map_mergeSort
      intros
      rfl
    have hsort : ((List.map (fun r => (r.fullKey settings, r)) (p :: q :: rest)).mergeSort
        keyedLe).map (·.2) = Parameter.fullSort settings (p :: q :: rest) := by
      rw [hmap, List.map_map]
      exact List.map_id _
    have hlength : ¬(p :: q :: rest).length ≤ 1 := by simp
    rw [← hsort]
    refine WalkSpec.congr ?_ (WalkSpec.bind (WalkSpec.mapM hkeyed) (WalkSpec.pure _))
    rw [and_true, or_iff_right hlength]

/-- What sorting gives is in order. -/
theorem Parameter.pairwise_of_sorted {ps qs : List Parameter}
    (h : Parameter.sorted settings ps = .ok qs) :
    qs.Pairwise fun p q => p.mayPrecede settings q = true := by
  obtain ⟨-, rfl⟩ := (Parameter.sorted_spec settings ps).of_eq_ok h
  exact Parameter.fullSort_pairwise ps

theorem Parameter.sorted_idem {ps qs : List Parameter}
    (h : Parameter.sorted settings ps = .ok qs) : Parameter.sorted settings qs = .ok qs := by
  obtain ⟨hfits, rfl⟩ := (Parameter.sorted_spec settings ps).of_eq_ok h
  have hperm : (Parameter.fullSort settings ps).Perm ps := Parameter.fullSort_perm ps
  have hsorted := (Parameter.sorted_spec settings (Parameter.fullSort settings ps)).ok
  rw [Parameter.fullSort_idem] at hsorted
  apply hsorted
  rw [hperm.length_eq]
  exact hfits.imp_right fun h p hp => h p (hperm.mem_iff.mp hp)

/-! ## §3 Ties -/

theorem Parameter.mayPrecede_of_tied {p q : Parameter}
    (h : p.fullKey settings = q.fullKey settings) : p.mayPrecede settings q = true := by
  have hself : (q.fullKey settings).compare (q.fullKey settings) = .eq := ReflCmp.compare_self
  rw [Parameter.mayPrecede_iff, h, hself]
  rfl

theorem Parameter.tied_of_mayPrecede {p q : Parameter} (hpq : p.mayPrecede settings q = true)
    (hqp : q.mayPrecede settings p = true) : p.fullKey settings = q.fullKey settings := by
  rw [Parameter.mayPrecede_iff] at hpq hqp
  exact LawfulEqCmp.eq_of_compare (OrientedCmp.isLE_antisymm hpq hqp)

/-- **Sorting leaves tied parameters in the order in which they come.** -/
theorem Parameter.fullSort_ties (settings : Settings) (ps : List Parameter) (k : ParameterKey) :
    (Parameter.fullSort settings ps).filter (fun p => p.fullKey settings = k) =
      ps.filter fun p => p.fullKey settings = k := by
  have htied : (ps.filter fun p => p.fullKey settings = k).Pairwise
      fun p q => p.mayPrecede settings q = true := by
    refine List.pairwise_of_forall_mem_list fun p hp q hq => ?_
    have hpk := of_decide_eq_true (List.mem_filter.mp hp).2
    have hqk := of_decide_eq_true (List.mem_filter.mp hq).2
    exact Parameter.mayPrecede_of_tied (hpk.trans hqk.symm)
  -- ties come in order, so they are a sublist of what is sorted, and there are no others
  have hsub := List.sublist_mergeSort Parameter.mayPrecede_trans Parameter.mayPrecede_total htied
    List.filter_sublist
  have hperm : (Parameter.fullSort settings ps).Perm ps := Parameter.fullSort_perm ps
  have hlength := (hperm.filter fun p => p.fullKey settings = k).length_eq
  have hfilter := hsub.filter fun p => p.fullKey settings = k
  simp only [List.filter_filter, Bool.and_self] at hfilter
  exact (hfilter.eq_of_length hlength.symm).symm

/-- Where only equal parameters are tied, sorting gives one list for every order. -/
theorem Parameter.fullSort_eq_of_perm {ps qs : List Parameter} (h : qs.Perm ps)
    (htied : ∀ p ∈ ps, ∀ q ∈ ps, p.fullKey settings = q.fullKey settings → p = q) :
    Parameter.fullSort settings qs = Parameter.fullSort settings ps := by
  -- two sorted lists of the same parameters are one list if no two of them are tied
  refine List.Perm.eq_of_pairwise ?_ (Parameter.fullSort_pairwise qs)
    (Parameter.fullSort_pairwise ps)
    ((Parameter.fullSort_perm qs).trans (h.trans (Parameter.fullSort_perm ps).symm))
  intro p q hp hq hpq hqp
  have hpmem := h.mem_iff.mp ((Parameter.fullSort_perm qs).mem_iff.mp hp)
  have hqmem := (Parameter.fullSort_perm ps).mem_iff.mp hq
  exact htied p hpmem q hqmem (Parameter.tied_of_mayPrecede hpq hqp)

theorem Parameter.fullSort_pair (settings : Settings) (p q : Parameter) :
    Parameter.fullSort settings [p, q] =
      if p.mayPrecede settings q = true then [p, q] else [q, p] := by
  simp only [Parameter.fullSort, List.mergeSort, List.MergeSort.Internal.splitInTwo]
  simp [List.merge]

end AnnoTree
