import AnnoTree.Proofs.Identifier.Canonical
import AnnoTree.Proofs.Order.Building

/-!
# Identifiers and the order of supply

The stable sort of parameters leaves tied ones, which have one name and one text, in the order in
which they were supplied, and the stored form keeps that order. So identifiers ignore the order of
supply for those lists in which only equal parameters are tied, and for no other.

## Main statements

- `onlyEqualTied_of_fullSort`: if every order is sorted into one list, only equal parameters are
  tied.
- `canonical_ignores_supply_iff`: the exact condition for canonical texts and identifiers.
-/

namespace AnnoTree

open Std

variable {settings : Settings}

/-! ## §1 Ties -/

/-- Only equal parameters have one key. -/
def OnlyEqualTied (settings : Settings) (ps : List Parameter) : Prop :=
  ∀ p ∈ ps, ∀ q ∈ ps, p.key settings 0 = q.key settings 0 → p = q

/-- Two parameters that are tied and not equal show the order in which they were supplied. -/
theorem Parameter.eq_of_fullSort_swap {p q : Parameter} (rest : List Parameter)
    (htied : p.fullKey settings = q.fullKey settings)
    (h : Parameter.fullSort settings (p :: q :: rest) =
      Parameter.fullSort settings (q :: p :: rest)) : p = q := by
  -- the first of the tied parameters is the one that was supplied first
  have hties := congrArg (List.filter fun r => r.fullKey settings = q.fullKey settings) h
  rw [Parameter.fullSort_ties, Parameter.fullSort_ties] at hties
  simp only [List.filter_cons, htied, decide_true, if_true] at hties
  exact (List.cons.inj hties).1

/-- Two members of a list can be brought to its front. -/
theorem exists_perm_pair {α : Type} {xs : List α} {x y : α} (hx : x ∈ xs) (hy : y ∈ xs)
    (hne : x ≠ y) : ∃ rest, xs.Perm (x :: y :: rest) := by
  obtain ⟨left, right, rfl⟩ := List.append_of_mem hx
  have hfirst : (left ++ x :: right).Perm (x :: (left ++ right)) := List.perm_middle
  have hy' : y ∈ left ++ right := (List.mem_cons.mp (hfirst.mem_iff.mp hy)).resolve_left hne.symm
  obtain ⟨before, after, hsplit⟩ := List.append_of_mem hy'
  refine ⟨before ++ after, hfirst.trans (.cons x ?_)⟩
  rw [hsplit]
  exact List.perm_middle

/-! ## §2 Canonical texts -/

theorem onlyEqualTied_iff {ps : List Parameter}
    (hfits : ∀ p ∈ ps, p.value.Fits settings.maxDepth 0) :
    OnlyEqualTied settings ps ↔
      ∀ p ∈ ps, ∀ q ∈ ps, p.fullKey settings = q.fullKey settings → p = q := by
  refine forall₂_congr fun p hp => forall₂_congr fun q hq => ?_
  rw [(p.key_spec settings 0).ok (hfits p hp), (q.key_spec settings 0).ok (hfits q hq),
    Except.ok.injEq]

/-- What is built and has a stored form has sorted parameters that fit. -/
theorem eq_of_builtOf {name : Str} {ps : List Parameter} {a : Annot}
    (hbuilt : builtOf settings name ps = .ok a) (hfits : a.Fits settings.maxDepth 0) :
    a = ⟨name, some (Parameter.fullSort settings ps)⟩ ∧
      ∀ p ∈ ps, p.value.Fits settings.maxDepth 0 := by
  by_cases h : ps.length ≤ 1 ∨ ∀ p ∈ ps, p.value.Fits settings.maxDepth 0
  · rw [builtOf_ok h, Except.ok.injEq] at hbuilt
    subst hbuilt
    exact ⟨rfl, ((Annot.fits_build settings name).mp hfits).2⟩
  · rw [builtOf_tooDeep h] at hbuilt
    cases hbuilt

/-- Where only equal parameters are tied, every order builds the same annotation. -/
theorem builtOf_of_perm (name : Str) {ps qs : List Parameter} (h : qs.Perm ps)
    (hfits : ∀ p ∈ ps, p.value.Fits settings.maxDepth 0) (htied : OnlyEqualTied settings ps) :
    builtOf settings name qs = .ok ⟨name, some (Parameter.fullSort settings ps)⟩ := by
  have hqs : ∀ q ∈ qs, q.value.Fits settings.maxDepth 0 := by
    simpa only [h.mem_iff] using hfits
  rw [builtOf_ok (.inr hqs), Parameter.fullSort_eq_of_perm h ((onlyEqualTied_iff hfits).mp htied)]

/-- If every order is sorted into one list, only equal parameters are tied. -/
theorem onlyEqualTied_of_fullSort {ps : List Parameter}
    (hfits : ∀ p ∈ ps, p.value.Fits settings.maxDepth 0)
    (h : ∀ qs : List Parameter, qs.Perm ps →
      Parameter.fullSort settings qs = Parameter.fullSort settings ps) :
    OnlyEqualTied settings ps := by
  rw [onlyEqualTied_iff hfits]
  intro p hp q hq hkey
  -- two tied parameters in front of the others would show their order
  by_contra hne
  obtain ⟨rest, hfront⟩ := exists_perm_pair hp hq hne
  apply hne
  apply Parameter.eq_of_fullSort_swap rest hkey
  rw [h _ hfront.symm, h _ (hfront.trans (.swap q p _)).symm]

/-- **Canonical texts and the order of supply.** The annotations that are built of a list of
parameters, in every order, have one canonical text exactly if only equal parameters are tied in
the list. Then they have one identifier. -/
theorem canonical_ignores_supply_iff {name : Str} {ps : List Parameter} {a : Annot} {j : Json}
    (hbuilt : builtOf settings name ps = .ok a) (hstored : a.payload settings 0 = .ok j) :
    ((∀ qs : List Parameter, qs.Perm ps → ∃ b k, builtOf settings name qs = .ok b ∧
        b.payload settings 0 = .ok k ∧ k.canonical = j.canonical) ↔ OnlyEqualTied settings ps) ∧
      (OnlyEqualTied settings ps → ∀ qs : List Parameter, qs.Perm ps →
        ∃ b, builtOf settings name qs = .ok b ∧ b.identifier settings = a.identifier settings) := by
  obtain ⟨ha, rfl⟩ := (a.payload_spec settings 0).of_eq_ok hstored
  obtain ⟨rfl, hfits⟩ := eq_of_builtOf hbuilt ha
  refine ⟨⟨fun hcanonical => ?_, fun htied qs hperm => ?_⟩, fun htied qs hperm => ?_⟩
  · apply onlyEqualTied_of_fullSort hfits
    intro qs hperm
    obtain ⟨b, k, hb, hk, hjk⟩ := hcanonical qs hperm
    obtain ⟨hbfits, rfl⟩ := (b.payload_spec settings 0).of_eq_ok hk
    obtain ⟨rfl, -⟩ := eq_of_builtOf hb hbfits
    -- an annotation is told from its canonical text
    exact Option.some.inj (congrArg Annot.parameters (Annot.canonical_inj hjk))
  · exact ⟨_, _, builtOf_of_perm name hperm hfits htied, hstored, rfl⟩
  · exact ⟨_, builtOf_of_perm name hperm hfits htied, rfl⟩

/-- A case of it: two parameters of one name and two texts. -/
theorem different_texts_are_put_in_order :
    builtOf {} "A" [⟨"x", .string "b"⟩, ⟨"x", .string "a"⟩] =
        .ok ⟨"A", some [⟨"x", .string "a"⟩, ⟨"x", .string "b"⟩]⟩ ∧
      OnlyEqualTied {} [⟨"x", .string "b"⟩, ⟨"x", .string "a"⟩] ∧
      ∀ qs : List Parameter, qs.Perm [⟨"x", .string "b"⟩, ⟨"x", .string "a"⟩] →
        ∃ b, builtOf {} "A" qs = .ok b ∧ b.identifier {} =
          Annot.identifier {} ⟨"A", some [⟨"x", .string "a"⟩, ⟨"x", .string "b"⟩]⟩ := by
  have hbuilt : builtOf {} "A" [⟨"x", .string "b"⟩, ⟨"x", .string "a"⟩] =
      .ok ⟨"A", some [⟨"x", .string "a"⟩, ⟨"x", .string "b"⟩]⟩ := by
    rw [builtOf_ok (.inr (by decide)), Parameter.fullSort_pair, if_neg (by decide)]
  have hkeys : Parameter.fullKey {} ⟨"x", .string "b"⟩ ≠
      Parameter.fullKey {} ⟨"x", .string "a"⟩ := by
    decide
  have htied : OnlyEqualTied {} [⟨"x", .string "b"⟩, ⟨"x", .string "a"⟩] := by
    rw [onlyEqualTied_iff (by decide)]
    intro p hp q hq h
    simp only [List.mem_cons, List.not_mem_nil, or_false] at hp hq
    rcases hp with rfl | rfl <;> rcases hq with rfl | rfl
    · rfl
    · exact absurd h hkeys
    · exact absurd h.symm hkeys
    · rfl
  exact ⟨hbuilt, htied, (canonical_ignores_supply_iff hbuilt rfl).2 htied⟩

/-- An int that has the name and the text of `tiedLong`. -/
def tiedInt : Parameter :=
  ⟨"x", .scalar (.integer .int 1 (by decide))⟩

/-- A long that has the name and the text of `tiedInt`. -/
def tiedLong : Parameter :=
  ⟨"x", .scalar (.integer .long 1 (by decide))⟩

theorem canonical_of_int_first :
    (Annot.fullPayload ⟨"A", some [tiedInt, tiedLong]⟩).canonical =
      ("\x7b\"name\":\"A\",\"parameters\":[" ++
        "\x7b\"name\":\"x\",\"value\":\x7b\"int\":1\x7d\x7d," ++
        "\x7b\"name\":\"x\",\"value\":\x7b\"long\":1\x7d\x7d]\x7d" : String) := by
  rw [Json.canonical, Annot.sortKeys_fullPayload]
  simp only [List.map_cons, List.map_nil, Parameter.sortKeys_fullPayload,
    Value.sortKeys_fullPayload]
  rfl

theorem canonical_of_long_first :
    (Annot.fullPayload ⟨"A", some [tiedLong, tiedInt]⟩).canonical =
      ("\x7b\"name\":\"A\",\"parameters\":[" ++
        "\x7b\"name\":\"x\",\"value\":\x7b\"long\":1\x7d\x7d," ++
        "\x7b\"name\":\"x\",\"value\":\x7b\"int\":1\x7d\x7d]\x7d" : String) := by
  rw [Json.canonical, Annot.sortKeys_fullPayload]
  simp only [List.map_cons, List.map_nil, Parameter.sortKeys_fullPayload,
    Value.sortKeys_fullPayload]
  rfl

/-- It is not so that identifiers always ignore the order of supply: an int and a long of one
value are tied. -/
theorem identifiers_show_the_order_of_ties :
    ¬∀ (settings : Settings) (name : Str) (ps qs : List Parameter) (a b : Annot),
      qs.Perm ps → builtOf settings name ps = .ok a → builtOf settings name qs = .ok b →
      (∃ j, a.payload settings 0 = .ok j) → (∃ k, b.payload settings 0 = .ok k) →
      a.identifier settings = b.identifier settings := by
  intro halways
  have hint : builtOf {} "A" [tiedInt, tiedLong] = .ok ⟨"A", some [tiedInt, tiedLong]⟩ := by
    rw [builtOf_ok (.inr (by decide)), Parameter.fullSort_pair, if_pos (by decide)]
  have hlong : builtOf {} "A" [tiedLong, tiedInt] = .ok ⟨"A", some [tiedLong, tiedInt]⟩ := by
    rw [builtOf_ok (.inr (by decide)), Parameter.fullSort_pair, if_pos (by decide)]
  have h := halways {} "A" _ _ _ _ (.swap tiedInt tiedLong []) hint hlong ⟨_, rfl⟩ ⟨_, rfl⟩
  rw [Annot.identifier_of_fits (by decide), Annot.identifier_of_fits (by decide)] at h
  exact identifierOf_ne canonical_of_int_first canonical_of_long_first (by decide +kernel) h

end AnnoTree
