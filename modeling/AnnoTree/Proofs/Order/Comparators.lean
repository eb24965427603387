import AnnoTree.Sorting
import AnnoTree.Value.Key
import Mathlib.Tactic.Common

/-!
# Orders of keys

Keys are compared field by field. Each of these orders is total, and two keys that it does not
tell apart are the same key. Texts are compared by the code points of their characters.

## Main statements

- `ParameterKey.compare`, `AnnotKey.compare`, `ClassKey.compare` and `EnumConst.compare` are
  transitive and lawful comparisons.
- `compare_eq_codePointOrder`: the order of texts is that of their code points.
- `Text.pairwise_sortedSet`, `Text.mem_sortedSet`: a sorted set has its texts in ascending order.
-/

namespace AnnoTree

open Std

/-! ## §1 Comparing by two fields -/

section Fields

variable {α β γ : Type} {cmp₁ : β → β → Ordering} {cmp₂ : γ → γ → Ordering}

theorem transCmp_on [TransCmp cmp₁] (f : α → β) : TransCmp fun a b => cmp₁ (f a) (f b) where
  eq_swap := OrientedCmp.eq_swap
  isLE_trans := TransCmp.isLE_trans

theorem lawfulEqCmp_on [LawfulEqCmp cmp₁] (f : α → β) (hinj : ∀ {a b}, f a = f b → a = b) :
    LawfulEqCmp fun a b => cmp₁ (f a) (f b) where
  compare_self := ReflCmp.compare_self
  eq_of_compare h := hinj (LawfulEqCmp.eq_of_compare h)

/-- An order by one field, and by a second one where the first does not decide. -/
theorem transCmp_then [TransCmp cmp₁] [TransCmp cmp₂] (f : α → β) (g : α → γ) :
    TransCmp fun a b => (cmp₁ (f a) (f b)).then (cmp₂ (g a) (g b)) := by
  have : TransCmp fun a b => cmp₁ (f a) (f b) := transCmp_on f
  have : TransCmp fun a b => cmp₂ (g a) (g b) := transCmp_on g
  exact inferInstanceAs
    (TransCmp (compareLex (fun a b => cmp₁ (f a) (f b)) fun a b => cmp₂ (g a) (g b)))

theorem lawfulEqCmp_then [TransCmp cmp₁] [LawfulEqCmp cmp₁] [TransCmp cmp₂] [LawfulEqCmp cmp₂]
    (f : α → β) (g : α → γ) (hinj : ∀ {a b}, f a = f b → g a = g b → a = b) :
    LawfulEqCmp fun a b => (cmp₁ (f a) (f b)).then (cmp₂ (g a) (g b)) where
  compare_self := by simp [ReflCmp.compare_self]
  eq_of_compare h := by
    rw [Ordering.then_eq_eq] at h
    exact hinj (LawfulEqCmp.eq_of_compare h.1) (LawfulEqCmp.eq_of_compare h.2)

end Fields

/-! ## §2 Options -/

section Options

variable {α : Type} {cmp : α → α → Ordering}

instance [OrientedCmp cmp] : OrientedCmp (compareOption cmp) where
  eq_swap {a b} := by
    cases a with
    | none => cases b <;> rfl
    | some x =>
      cases b with
      | none => rfl
      | some y =>
        show cmp x y = (cmp y x).swap
        exact OrientedCmp.eq_swap

instance [TransCmp cmp] : TransCmp (compareOption cmp) where
  isLE_trans {a b c} hab hbc := by
    cases a with
    | none => cases c <;> rfl
    | some x =>
      cases b with
      | none => cases hab
      | some y =>
        cases c with
        | none => cases hbc
        | some z =>
          show (cmp x z).isLE = true
          exact TransCmp.isLE_trans hab hbc

instance [LawfulEqCmp cmp] : LawfulEqCmp (compareOption cmp) where
  compare_self {a} := by
    cases a with
    | none => rfl
    | some x =>
      show cmp x x = .eq
      exact ReflCmp.compare_self
  eq_of_compare {a b} h := by
    cases a with
    | none =>
      cases b with
      | none => rfl
      | some y => cases h
    | some x =>
      cases b with
      | none => cases h
      | some y => exact congrArg some (LawfulEqCmp.eq_of_compare h)

end Options

/-! ## §3 Code points and texts -/

instance : TransOrd CodePoint :=
  show TransCmp fun c d : CodePoint => Ord.compare c.toNat d.toNat from transCmp_on CodePoint.toNat

instance : LawfulEqOrd CodePoint :=
  show LawfulEqCmp fun c d : CodePoint => Ord.compare c.toNat d.toNat from
    lawfulEqCmp_on CodePoint.toNat CodePoint.toNat_inj.mp

instance : TransOrd Str :=
  show TransCmp fun s t : Str => Ord.compare s.toList t.toList from transCmp_on Str.toList

instance : LawfulEqOrd Str :=
  show LawfulEqCmp fun s t : Str => Ord.compare s.toList t.toList from
    lawfulEqCmp_on Str.toList Str.ext_toList

/-- The numbers of the code points of a text. -/
def codePoints (s : Str) : List Nat :=
  s.toList.map CodePoint.toNat

/-- The order of texts by code points: the first difference decides, and a text comes before its
extensions. -/
def codePointOrder (s t : Str) : Ordering :=
  List.compareLex Ord.compare (codePoints s) (codePoints t)

private theorem compareLex_eq_numbers (cs ds : List CodePoint) :
    List.compareLex Ord.compare cs ds =
      List.compareLex Ord.compare (cs.map CodePoint.toNat) (ds.map CodePoint.toNat) := by
  induction cs generalizing ds with
  | nil => cases ds <;> rfl
  | cons c cs ih =>
    cases ds with
    | nil => rfl
    | cons d ds =>
      rw [List.map_cons, List.map_cons, List.compareLex_cons_cons, List.compareLex_cons_cons, ih]
      rfl

theorem compare_eq_codePointOrder (s t : Str) : Ord.compare s t = codePointOrder s t :=
  compareLex_eq_numbers s.toList t.toList

/-! ## §4 The orders of keys -/

instance : TransCmp EnumConst.compare :=
  transCmp_then EnumConst.typeName EnumConst.constantName

instance : LawfulEqCmp EnumConst.compare :=
  lawfulEqCmp_then EnumConst.typeName EnumConst.constantName fun {a b} hf hg => by
    cases a
    cases b
    simp_all

instance : TransCmp ClassKey.compare :=
  transCmp_then ClassKey.rank ClassKey.text

instance : LawfulEqCmp ClassKey.compare :=
  lawfulEqCmp_then ClassKey.rank ClassKey.text fun {a b} hf hg => by
    cases a
    cases b
    simp_all

instance : TransCmp ParameterKey.compare :=
  transCmp_then ParameterKey.name ParameterKey.shown

instance : LawfulEqCmp ParameterKey.compare :=
  lawfulEqCmp_then ParameterKey.name ParameterKey.shown fun {a b} hf hg => by
    cases a
    cases b
    simp_all

instance : TransCmp AnnotKey.compare :=
  transCmp_then AnnotKey.name AnnotKey.parameters

instance : LawfulEqCmp AnnotKey.compare :=
  lawfulEqCmp_then AnnotKey.name AnnotKey.parameters fun {a b} hf hg => by
    cases a
    cases b
    simp_all

/-! ## §5 Sorted sets -/

namespace Text

theorem mem_insertSorted {s t : Str} {texts : List Str} :
    t ∈ insertSorted s texts ↔ t = s ∨ t ∈ texts := by
  induction texts with
  | nil => simp [insertSorted]
  | cons first rest ih =>
    rw [insertSorted]
    cases horder : Ord.compare s first with
    | lt => simp
    | eq =>
      -- the text that is there already is the same
      rw [LawfulEqCmp.eq_of_compare horder]
      simp
    | gt => simp [ih, or_left_comm]

/-- A sorted set has the texts of the list. -/
theorem mem_sortedSet {t : Str} {texts : List Str} : t ∈ sortedSet texts ↔ t ∈ texts := by
  induction texts with
  | nil => simp [sortedSet]
  | cons s rest ih =>
    rw [sortedSet, List.foldr_cons, ← sortedSet, mem_insertSorted, ih, List.mem_cons]

theorem pairwise_insertSorted (s : Str) {texts : List Str}
    (h : texts.Pairwise fun a b => codePointOrder a b = .lt) :
    (insertSorted s texts).Pairwise fun a b => codePointOrder a b = .lt := by
  induction texts with
  | nil => simp [insertSorted]
  | cons first rest ih =>
    obtain ⟨hfirst, hrest⟩ := List.pairwise_cons.mp h
    rw [insertSorted]
    cases horder : Ord.compare s first with
    | lt =>
      -- what comes before the first text comes before all
      refine List.pairwise_cons.mpr ⟨fun t ht => ?_, h⟩
      simp only [← compare_eq_codePointOrder] at hfirst ⊢
      rcases List.mem_cons.mp ht with rfl | ht
      · exact horder
      · exact TransCmp.lt_trans horder (hfirst t ht)
    | eq => exact h
    | gt =>
      refine List.pairwise_cons.mpr ⟨fun t ht => ?_, ih hrest⟩
      rcases mem_insertSorted.mp ht with rfl | ht
      · rw [← compare_eq_codePointOrder]
        exact OrientedCmp.lt_of_gt horder
      · exact hfirst t ht

/-- A sorted set is in strictly ascending order of code points. -/
theorem pairwise_sortedSet (texts : List Str) :
    (sortedSet texts).Pairwise fun a b => codePointOrder a b = .lt := by
  induction texts with
  | nil => exact List.Pairwise.nil
  | cons s rest ih => exact pairwise_insertSorted s ih

end Text

end AnnoTree
