import AnnoTree.Proofs.Order.Comparators
import AnnoTree.Raw.Comparison

/-!
# Keys as plain data

A key may be written as nested tuples of texts and numbers, in which a number says whether
something is there: zero if not, and one, before it, if so. Plain data is compared item by item,
and of items of different types neither is less. Tuples of keys of one kind never come to that:
the first difference is always between two texts, two numbers, or a tuple and an extension of it.

## Main definitions

- `EnumConst.tuple`, `ClassKey.tuple`, `ParameterKey.tuple`, `AnnotKey.tuple`: keys as tuples.
- `Raw.threeWay`: the number that says which of two raw values is greater.

## Main statements

- `AnnotKey.tuple_ordered` and the like: tuples are ordered as the keys are.
- `Raw.Ordered.threeWay_eq`: their comparison never fails.
-/

namespace AnnoTree

open Std

/-! ## §1 Comparing plain data -/

namespace Raw

variable {settings : Settings}

/-- One if the first of two raw values is greater, minus one if it is less, and zero otherwise. -/
def threeWay (settings : Settings) (a b : Raw) : Except Failure Int := do
  let greater ← lessThan settings b a
  let less ← lessThan settings a b
  return (if greater then 1 else 0) - (if less then 1 else 0)

/-- Two raw values can be compared, and stand in an order. -/
structure Ordered (settings : Settings) (a b : Raw) (o : Ordering) : Prop where
  equal_eq : equal settings a b = .ok (o == .eq)
  lessThan_eq : lessThan settings a b = .ok (o == .lt)

/-- Two lists of raw values can be compared, and stand in an order. -/
structure OrderedLists (settings : Settings) (as bs : List Raw) (o : Ordering) : Prop where
  equal_eq : equalList settings as bs = .ok (o == .eq)
  lessThan_eq : lessThanList settings as bs = .ok (o == .lt)

theorem Ordered.of_decide {a b : Raw} {o : Ordering} {p q : Prop} [Decidable p] [Decidable q]
    (hequal : equal settings a b = .ok (decide p))
    (hless : lessThan settings a b = .ok (decide q)) (hp : o = .eq ↔ p) (hq : o = .lt ↔ q) :
    Ordered settings a b o where
  equal_eq := by
    rw [hequal, decide_eq_decide.mpr hp.symm]
    cases o <;> rfl
  lessThan_eq := by
    rw [hless, decide_eq_decide.mpr hq.symm]
    cases o <;> rfl

theorem Ordered.text (s t : Str) :
    Ordered settings (.text s) (.text t) (Ord.compare s t) :=
  Ordered.of_decide rfl rfl LawfulEqCmp.compare_eq_iff_eq Iff.rfl

/-- Integers are ranked in units of the least positive number of the floating-point format. -/
theorem Number.lessThan_integer (i j : Int) :
    Number.lessThan (.integer i) (.integer j) = decide (i < j) := by
  have hscale : ∀ unit : Nat, 0 < unit → (i * unit < j * unit ↔ i < j) := by
    intro unit hunit
    have hpos : (0 : Int) < unit := Int.natCast_pos.mpr hunit
    exact ⟨fun h => Int.lt_of_mul_lt_mul_right h (Int.le_of_lt hpos),
      fun h => Int.mul_lt_mul_of_pos_right h hpos⟩
  have hpow : ∀ n, 0 < Nat.pow 2 n := fun n => Nat.pow_pos (Nat.succ_pos 1)
  have hgrid := hscale (Nat.pow 2 Double.gridPower) (hpow Double.gridPower)
  simp only [Number.lessThan, Number.rank?, hgrid]
  simp

theorem Ordered.int (i j : Int) : Ordered settings (.int i) (.int j) (Ord.compare i j) := by
  refine Ordered.of_decide rfl ?_ Int.compare_eq_eq Int.compare_eq_lt
  rw [← Number.lessThan_integer]
  rfl

theorem OrderedLists.tuple {as bs : List Raw} {o : Ordering}
    (h : OrderedLists settings as bs o) : Ordered settings (.tuple as) (.tuple bs) o where
  equal_eq := h.equal_eq
  lessThan_eq := h.lessThan_eq

theorem OrderedLists.nil_nil : OrderedLists settings [] [] .eq where
  equal_eq := rfl
  lessThan_eq := rfl

theorem OrderedLists.nil_cons (b : Raw) (bs : List Raw) :
    OrderedLists settings [] (b :: bs) .lt where
  equal_eq := rfl
  lessThan_eq := rfl

theorem OrderedLists.cons_nil (a : Raw) (as : List Raw) :
    OrderedLists settings (a :: as) [] .gt where
  equal_eq := rfl
  lessThan_eq := rfl

/-- The first items decide unless they are equal. -/
theorem OrderedLists.cons {a b : Raw} {as bs : List Raw} {o p : Ordering}
    (h : Ordered settings a b o) (hrest : OrderedLists settings as bs p) :
    OrderedLists settings (a :: as) (b :: bs) (o.then p) where
  equal_eq := by
    rw [equalList, h.equal_eq]
    cases o with
    | lt => rfl
    | eq => exact hrest.equal_eq
    | gt => rfl
  lessThan_eq := by
    rw [lessThanList, h.equal_eq]
    cases o with
    | lt => exact h.lessThan_eq
    | eq => exact hrest.lessThan_eq
    | gt => exact h.lessThan_eq

theorem Ordered.pair {a b c d : Raw} {o p : Ordering} (h : Ordered settings a b o)
    (hsecond : Ordered settings c d p) :
    Ordered settings (.tuple [a, c]) (.tuple [b, d]) (o.then p) := by
  have hrest := OrderedLists.cons hsecond OrderedLists.nil_nil
  rw [Ordering.then_eq] at hrest
  exact (OrderedLists.cons h hrest).tuple

theorem OrderedLists.map {α : Type} {cmp : α → α → Ordering} {f : α → Raw}
    (h : ∀ x y, Ordered settings (f x) (f y) (cmp x y)) (xs ys : List α) :
    OrderedLists settings (xs.map f) (ys.map f) (List.compareLex cmp xs ys) := by
  induction xs generalizing ys with
  | nil =>
    cases ys with
    | nil => exact nil_nil
    | cons y ys => exact nil_cons (f y) (ys.map f)
  | cons x xs ih =>
    cases ys with
    | nil => exact cons_nil (f x) (xs.map f)
    | cons y ys =>
      rw [List.compareLex_cons_cons]
      exact (OrderedLists.cons (h x y) (ih ys))

/-- Comparing raw values that stand in an order either way never fails. -/
theorem Ordered.threeWay_eq {a b : Raw} {o : Ordering} (h : Ordered settings a b o)
    (hswap : Ordered settings b a o.swap) : threeWay settings a b = .ok (orderNumber o) := by
  rw [threeWay, h.lessThan_eq, hswap.lessThan_eq]
  cases o <;> rfl

end Raw

/-! ## §2 Keys as tuples -/

/-- Something that may be missing, as a tuple. -/
def optionTuple {α : Type} (f : α → Raw) : Option α → Raw
  | none => .tuple [.int 0]
  | some x => .tuple [.int 1, f x]

/-- An enum constant as a tuple. -/
def EnumConst.tuple (e : EnumConst) : Raw :=
  .tuple [.text e.typeName, .text e.constantName]

/-- The key of a class literal as a tuple. -/
def ClassKey.tuple (k : ClassKey) : Raw :=
  .tuple [.int k.rank, .text k.text]

/-- The key of a parameter as a tuple. -/
def ParameterKey.tuple (k : ParameterKey) : Raw :=
  .tuple [.text k.name, optionTuple .text k.shown]

/-- The key of an annotation as a tuple. -/
def AnnotKey.tuple (k : AnnotKey) : Raw :=
  .tuple [.text k.name,
    optionTuple (fun ks : List ParameterKey => .tuple (ks.map ParameterKey.tuple)) k.parameters]

section Tuples

variable (settings : Settings)

theorem optionTuple_ordered {α : Type} {cmp : α → α → Ordering} {f : α → Raw}
    (h : ∀ x y, Raw.Ordered settings (f x) (f y) (cmp x y)) (o p : Option α) :
    Raw.Ordered settings (optionTuple f o) (optionTuple f p) (compareOption cmp o p) := by
  have hint : ∀ i j : Int, Raw.Ordered settings (.int i) (.int j) (Ord.compare i j) :=
    Raw.Ordered.int
  cases o with
  | none =>
    cases p with
    | none => exact (Raw.OrderedLists.cons (hint 0 0) .nil_nil).tuple
    | some y => exact (Raw.OrderedLists.cons (hint 0 1) (.nil_cons (f y) [])).tuple
  | some x =>
    cases p with
    | none => exact (Raw.OrderedLists.cons (hint 1 0) (.cons_nil (f x) [])).tuple
    | some y => exact (hint 1 1).pair (h x y)

theorem EnumConst.tuple_ordered (a b : EnumConst) :
    Raw.Ordered settings a.tuple b.tuple (a.compare b) :=
  (Raw.Ordered.text a.typeName b.typeName).pair (Raw.Ordered.text a.constantName b.constantName)

theorem ClassKey.tuple_ordered (a b : ClassKey) :
    Raw.Ordered settings a.tuple b.tuple (a.compare b) := by
  have hrank : Ord.compare (a.rank : Int) b.rank = Ord.compare a.rank b.rank := by
    simp [Int.compare_eq_ite_lt, Nat.compare_eq_ite_lt]
  rw [ClassKey.compare, ← hrank]
  exact (Raw.Ordered.int a.rank b.rank).pair (Raw.Ordered.text a.text b.text)

theorem ParameterKey.tuple_ordered (a b : ParameterKey) :
    Raw.Ordered settings a.tuple b.tuple (a.compare b) :=
  (Raw.Ordered.text a.name b.name).pair
    (optionTuple_ordered settings Raw.Ordered.text a.shown b.shown)

theorem AnnotKey.tuple_ordered (a b : AnnotKey) :
    Raw.Ordered settings a.tuple b.tuple (a.compare b) :=
  (Raw.Ordered.text a.name b.name).pair
    (optionTuple_ordered settings
      (fun ks ls => (Raw.OrderedLists.map (ParameterKey.tuple_ordered settings) ks ls).tuple)
      a.parameters b.parameters)

end Tuples

end AnnoTree
