import AnnoTree.Proofs.Nesting.Walks
import AnnoTree.Proofs.Order.Tuples

/-!
# The laws of comparison

References, parameters and annotations are compared by their keys. From that follow, for each of
the four kinds alike, the laws of a total order that equality, the relations of order and hashing
all respect. Comparing fails only on what is nested too deep.

## Main definitions

- `OrderLaws`: the laws, for one kind of raw values.
- `OrderedByKeys`: what they follow from.
- `Raw.Equals`: two raw values can be compared and are equal.
- `Parameter.referenceOrder`, `Annot.referenceOrder`: the orders in words, without keys.

## Main statements

- `OrderedByKeys.laws`: values that are ordered by keys obey the laws.
- `Parameter.equals_iff`, `Annot.equals_iff`: parameters and annotations are equal by their keys.
- `compare_is_total_order`: the four ordered kinds do, and annotations are in the reference order.
-/

namespace AnnoTree

open Std

/-! ## §1 Orders as numbers -/

namespace Raw

theorem orderNumber_swap (o : Ordering) : orderNumber o.swap = -orderNumber o := by
  cases o <;> rfl

theorem orderNumber_eq_zero {o : Ordering} : orderNumber o = 0 ↔ o = .eq := by
  cases o <;> decide

theorem orderNumber_le_zero {o : Ordering} : orderNumber o ≤ 0 ↔ o.isLE = true := by
  cases o <;> decide

theorem orderNumber_values (o : Ordering) :
    orderNumber o = -1 ∨ orderNumber o = 0 ∨ orderNumber o = 1 := by
  cases o <;> decide

/-- What a relation of order says of a number. -/
def OrderRelation.test : OrderRelation → Int → Bool
  | .less, n => decide (n < 0)
  | .lessOrEqual, n => decide (n ≤ 0)
  | .greater, n => decide (0 < n)
  | .greaterOrEqual, n => decide (0 ≤ n)

theorem OrderRelation.test_orderNumber (relation : OrderRelation) (o : Ordering) :
    relation.test (orderNumber o) = relation.accepts o := by
  cases relation <;> cases o <;> rfl

end Raw

/-! ## §2 The laws -/

/-- The laws of a total order on one kind of raw values, of which some are nested too deep. `key`
makes the plain data that is compared and hashed. -/
structure OrderLaws {α : Type} (settings : Settings) (raw : α → Raw)
    (key : α → Except TooDeep Raw) (deep : α → Prop) : Prop where
  tooDeep_iff : ∀ x y,
    (∃ walk, (raw x).compareNumber settings (raw y) =
      .error (.tooDeep ⟨settings.maxDepth, walk⟩)) ↔ deep x ∨ deep y
  values : ∀ x y, ¬deep x → ¬deep y →
    ∃ n, (raw x).compareNumber settings (raw y) = .ok n ∧ (n = -1 ∨ n = 0 ∨ n = 1)
  antisymmetric : ∀ x y n, (raw x).compareNumber settings (raw y) = .ok n →
    (raw y).compareNumber settings (raw x) = .ok (-n)
  transitive : ∀ x y z m n,
    (raw x).compareNumber settings (raw y) = .ok m → m ≤ 0 →
    (raw y).compareNumber settings (raw z) = .ok n → n ≤ 0 →
    ∃ k, (raw x).compareNumber settings (raw z) = .ok k ∧ k ≤ 0
  /-- Equality is comparison to zero, and fails as comparison does. -/
  equal_eq : ∀ x y, (raw x).equal settings (raw y) =
    ((raw x).compareNumber settings (raw y)).map fun n => decide (n = 0)
  /-- So are the relations of order. -/
  holds_eq : ∀ x y relation, (raw x).holds settings relation (raw y) =
    ((raw x).compareNumber settings (raw y)).map relation.test
  /-- The number is that of the keys as plain data. -/
  keys : ∀ x y n, (raw x).compareNumber settings (raw y) = .ok n →
    ∃ k l, key x = .ok k ∧ key y = .ok l ∧ Raw.threeWay settings k l = .ok n
  hash : ∀ x y, (raw x).compareNumber settings (raw y) = .ok 0 → key x = key y

/-- Values of one kind that are ordered by their keys, where making a key may stop at the limit. -/
structure OrderedByKeys {α κ : Type} (settings : Settings) (raw : α → Raw)
    (key : α → Except TooDeep Raw) (fits : α → Prop) (fullKey : α → κ) (tuple : κ → Raw)
    (cmp : κ → κ → Ordering) : Prop where
  order_spec : ∀ x y, ∃ r, (raw x).order? settings (raw y) = some r ∧
    WalkSpec settings.maxDepth [.compare, .render] (fits x ∧ fits y)
      (cmp (fullKey x) (fullKey y)) r
  equal_eq : ∀ x y, (raw x).equal settings (raw y) =
    ((raw x).compare settings (raw y)).map (· == .eq)
  key_spec : ∀ x, WalkSpec settings.maxDepth [.compare, .render] (fits x) (tuple (fullKey x))
    (key x)
  tuple_ordered : ∀ k l, Raw.Ordered settings (tuple k) (tuple l) (cmp k l)

namespace OrderedByKeys

variable {α κ : Type} {settings : Settings} {raw : α → Raw} {key : α → Except TooDeep Raw}
  {fits deep : α → Prop} {fullKey : α → κ} {tuple : κ → Raw} {cmp : κ → κ → Ordering}

theorem compareNumber_ok (h : OrderedByKeys settings raw key fits fullKey tuple cmp) {x y : α}
    (hx : fits x) (hy : fits y) :
    (raw x).compareNumber settings (raw y) =
      .ok (Raw.orderNumber (cmp (fullKey x) (fullKey y))) := by
  obtain ⟨r, horder, hspec⟩ := h.order_spec x y
  simp only [Raw.compareNumber, Raw.compare, horder]
  rw [hspec.ok ⟨hx, hy⟩]
  rfl

theorem compareNumber_tooDeep (h : OrderedByKeys settings raw key fits fullKey tuple cmp)
    {x y : α} (hfits : ¬(fits x ∧ fits y)) :
    ∃ walk, (raw x).compareNumber settings (raw y) =
      .error (.tooDeep ⟨settings.maxDepth, walk⟩) := by
  obtain ⟨r, horder, hspec⟩ := h.order_spec x y
  obtain ⟨walk, -, hr⟩ := hspec.tooDeep hfits
  refine ⟨walk, ?_⟩
  simp only [Raw.compareNumber, Raw.compare, horder]
  rw [hr]
  rfl

theorem compareNumber_eq_ok_iff (h : OrderedByKeys settings raw key fits fullKey tuple cmp)
    {x y : α} {n : Int} :
    (raw x).compareNumber settings (raw y) = .ok n ↔
      (fits x ∧ fits y) ∧ n = Raw.orderNumber (cmp (fullKey x) (fullKey y)) := by
  constructor
  · intro hn
    by_cases hfits : fits x ∧ fits y
    · rw [h.compareNumber_ok hfits.1 hfits.2] at hn
      exact ⟨hfits, (Except.ok.inj hn).symm⟩
    · obtain ⟨walk, hwalk⟩ := h.compareNumber_tooDeep hfits
      rw [hwalk] at hn
      cases hn
  · rintro ⟨hfits, rfl⟩
    exact h.compareNumber_ok hfits.1 hfits.2

/-- **Values that are ordered by keys** obey the laws of a total order. -/
theorem laws [TransCmp cmp] [LawfulEqCmp cmp]
    (h : OrderedByKeys settings raw key fits fullKey tuple cmp) (hdeep : ∀ x, deep x ↔ ¬fits x) :
    OrderLaws settings raw key deep where
  tooDeep_iff x y := by
    rw [hdeep, hdeep, ← not_and_or]
    constructor
    · rintro ⟨walk, hwalk⟩ ⟨hx, hy⟩
      rw [h.compareNumber_ok hx hy] at hwalk
      cases hwalk
    · exact h.compareNumber_tooDeep
  values x y hx hy := by
    rw [hdeep, not_not] at hx hy
    exact ⟨_, h.compareNumber_ok hx hy, Raw.orderNumber_values _⟩
  antisymmetric x y n hn := by
    obtain ⟨⟨hx, hy⟩, rfl⟩ := h.compareNumber_eq_ok_iff.mp hn
    have hswap : cmp (fullKey y) (fullKey x) = (cmp (fullKey x) (fullKey y)).swap :=
      OrientedCmp.eq_swap
    rw [h.compareNumber_ok hy hx, hswap, Raw.orderNumber_swap]
  transitive x y z m n hm hxy hn hyz := by
    obtain ⟨⟨hx, hy⟩, rfl⟩ := h.compareNumber_eq_ok_iff.mp hm
    obtain ⟨⟨-, hz⟩, rfl⟩ := h.compareNumber_eq_ok_iff.mp hn
    rw [Raw.orderNumber_le_zero] at hxy hyz
    refine ⟨_, h.compareNumber_ok hx hz, ?_⟩
    rw [Raw.orderNumber_le_zero]
    exact TransCmp.isLE_trans hxy hyz
  equal_eq x y := by
    rw [h.equal_eq, Raw.compareNumber]
    cases (raw x).compare settings (raw y) with
    | error e => rfl
    | ok o => cases o <;> rfl
  holds_eq x y relation := by
    -- comparing and relating differ only where no order is defined
    obtain ⟨r, horder, -⟩ := h.order_spec x y
    simp only [Raw.holds, Raw.relate, Raw.compareNumber, Raw.compare, horder]
    cases liftWalk r with
    | error e => rfl
    | ok o => exact congrArg Except.ok (relation.test_orderNumber o).symm
  keys x y n hn := by
    obtain ⟨⟨hx, hy⟩, rfl⟩ := h.compareNumber_eq_ok_iff.mp hn
    have hswap : cmp (fullKey y) (fullKey x) = (cmp (fullKey x) (fullKey y)).swap :=
      OrientedCmp.eq_swap
    have hback := h.tuple_ordered (fullKey y) (fullKey x)
    rw [hswap] at hback
    exact ⟨_, _, (h.key_spec x).ok hx, (h.key_spec y).ok hy,
      (h.tuple_ordered _ _).threeWay_eq hback⟩
  hash x y hn := by
    obtain ⟨⟨hx, hy⟩, hzero⟩ := h.compareNumber_eq_ok_iff.mp hn
    -- keys that are not told apart are the same key
    have hkeys : fullKey x = fullKey y :=
      LawfulEqCmp.eq_of_compare (Raw.orderNumber_eq_zero.mp hzero.symm)
    rw [(h.key_spec x).ok hx, (h.key_spec y).ok hy, hkeys]

end OrderedByKeys

/-! ## §3 The four kinds -/

section Kinds

variable (settings : Settings)

/-- A comparison that tells values apart decides equality. -/
theorem decide_eq_beq {α : Type} [DecidableEq α] (cmp : α → α → Ordering) [LawfulEqCmp cmp]
    (a b : α) : decide (a = b) = (cmp a b == .eq) := by
  rw [Bool.eq_iff_iff, beq_iff_eq, decide_eq_true_iff]
  exact LawfulEqCmp.compare_eq_iff_eq.symm

theorem EnumConst.orderedByKeys :
    OrderedByKeys settings Raw.enumConst (fun e => .ok e.tuple) (fun _ => True) id EnumConst.tuple
      EnumConst.compare where
  order_spec x y := ⟨_, rfl, (WalkSpec.pure _).congr (by simp)⟩
  equal_eq x y := congrArg Except.ok (decide_eq_beq EnumConst.compare x y)
  key_spec x := WalkSpec.pure _
  tuple_ordered := EnumConst.tuple_ordered settings

theorem ClassLiteral.orderedByKeys :
    OrderedByKeys settings Raw.classLiteral (fun c => .ok c.key.tuple) (fun _ => True)
      ClassLiteral.key ClassKey.tuple ClassKey.compare where
  order_spec x y := ⟨_, rfl, (WalkSpec.pure _).congr (by simp)⟩
  equal_eq x y := congrArg Except.ok (decide_eq_beq ClassKey.compare x.key y.key)
  key_spec x := WalkSpec.pure _
  tuple_ordered := ClassKey.tuple_ordered settings

theorem liftWalk_map {α β : Type} (f : α → β) (r : Except TooDeep α) :
    liftWalk (r.map f) = (liftWalk r).map f := by
  cases r <;> rfl

theorem liftWalk_eq_ok {α : Type} {r : Except TooDeep α} {x : α} :
    liftWalk r = .ok x ↔ r = .ok x := by
  cases r with
  | ok y => exact ⟨fun h => congrArg _ (Except.ok.inj h), fun h => congrArg _ (Except.ok.inj h)⟩
  | error e => exact ⟨nofun, nofun⟩

theorem Parameter.compare_spec (p q : Parameter) :
    WalkSpec settings.maxDepth [.compare, .render]
      (p.value.Fits settings.maxDepth 0 ∧ q.value.Fits settings.maxDepth 0)
      ((p.fullKey settings).compare (q.fullKey settings)) (p.compare settings q) := by
  have hp := (p.key_spec settings 0).mono (List.subset_cons_self .compare [.render])
  have hq := (q.key_spec settings 0).mono (List.subset_cons_self .compare [.render])
  refine WalkSpec.congr ?_ (WalkSpec.bind hp (WalkSpec.bind hq (WalkSpec.pure _)))
  simp

theorem Annot.compare_spec (a b : Annot) :
    WalkSpec settings.maxDepth [.compare, .render]
      (a.Fits settings.maxDepth 0 ∧ b.Fits settings.maxDepth 0)
      ((a.fullKey settings).compare (b.fullKey settings)) (a.compare settings b) := by
  have ha := a.key_spec settings 0
  have hb := b.key_spec settings 0
  refine WalkSpec.congr ?_ (WalkSpec.bind ha (WalkSpec.bind hb (WalkSpec.pure _)))
  simp

theorem Parameter.orderedByKeys :
    OrderedByKeys settings Raw.parameter (fun p => (p.key settings 0).map ParameterKey.tuple)
      (fun p => p.value.Fits settings.maxDepth 0) (Parameter.fullKey settings) ParameterKey.tuple
      ParameterKey.compare where
  order_spec x y := ⟨_, rfl, x.compare_spec settings y⟩
  equal_eq x y := liftWalk_map (· == Ordering.eq) (x.compare settings y)
  key_spec x := ((x.key_spec settings 0).mono (List.subset_cons_self _ _)).map ParameterKey.tuple
  tuple_ordered := ParameterKey.tuple_ordered settings

theorem Annot.orderedByKeys :
    OrderedByKeys settings Raw.annot (fun a => (a.key settings 0).map AnnotKey.tuple)
      (fun a => a.Fits settings.maxDepth 0) (Annot.fullKey settings) AnnotKey.tuple
      AnnotKey.compare where
  order_spec x y := ⟨_, rfl, x.compare_spec settings y⟩
  equal_eq x y := liftWalk_map (· == Ordering.eq) (x.compare settings y)
  key_spec x := (x.key_spec settings 0).map AnnotKey.tuple
  tuple_ordered := AnnotKey.tuple_ordered settings

end Kinds

section Equality

variable {settings : Settings}

/-- Two raw values can be compared and are equal. -/
def Raw.Equals (settings : Settings) (r s : Raw) : Prop :=
  r.equal settings s = .ok true

/-- **Parameters are equal** if their values fit and their keys are the same. -/
theorem Parameter.equals_iff {p q : Parameter} :
    (Raw.parameter p).Equals settings (.parameter q) ↔
      (p.value.Fits settings.maxDepth 0 ∧ q.value.Fits settings.maxDepth 0) ∧
        p.fullKey settings = q.fullKey settings := by
  have hequal : (Raw.parameter p).equal settings (.parameter q) =
      liftWalk ((p.compare settings q).map (· == .eq)) := rfl
  have hspec := (p.compare_spec settings q).map (· == .eq)
  rw [Raw.Equals, hequal, liftWalk_eq_ok, hspec.eq_ok_iff, beq_iff_eq,
    LawfulEqCmp.compare_eq_iff_eq]

/-- **Annotations are equal** if they fit and their keys are the same. -/
theorem Annot.equals_iff {a b : Annot} :
    (Raw.annot a).Equals settings (.annot b) ↔
      (a.Fits settings.maxDepth 0 ∧ b.Fits settings.maxDepth 0) ∧
        a.fullKey settings = b.fullKey settings := by
  have hequal : (Raw.annot a).equal settings (.annot b) =
      liftWalk ((a.compare settings b).map (· == .eq)) := rfl
  have hspec := (a.compare_spec settings b).map (· == .eq)
  rw [Raw.Equals, hequal, liftWalk_eq_ok, hspec.eq_ok_iff, beq_iff_eq,
    LawfulEqCmp.compare_eq_iff_eq]

end Equality

/-! ## §4 The orders in words -/

/-- The order of parameters: names by code point, then absent before present, and then the
rendered texts of the values. -/
def Parameter.referenceOrder (settings : Settings) (p q : Parameter) :
    Except TooDeep Ordering :=
  match codePointOrder p.name q.name with
  | .eq =>
    match p.value.isAbsent, q.value.isAbsent with
    | true, true => .ok .eq
    | true, false => .ok .lt
    | false, true => .ok .gt
    | false, false => do
      let s ← p.value.render settings 0
      let t ← q.value.render settings 0
      return codePointOrder s t
  | o => .ok o

/-- The order of lists of parameters: pairwise from the left, and a list comes before its
extensions. -/
def Parameter.referenceOrderList (settings : Settings) :
    List Parameter → List Parameter → Except TooDeep Ordering
  | [], [] => .ok .eq
  | [], _ :: _ => .ok .lt
  | _ :: _, [] => .ok .gt
  | p :: ps, q :: qs => do
    match ← p.compare settings q with
    | .eq => Parameter.referenceOrderList settings ps qs
    | o => return o

/-- The order of annotations: names by code point, then unknown parameters before known ones, and
then the parameters. -/
def Annot.referenceOrder (settings : Settings) (a b : Annot) : Except TooDeep Ordering :=
  match codePointOrder a.name b.name with
  | .eq =>
    match a.parameters, b.parameters with
    | none, none => .ok .eq
    | none, some _ => .ok .lt
    | some _, none => .ok .gt
    | some ps, some qs => Parameter.referenceOrderList settings ps qs
  | o => .ok o

section Reference

variable (settings : Settings)

theorem Parameter.compare_eq_referenceOrder {p q : Parameter}
    (hp : p.value.Fits settings.maxDepth 0) (hq : q.value.Fits settings.maxDepth 0) :
    p.compare settings q = p.referenceOrder settings q := by
  have hrenderp := (p.value.render_spec settings 0).ok hp
  have hrenderq := (q.value.render_spec settings 0).ok hq
  rw [(p.compare_spec settings q).ok ⟨hp, hq⟩, ParameterKey.compare, Parameter.referenceOrder]
  simp only [Parameter.fullKey, compare_eq_codePointOrder]
  cases codePointOrder p.name q.name with
  | lt => rfl
  | gt => rfl
  | eq =>
    cases p.value.isAbsent with
    | true => cases q.value.isAbsent <;> rfl
    | false =>
      cases q.value.isAbsent with
      | true => rfl
      | false =>
        -- only here are the texts of the values needed
        rw [hrenderp, hrenderq]
        exact congrArg Except.ok (compare_eq_codePointOrder _ _)

theorem Parameter.referenceOrderList_eq {ps qs : List Parameter}
    (hps : ∀ p ∈ ps, p.value.Fits settings.maxDepth 0)
    (hqs : ∀ q ∈ qs, q.value.Fits settings.maxDepth 0) :
    Parameter.referenceOrderList settings ps qs =
      .ok (List.compareLex ParameterKey.compare (ps.map (Parameter.fullKey settings))
        (qs.map (Parameter.fullKey settings))) := by
  induction ps generalizing qs with
  | nil => cases qs <;> rfl
  | cons p ps ih =>
    cases qs with
    | nil => rfl
    | cons q qs =>
      rw [List.forall_mem_cons] at hps hqs
      rw [Parameter.referenceOrderList, (p.compare_spec settings q).ok ⟨hps.1, hqs.1⟩,
        List.map_cons, List.map_cons, List.compareLex_cons_cons]
      -- the tails are looked at only if the heads are equal
      cases (p.fullKey settings).compare (q.fullKey settings) with
      | lt => rfl
      | gt => rfl
      | eq => exact ih hps.2 hqs.2

theorem Annot.compare_eq_referenceOrder {a b : Annot}
    (ha : a.Fits settings.maxDepth 0) (hb : b.Fits settings.maxDepth 0) :
    a.compare settings b = a.referenceOrder settings b := by
  rw [(a.compare_spec settings b).ok ⟨ha, hb⟩, AnnotKey.compare, Annot.referenceOrder]
  rw [Annot.fits_iff] at ha hb
  obtain ⟨m, _ | ps⟩ := a
  · obtain ⟨n, _ | qs⟩ := b
    all_goals
      simp only [Annot.fullKey, compare_eq_codePointOrder]
      cases codePointOrder m n <;> rfl
  · obtain ⟨n, _ | qs⟩ := b
    · simp only [Annot.fullKey, compare_eq_codePointOrder]
      cases codePointOrder m n <;> rfl
    · simp only [Annot.fullKey, compare_eq_codePointOrder]
      cases codePointOrder m n with
      | lt => rfl
      | gt => rfl
      | eq => exact (Parameter.referenceOrderList_eq settings ha.2 hb.2).symm

end Reference

/-! ## §5 One total order -/

/-- A parameter whose value holds an array or an annotation beyond the bound. -/
def Parameter.TooDeeplyNested (settings : Settings) (p : Parameter) : Prop :=
  ∃ n ∈ p.value.levels 0, settings.maxDepth < n

/-- An annotation that is, or holds, an array or an annotation beyond the bound. -/
def Annot.TooDeeplyNested (settings : Settings) (a : Annot) : Prop :=
  ∃ n ∈ a.levels 0, settings.maxDepth < n

theorem Parameter.tooDeeplyNested_iff {settings : Settings} {p : Parameter} :
    p.TooDeeplyNested settings ↔ ¬p.value.Fits settings.maxDepth 0 := by
  simp [Parameter.TooDeeplyNested, Value.Fits]

theorem Annot.tooDeeplyNested_iff {settings : Settings} {a : Annot} :
    a.TooDeeplyNested settings ↔ ¬a.Fits settings.maxDepth 0 := by
  simp [Annot.TooDeeplyNested, Annot.Fits]

/-- **One total order**: comparison is a total order of enum constants, of class literals, of
parameters and of annotations, which equality, the relations of order and hashing follow, and it
fails exactly where one of the two is nested too deep. Parameters and annotations are in the order
in words. -/
theorem compare_is_total_order (settings : Settings) :
    OrderLaws settings Raw.enumConst (fun e => .ok e.tuple) (fun _ => False) ∧
    OrderLaws settings Raw.classLiteral (fun c => .ok c.key.tuple) (fun _ => False) ∧
    OrderLaws settings Raw.parameter (fun p => (p.key settings 0).map ParameterKey.tuple)
      (Parameter.TooDeeplyNested settings) ∧
    OrderLaws settings Raw.annot (fun a => (a.key settings 0).map AnnotKey.tuple)
      (Annot.TooDeeplyNested settings) ∧
    (∀ p q : Parameter, ¬p.TooDeeplyNested settings → ¬q.TooDeeplyNested settings →
      ∃ o, p.referenceOrder settings q = .ok o ∧
        (Raw.parameter p).compareNumber settings (.parameter q) = .ok (Raw.orderNumber o)) ∧
    (∀ a b : Annot, ¬a.TooDeeplyNested settings → ¬b.TooDeeplyNested settings →
      ∃ o, a.referenceOrder settings b = .ok o ∧
        (Raw.annot a).compareNumber settings (.annot b) = .ok (Raw.orderNumber o)) := by
  have hparameters := Parameter.orderedByKeys settings
  have hannots := Annot.orderedByKeys settings
  refine ⟨(EnumConst.orderedByKeys settings).laws (by simp),
    (ClassLiteral.orderedByKeys settings).laws (by simp),
    hparameters.laws fun _ => Parameter.tooDeeplyNested_iff,
    hannots.laws fun _ => Annot.tooDeeplyNested_iff, ?_, ?_⟩
  · intro p q hp hq
    rw [Parameter.tooDeeplyNested_iff, not_not] at hp hq
    refine ⟨_, ?_, hparameters.compareNumber_ok hp hq⟩
    rw [← Parameter.compare_eq_referenceOrder settings hp hq]
    exact (p.compare_spec settings q).ok ⟨hp, hq⟩
  · intro a b ha hb
    rw [Annot.tooDeeplyNested_iff, not_not] at ha hb
    refine ⟨_, ?_, hannots.compareNumber_ok ha hb⟩
    rw [← Annot.compare_eq_referenceOrder settings ha hb]
    exact (a.compare_spec settings b).ok ⟨ha, hb⟩

end AnnoTree
