import AnnoTree.Proofs.Json.Numbers
import AnnoTree.Proofs.Nesting.Walks
import AnnoTree.Raw.Fields

/-!
# Where encoding stops

A raw value is a finite tree of lists and tuples. Its nodes are counted here in pre-order, each with
the number of lists and tuples around it, without any walk of the library. Encoding fails at the
first node that is out of order: a list or tuple that is nested too deep, or a leaf that no value
can hold. What it gives otherwise is a relation between raw values and values that knows nothing of
levels.

## Main definitions

- `Raw.nodes`: the nodes of a raw value in pre-order.
- `Raw.Node.isInOrder`, `Raw.Node.failure`: where encoding goes on, and how it fails elsewhere.
- `Raw.EncodesAs`: the value that a raw value stands for.
- `EncodingSpec`: encoding gives what it should, or fails at the first offence.

## Main statements

- `Raw.encode_spec`: encoding at any level meets its specification.
- `encoding_stops_at_first_offence`
-/

namespace AnnoTree

/-! ## §1 Nodes -/

/-- Whether a raw value is a list or a tuple. -/
def Raw.isSequence : Raw → Bool
  | .list _ => true
  | .tuple _ => true
  | _ => false

/-- A part of a raw value, with the number of lists and tuples around it. -/
structure Raw.Node where
  around : Nat
  raw : Raw

mutual

/-- The nodes of a raw value in pre-order: a list or tuple stands before its items. -/
def Raw.nodes (around : Nat) : Raw → List Raw.Node
  | .list items => ⟨around, .list items⟩ :: Raw.nodesList (around + 1) items
  | .tuple items => ⟨around, .tuple items⟩ :: Raw.nodesList (around + 1) items
  | raw => [⟨around, raw⟩]
termination_by structural r => r

/-- The nodes of raw values in pre-order. -/
def Raw.nodesList (around : Nat) : List Raw → List Raw.Node
  | [] => []
  | r :: rest => Raw.nodes around r ++ Raw.nodesList around rest
termination_by structural rs => rs

end

theorem Raw.nodes_of_leaf {around : Nat} {raw : Raw} (hleaf : raw.isSequence = false) :
    raw.nodes around = [⟨around, raw⟩] := by
  cases raw <;> first | rfl | cases hleaf

theorem Raw.nodesList_eq_flatMap (around : Nat) (rs : List Raw) :
    Raw.nodesList around rs = rs.flatMap (Raw.nodes around) := by
  induction rs with
  | nil => rfl
  | cons r rest ih => rw [Raw.nodesList, ih, List.flatMap_cons]

namespace Raw.Node

/-- Whether encoding goes on at a node: a list or tuple is not nested too deep, and a leaf has a
value. -/
def isInOrder (settings : Settings) : Raw.Node → Bool
  | ⟨around, .list _⟩ => decide (around ≤ settings.maxDepth)
  | ⟨around, .tuple _⟩ => decide (around ≤ settings.maxDepth)
  | ⟨_, .int i⟩ => decide (IntegerKind.long.Holds i)
  | ⟨_, .null⟩ => true
  | ⟨_, .value _⟩ => true
  | ⟨_, .bool _⟩ => true
  | ⟨_, .float _⟩ => true
  | ⟨_, .text _⟩ => true
  | ⟨_, .enumConst _⟩ => true
  | ⟨_, .classLiteral _⟩ => true
  | ⟨_, .annot _⟩ => true
  | ⟨_, .mapping _⟩ => false
  | ⟨_, .set _⟩ => false
  | ⟨_, .bytes _⟩ => false
  | ⟨_, .foreign _⟩ => false
  | ⟨_, .parameter _⟩ => false

/-- The failure of encoding at a node that is out of order. An integer that is too long to be told
of is a fault of a field of its value instead. -/
def failure (settings : Settings) (n : Raw.Node) : Failure :=
  match n.raw with
  | .list _ => .tooDeep ⟨settings.maxDepth, .encode⟩
  | .tuple _ => .tooDeep ⟨settings.maxDepth, .encode⟩
  | .int i =>
    if h : Text.isTooLong i = false then
      .unsupported ⟨(Raw.int i).typeName, some (.outOfRange i (.integer .long) h)⟩
    else .fields [⟨[], .valueError⟩]
  | raw => .unsupported ⟨raw.typeName, none⟩

theorem isInOrder_of_isSequence {settings : Settings} {n : Raw.Node} (h : n.raw.isSequence) :
    n.isInOrder settings = decide (n.around ≤ settings.maxDepth) := by
  obtain ⟨around, raw⟩ := n
  cases raw <;> first | rfl | cases h

theorem failure_of_isSequence {settings : Settings} {n : Raw.Node} (h : n.raw.isSequence) :
    n.failure settings = .tooDeep ⟨settings.maxDepth, .encode⟩ := by
  obtain ⟨around, raw⟩ := n
  cases raw <;> first | rfl | cases h

/-- The first node that is out of order. -/
def firstOffence? (settings : Settings) (nodes : List Raw.Node) : Option Raw.Node :=
  nodes.find? fun n => !n.isInOrder settings

section Offences

variable {settings : Settings} {xs ys : List Raw.Node} {n : Raw.Node}

theorem firstOffence?_append :
    firstOffence? settings (xs ++ ys) =
      (firstOffence? settings xs).or (firstOffence? settings ys) :=
  List.find?_append

theorem firstOffence?_cons :
    firstOffence? settings (n :: xs) =
      (firstOffence? settings [n]).or (firstOffence? settings xs) := by
  rw [← firstOffence?_append, List.singleton_append]

theorem firstOffence?_of_isInOrder (h : n.isInOrder settings) :
    firstOffence? settings [n] = none := by
  simp [firstOffence?, h]

theorem firstOffence?_of_not_isInOrder (h : n.isInOrder settings = false) :
    firstOffence? settings [n] = some n := by
  simp [firstOffence?, h]

theorem firstOffence?_eq_none_iff :
    firstOffence? settings xs = none ↔ ∀ n ∈ xs, n.isInOrder settings := by
  simp [firstOffence?, List.find?_eq_none]

theorem firstOffence?_eq_some_iff :
    firstOffence? settings xs = some n ↔
      ∃ before after, xs = before ++ n :: after ∧
        (∀ m ∈ before, m.isInOrder settings) ∧ n.isInOrder settings = false := by
  simp only [firstOffence?, List.find?_eq_some_iff_append, Bool.not_eq_true', Bool.not_not]
  constructor
  · rintro ⟨hn, before, after, heq, hbefore⟩
    exact ⟨before, after, heq, hbefore, hn⟩
  · rintro ⟨before, after, heq, hbefore, hn⟩
    exact ⟨hn, before, after, heq, hbefore⟩

end Offences

end Raw.Node

/-! ## §2 The value of a raw value -/

/-- A raw value stands for a value: an integer for one of kind `int` where it fits, a list or tuple
for an array of as many items in the same order, and what is encoded already for itself. -/
inductive Raw.EncodesAs : Raw → Value → Prop
  | null : EncodesAs .null .absent
  | value (v : Value) : EncodesAs (.value v) v
  | bool (b : Bool) : EncodesAs (.bool b) (.scalar (.boolean b))
  | int (i : Int) (hint : IntegerKind.int.Holds i) :
    EncodesAs (.int i) (.scalar (.integer .int i hint))
  | long (i : Int) (hint : ¬IntegerKind.int.Holds i) (hlong : IntegerKind.long.Holds i) :
    EncodesAs (.int i) (.scalar (.integer .long i hlong))
  | float (x : Double) : EncodesAs (.float x) (.scalar (.floating .double x))
  | text (s : Str) : EncodesAs (.text s) (.string s)
  | enumConst (ref : EnumConst) : EncodesAs (.enumConst ref) (.enumConst ref)
  | classLiteral (ref : ClassLiteral) : EncodesAs (.classLiteral ref) (.classLiteral ref)
  | annot (a : Annot) : EncodesAs (.annot a) (.annot a)
  | list {items : List Raw} {vs : List Value} (hitems : List.Forall₂ EncodesAs items vs) :
    EncodesAs (.list items) (.array vs)
  | tuple {items : List Raw} {vs : List Value} (hitems : List.Forall₂ EncodesAs items vs) :
    EncodesAs (.tuple items) (.array vs)

/-- What an induction over the lists and tuples of a raw value has to show. -/
structure RawCases (P : Raw → Prop) : Prop where
  list : ∀ items, (∀ r ∈ items, P r) → P (.list items)
  tuple : ∀ items, (∀ r ∈ items, P r) → P (.tuple items)
  leaf : ∀ raw, raw.isSequence = false → P raw

namespace RawCases

variable {P : Raw → Prop}

mutual

private theorem ofRaw (h : RawCases P) : ∀ raw, P raw
  | .list items => h.list items (ofRaws h items)
  | .tuple items => h.tuple items (ofRaws h items)
  | .null => h.leaf .null rfl
  | .bool b => h.leaf (.bool b) rfl
  | .int i => h.leaf (.int i) rfl
  | .float x => h.leaf (.float x) rfl
  | .text s => h.leaf (.text s) rfl
  | .mapping entries => h.leaf (.mapping entries) rfl
  | .set items => h.leaf (.set items) rfl
  | .bytes octets => h.leaf (.bytes octets) rfl
  | .foreign name => h.leaf (.foreign name) rfl
  | .enumConst ref => h.leaf (.enumConst ref) rfl
  | .classLiteral ref => h.leaf (.classLiteral ref) rfl
  | .value v => h.leaf (.value v) rfl
  | .parameter p => h.leaf (.parameter p) rfl
  | .annot a => h.leaf (.annot a) rfl
termination_by structural raw => raw

private theorem ofRaws (h : RawCases P) : ∀ raws : List Raw, ∀ r ∈ raws, P r
  | [] => by simp
  | r :: rest => List.forall_mem_cons.mpr ⟨ofRaw h r, ofRaws h rest⟩
termination_by structural raws => raws

end

/-- Induction over the lists and tuples of a raw value. -/
theorem all (h : RawCases P) : ∀ raw, P raw :=
  h.ofRaw

end RawCases

/-! ## §3 The specification of encoding -/

/-- Encoding gives a result with a property if there is no offence, and the failure of the offence
if there is one. -/
structure EncodingSpec {α : Type} (settings : Settings) (offence : Option Raw.Node)
    (P : α → Prop) (r : Except Failure α) : Prop where
  ok : offence = none → ∃ x, r = .ok x ∧ P x
  error : ∀ n, offence = some n → r = .error (n.failure settings)

namespace EncodingSpec

open Raw.Node

variable {α β : Type} {settings : Settings} {offence later : Option Raw.Node}
  {P : α → Prop} {Q : β → Prop} {r : Except Failure α}

theorem pure {x : α} (h : P x) : EncodingSpec settings none P (.ok x) where
  ok _ := ⟨x, rfl, h⟩
  error _ hn := by cases hn

theorem bind {f : α → Except Failure β} (hr : EncodingSpec settings offence P r)
    (hf : ∀ x, P x → EncodingSpec settings later Q (f x)) :
    EncodingSpec settings (offence.or later) Q (r >>= f) where
  ok h := by
    obtain ⟨hoffence, hlater⟩ := Option.or_eq_none_iff.mp h
    obtain ⟨x, hx, hP⟩ := hr.ok hoffence
    rw [hx]
    exact (hf x hP).ok hlater
  error n h := by
    cases offence with
    | some m =>
      cases h
      rw [hr.error n rfl]
      rfl
    | none =>
      obtain ⟨x, hx, hP⟩ := hr.ok rfl
      rw [hx]
      exact (hf x hP).error n h

/-- What is made of a result has no offence of its own. -/
theorem map {f : α → β} (hr : EncodingSpec settings offence P r) (hf : ∀ x, P x → Q (f x)) :
    EncodingSpec settings offence Q (r >>= fun x => .ok (f x)) := by
  have hbind : EncodingSpec settings (offence.or none) Q (r >>= fun x => .ok (f x)) :=
    bind hr fun x hx => pure (hf x hx)
  rwa [Option.or_none] at hbind

theorem exists_ok_iff (h : EncodingSpec settings offence P r) :
    (∃ x, r = .ok x) ↔ offence = none := by
  cases offence with
  | none =>
    obtain ⟨x, hx, -⟩ := h.ok rfl
    exact iff_of_true ⟨x, hx⟩ rfl
  | some n =>
    rw [h.error n rfl]
    simp

theorem of_eq_ok (h : EncodingSpec settings offence P r) {x : α} (hx : r = .ok x) : P x := by
  obtain ⟨y, hy, hP⟩ := h.ok (h.exists_ok_iff.mp ⟨x, hx⟩)
  rw [hx] at hy
  exact Except.ok.inj hy ▸ hP

theorem eq_error_iff (h : EncodingSpec settings offence P r) {e : Failure} :
    r = .error e ↔ ∃ n, offence = some n ∧ e = n.failure settings := by
  cases offence with
  | none =>
    obtain ⟨x, hx, -⟩ := h.ok rfl
    simp [hx]
  | some n =>
    rw [h.error n rfl]
    simp [eq_comm]

/-- A leaf that has a value is no offence. -/
theorem leaf {n : Raw.Node} {x : α} (hn : n.isInOrder settings) (h : P x) :
    EncodingSpec settings (firstOffence? settings [n]) P (.ok x) := by
  rw [firstOffence?_of_isInOrder hn]
  exact pure h

/-- A leaf that no value can hold is an offence. -/
theorem stop {n : Raw.Node} (hn : n.isInOrder settings = false) :
    EncodingSpec settings (firstOffence? settings [n]) P (.error (n.failure settings)) := by
  rw [firstOffence?_of_not_isInOrder hn]
  exact
    { ok := fun h => by cases h
      error := fun m hm => by rw [Option.some.inj hm] }

/-- The level of a list or tuple is looked at first. -/
theorem level {n : Raw.Node} (hseq : n.raw.isSequence) :
    EncodingSpec settings (firstOffence? settings [n]) (fun _ => True)
      (liftWalk (checkDepth settings n.around .encode)) := by
  by_cases hn : n.around ≤ settings.maxDepth
  · have hin : n.isInOrder settings := by rw [isInOrder_of_isSequence hseq, decide_eq_true hn]
    rw [checkDepth_of_le hn]
    exact leaf hin trivial
  · have hout : n.isInOrder settings = false := by
      rw [isInOrder_of_isSequence hseq, decide_eq_false hn]
    have hstop := stop (P := fun _ : Unit => True) hout
    rw [failure_of_isSequence hseq] at hstop
    rwa [checkDepth_of_lt (Nat.lt_of_not_le hn)]

/-- Encoding items stops at the first offence among the nodes of all of them. -/
theorem mapM {f : Raw → Except Failure Value} {nodes : Raw → List Raw.Node}
    {R : Raw → Value → Prop} {items : List Raw}
    (h : ∀ r ∈ items, EncodingSpec settings (firstOffence? settings (nodes r)) (R r) (f r)) :
    EncodingSpec settings (firstOffence? settings (items.flatMap nodes)) (List.Forall₂ R items)
      (items.mapM f) := by
  induction items with
  | nil => exact pure .nil
  | cons r rest ih =>
    rw [List.forall_mem_cons] at h
    rw [List.flatMap_cons, firstOffence?_append, List.mapM_cons]
    exact bind h.1 fun v hv => map (ih h.2) fun vs hvs => List.Forall₂.cons hv hvs

end EncodingSpec

/-! ## §4 Encoding meets it -/

section Encoding

variable (settings : Settings)

theorem Raw.encodeList_eq_mapM (around : Nat) (raws : List Raw) :
    Raw.encodeList settings around raws = raws.mapM (Raw.encode settings around) :=
  eq_mapM_of_step (g := Raw.encodeList settings around) rfl (fun _ _ => rfl) raws

/-- An integer that no kind holds is an offence. -/
theorem Raw.encode_int_of_not_holds (around : Nat) {i : Int} (h : ¬IntegerKind.long.Holds i) :
    Raw.encode settings around (.int i) = .error (Raw.Node.failure settings ⟨around, .int i⟩) := by
  have hint : ¬IntegerKind.int.Holds i := by
    simp only [IntegerKind.Holds, IntegerKind.half] at h ⊢
    omega
  by_cases hshort : Text.isTooLong i = false
  · simp [Raw.encode, integerKind, Scalar.ofRaw, Scalar.outOfRange, Scalar.misfit,
      LiteralFault.failure, Raw.Node.failure, hint, h, hshort, Except.mapError, Except.map]
  · simp [Raw.encode, integerKind, Scalar.ofRaw, Scalar.outOfRange, LiteralFault.failure,
      Raw.Node.failure, hint, h, hshort, Except.mapError, Except.map]

/-- An integer becomes one of kind `int` where it fits, one of kind `long` where only that holds
it, and is an offence where neither does. -/
theorem Raw.encode_int_spec (around : Nat) (i : Int) :
    EncodingSpec settings (Raw.Node.firstOffence? settings [⟨around, .int i⟩])
      (Raw.EncodesAs (.int i)) (Raw.encode settings around (.int i)) := by
  by_cases hint : IntegerKind.int.Holds i
  · have hlong : IntegerKind.long.Holds i := by
      simp only [IntegerKind.Holds, IntegerKind.half] at hint ⊢
      omega
    have hencode : Raw.encode settings around (.int i) = .ok (.scalar (.integer .int i hint)) := by
      simp [Raw.encode, integerKind, Scalar.ofRaw, hint, Except.mapError, Except.map]
    rw [hencode]
    exact EncodingSpec.leaf (by simpa [Raw.Node.isInOrder] using hlong) (.int i hint)
  · by_cases hlong : IntegerKind.long.Holds i
    · have hencode :
          Raw.encode settings around (.int i) = .ok (.scalar (.integer .long i hlong)) := by
        simp [Raw.encode, integerKind, Scalar.ofRaw, hint, hlong, Except.mapError, Except.map]
      rw [hencode]
      exact EncodingSpec.leaf (by simpa [Raw.Node.isInOrder] using hlong) (.long i hint hlong)
    · rw [Raw.encode_int_of_not_holds settings around hlong]
      exact EncodingSpec.stop (by simpa [Raw.Node.isInOrder] using hlong)

/-- A list or tuple looks at its level and then at its items, which are one level deeper. -/
theorem Raw.encode_items_spec {around : Nat} {raw : Raw} {items : List Raw}
    (hseq : raw.isSequence)
    (hitems : ∀ r ∈ items, ∀ around, EncodingSpec settings
      (Raw.Node.firstOffence? settings (r.nodes around)) r.EncodesAs (r.encode settings around))
    (hencodes : ∀ vs, List.Forall₂ Raw.EncodesAs items vs → raw.EncodesAs (.array vs)) :
    EncodingSpec settings
      (Raw.Node.firstOffence? settings (⟨around, raw⟩ :: Raw.nodesList (around + 1) items))
      raw.EncodesAs (do
        liftWalk (checkDepth settings around .encode)
        let vs ← Raw.encodeList settings (around + 1) items
        return .array vs) := by
  rw [Raw.Node.firstOffence?_cons, Raw.nodesList_eq_flatMap, Raw.encodeList_eq_mapM]
  refine EncodingSpec.bind (EncodingSpec.level (n := ⟨around, raw⟩) hseq) fun _ _ => ?_
  exact EncodingSpec.map (EncodingSpec.mapM fun r hr => hitems r hr (around + 1)) hencodes

private theorem encode_cases :
    RawCases fun raw => ∀ around : Nat,
      EncodingSpec settings (Raw.Node.firstOffence? settings (raw.nodes around)) raw.EncodesAs
        (raw.encode settings around) where
  list _ ih _ := Raw.encode_items_spec settings rfl ih fun _ => .list
  tuple _ ih _ := Raw.encode_items_spec settings rfl ih fun _ => .tuple
  leaf raw hleaf around := by
    rw [Raw.nodes_of_leaf hleaf]
    cases raw with
    | int i => exact Raw.encode_int_spec settings around i
    | null => exact EncodingSpec.leaf rfl .null
    | bool b => exact EncodingSpec.leaf rfl (.bool b)
    | float x => exact EncodingSpec.leaf rfl (.float x)
    | text s => exact EncodingSpec.leaf rfl (.text s)
    | enumConst ref => exact EncodingSpec.leaf rfl (.enumConst ref)
    | classLiteral ref => exact EncodingSpec.leaf rfl (.classLiteral ref)
    | value v => exact EncodingSpec.leaf rfl (.value v)
    | annot a => exact EncodingSpec.leaf rfl (.annot a)
    | mapping entries => exact EncodingSpec.stop rfl
    | set items => exact EncodingSpec.stop rfl
    | bytes octets => exact EncodingSpec.stop rfl
    | foreign name => exact EncodingSpec.stop rfl
    | parameter p => exact EncodingSpec.stop rfl
    | list items => cases hleaf
    | tuple items => cases hleaf

/-- **Encoding at any level** gives the value that the raw value stands for, or the failure of the
first node that is out of order. -/
theorem Raw.encode_spec (around : Nat) (raw : Raw) :
    EncodingSpec settings (Raw.Node.firstOffence? settings (raw.nodes around)) raw.EncodesAs
      (raw.encode settings around) :=
  (encode_cases settings).all raw around

end Encoding

/-! ## §5 Encoding and the other walks -/

/-- Whether a raw value is a tree that was made before: a value or an annotation. -/
def Raw.isMade : Raw → Bool
  | .value _ => true
  | .annot _ => true
  | _ => false

/-- The levels of the lists and tuples of a raw value. -/
def Raw.levels (around : Nat) (raw : Raw) : List Nat :=
  ((raw.nodes around).filter (·.raw.isSequence)).map (·.around)

section Levels

variable {around : Nat} {raw : Raw} {items : List Raw}

theorem Raw.levels_list :
    (Raw.list items).levels around = around :: items.flatMap (Raw.levels (around + 1)) := by
  simp only [Raw.levels, Raw.nodes, Raw.nodesList_eq_flatMap, List.filter_flatMap,
    List.map_flatMap, List.filter_cons, Raw.isSequence, if_true, List.map_cons]
  rfl

theorem Raw.levels_tuple :
    (Raw.tuple items).levels around = around :: items.flatMap (Raw.levels (around + 1)) :=
  Raw.levels_list

theorem Raw.levels_of_leaf (hleaf : raw.isSequence = false) : raw.levels around = [] := by
  simp [Raw.levels, Raw.nodes_of_leaf hleaf, hleaf]

theorem Raw.forall_mem_nodesList {P : Raw.Node → Prop} :
    (∀ n ∈ Raw.nodesList around items, P n) ↔ ∀ r ∈ items, ∀ n ∈ r.nodes around, P n := by
  simp only [Raw.nodesList_eq_flatMap, List.mem_flatMap]
  exact ⟨fun h r hr n hn => h n ⟨r, hr, hn⟩, fun h n ⟨r, hr, hn⟩ => h r hr n hn⟩

theorem Value.levelsList_of_encodesAs {vs : List Value}
    (hitems : List.Forall₂ Raw.EncodesAs items vs)
    (ih : ∀ r ∈ items, ∀ v, r.EncodesAs v → v.levels around = r.levels around) :
    Value.levelsList around vs = items.flatMap (Raw.levels around) := by
  induction hitems with
  | nil => rfl
  | cons hv _ ihrest =>
    rw [List.forall_mem_cons] at ih
    rw [Value.levelsList, List.flatMap_cons, ih.1 _ hv, ihrest ih.2]

theorem Value.levels_array_of_encodesAs {vs : List Value}
    (hitems : List.Forall₂ Raw.EncodesAs items vs)
    (hmade : ∀ n ∈ Raw.nodesList (around + 1) items, n.raw.isMade = false)
    (ih : ∀ r ∈ items, ∀ (around : Nat) (v : Value), r.EncodesAs v →
      (∀ n ∈ r.nodes around, n.raw.isMade = false) → v.levels around = r.levels around) :
    (Value.array vs).levels around = around :: items.flatMap (Raw.levels (around + 1)) := by
  rw [Raw.forall_mem_nodesList] at hmade
  rw [Value.levels, Value.levelsList_of_encodesAs hitems]
  exact fun r hr v hv => ih r hr (around + 1) v hv (hmade r hr)

private theorem levels_cases :
    RawCases fun raw => ∀ (around : Nat) (v : Value), raw.EncodesAs v →
      (∀ n ∈ raw.nodes around, n.raw.isMade = false) → v.levels around = raw.levels around where
  list items ih around v hv hmade := by
    cases hv with
    | list hitems =>
      rw [Raw.levels_list]
      exact Value.levels_array_of_encodesAs hitems (List.forall_mem_cons.mp hmade).2 ih
  tuple items ih around v hv hmade := by
    cases hv with
    | tuple hitems =>
      rw [Raw.levels_tuple]
      exact Value.levels_array_of_encodesAs hitems (List.forall_mem_cons.mp hmade).2 ih
  leaf raw hleaf around v hv hmade := by
    rw [Raw.levels_of_leaf hleaf]
    rw [Raw.nodes_of_leaf hleaf, List.forall_mem_singleton] at hmade
    cases hv with
    | value v => cases hmade
    | annot a => cases hmade
    | list hitems => cases hleaf
    | tuple hitems => cases hleaf
    | _ => rfl

/-- The levels of a value are those of the lists and tuples that it was made of. -/
theorem Raw.EncodesAs.levels_eq {v : Value} (hv : raw.EncodesAs v)
    (hmade : ∀ n ∈ raw.nodes around, n.raw.isMade = false) :
    v.levels around = raw.levels around :=
  levels_cases.all raw around v hv hmade

/-- A value that encoding gives fits the limit that encoding kept. -/
theorem Raw.EncodesAs.fits {settings : Settings} {v : Value} (hv : raw.EncodesAs v)
    (hmade : ∀ n ∈ raw.nodes around, n.raw.isMade = false)
    (horder : ∀ n ∈ raw.nodes around, n.isInOrder settings) : v.Fits settings.maxDepth around := by
  intro level hlevel
  rw [hv.levels_eq hmade, Raw.levels, List.mem_map] at hlevel
  obtain ⟨n, hn, rfl⟩ := hlevel
  obtain ⟨hmem, hseq⟩ := List.mem_filter.mp hn
  simpa [Raw.Node.isInOrder_of_isSequence hseq] using horder n hmem

end Levels

/-! ## §6 The first offence -/

/-- **Encoding stops at the first offence.** It succeeds exactly if no list or tuple has more of
them around it than the limit and every leaf has a value, and otherwise it fails with the failure of
the first node, in pre-order, of which this does not hold: a list or tuple is nested too deep, and
the type of a leaf is not supported, which an integer out of range is only told as far as it can be
written. What encoding gives is the value that the raw value stands for. If nothing in the raw value
was made before, it can be rendered, serialized and compared under the same limit. -/
theorem encoding_stops_at_first_offence (settings : Settings) (raw : Raw) :
    ((∃ v, raw.encode settings 0 = .ok v) ↔ ∀ n ∈ raw.nodes 0, n.isInOrder settings) ∧
    (∀ e, raw.encode settings 0 = .error e ↔
      ∃ before n after, raw.nodes 0 = before ++ n :: after ∧
        (∀ m ∈ before, m.isInOrder settings) ∧ n.isInOrder settings = false ∧
        e = n.failure settings) ∧
    ∀ v, raw.encode settings 0 = .ok v →
      raw.EncodesAs v ∧
      ((∀ n ∈ raw.nodes 0, n.raw.isMade = false) →
        (∃ text, v.render settings 0 = .ok text) ∧ (∃ stored, v.payload settings 0 = .ok stored) ∧
        ∃ key, v.key settings 0 = .ok key) := by
  have hspec := Raw.encode_spec settings 0 raw
  refine ⟨hspec.exists_ok_iff.trans Raw.Node.firstOffence?_eq_none_iff, fun e => ?failure,
    fun v hv => ⟨hspec.of_eq_ok hv, fun hmade => ?walks⟩⟩
  case failure =>
    rw [hspec.eq_error_iff]
    constructor
    · rintro ⟨n, hoffence, he⟩
      obtain ⟨before, after, hnodes, hbefore, hn⟩ :=
        Raw.Node.firstOffence?_eq_some_iff.mp hoffence
      exact ⟨before, n, after, hnodes, hbefore, hn, he⟩
    · rintro ⟨before, n, after, hnodes, hbefore, hn, he⟩
      exact ⟨n, Raw.Node.firstOffence?_eq_some_iff.mpr ⟨before, after, hnodes, hbefore, hn⟩, he⟩
  case walks =>
    have hoffence := hspec.exists_ok_iff.mp ⟨v, hv⟩
    have hfits := (hspec.of_eq_ok hv).fits hmade (Raw.Node.firstOffence?_eq_none_iff.mp hoffence)
    exact ⟨⟨_, (Value.render_spec settings 0 v).ok hfits⟩,
      ⟨_, (Value.payload_spec settings 0 v).ok hfits⟩,
      ⟨_, (Value.key_spec settings 0 v).ok hfits⟩⟩

/-- A case of it: the list that is too deep stands before the octets, so its failure is the one. -/
theorem nested_list_offends_first :
    (Raw.list [.int 0x80000000, .tuple [.list []], .bytes []]).encode { maxDepth := 1 } 0 =
      .error (.tooDeep ⟨1, .encode⟩) := by
  obtain ⟨-, hfailure, -⟩ := encoding_stops_at_first_offence { maxDepth := 1 }
    (Raw.list [.int 0x80000000, .tuple [.list []], .bytes []])
  refine (hfailure _).mpr ⟨[⟨0, _⟩, ⟨1, .int 0x80000000⟩, ⟨1, .tuple [.list []]⟩], ⟨2, .list []⟩,
    [⟨1, .bytes []⟩], rfl, ?_, rfl, rfl⟩
  simp [Raw.Node.isInOrder, IntegerKind.Holds, IntegerKind.half]

/-- It is not so that an integer out of range is told of as one of a type that is not supported: the
wording of the failure has the integer in it, and one of too many digits is not written. -/
theorem long_integers_are_not_worded :
    ¬∀ (settings : Settings) (i : Int), ¬IntegerKind.long.Holds i →
      ∃ misfit, (Raw.int i).encode settings 0 = .error (.unsupported ⟨"int", misfit⟩) := by
  intro hworded
  -- the least integer that is too long
  obtain ⟨i, hi⟩ : ∃ i : Int, i.natAbs = 10 ^ Text.maxDigits :=
    ⟨(10 ^ Text.maxDigits : Nat), Int.natAbs_natCast _⟩
  have hlong : ¬Text.isTooLong i = false := by
    rw [Text.isTooLong_eq_false, hi]
    exact Nat.lt_irrefl _
  have hrange : ¬IntegerKind.long.Holds i := fun h => hlong h.isTooLong_eq_false
  obtain ⟨misfit, hencode⟩ := hworded {} i hrange
  rw [Raw.encode_int_of_not_holds {} 0 hrange] at hencode
  simp [Raw.Node.failure, hlong] at hencode

end AnnoTree
