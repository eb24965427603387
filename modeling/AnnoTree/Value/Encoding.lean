import AnnoTree.Raw.Equality

/-!
# Encoding and unwrapping

`Raw.encode` finds the value for a raw value: integers become `int` where they fit and `long` where
not, floating-point numbers become `double`, lists and tuples become arrays, and what is encoded
already stays as it is. `Value.unwrap` goes back.

The other scalar kinds have no raw value of their own; a producer names them (`Scalar.ofNamed`).
-/

namespace AnnoTree

/-! ## §1 Scalars -/

namespace Scalar

/-- The failure of a raw value to be a literal. -/
def misfit {α : Type} (raw : Raw) (m : Misfit) : Except LiteralFault α :=
  .error (.unsupported ⟨raw.typeName, some m⟩)

/-- The failure of an integer that is out of range. -/
def outOfRange {α : Type} (i : Int) (kind : ScalarKind) : Except LiteralFault α :=
  if h : Text.isTooLong i = false then misfit (.int i) (.outOfRange i kind h) else .error .unworded

theorem outOfRange_ne_ok {α : Type} {i : Int} {kind : ScalarKind} {x : α} :
    outOfRange i kind ≠ .ok x := by
  unfold outOfRange
  split <;> nofun

/-- The scalar of a kind that a raw value is the literal of. -/
def ofRaw (kind : ScalarKind) (raw : Raw) : Except LiteralFault Scalar :=
  match kind, raw with
  | .boolean, .bool b => .ok (.boolean b)
  | .integer k, .int i => if h : k.Holds i then .ok (.integer k i h) else outOfRange i kind
  | .floating k, .float x => .ok (.floating k x)
  | .floating k, .int i =>
    match Double.ofInt? i with
    | some x => .ok (.floating k x)
    | none => outOfRange i kind
  | .char, .text s =>
    match s.toList with
    | [c] => if h : c.toNat ≤ 0xFFFF then .ok (.char c h) else misfit raw .wideChar
    | _ => misfit raw (.notLiteral kind)
  | kind, raw => misfit raw (.notLiteral kind)

/-- The kind that a raw value names. -/
def kindOfRaw (settings : Settings) (raw : Raw) : Except Failure ScalarKind :=
  match raw.plainText?.bind ScalarKind.ofName? with
  | some k => .ok k
  | none => .error (raw.notOneOf settings .scalarKind)

/-- The scalar of a named kind. -/
def ofNamed (settings : Settings) (kind raw : Raw) : Except Failure Scalar := do
  let k ← kindOfRaw settings kind
  (ofRaw k raw).mapError LiteralFault.failure

/-- The literal of a scalar as a raw value. -/
def unwrap : Scalar → Raw
  | .integer _ i _ => .int i
  | .boolean b => .bool b
  | .floating _ x => .float x
  | .char c _ => .text (Str.singleton c)

end Scalar

/-! ## §2 Encoding -/

/-- The kind of a raw integer. -/
def integerKind (i : Int) : IntegerKind :=
  if IntegerKind.int.Holds i then .int else .long

mutual

/-- The value of a raw value at a level. -/
def Raw.encode (settings : Settings) (depth : Nat) : Raw → Except Failure Value
  | .null => .ok .absent
  | .value v => .ok v
  | .bool b => .ok (.scalar (.boolean b))
  | .int i =>
    ((Scalar.ofRaw (.integer (integerKind i)) (.int i)).mapError LiteralFault.failure).map .scalar
  | .float x => .ok (.scalar (.floating .double x))
  | .text s => .ok (.string s)
  | .enumConst ref => .ok (.enumConst ref)
  | .classLiteral ref => .ok (.classLiteral ref)
  | .annot a => .ok (.annot a)
  | .list items => do
    liftWalk (checkDepth settings depth .encode)
    let vs ← Raw.encodeList settings (depth + 1) items
    return .array vs
  | .tuple items => do
    liftWalk (checkDepth settings depth .encode)
    let vs ← Raw.encodeList settings (depth + 1) items
    return .array vs
  | .mapping entries => .error (.unsupported ⟨(Raw.mapping entries).typeName, none⟩)
  | .set items => .error (.unsupported ⟨(Raw.set items).typeName, none⟩)
  | .bytes octets => .error (.unsupported ⟨(Raw.bytes octets).typeName, none⟩)
  | .foreign name => .error (.unsupported ⟨(Raw.foreign name).typeName, none⟩)
  | .parameter p => .error (.unsupported ⟨(Raw.parameter p).typeName, none⟩)
termination_by structural r => r

/-- The values of raw values at a level. -/
def Raw.encodeList (settings : Settings) (depth : Nat) : List Raw → Except Failure (List Value)
  | [] => .ok []
  | r :: rest => do
    let v ← Raw.encode settings depth r
    let vs ← Raw.encodeList settings depth rest
    return v :: vs
termination_by structural rs => rs

end

/-! ## §3 Unwrapping -/

mutual

/-- The raw value of a value. -/
def Value.unwrap : Value → Raw
  | .scalar s => s.unwrap
  | .string t => .text t
  | .array items => .list (Value.unwrapList items)
  | .enumConst ref => .enumConst ref
  | .classLiteral ref => .classLiteral ref
  | .annot a => .annot a
  | .absent => .null
termination_by structural v => v

/-- The raw values of values. -/
def Value.unwrapList : List Value → List Raw
  | [] => []
  | v :: rest => Value.unwrap v :: Value.unwrapList rest
termination_by structural vs => vs

end

/-- The raw value of the first parameter of a name, or a default. -/
def Annot.valueOf (a : Annot) (name : Str) (default : Raw) : Raw :=
  match a.parameter? name with
  | some p => p.value.unwrap
  | none => default

end AnnoTree
