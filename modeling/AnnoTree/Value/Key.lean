import AnnoTree.Value.Rendering

/-!
# Keys: equality and order

Each value, parameter and annotation has a key, and two of a kind are equal if their keys are. The
keys of parameters and annotations are ordered too: names by code point; for equal names, absent
before present, and then the rendered texts of the values.

The key of a parameter holds the text of its value and not the value, so the order needs no order
on values.
-/

namespace AnnoTree

/-! ## §1 Keys of parameters and annotations -/

/-- The key of a parameter: its name, and the text of its value unless that is absent. -/
structure ParameterKey where
  name : Str
  shown : Option Str
  deriving DecidableEq, Repr

/-- The key of an annotation. -/
structure AnnotKey where
  name : Str
  parameters : Option (List ParameterKey)
  deriving DecidableEq, Repr

/-- The order of options: none comes first. -/
def compareOption {α : Type} (cmp : α → α → Ordering) : Option α → Option α → Ordering
  | none, none => .eq
  | none, some _ => .lt
  | some _, none => .gt
  | some a, some b => cmp a b

/-- The order of parameter keys. -/
def ParameterKey.compare (a b : ParameterKey) : Ordering :=
  (Ord.compare a.name b.name).then (compareOption Ord.compare a.shown b.shown)

/-- The order of annotation keys: a list of parameters comes before its extensions. -/
def AnnotKey.compare (a b : AnnotKey) : Ordering :=
  (Ord.compare a.name b.name).then
    (compareOption (List.compareLex ParameterKey.compare) a.parameters b.parameters)

/-- The key of a parameter at a level. -/
def Parameter.key (settings : Settings) (depth : Nat) (p : Parameter) :
    Except TooDeep ParameterKey :=
  if p.value.isAbsent then .ok ⟨p.name, none⟩
  else (p.value.render settings depth).map fun t => ⟨p.name, some t⟩

/-- The key of an annotation at a level. -/
def Annot.key (settings : Settings) (depth : Nat) (a : Annot) :
    Except TooDeep AnnotKey := do
  checkDepth settings depth .compare
  match a.parameters with
  | none => return ⟨a.name, none⟩
  | some parameters =>
    let keys ← parameters.mapM (Parameter.key settings depth)
    return ⟨a.name, some keys⟩

/-- The order of two parameters; the key of the first is made first. -/
def Parameter.compare (settings : Settings) (p q : Parameter) : Except TooDeep Ordering := do
  let k ← p.key settings 0
  let l ← q.key settings 0
  return k.compare l

/-- The order of two annotations; the key of the first is made first. -/
def Annot.compare (settings : Settings) (a b : Annot) : Except TooDeep Ordering := do
  let k ← a.key settings 0
  let l ← b.key settings 0
  return k.compare l

/-! ## §2 Keys of values -/

/-- The key of a value. -/
inductive ValueKey where
  | scalar (s : Scalar)
  | string (text : Str)
  | array (items : List ValueKey)
  | enumConst (ref : EnumConst)
  | classLiteral (key : ClassKey)
  | annot (key : AnnotKey)
  | absent

mutual

/-- Whether two keys are the same. -/
def ValueKey.same : ValueKey → ValueKey → Bool
  | .scalar s, .scalar t => decide (s = t)
  | .string s, .string t => decide (s = t)
  | .array ks, .array ls => ValueKey.sameList ks ls
  | .enumConst a, .enumConst b => decide (a = b)
  | .classLiteral a, .classLiteral b => decide (a = b)
  | .annot a, .annot b => decide (a = b)
  | .absent, .absent => true
  | _, _ => false
termination_by structural k => k

/-- Whether two lists of keys are the same. -/
def ValueKey.sameList : List ValueKey → List ValueKey → Bool
  | [], [] => true
  | k :: ks, l :: ls => ValueKey.same k l && ValueKey.sameList ks ls
  | _, _ => false
termination_by structural ks => ks

end

mutual

/-- The key of a value at a level. -/
def Value.key (settings : Settings) (depth : Nat) : Value → Except TooDeep ValueKey
  | .scalar s => .ok (.scalar s)
  | .string t => .ok (.string t)
  | .array items => do
    checkDepth settings depth .compare
    let keys ← Value.keyList settings (depth + 1) items
    return .array keys
  | .enumConst ref => .ok (.enumConst ref)
  | .classLiteral ref => .ok (.classLiteral ref.key)
  | .annot a => (a.key settings (depth + 1)).map .annot
  | .absent => .ok .absent
termination_by structural v => v

/-- The keys of values at a level. -/
def Value.keyList (settings : Settings) (depth : Nat) : List Value → Except TooDeep (List ValueKey)
  | [] => .ok []
  | v :: rest => do
    let k ← Value.key settings depth v
    let ks ← Value.keyList settings depth rest
    return k :: ks
termination_by structural vs => vs

end

/-- Whether two values are equal; the key of the first is made first. -/
def Value.equal (settings : Settings) (v w : Value) : Except TooDeep Bool := do
  let k ← v.key settings 0
  let l ← w.key settings 0
  return k.same l

end AnnoTree
