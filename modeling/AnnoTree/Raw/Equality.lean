import AnnoTree.Failure
import AnnoTree.Raw.Shown
import AnnoTree.Value.Key

/-!
# Equality of raw values

Numbers are equal by value, whatever their type; texts, octets, lists, tuples, mappings and sets
by content; references, parameters, annotations and values by their keys. Objects of a foreign
class that were made apart are never equal. Of lists, mappings and sets of different sizes nothing
is compared, but tuples are compared up to the end of the shorter one.

`checkHashable` tells the raw values that may be keys of a mapping or members of a set: none that
can change.
-/

namespace AnnoTree.Raw

/-! ## §1 Numbers -/

/-- A number of any type. -/
inductive Number where
  | integer (i : Int)
  | floating (x : Double)

/-- The number that a raw value is. -/
def number? : Raw → Option Number
  | .bool b => some (.integer (if b then 1 else 0))
  | .int i => some (.integer i)
  | .float x => some (.floating x)
  | _ => none

/-- Whether two numbers have the same value. -/
def Number.equal : Number → Number → Bool
  | .integer i, .integer j => decide (i = j)
  | .floating x, .floating y => x.numericallyEqual y
  | .integer i, .floating x => decide (x.integral? = some i)
  | .floating x, .integer i => decide (x.integral? = some i)

/-- The place of a number among all, if it has one: the infinities stand at the ends, and other
numbers by their value in units of the least positive double. -/
def Number.rank? : Number → Option (Int × Int)
  | .integer i => some (0, i * ((Nat.pow 2 Double.gridPower : Nat) : Int))
  | .floating .nan => none
  | .floating (.infinite negative) => some (if negative then -1 else 1, 0)
  | .floating (.finite negative mantissa exponent _) =>
    some (0, Double.units negative mantissa exponent)

/-- Whether one number is less than another. What is not a number is less than nothing. -/
def Number.lessThan (a b : Number) : Bool :=
  match a.rank?, b.rank? with
  | some x, some y => decide (x.1 < y.1) || (x.1 == y.1 && decide (x.2 < y.2))
  | _, _ => false

/-! ## §2 Equality -/

mutual

/-- Whether two raw values that were made apart are equal. -/
def equal (settings : Settings) : Raw → Raw → Except Failure Bool
  | .null, other => .ok (match other with | .null => true | _ => false)
  | .bool b, other =>
    .ok ((other.number?.map (Number.integer (if b then 1 else 0)).equal).getD false)
  | .int i, other => .ok ((other.number?.map (Number.integer i).equal).getD false)
  | .float x, other => .ok ((other.number?.map (Number.floating x).equal).getD false)
  | .text s, other => .ok (match other with | .text t => decide (s = t) | _ => false)
  | .list xs, other =>
    match other with
    | .list ys => if xs.length = ys.length then equalList settings xs ys else .ok false
    | _ => .ok false
  | .tuple xs, other => match other with | .tuple ys => equalList settings xs ys | _ => .ok false
  | .mapping es, other =>
    match other with
    | .mapping fs => if es.length = fs.length then entriesWithin settings fs es else .ok false
    | _ => .ok false
  | .set xs, other =>
    match other with
    | .set ys => if xs.length = ys.length then itemsWithin settings ys xs else .ok false
    | _ => .ok false
  | .bytes b, other => .ok (match other with | .bytes c => decide (b = c) | _ => false)
  | .foreign _, _ => .ok false
  | .enumConst a, other => .ok (match other with | .enumConst b => decide (a = b) | _ => false)
  | .classLiteral a, other =>
    .ok (match other with | .classLiteral b => decide (a.key = b.key) | _ => false)
  | .value v, other =>
    match other with
    | .value w => liftWalk (v.equal settings w)
    | _ => .ok false
  | .parameter p, other =>
    match other with
    | .parameter q => liftWalk ((p.compare settings q).map (· == .eq))
    | _ => .ok false
  | .annot a, other =>
    match other with
    | .annot b => liftWalk ((a.compare settings b).map (· == .eq))
    | _ => .ok false
termination_by structural r => r

/-- Whether two lists are equal item by item. -/
def equalList (settings : Settings) : List Raw → List Raw → Except Failure Bool
  | [], ys => .ok ys.isEmpty
  | x :: xs, ys =>
    match ys with
    | [] => .ok false
    | y :: ys => do
      if ← equal settings x y then equalList settings xs ys else return false
termination_by structural rs => rs

/-- Whether every item is among those of another list. -/
def itemsWithin (settings : Settings) (others : List Raw) : List Raw → Except Failure Bool
  | [] => .ok true
  | x :: xs => do
    let found ← others.anyM (equal settings x)
    if found then itemsWithin settings others xs else return false
termination_by structural rs => rs

/-- Whether every entry is among those of another mapping. -/
def entriesWithin (settings : Settings) (others : List (Raw × Raw)) :
    List (Raw × Raw) → Except Failure Bool
  | [] => .ok true
  | (k, v) :: es => do
    let hit ← others.findM? fun e => equal settings k e.1
    match hit with
    | none => return false
    | some (_, w) =>
      if ← equal settings v w then entriesWithin settings others es else return false
termination_by structural es => es

end

/-- Whether a raw value is equal to itself. An item of a container is itself without a look at its
content, so only a number that is not a number differs from itself. -/
def equalsItself (settings : Settings) : Raw → Except Failure Bool
  | .float x => .ok (x.numericallyEqual x)
  | .value v => liftWalk (v.equal settings v)
  | .parameter p => liftWalk ((p.compare settings p).map (· == .eq))
  | .annot a => liftWalk ((a.compare settings a).map (· == .eq))
  | _ => .ok true

/-! ## §3 Hashing -/

mutual

/-- Succeeds for a raw value that may be a key. The key of a value, parameter or annotation is
made on the way, and may be too deep. -/
def checkHashable (settings : Settings) : Raw → Except Failure Unit
  | .list _ => .error (.misuse .notHashable)
  | .mapping _ => .error (.misuse .notHashable)
  | .set _ => .error (.misuse .notHashable)
  | .tuple items => checkHashableList settings items
  | .value v => (liftWalk (v.key settings 0)).map fun _ => ()
  | .parameter p => (liftWalk (p.key settings 0)).map fun _ => ()
  | .annot a => (liftWalk (a.key settings 0)).map fun _ => ()
  | .null => .ok ()
  | .bool _ => .ok ()
  | .int _ => .ok ()
  | .float _ => .ok ()
  | .text _ => .ok ()
  | .bytes _ => .ok ()
  | .foreign _ => .ok ()
  | .enumConst _ => .ok ()
  | .classLiteral _ => .ok ()
termination_by structural r => r

/-- `checkHashable` for each item. -/
def checkHashableList (settings : Settings) : List Raw → Except Failure Unit
  | [] => .ok ()
  | r :: rest => do
    checkHashable settings r
    checkHashableList settings rest
termination_by structural rs => rs

end

/-- The failure of a raw value to be one of a closed set of names. The set is asked by hash, so what
is too deep for one fails as such. -/
def notOneOf (settings : Settings) (set : NameSet) (raw : Raw) : Failure :=
  match checkHashable settings raw, raw.print with
  | .error (.tooDeep e), _ => .tooDeep e
  | _, .error e => .tooLong e
  | _, .ok shown => .unknownName set shown

/-! ## §4 Mappings and sets -/

/-- Puts a value under a key: a key that is equal to one that is there keeps the place of that and
replaces the value. -/
def insertEntry (settings : Settings) (key value : Raw) :
    List (Raw × Raw) → Except Failure (List (Raw × Raw))
  | [] => .ok [(key, value)]
  | (k, v) :: rest => do
    if ← equal settings k key then return (k, value) :: rest
    else
      let rest ← insertEntry settings key value rest
      return (k, v) :: rest

/-- The mapping of a list of keys and values. -/
def mappingOf (settings : Settings) (pairs : List (Raw × Raw)) : Except Failure Raw := do
  let entries ← pairs.foldlM (fun es (k, v) => do
    checkHashable settings k
    insertEntry settings k v es) []
  return .mapping entries

/-- The set of a list of items: of equal items the first stays. -/
def setOf (settings : Settings) (items : List Raw) : Except Failure Raw := do
  let members ← items.foldlM (fun found item => do
    checkHashable settings item
    if ← found.anyM fun r => equal settings r item then return found
    else return found ++ [item]) []
  return .set members

end AnnoTree.Raw
