import AnnoTree.Raw.Equality
import AnnoTree.Sorting

/-!
# Comparison of raw values

References, parameters and annotations are ordered, each among its own kind. `Raw.compare` says
with which kind another was confused; the relations of order say only that there is none.

`Raw.lessThan` also orders numbers by value, texts by code points, octets, lists and tuples by
their first difference, and sets by inclusion.
-/

namespace AnnoTree.Raw

/-! ## §1 Two values -/

/-- The order of two raw values of one ordered kind; none for any others. -/
def order? (settings : Settings) : Raw → Raw → Option (Except TooDeep Ordering)
  | .enumConst a, .enumConst b => some (.ok (a.compare b))
  | .classLiteral a, .classLiteral b => some (.ok (a.compare b))
  | .parameter p, .parameter q => some (p.compare settings q)
  | .annot a, .annot b => some (a.compare settings b)
  | _, _ => none

/-- Whether a raw value is of an ordered kind. -/
def isOrdered : Raw → Bool
  | .enumConst _ => true
  | .classLiteral _ => true
  | .parameter _ => true
  | .annot _ => true
  | _ => false

/-- The order of two raw values, of which the first is of an ordered kind. -/
def compare (settings : Settings) (a b : Raw) : Except Failure Ordering :=
  match a.order? settings b with
  | some r => liftWalk r
  | none => .error (.incomparable a.className b.className)

/-- The order of two raw values, when asked for by a relation of order. -/
def relate (settings : Settings) (a b : Raw) : Except Failure Ordering :=
  match a.order? settings b with
  | some r => liftWalk r
  | none => .error (.misuse .notOrdered)

/-- The number of an order: negative, zero or positive. -/
def orderNumber : Ordering → Int
  | .lt => -1
  | .eq => 0
  | .gt => 1

/-- The order of two raw values as a number. -/
def compareNumber (settings : Settings) (a b : Raw) : Except Failure Int :=
  (a.compare settings b).map orderNumber

/-- The relations of order. -/
inductive OrderRelation where
  | less
  | lessOrEqual
  | greater
  | greaterOrEqual
  deriving DecidableEq, Repr

/-- Whether a relation holds between two values in an order. -/
def OrderRelation.accepts : OrderRelation → Ordering → Bool
  | .less, o => o == .lt
  | .lessOrEqual, o => o != .gt
  | .greater, o => o == .gt
  | .greaterOrEqual, o => o != .lt

/-- Whether a relation of order holds between two raw values. -/
def holds (settings : Settings) (relation : OrderRelation) (a b : Raw) : Except Failure Bool :=
  (a.relate settings b).map relation.accepts

/-- The text of an ordered raw value or of a value. -/
def text? (settings : Settings) : Raw → Option (Except TooDeep Str)
  | .enumConst ref => some (.ok ref.text)
  | .classLiteral ref => some (.ok ref.text)
  | .parameter p => some (p.render settings 0)
  | .annot a => some (a.render settings 0)
  | .value v => some (v.render settings 0)
  | _ => none

/-! ## §2 Less than -/

mutual

/-- Whether one raw value is less than another. -/
def lessThan (settings : Settings) : Raw → Raw → Except Failure Bool
  | .text s, other =>
    match other with
    | .text t => .ok (Ord.compare s t == .lt)
    | _ => .error (.misuse .notOrdered)
  | .bytes b, other =>
    match other with
    | .bytes c => .ok (decide (b < c))
    | _ => .error (.misuse .notOrdered)
  | .list xs, other =>
    match other with
    | .list ys => lessThanList settings xs ys
    | _ => .error (.misuse .notOrdered)
  | .tuple xs, other =>
    match other with
    | .tuple ys => lessThanList settings xs ys
    | _ => .error (.misuse .notOrdered)
  | .set xs, other =>
    match other with
    | .set ys => if xs.length < ys.length then itemsWithin settings ys xs else .ok false
    | _ => .error (.misuse .notOrdered)
  | raw, other =>
    match raw.number?, other.number? with
    | some m, some n => .ok (m.lessThan n)
    | _, _ => (raw.relate settings other).map (· == .lt)
termination_by structural r => r

/-- Whether one list of raw values is less than another: at the first difference, or by ending
first. -/
def lessThanList (settings : Settings) : List Raw → List Raw → Except Failure Bool
  | [], ys => .ok !ys.isEmpty
  | x :: xs, ys =>
    match ys with
    | [] => .ok false
    | y :: ys => do
      if ← equal settings x y then lessThanList settings xs ys else lessThan settings x y
termination_by structural rs => rs

end

/-! ## §3 Many values -/

/-- The indexes of items in ascending order of the items; equal ones stay in place. -/
def sortedIndexes (settings : Settings) (items : List Raw) : Except Failure (List Nat) :=
  (Sorting.sort (fun a b => lessThan settings a.1 b.1) items.zipIdx).map (·.map (·.2))

/-- The number of the class of each item among the classes of equal items, which are numbered by
first appearance. Pairs of a member and its class are carried along. -/
def classNumbersAux (settings : Settings) (members : List (Raw × Nat)) :
    List Raw → Except Failure (List Nat)
  | [] => .ok []
  | item :: rest => do
    checkHashable settings item
    match ← members.findM? fun m => equal settings m.1 item with
    | some (_, n) =>
      let ns ← classNumbersAux settings members rest
      return n :: ns
    | none =>
      let n := members.length
      let ns ← classNumbersAux settings (members ++ [(item, n)]) rest
      return n :: ns

/-- The number of the class of each item. -/
def classNumbers (settings : Settings) (items : List Raw) : Except Failure (List Nat) :=
  classNumbersAux settings [] items

/-- The number of distinct items. -/
def distinctCount (settings : Settings) (items : List Raw) : Except Failure Nat :=
  (classNumbers settings items).map fun ns => ns.foldl (fun m n => max m (n + 1)) 0

end AnnoTree.Raw
