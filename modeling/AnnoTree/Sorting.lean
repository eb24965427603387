import AnnoTree.Text.Str

/-!
# Sorting

Distinct texts are put in ascending order of code points. Other items are sorted by a test whether
one is less than another, where the test may fail. The first failure is the outcome, so it matters
which items are tested and in which order:

- the run at the front is taken first: items of which none is less than the one before it, or, if
  the second is less than the first, items that are each less than the one before, turned round;
- each further item is put into its place among the items so far, which is found by halving.

An item goes behind those that it is not less than, so equal items stay in order.
-/

namespace AnnoTree

/-! ## §1 Sorted sets of texts -/

/-- Puts a text into its place, unless it is there. -/
def Text.insertSorted (s : Str) : List Str → List Str
  | [] => [s]
  | t :: rest =>
    match compare s t with
    | .lt => s :: t :: rest
    | .eq => t :: rest
    | .gt => t :: Text.insertSorted s rest

/-- The distinct texts of a list, in ascending order. -/
def Text.sortedSet (texts : List Str) : List Str :=
  texts.foldr Text.insertSorted []

namespace Sorting

variable {α ε : Type}

/-! ## §2 The run at the front -/

/-- How many items go on a run whose last item is `last`, where each item is or is not less than
the one before it. -/
def runLength (less : α → α → Except ε Bool) (descending : Bool) (last : α) :
    List α → Except ε Nat
  | [] => .ok 0
  | item :: rest => do
    if (← less item last) == descending then
      let more ← runLength less descending item rest
      return more + 1
    else return 0

/-- The items of the run at the front in ascending order, and the items after it. -/
def frontRun (less : α → α → Except ε Bool) : List α → Except ε (List α × List α)
  | first :: second :: rest => do
    let descending ← less second first
    let length := (← runLength less descending second rest) + 2
    let run := (first :: second :: rest).take length
    return (if descending then run.reverse else run, (first :: second :: rest).drop length)
  | items => .ok (items, [])

/-! ## §3 Putting items into their places -/

/-- The place of an item among those with indexes from `low` and below `high`. -/
def insertionPoint (less : α → α → Except ε Bool) (item : α) (items : Array α) (low high : Nat) :
    Except ε Nat :=
  if _h : low < high then
    let middle := low + (high - low) / 2
    match items[middle]? with
    | none => .ok low
    | some other =>
      match less item other with
      | .error e => .error e
      | .ok true => insertionPoint less item items low middle
      | .ok false => insertionPoint less item items (middle + 1) high
  else .ok low
termination_by high - low

/-- Puts an item into its place among sorted items. -/
def insertItem (less : α → α → Except ε Bool) (items : List α) (item : α) :
    Except ε (List α) := do
  let place ← insertionPoint less item items.toArray 0 items.length
  return items.take place ++ item :: items.drop place

/-- The items in ascending order. -/
def sort (less : α → α → Except ε Bool) (items : List α) : Except ε (List α) := do
  let (run, rest) ← frontRun less items
  rest.foldlM (insertItem less) run

end Sorting

end AnnoTree
