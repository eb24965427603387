import AnnoTree.Raw.Equality

/-!
# Checks

Three checks of an annotation, in this order: its values are nested within the bound; its
parameters are in ascending order; their names are distinct. The later two look at the texts of
values, so a failure of the first ends the run.
-/

namespace AnnoTree

open AnnoTree.Text

/-! ## §1 Verdicts -/

/-- The checks. -/
inductive Check where
  | nestingBounded
  | parametersSorted
  | namesUnique
  deriving DecidableEq, Repr

namespace Check

/-- Every check, in the order in which they run. -/
def all : List Check :=
  [.nestingBounded, .parametersSorted, .namesUnique]

/-- The name of a check. -/
def name : Check → Str
  | .nestingBounded => "nesting_depth_bounded.v1"
  | .parametersSorted => "parameters_sorted.v1"
  | .namesUnique => "unique_parameter_names.v1"

/-- The check of a name. -/
def ofName? (s : Str) : Option Check :=
  all.find? (·.name == s)

/-- The check that a raw value names. -/
def ofRaw (settings : Settings) (raw : Raw) : Except Failure Check :=
  match raw.plainText?.bind ofName? with
  | some c => .ok c
  | none => .error (raw.notOneOf settings .check)

end Check

/-- What a check found. -/
inductive Verdict where
  /-- The greatest level of an array or annotation, within the limit. -/
  | withinBound (depth limit : Nat)
  | beyondBound (annot : Str) (limit : Nat)
  | sorted (count : Nat)
  /-- The first two neighbours that are in the wrong order, and the index of the left one. -/
  | outOfOrder (annot : Str) (index : Nat) (left right : Str)
  | unique
  | duplicates (annot : Str) (names : List Str)
  deriving DecidableEq, Repr

namespace Verdict

/-- The check that a verdict is about. -/
def check : Verdict → Check
  | .withinBound _ _ => .nestingBounded
  | .beyondBound _ _ => .nestingBounded
  | .sorted _ => .parametersSorted
  | .outOfOrder _ _ _ _ => .parametersSorted
  | .unique => .namesUnique
  | .duplicates _ _ => .namesUnique

/-- Whether the check passed. -/
def passed : Verdict → Bool
  | .withinBound _ _ => true
  | .sorted _ => true
  | .unique => true
  | _ => false

/-- Whether a caller should look no further. -/
def stops : Verdict → Bool
  | .beyondBound _ _ => true
  | .outOfOrder _ _ _ _ => true
  | _ => false

/-- The code of a verdict. -/
def code : Verdict → Str
  | .withinBound _ _ => "nesting_depth_within_bound"
  | .beyondBound _ _ => "nesting_too_deep"
  | .sorted _ => "parameters_sorted"
  | .outOfOrder _ _ _ _ => "parameters_out_of_order"
  | .unique => "parameter_names_unique"
  | .duplicates _ _ => "duplicate_parameter_names"

/-- The wording of a verdict; what passed is worded by its code. -/
def reason (v : Verdict) : Str :=
  match v with
  | .beyondBound _ _ => "Annotation value tree is nested deeper than the configured bound."
  | .outOfOrder _ _ _ _ => "Annotation parameters are not in canonical order."
  | .duplicates _ _ => "Annotation carries more than one value for the same parameter name."
  | v => v.code

/-- How far an annotation can be relied on. -/
def validity : Verdict → Str
  | .beyondBound _ _ => "invalid"
  | .outOfOrder _ _ _ _ => "invalid"
  | .duplicates _ _ => "degraded"
  | _ => "valid"

/-- One piece of evidence. -/
def evidenceItem (kind : Str) (value : Json) : Json :=
  .object [("kind", .string kind), ("value", value)]

/-- What a verdict rests on. -/
def evidence : Verdict → List Json
  | .beyondBound a _ => [evidenceItem "annotation" (.string a)]
  | .outOfOrder a i _ _ => [evidenceItem "annotation" (.string a), evidenceItem "index" (.int i)]
  | .duplicates _ names => names.map fun n => evidenceItem "parameter" (.string n)
  | _ => []

/-- The details of a verdict. -/
def details : Verdict → Json
  | .withinBound depth limit => .object [("depth", .int depth), ("limit", .int limit)]
  | .beyondBound _ limit => .object [("limit", .int limit)]
  | .sorted count => .object [("count", .int count)]
  | .outOfOrder _ _ left right => .object [("left", .string left), ("right", .string right)]
  | .unique => .object []
  | .duplicates a names =>
    .object [("annotation", .string a), ("duplicates", .array (names.map .string))]

/-- The report of a verdict. -/
def report (v : Verdict) : Json :=
  .object
    [("invariant_id", .string v.check.name), ("passed", .bool v.passed),
     ("reason", .string v.reason), ("flow", .string (if v.stops then "stop" else "continue")),
     ("validity", .string v.validity), ("code", .string v.code),
     ("evidence", .array v.evidence), ("details", v.details)]

/-- What is to be logged as a warning. -/
def warning? : Verdict → Option Str
  | .duplicates a names =>
    some ("@" ++ a ++ " carries duplicate parameter names: " ++ joinWith ", " names)
  | _ => none

end Verdict

/-! ## §2 Levels -/

mutual

/-- The greatest level that a walk over a value meets when it does not go below the limit. -/
def Value.reach (limit depth : Nat) : Value → Nat
  | .array items =>
    if limit < depth then depth else max depth (Value.reachList limit (depth + 1) items)
  | .annot a => Annot.reach limit (depth + 1) a
  | _ => 0
termination_by structural v => v

/-- The greatest of the levels of values. -/
def Value.reachList (limit depth : Nat) : List Value → Nat
  | [] => 0
  | v :: rest => max (Value.reach limit depth v) (Value.reachList limit depth rest)
termination_by structural vs => vs

/-- The greatest level that a walk over an annotation meets. -/
def Annot.reach (limit depth : Nat) : Annot → Nat
  | ⟨_, none⟩ => depth
  | ⟨_, some parameters⟩ =>
    if limit < depth then depth else max depth (Parameter.reachList limit depth parameters)
termination_by structural a => a

/-- The greatest level that a walk over a parameter meets. -/
def Parameter.reach (limit depth : Nat) : Parameter → Nat
  | ⟨_, value⟩ => Value.reach limit depth value
termination_by structural p => p

/-- The greatest of the levels of parameters. -/
def Parameter.reachList (limit depth : Nat) : List Parameter → Nat
  | [] => 0
  | p :: rest => max (Parameter.reach limit depth p) (Parameter.reachList limit depth rest)
termination_by structural ps => ps

end

/-! ## §3 Running checks -/

/-- The first two neighbours of which the left one is greater, with their index. -/
def firstDescent? (settings : Settings) (index : Nat) :
    List Parameter → Except TooDeep (Option (Nat × Parameter × Parameter))
  | p :: q :: rest => do
    if (← p.compare settings q) = .gt then return some (index, p, q)
    else firstDescent? settings (index + 1) (q :: rest)
  | _ => .ok none

/-- The names that come more than once, in ascending order. -/
def repeatedNames (names : List Str) : List Str :=
  sortedSet (names.filter fun n => decide (1 < names.count n))

/-- The verdict of one check. -/
def Check.run (settings : Settings) (a : Annot) : Check → Except TooDeep Verdict
  | .nestingBounded =>
    let limit := settings.maxDepth
    let depth := a.reach limit 0
    .ok (if depth ≤ limit then .withinBound depth limit else .beyondBound a.name limit)
  | .parametersSorted => do
    match ← firstDescent? settings 0 a.known with
    | none => return .sorted a.known.length
    | some (index, p, q) => return .outOfOrder a.name index p.name q.name
  | .namesUnique =>
    match repeatedNames a.parameterNames with
    | [] => .ok .unique
    | name :: more => .ok (.duplicates a.name (name :: more))

/-- Whether a verdict ends a run. -/
def Verdict.endsRun : Verdict → Bool
  | .beyondBound _ _ => true
  | _ => false

/-- The verdicts of checks, one after another. -/
def runChecks (settings : Settings) (a : Annot) : List Check → Except TooDeep (List Verdict)
  | [] => .ok []
  | c :: rest => do
    let v ← c.run settings a
    if v.endsRun then return [v]
    else
      let vs ← runChecks settings a rest
      return v :: vs

/-- The verdicts of the selected checks in their order; of all checks if none are selected. -/
def Annot.check (settings : Settings) (a : Annot) (only : Option (List Check)) :
    Except TooDeep (List Verdict) :=
  let selected := match only with
    | none => Check.all
    | some cs => Check.all.filter cs.contains
  runChecks settings a selected

end AnnoTree
