import AnnoTree.Annot.Defaults
import AnnoTree.Types.Registry

/-!
# Scenarios

A scenario tells in steps how an annotation comes about and what is expected of it. It is named
and given parameters, defaults are merged into it, it is rendered, a parameter of it is looked up
where no type is known; then the rendering or the fault of the lookup is compared with what was
expected.

The annotation is built by the first step that needs it, and kept until another one is named. Each
step returns the state after it together with its outcome, since a step that fails may have built
the annotation before.
-/

namespace AnnoTree.Scenario

/-! ## §1 Steps and states -/

/-- A step of a scenario. -/
inductive Step where
  | named (name : Raw)
  | parameter (name value : Raw)
  /-- A parameter that is an enum constant, by its qualified name. -/
  | enumParameter (name : Raw) (qualified : Str)
  /-- Two defaults are merged. -/
  | defaults (first firstValue second secondValue : Raw)
  | rendered
  | lookedUp (parameter : Raw)
  | renderingIs (expected : Str)
  /-- The last lookup failed with a fault of that title. -/
  | lookupFailsWith (title : Str)

/-- What steps have led to. -/
structure State where
  /-- Null as long as no name is given. -/
  name : Raw := .null
  parameters : List Parameter := []
  annot : Option Annot := none
  rendering : Option Str := none
  fault : Option LookupFault := none

/-- The outcome of a step, and the state after it. -/
abbrev Result (α : Type) := State × Except Failure α

/-! ## §2 The annotation -/

/-- The annotation of a state, which is built if there is none. -/
def State.build (settings : Settings) (s : State) : Result Annot :=
  match s.annot with
  | some a => (s, .ok a)
  | none =>
    match s.name with
    | .null => (s, .error (.scenario .unnamed))
    | name =>
      match Annot.ofRaw settings name (.list (s.parameters.map .parameter)) with
      | .ok a => ({ s with annot := some a }, .ok a)
      | .error f => (s, .error f)

/-- Does something with the annotation of a state. -/
def State.withAnnot (settings : Settings) (s : State) (use : State → Annot → Result Unit) :
    Result Unit :=
  match s.build settings with
  | (s, .ok a) => use s a
  | (s, .error f) => (s, .error f)

/-- Adds a parameter. A built annotation stays as it is. -/
def State.add (s : State) (p : Except Failure Parameter) : Result Unit :=
  match p with
  | .ok p => ({ s with parameters := s.parameters ++ [p] }, .ok ())
  | .error f => (s, .error f)

/-- The enum constant of a qualified name: what follows the last dot is the constant. -/
def enumConstOf (qualified : Str) : EnumConst :=
  let reversed := qualified.toList.reverse
  let constant := (reversed.takeWhile (· != CodePoint.char '.')).reverse
  let type := ((reversed.dropWhile (· != CodePoint.char '.')).drop 1).reverse
  ⟨Str.ofList type, Str.ofList constant⟩

/-- Two defaults as a mapping. -/
def defaultsOf (settings : Settings) (first firstValue second secondValue : Raw) :
    Except Failure Raw :=
  Raw.mappingOf settings [(first, firstValue), (second, secondValue)]

/-! ## §3 Expectations -/

/-- Keeps what a lookup came to. -/
def State.keepFault (s : State) (found : Except Failure Denoted) : Result Unit :=
  match found with
  | .ok _ => ({ s with fault := none }, .ok ())
  | .error (.lookup f) => ({ s with fault := some f }, .ok ())
  | .error f => (s, .error f)

/-- A text in which a backslash before a quote is left out. -/
def plainQuotes : List CodePoint → List CodePoint
  | [] => []
  | '\\' :: '"' :: rest => '"' :: plainQuotes rest
  | c :: rest => c :: plainQuotes rest

/-- Fails unless something holds. -/
def expect (holds : Bool) (fault : ScenarioFault) : Except Failure Unit :=
  if holds then .ok () else .error (.scenario fault)

/-- Compares the rendering with an expected one. -/
def State.checkRendering (s : State) (expected : Str) : Except Failure Unit :=
  expect (s.rendering == some (Str.ofList (plainQuotes expected.toList)))
    (.renderingDiffers s.rendering expected)

/-- Compares the fault of the last lookup with an expected one. -/
def State.checkFault (s : State) (title : Str) : Except Failure Unit :=
  match s.fault with
  | none => .error (.scenario .lookupSucceeded)
  | some f => expect (f.title == title) .otherLookupFault

/-! ## §4 Running -/

/-- The effect of a step. -/
def Step.run (settings : Settings) (s : State) : Step → Result Unit
  | .named name => ({ s with name, parameters := [], annot := none }, .ok ())
  | .parameter name value => s.add (Parameter.ofRaw settings name value)
  | .enumParameter name qualified =>
    s.add (Parameter.ofRaw settings name (.enumConst (enumConstOf qualified)))
  | .defaults first firstValue second secondValue =>
    s.withAnnot settings fun s a =>
      match (defaultsOf settings first firstValue second secondValue).bind
          (a.withRawDefaults settings) with
      | .ok a => ({ s with annot := some a }, .ok ())
      | .error f => (s, .error f)
  | .rendered =>
    s.withAnnot settings fun s a =>
      match a.render settings 0 with
      | .ok text => ({ s with rendering := some text }, .ok ())
      | .error e => (s, .error (.tooDeep e))
  | .lookedUp name =>
    s.withAnnot settings fun s a =>
      let held := (name.plainText?.map fun n => a.valueOf n .null).getD .null
      s.keepFault (Registry.lookup.reference {} held).2
  | .renderingIs expected => (s, s.checkRendering expected)
  | .lookupFailsWith title => (s, s.checkFault title)

end AnnoTree.Scenario
