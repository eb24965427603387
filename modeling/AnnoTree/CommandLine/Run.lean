import AnnoTree.Annot.Check
import AnnoTree.Annot.Identifier
import AnnoTree.CommandLine.Arguments
import AnnoTree.Storage.Row

/-!
# Running commands

Each command reads the annotations of a file and writes lines about them: `render` the rendering
of each annotation, `names` the distinct names in ascending order, `check` a report of the checks
of each annotation.

Annotations are taken one after another as they are read, and log records come in that order. If
anything fails, no line is written at all.
-/

namespace AnnoTree

open AnnoTree.Text

/-! ## §1 Log records -/

/-- The part of the program that a log record comes from. -/
inductive LogSource where
  | rows
  | checks
  | commands
  deriving DecidableEq, Repr

/-- The name of a source in log records. -/
def LogSource.name : LogSource → Str
  | .rows => "annotation_model.adapters.persistence"
  | .checks => "annotation_model.invariants"
  | .commands => "annotation_model.cli"

/-- What a log record says. -/
inductive LogContent where
  | text (s : Str)
  | failure (f : Failure)
  deriving DecidableEq, Repr

/-- A log record. -/
structure LogRecord where
  severity : Severity
  source : LogSource
  content : LogContent
  deriving DecidableEq, Repr

/-- Whether a log record matters at a level. -/
def LogRecord.isAt (level : Severity) (r : LogRecord) : Bool :=
  decide (level.rank ≤ r.severity.rank)

/-! ## §2 Work on annotations -/

/-- The lines of a command, or why there are none, and the log records on the way. -/
structure Work where
  logs : List LogRecord
  result : Except Failure (List Str)

/-- The log record of an annotation that was read. -/
def loadedRecord (path : Path) (a : StoredAnnot) : LogRecord :=
  ⟨.debug, .rows,
    .text ("loaded @" ++ a.annot.name ++ " from " ++ path.text ++ ":" ++ toString a.line)⟩

/-- The line of a command about an annotation, or why there is none, and the log records that it
makes. -/
structure LineWork where
  logs : List LogRecord
  result : Except Failure Str

/-- The report of the checks of an annotation. -/
def checkReport (identifier name : Str) (verdicts : List Verdict) : Json :=
  .object
    [("annotation_id", .string identifier), ("name", .string name),
     ("invariant_checks", .array (verdicts.map Verdict.report))]

/-- The report of an annotation in one line. What the checks warn of is logged even if the report
cannot be written. -/
def checkLine (settings : Settings) (a : Annot) : LineWork :=
  match a.identifier settings with
  | .error f => ⟨[], .error f⟩
  | .ok identifier =>
    match liftWalk (a.check settings none) with
    | .error f => ⟨[], .error f⟩
    | .ok verdicts =>
      let report := (checkReport identifier a.name verdicts).sortKeys
      let warnings := (verdicts.filterMap Verdict.warning?).map fun s =>
        ⟨.warning, .checks, .text s⟩
      ⟨warnings, (report.print Json.spaced).mapError .tooLong⟩

/-- The line of a command about an annotation. -/
def Command.line (settings : Settings) (a : Annot) : Command → LineWork
  | .render => ⟨[], liftWalk (a.render settings 0)⟩
  | .names => ⟨[], .ok a.name⟩
  | .check => checkLine settings a

/-- Takes annotations one after another, up to the fault that ends their delivery. -/
def Work.through (settings : Settings) (command : Command) (path : Path)
    (failure : Option Failure) : List StoredAnnot → Work
  | [] =>
    match failure with
    | none => ⟨[], .ok []⟩
    | some f => ⟨[], .error f⟩
  | a :: rest =>
    let line := command.line settings a.annot
    match line.result with
    | .error f => ⟨loadedRecord path a :: line.logs, .error f⟩
    | .ok text =>
      let work := Work.through settings command path failure rest
      ⟨loadedRecord path a :: (line.logs ++ work.logs), work.result.map (text :: ·)⟩

/-- The lines of a command as they are written. -/
def Command.arrange : Command → List Str → List Str
  | .names, lines => sortedSet lines
  | _, lines => lines

/-! ## §3 Outcomes -/

/-- What becomes of a request. -/
structure Outcome where
  exitCode : Nat
  lines : List Str
  logs : List LogRecord

/-- The text of an outcome: each line is ended. -/
def Outcome.text (o : Outcome) : Str :=
  Str.join (o.lines.map (· ++ "\n"))

/-- What is written of lines, one after another, and how that ends: a line that cannot be encoded is
not written, nor what comes after it. -/
def writeLines : List Str → List Octet × Except Failure Unit
  | [] => ([], .ok ())
  | line :: rest =>
    match (line ++ "\n").encode with
    | .error f => ([], .error f)
    | .ok octets =>
      let (more, result) := writeLines rest
      (octets ++ more, result)

/-- What is written of an outcome, and how that ends. -/
def Outcome.written (o : Outcome) : List Octet × Except Failure Unit :=
  writeLines o.lines

/-- How a failure ends the program: the exit code and what is logged, or nothing if the failure is
none that the program expects. -/
def Failure.ending? (path : Path) : Failure → Option (Nat × LogContent)
  | .storage .fileNotFound => some (2, .text ("no such file: " ++ path.text))
  | .storage .notADirectory => none
  | .storage .isADirectory => none
  | .storage .fileInTheWay => none
  | .storage .nameTooLong => none
  | f => some (1, .failure f)

/-- The outcome of work. -/
def Work.outcome (request : Request) (work : Work) : Except Failure Outcome :=
  match work.result with
  | .ok lines =>
    .ok ⟨0, request.command.arrange lines, work.logs.filter (·.isAt request.level)⟩
  | .error f =>
    match f.ending? request.path with
    | none => .error f
    | some (code, content) =>
      let logs := work.logs ++ [⟨.error, .commands, content⟩]
      .ok ⟨code, [], logs.filter (·.isAt request.level)⟩

/-- Runs a request on the content of its file. -/
def Request.run (settings : Settings) (request : Request)
    (content : Except StorageFault (List Octet)) : Except Failure Outcome :=
  let annots := deliverFile (storedAnnots settings request.path) content
  (Work.through settings request.command request.path annots.failure annots.items).outcome request

end AnnoTree
