import AnnoTree.CommandLine.Run
import AnnoTree.Settings.Loading

/-!
# The program

Reads the configuration and the file of a request, runs the request, and writes its lines to
standard output and its log records to standard error.
-/

namespace AnnoTree.Main

/-- How the program is to be called. -/
def usage : String :=
  "usage: annotree [-h] [--log-level LEVEL] (render | names | check) PATH\n" ++
  "\n" ++
  "render  print each annotation\n" ++
  "names   print the distinct names of annotations\n" ++
  "check   print the outcomes of the checks of each annotation\n" ++
  "\n" ++
  "LEVEL is DEBUG, INFO, WARNING or ERROR.\n"

/-- The content of a file. -/
def readFile (p : Path) : IO (Except StorageFault (List Text.Octet)) := do
  if let .error f := FileTree.checkSpelling p then return .error f
  try
    return .ok (← IO.FS.readBinFile p.text).toList
  catch
    | .noFileOrDirectory _ _ _ => return .error .fileNotFound
    | e => throw e

/-- A text as it is written to standard error: a half of a pair is written as an escape. -/
def visible (s : Str) : String :=
  String.ofList (s.toList.flatMap fun c =>
    match c.char? with
    | some c => [c]
    | none => '\\' :: 'u' :: Text.hexDigits 4 c.toNat)

/-- The wording of a failure. -/
def wording (f : Failure) : Str :=
  match f with
  | .unencodable => "the text cannot be encoded"
  | f => f.message?.getD "the file cannot be read"

/-- The text of a log record. -/
def logLine (r : LogRecord) : String :=
  let content := match r.content with
    | .text s => s
    | .failure f => wording f
  visible (r.severity.name ++ " " ++ r.source.name ++ ": " ++ content)

/-- Runs a request with settings. -/
def runWith (settings : Settings) (request : Request) : IO UInt32 := do
  match request.run settings (← readFile request.path) with
  | .error f => throw (IO.userError (visible (wording f)))
  | .ok outcome =>
    for r in outcome.logs do
      IO.eprintln (logLine r)
    let (octets, result) := outcome.written
    (← IO.getStdout).write ⟨octets.toArray⟩
    match result with
    | .error f => throw (IO.userError (visible (wording f)))
    | .ok () => return UInt32.ofNat outcome.exitCode

/-- Runs a request with the settings of the working directory and the environment. -/
def runHere (request : Request) : IO UInt32 := do
  let config := configFile none none
  match Settings.load (← readFile config) (← IO.getEnv depthVariable) with
  | .error f =>
    IO.eprintln (logLine ⟨.error, .commands, .failure f⟩)
    return 1
  | .ok loaded =>
    if loaded.ignoredConfig then
      IO.eprintln ("WARNING: ignoring unreadable config " ++ config.text)
    runWith loaded.settings request

end AnnoTree.Main

/-- Runs the program on its arguments. -/
def main (args : List String) : IO UInt32 := do
  match AnnoTree.Request.ofArguments args with
  | .ok request => AnnoTree.Main.runHere request
  | .error refusal =>
    match refusal with
    | .help => IO.print AnnoTree.Main.usage
    | .usage => IO.eprint AnnoTree.Main.usage
    | .noLevel => IO.eprintln "the level has no value"
    return UInt32.ofNat refusal.exitCode
