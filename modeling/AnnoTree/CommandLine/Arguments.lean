import AnnoTree.Storage.Path
import AnnoTree.Text.Digit

/-!
# Arguments

The arguments that the program takes:

    [--help] [--log-level LEVEL] (render | names | check) [--help] PATH

- The name of an option may be cut short as long as only one option begins so, and its value may
  stand in the next argument or after an equals sign.
- `-h` is short for `--help`, and the letter may come again. Asking for help ends the reading of
  arguments.
- After `--` every argument is an operand. As the value of an option, `--` counts as none.
- Other arguments that begin with a minus sign are options that nobody knows, except for a minus
  sign alone, negative numbers and arguments with a blank, which are operands.

A request for help, arguments that do not fit, and a level that is lost are refusals with an exit
code of their own.
-/

namespace AnnoTree

open AnnoTree.Text

/-! ## §1 Requests -/

/-- How much a log record matters. -/
inductive Severity where
  | debug
  | info
  | warning
  | error
  deriving DecidableEq, Repr

namespace Severity

/-- Every severity, from the least to the greatest. -/
def all : List Severity := [.debug, .info, .warning, .error]

/-- The name of a severity. -/
def name : Severity → String
  | .debug => "DEBUG"
  | .info => "INFO"
  | .warning => "WARNING"
  | .error => "ERROR"

/-- The severity of a name. -/
def ofName? (s : String) : Option Severity :=
  all.find? (·.name == s)

/-- The place of a severity among all. -/
def rank : Severity → Nat
  | .debug => 0
  | .info => 1
  | .warning => 2
  | .error => 3

end Severity

/-- The commands. -/
inductive Command where
  | render
  | names
  | check
  deriving DecidableEq, Repr

namespace Command

/-- Every command. -/
def all : List Command := [.render, .names, .check]

/-- The name of a command. -/
def name : Command → String
  | .render => "render"
  | .names => "names"
  | .check => "check"

/-- The command of a name. -/
def ofName? (s : String) : Option Command :=
  all.find? (·.name == s)

end Command

/-- What the program is asked to do. -/
structure Request where
  /-- Log records of a lesser severity are left out. -/
  level : Severity
  command : Command
  path : Path
  deriving DecidableEq, Repr

/-- Why the program has nothing to do. -/
inductive Refusal where
  | help
  | usage
  /-- All arguments fit, but the level was given without a value. -/
  | noLevel
  deriving DecidableEq, Repr

/-- The exit code of a refusal. -/
def Refusal.exitCode : Refusal → Nat
  | .help => 0
  | .usage => 2
  | .noLevel => 1

/-! ## §2 Words -/

/-- The options. -/
inductive OptionName where
  | help
  | logLevel
  deriving DecidableEq, Repr

/-- The spelling of an option. -/
def OptionName.spelling : OptionName → List Char
  | .help => "--help".toList
  | .logLevel => "--log-level".toList

/-- How one argument is taken. -/
inductive Word where
  | operand (text : String)
  /-- The mark before arguments that are all operands. -/
  | separator
  /-- An option, with the value after its equals sign. -/
  | option (name : OptionName) (value : Option String)
  /-- The short option for help, with what follows its letter. -/
  | shortHelp (tail : List Char)
  | unknown
  deriving DecidableEq, Repr

/-- Whether characters are decimal digits, at least one. -/
def isDigits (cs : List Char) : Bool :=
  !cs.isEmpty && cs.all fun c => (digitValue? c).isSome

/-- The characters without a line feed at their end. -/
def dropLastLineFeed (cs : List Char) : List Char :=
  if cs.getLast? = some '\n' then cs.dropLast else cs

/-- Whether the characters after a minus sign make a negative number, at whose end a line feed may
stand. -/
def isMagnitude (cs : List Char) : Bool :=
  let number := dropLastLineFeed cs
  isDigits number ||
    match number.dropWhile fun c => (digitValue? c).isSome with
    | '.' :: fraction => isDigits fraction
    | _ => false

/-- An argument that begins with a minus sign and is no option. -/
def Word.ofUnnamed (arg : String) (tail : List Char) : Word :=
  if isMagnitude tail || arg.toList.contains ' ' then .operand arg else .unknown

/-- The value after an equals sign. -/
def valueOf? : List Char → Option String
  | '=' :: value => some (String.ofList value)
  | _ => none

/-- The word of an argument, where some options are known. -/
def Word.ofArgument (options : List OptionName) (arg : String) : Except Refusal Word :=
  match arg.toList with
  | '-' :: '-' :: rest =>
    let name := arg.toList.takeWhile (· != '=')
    let value := valueOf? (arg.toList.dropWhile (· != '='))
    match options.filter fun o => name.isPrefixOf o.spelling with
    | [] => .ok (.ofUnnamed arg ('-' :: rest))
    | [o] => .ok (.option o value)
    | _ => .error .usage
  | '-' :: 'h' :: tail => .ok (.shortHelp tail)
  | '-' :: c :: tail => .ok (.ofUnnamed arg (c :: tail))
  | _ => .ok (.operand arg)

/-- The words of arguments, each with its argument. -/
def Word.ofArguments (options : List OptionName) :
    List String → Except Refusal (List (Word × String))
  | [] => .ok []
  | arg :: rest =>
    if arg = "--" then .ok ((.separator, arg) :: rest.map fun a => (.operand a, a))
    else do
      let w ← Word.ofArgument options arg
      let ws ← Word.ofArguments options rest
      return (w, arg) :: ws

/-! ## §3 Reading -/

/-- What the short option for help comes to, by what follows its letter: perhaps an equals sign, and
then nothing but the letter again. After an equals sign it has to be there. -/
def Refusal.ofShortHelp (tail : List Char) : Refusal :=
  match tail with
  | '=' :: value => if !value.isEmpty && value.all (· == 'h') then .help else .usage
  | letters => if letters.all (· == 'h') then .help else .usage

/-- The path among the words of a command. `superfluous` says that a word was met that does not
belong there. -/
def readPath (path : Option String) (superfluous : Bool) : List Word → Except Refusal Path
  | [] =>
    match path with
    | some text => if superfluous then .error .usage else .ok (Path.ofText text)
    | none => .error .usage
  | .operand text :: rest =>
    if path.isNone then readPath (some text) superfluous rest else readPath path true rest
  | .separator :: rest => readPath path superfluous rest
  | .option .help none :: _ => .error .help
  | .option .help (some _) :: _ => .error .usage
  | .shortHelp tail :: _ => .error (.ofShortHelp tail)
  | .option .logLevel _ :: rest => readPath path true rest
  | .unknown :: rest => readPath path true rest

/-- The level that the value of the option gives, if it is a value. -/
def levelOf (value : String) : Except Refusal (Option Severity) :=
  if value = "--" then .ok none
  else
    match Severity.ofName? value with
    | some level => .ok (some level)
    | none => .error .usage

/-- The request in words. -/
def readRequest (level : Option Severity) (superfluous : Bool) :
    List (Word × String) → Except Refusal Request
  | [] => .error .usage
  | (.operand name, _) :: rest =>
    match Command.ofName? name with
    | none => .error .usage
    | some command => do
      let words ← Word.ofArguments [.help] (rest.map (·.2))
      let path ← readPath none false (words.map (·.1))
      if superfluous then throw .usage
      match level with
      | some level => return ⟨level, command, path⟩
      | none => throw .noLevel
  | (.separator, _) :: _ => .error .usage
  | (.option .help none, _) :: _ => .error .help
  | (.option .help (some _), _) :: _ => .error .usage
  | (.shortHelp tail, _) :: _ => .error (.ofShortHelp tail)
  | (.option .logLevel (some value), _) :: rest => do
    readRequest (← levelOf value) superfluous rest
  | (.option .logLevel none, _) :: (.operand value, _) :: rest => do
    readRequest (← levelOf value) superfluous rest
  | (.option .logLevel none, _) :: _ => .error .usage
  | (.unknown, _) :: rest => readRequest level true rest

/-- The request that arguments make. -/
def Request.ofArguments (args : List String) : Except Refusal Request := do
  readRequest (some .warning) false (← Word.ofArguments [.help, .logLevel] args)

example : Request.ofArguments ["--log=DEBUG", "names", "--", "-f"] =
    .ok ⟨.debug, .names, ⟨.here, ["-f"]⟩⟩ := rfl

example : Request.ofArguments ["render", "f", "--log-level", "DEBUG"] = .error .usage := rfl

example : Request.ofArguments ["render", "-hh"] = .error .help := rfl

example : Request.ofArguments ["render", "-hx"] = .error .usage := rfl

end AnnoTree
