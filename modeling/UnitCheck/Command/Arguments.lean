/-!
# Command lines

`Invocation.parse` reads the arguments of the program.  Options of the program itself may stand
before the command or behind it, those of a command only behind it.

Arguments are read in levels: the program's, then the command's.  A level takes an argument at a
time and holds back the value of the last option, or the last values, until the next flag, value or
the end shows that they are complete (`Level.settle`).  So of two faults in a command line the one
that counts is not always the first: an unknown flag is reported before the empty path in front of
it, and a fault behind the command before a value that is still held back in front of it.
-/

set_option autoImplicit false

namespace UnitCheck

/-- What the program is asked to do. -/
inductive Command where
  | check (paths : List String) (failFast : Bool)
  | deps (path : String)
  | explain (code : String)
deriving DecidableEq, Inhabited

/-- A command and the options of the program. -/
structure Invocation where
  command : Command
  json : Bool := false
  verbose : Bool := false
  config : Option String := none
deriving DecidableEq, Inhabited

/-- Why arguments do not say what to do.  Asking for help or the version is one way. -/
inductive UsageError where
  | unknownArgument
  | unknownCommand
  | missingArgument
  | missingCommand
  | nothingGiven
  | repeatedOption
  | needlessValue
  | invalidValue
  | helpAsked
  | versionAsked
deriving DecidableEq, Inhabited

namespace UsageError

/-- Asking for help or the version is no failure. -/
def exitCode : UsageError → Nat
  | .helpAsked | .versionAsked => 0
  | _ => 2

/-- What is wrong, in a few words. -/
def message : UsageError → String
  | .unknownArgument => "unexpected argument"
  | .unknownCommand => "unrecognized command"
  | .missingArgument => "a required argument is missing"
  | .missingCommand | .nothingGiven => "a command is missing"
  | .repeatedOption => "an option is given more than once"
  | .needlessValue => "an option that takes no value is given one"
  | .invalidValue => "a value is missing or empty"
  | .helpAsked => "help"
  | .versionAsked => "version"

end UsageError

namespace Command

/-! ## Levels -/

/-- Options without a value. -/
inductive Switch where
  | json
  | verbose
  | failFast
deriving DecidableEq

/-- How many values a level takes, and whether an empty one will do. -/
inductive Values where
  | none
  | one (mayBeEmpty : Bool)
  | many
deriving DecidableEq

/-- What a level understands, apart from `--config` and asking for help. -/
structure Grammar where
  switches : List (String × Switch)
  hasVersion : Bool
  values : Values

/-- What is held back: `--config` with its value once there is one, or values. -/
inductive Held where
  | nothing
  | config (path : Option String)
  | values (vs : List String)

/-- What has been read at a level. -/
structure Level where
  switches : List Switch := []
  config : Option String := none
  values : List String := []
  held : Held := .nothing
  /-- Behind `--`, where everything is a value. -/
  literal : Bool := false

namespace Level

/-- Take in the value of `--config`, which may stand once on a level and must not be empty. -/
def setConfig (level : Level) (path : String) : Except UsageError Level :=
  if level.config.isSome then .error .repeatedOption
  else if path = "" then .error .invalidValue
  else .ok { level with config := some path }

/-- Take in what is held back. -/
def settle (g : Grammar) (level : Level) : Except UsageError Level :=
  let rest := { level with held := .nothing }
  match level.held with
  | .nothing => .ok rest
  | .config none => .error .invalidValue
  | .config (some path) => rest.setConfig path
  | .values vs =>
    if g.values ≠ .one true ∧ vs.contains "" then .error .invalidValue
    else .ok { rest with values := rest.values ++ vs }

/-- Take in a switch.  What is held back is settled first, so that its fault comes before that of a
switch given twice. -/
def setSwitch (g : Grammar) (level : Level) (s : Switch) : Except UsageError Level := do
  let level ← level.settle g
  if level.switches.contains s then .error .repeatedOption
  else return { level with switches := s :: level.switches }

/-- Read an option written out, with the value that is attached to it. -/
def long (g : Grammar) (level : Level) (name : String) (value : Option String) :
    Except UsageError Level :=
  if name = "config" then
    match value with
    | some path => do (← level.settle g).setConfig path
    | none => do return { ← level.settle g with held := .config none }
  else if name = "help" ∨ (name = "version" ∧ g.hasVersion = true) then
    match value with
    | some _ => .error .needlessValue
    | none => do
      let _ ← level.settle g
      .error (if name = "help" then .helpAsked else .versionAsked)
  else
    match g.switches.lookup name, value with
    | none, _ => .error .unknownArgument
    | some _, some _ => .error .needlessValue
    | some s, none => level.setSwitch g s

/-- Read options of one letter each. -/
def letters (g : Grammar) (level : Level) : List Char → Except UsageError Level
  | [] => .ok level
  | c :: rest =>
    if c = 'v' then do letters g (← level.setSwitch g .verbose) rest
    else if c = 'h' then do
      let _ ← level.settle g
      .error .helpAsked
    else if c = 'V' ∧ g.hasVersion = true then do
      let _ ← level.settle g
      .error .versionAsked
    else .error .unknownArgument

/-- Read a value. -/
def value (g : Grammar) (level : Level) (v : String) : Except UsageError Level :=
  match g.values, level.held with
  | .none, _ => .error .unknownCommand
  | .many, .values vs => .ok { level with held := .values (vs ++ [v]) }
  | .one _, .values _ => .error .unknownArgument
  | .one _, _ =>
    if level.values.isEmpty then do return { ← level.settle g with held := .values [v] }
    else .error .unknownArgument
  | .many, _ => do return { ← level.settle g with held := .values [v] }

/-- The name of an option and the value behind an equals sign. -/
def splitValue : List Char → List Char × Option (List Char)
  | [] => ([], none)
  | '=' :: rest => ([], some rest)
  | c :: rest =>
    let (name, value) := splitValue rest
    (c :: name, value)

/-- Read an argument. -/
def read (g : Grammar) (level : Level) (arg : String) : Except UsageError Level :=
  if level.literal then level.value g arg
  else
    match arg.toList with
    | ['-', '-'] => .ok { level with literal := true }
    | '-' :: '-' :: rest =>
      let (name, attached) := splitValue rest
      level.long g (String.ofList name) (attached.map String.ofList)
    | '-' :: c :: rest => level.letters g (c :: rest)
    | _ =>
      match level.held with
      | .config none => .ok { level with held := .config (some arg) }
      | _ => level.value g arg

/-- Read the arguments behind a command. -/
def readAll (g : Grammar) (level : Level) : List String → Except UsageError Level
  | [] => level.settle g
  | arg :: rest => do (← level.read g arg).readAll g rest

/-- Whether a switch was given on this level. -/
def has (level : Level) (s : Switch) : Bool := level.switches.contains s

end Level

/-! ## Commands -/

/-- The commands that do something. -/
inductive Name where
  | check
  | deps
  | explain

namespace Name

/-- The names of the commands. -/
def names : List (String × Name) := [("check", .check), ("deps", .deps), ("explain", .explain)]

/-- Options that every level understands. -/
def commonSwitches : List (String × Switch) := [("json", .json), ("verbose", .verbose)]

/-- What each command takes. -/
def grammar : Name → Grammar
  | .check => ⟨("fail-fast", .failFast) :: commonSwitches, false, .many⟩
  | .deps => ⟨commonSwitches, false, .one false⟩
  | .explain => ⟨commonSwitches, false, .one true⟩

/-- The command with what has been read behind its name.  The working directory is checked if no
path is given. -/
def command (name : Name) (level : Level) : Except UsageError Command :=
  match name, level.values with
  | .check, [] => .ok (.check ["."] (level.has .failFast))
  | .check, paths => .ok (.check paths (level.has .failFast))
  | .deps, path :: _ => .ok (.deps path)
  | .explain, code :: _ => .ok (.explain code)
  | .deps, [] | .explain, [] => .error .missingArgument

end Name

/-- What the program understands in front of a command. -/
def programGrammar : Grammar := ⟨Name.commonSwitches, true, .none⟩

/-- Whether an argument is the name of a command or asks for help. -/
def isCommandName (arg : String) : Bool := arg == "help" || (Name.names.lookup arg).isSome

/-- What is shown for the arguments behind `help`: commands have no commands of their own. -/
def help : List String → UsageError
  | [] => .helpAsked
  | [name] => if isCommandName name then .helpAsked else .unknownCommand
  | _ => .unknownCommand

/-- Whether an argument is read as the value of an option. -/
def Level.awaitsValue (level : Level) : Bool :=
  match level.held with
  | .config none => true
  | _ => false

/-- Read the arguments behind a command, then take in what is held back in front of it. -/
def invoke (program : Level) (name : Name) (args : List String) : Except UsageError Invocation := do
  let level ← ({} : Level).readAll name.grammar args
  let command ← name.command level
  let program ← program.settle programGrammar
  return {
    command := command
    json := program.has .json || level.has .json
    verbose := program.has .verbose || level.has .verbose
    config := level.config <|> program.config }

/-- Read arguments in front of a command. -/
def readProgram (program : Level) : List String → Except UsageError Invocation
  | [] => do
    let program ← program.settle programGrammar
    if program.switches.isEmpty && program.config.isNone then .error .nothingGiven
    else .error .missingCommand
  | arg :: rest =>
    if program.literal then
      .error (if isCommandName arg then .unknownArgument else .unknownCommand)
    else if program.awaitsValue then do readProgram (← program.read programGrammar arg) rest
    else if arg = "help" then .error (help rest)
    else
      match Name.names.lookup arg with
      | some name => invoke program name rest
      | none => do readProgram (← program.read programGrammar arg) rest

end Command

namespace Invocation

/-- Read the arguments of the program, its own name not among them. -/
def parse (args : List String) : Except UsageError Invocation := Command.readProgram {} args

end Invocation

end UnitCheck
