import UnitCheck.Command.Arguments
import UnitCheck.Config
import UnitCheck.Files
import UnitCheck.Unit.Report

/-!
# Running a command

`Invocation.run` does what a command line asks for and says what is printed.  It reads nothing but
the given files and the configuration among them, which every command needs to be in order.  What
it has to read, file by file, is gathered by `Invocation.view`.

Printing a report for people may break the program off in the middle, because a text is too long.
What has been printed by then stays, and the exit code is one of its own.
-/

set_option autoImplicit false

namespace UnitCheck

/-! ## Failures -/

/-- Why there is no configuration. -/
inductive ConfigError where
  | unreadable (path reason : String)
  | malformed
deriving DecidableEq, Inhabited

namespace ConfigError

/-- What went wrong, in words. -/
def message : ConfigError → String
  | .unreadable path reason => "could not read " ++ path ++ ": " ++ reason
  | .malformed => "invalid configuration"

end ConfigError

/-- Why a command was given up. -/
inductive CommandError where
  | config (e : ConfigError)
  | unit (e : UnitError)
  | noInput
  | unknownCode (code : String)
deriving DecidableEq

namespace CommandError

/-- The code of a failure. -/
def code : CommandError → String
  | .config _ => "bcc::config"
  | .unit _ => "bcc::unit"
  | .noInput => "bcc::no_input"
  | .unknownCode _ => "bcc::unknown_code"

/-- What went wrong, in words. -/
def message : CommandError → String
  | .config e => e.message
  | .unit e => e.message
  | .noInput => "no compilation units found"
  | .unknownCode code => "unknown code `" ++ code ++ "`"

/-- What may help. -/
def help? : CommandError → Option String
  | .config _ => some "see `bcc.toml` for the accepted keys"
  | .unit _ => none
  | .noInput => some "pass unit files or a directory containing `.json` units"
  | .unknownCode _ => some "codes look like E1002 or W0006"

end CommandError

/-! ## Output -/

/-- What is printed: results, and messages apart from them. -/
structure Printed where
  out : String := ""
  err : String := ""
  /-- The program broke off after this. -/
  crashed : Bool := false

namespace Printed

/-- Print one thing and then another, unless the program broke off in between. -/
def append (a b : Printed) : Printed :=
  if a.crashed then a else ⟨a.out ++ b.out, a.err ++ b.err, b.crashed⟩

instance : Append Printed := ⟨append⟩

/-- A line of results. -/
def outLine (line : String) : Printed := { out := line ++ "\n" }

/-- A line of messages. -/
def errLine (line : String) : Printed := { err := line ++ "\n" }

/-- Break off. -/
def crash : Printed := { crashed := true }

/-- Print one thing after the other. -/
def all (ps : List Printed) : Printed := ps.foldl append {}

end Printed

/-- The result of a command that was carried out. -/
structure Outcome where
  failed : Bool := false
  printed : Printed := {}

namespace Outcome

/-- The exit code of a program that breaks off. -/
def crashCode : Nat := 101

/-- The exit code of a command that was carried out, or broke off in the middle. -/
def exitCode (o : Outcome) : Nat :=
  if o.printed.crashed then crashCode else if o.failed then 1 else 0

end Outcome

/-! ## Configuration -/

namespace Config

/-- Where the configuration is if none is named. -/
def defaultPath : String := "./bcc.toml"

/-- Read the configuration at a path. -/
def load (files : Files) (path : String) : Except ConfigError Config :=
  match files.readText path with
  | .error e => .error (.unreadable path e.message)
  | .ok text =>
    match parse text with
    | some config => .ok config
    | none => .error .malformed

/-- Read the configuration of the working directory, if there is one. -/
def discover (files : Files) : Except ConfigError Config :=
  if files.isFile defaultPath then load files defaultPath else .ok {}

end Config

/-! ## Checking -/

/-- What was found in all units together. -/
structure Summary where
  units : Nat := 0
  errors : Nat := 0
  warnings : Nat := 0
deriving DecidableEq, Inhabited

namespace Summary

/-- Count one more unit. -/
def record (s : Summary) (r : Report) : Summary :=
  ⟨s.units + 1, s.errors + Diagnostic.errorCount r.diagnostics,
    s.warnings + Diagnostic.warningCount r.diagnostics⟩

/-- The totals over some reports. -/
def ofReports (reports : List Report) : Summary := reports.foldl record {}

/-- Whether there are errors. -/
def failed (s : Summary) : Bool := decide (0 < s.errors)

/-- The totals in words. -/
def describe (s : Summary) : String :=
  let found :=
    (if s.errors = 0 then [] else [s.errors.repr ++ " error(s)"]) ++
    (if s.warnings = 0 then [] else [s.warnings.repr ++ " warning(s)"])
  "Checked " ++ s.units.repr ++ " unit(s), " ++
    (if found = [] then "no errors found" else "found " ++ ", ".intercalate found)

end Summary

/-- What checking units has come to: the totals and what is printed. -/
structure CheckRun where
  /-- The totals over all units.  There are none if the program broke off before the last one. -/
  summary? : Option Summary
  printed : Printed

namespace CheckRun

/-- Checking fails if there are errors. -/
def outcome (run : CheckRun) : Outcome := ⟨run.summary?.any Summary.failed, run.printed⟩

end CheckRun

namespace Command

/-- Read and build the unit in a file. -/
def loadUnit (files : Files) (path : String) : Except UnitError (BuiltUnit (Option NodeId)) :=
  match files.readText path with
  | .error e => .error (.unreadable path e.message)
  | .ok text => CompilationUnit.load text path

/-- Check the unit in a file; the report and the unit's source. -/
def checkUnit (files : Files) (failFast : Bool) (path : String) : Report × String :=
  match loadUnit files path with
  | .ok b => (b.check failFast, b.sourceText)
  | .error e => (Report.ofError path e, "")

/-- A line with the result for an expression of a file. -/
def resultLine (file : String) (index : Nat) (text : String) : Printed :=
  Printed.outLine (file ++ "[" ++ index.repr ++ "]: " ++ text)

/-- The line with the type of an expression of a file, if there is one. -/
def typeLine (file : String) (index : Nat) : Except ResolveError Ty → Option Printed
  | .ok ty => some (resultLine file index ty.name)
  | .error _ => none

/-- What a person reads of a report: the types, and then the messages if they can be built. -/
def printReport (r : Report) (source : String) : Printed :=
  let types := r.results.zipIdx.filterMap fun (result, index) => typeLine r.file index result
  let messages :=
    if r.diagnostics.isEmpty then {}
    else ((Diagnostic.listText? source r.diagnostics).map Printed.errLine).getD .crash
  Printed.all types ++ messages

/-- What is printed for the reports on all units, each with the source of its unit. -/
def printReports (reports : List (Report × String)) (summary : Summary) : OutputFormat → Printed
  | .json => Printed.all (reports.map fun (r, _) => Printed.outLine r.toJson.render)
  | .human =>
    let last :=
      if summary.failed then Printed.errLine ("\n" ++ summary.describe)
      else Printed.outLine summary.describe
    Printed.all (reports.map fun (r, source) => printReport r source) ++ last

/-- Check all units that some paths stand for. -/
def runCheck (files : Files) (failFast : Bool) (format : OutputFormat) (paths : List String) :
    Except CommandError CheckRun :=
  let units := files.unitsAt paths
  if units.isEmpty then .error .noInput
  else
    let reports := units.map (checkUnit files failFast)
    let summary := Summary.ofReports (reports.map Prod.fst)
    let printed := printReports reports summary format
    .ok ⟨if printed.crashed then none else some summary, printed⟩

/-! ## Listing dependencies -/

/-- The document of a unit's dependencies, by name. -/
def depsJson (file : String) (names : List (List String)) : Json :=
  Json.sortKeys (.obj [("file", .str file),
    ("dependencies", .arr (names.map fun ns => .arr (ns.map .str)))])

/-- List the dependencies of the expressions of a unit. -/
def runDeps (files : Files) (format : OutputFormat) (path : String) :
    Except CommandError Outcome :=
  match loadUnit files path with
  | .error e => .error (.unit e)
  | .ok b =>
    let names := b.dependencies.map fun ds => ds.map Declaration.name
    match format with
    | .json => .ok { printed := Printed.outLine (depsJson b.file names).render }
    | .human =>
      .ok { printed := Printed.all (names.zipIdx.map fun (ns, index) =>
        resultLine b.file index (", ".intercalate ns)) }

/-! ## Explaining codes -/

/-- Explain a code. -/
def runExplain (code : String) : Except CommandError Outcome :=
  match Code.explanation? code with
  | some text => .ok { printed := Printed.outLine text }
  | none => .error (.unknownCode code)

end Command

/-! ## All commands -/

namespace Invocation

/-- The configuration that a command line asks for. -/
def loadConfig (i : Invocation) (files : Files) : Except ConfigError Config :=
  match i.config with
  | some path => Config.load files path
  | none => Config.discover files

/-- The paths of the units that are to be checked, and of directories with such units. -/
def checked (i : Invocation) : List String :=
  match i.command with
  | .check paths _ => paths
  | .deps _ => []
  | .explain _ => []

/-- The paths that a command line names, and that of the configuration if it names none. -/
def places (i : Invocation) : List String :=
  i.config.getD Config.defaultPath ::
    match i.command with
    | .check paths _ => paths
    | .deps path => [path]
    | .explain _ => []

/-- Find out what a command has to know: what is at the places it names, and then, with the names in
directories known, what is in the units there. -/
def view {m : Type → Type} [Monad m] (i : Invocation)
    (read : String → m (Except FileError FileTree)) : m Files := do
  let places ← i.places.mapM fun path => do return (path, ← read path)
  let units ← ((Files.ofPlaces places).unitsAt i.checked).mapM fun path => do
    return (path, ← read path)
  return Files.ofPlaces (units ++ places)

/-- Carry out a command. -/
def run (i : Invocation) (files : Files) : Except CommandError Outcome :=
  match i.loadConfig files with
  | .error e => .error (.config e)
  | .ok config =>
    let format := if i.json then .json else config.format
    match i.command with
    | .check paths failFast =>
      (Command.runCheck files (config.failFast || failFast) format paths).map CheckRun.outcome
    | .deps path => Command.runDeps files format path
    | .explain code => Command.runExplain code

end Invocation

end UnitCheck
