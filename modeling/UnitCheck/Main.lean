import UnitCheck.Command.Run

/-!
# The program

Reads the files that the command line names, runs the command on them and prints what it says.
-/

set_option autoImplicit false

namespace UnitCheck

namespace Program

/-- The name and the version of the program. -/
def version : String := "bcc 0.1.0"

/-- How the program is used. -/
def usage : String := "\n".intercalate [
  "Resolve expression types and dependencies of compilation units",
  "",
  "Usage: bcc [OPTIONS] <COMMAND>",
  "",
  "Commands:",
  "  check [--fail-fast] [FILES]...  Resolve the type of every expression in the given units",
  "  deps <FILE>                     List the dependency tokens of every expression in a unit",
  "  explain <CODE>                  Explain an error or warning code",
  "  help [COMMAND]                  Print this message",
  "",
  "Options:",
  "      --json           Output results and diagnostics as JSON",
  "  -v, --verbose        Show debug logging",
  "      --config <PATH>  Configuration file (defaults to ./bcc.toml when present)",
  "  -h, --help           Print help",
  "  -V, --version        Print version"]

/-- The error for a file that the system would not read. -/
def fileError : IO.Error → FileError
  | .permissionDenied .. => .denied
  | .inappropriateType .. => .notDirectory
  | .invalidArgument .. => .nameTooLong
  | _ => .notFound

/-- The name of an entry of a directory, with the names in it if that is a directory as well. -/
partial def readEntry (entry : IO.FS.DirEntry) : IO (String × FileTree) := do
  if ← entry.path.isDir then
    let entries ← (← entry.path.readDir).toList.mapM readEntry
    return (entry.fileName, .dir entries)
  else return (entry.fileName, .file .empty)

/-- Read what a path leads to: the bytes of a file, or the names in a directory. -/
def readPlace (path : String) : IO (Except FileError FileTree) := do
  if path = "" then return .error .notFound
  try
    let place := (← IO.currentDir) / path
    if ← place.isDir then
      return .ok (.dir (← (← place.readDir).toList.mapM readEntry))
    else return .ok (.file (← IO.FS.readBinFile place))
  catch e => return .error (fileError e)

/-- Print why a command was given up. -/
def printError (e : CommandError) : IO Unit := do
  IO.eprintln e.code
  IO.eprintln ("  × " ++ e.message)
  if let some help := e.help? then IO.eprintln ("  help: " ++ help)

/-- Carry out a command line; the exit code. -/
def run (args : List String) : IO UInt32 := do
  match Invocation.parse args with
  | .error e =>
    match e with
    | .helpAsked => IO.println usage
    | .versionAsked => IO.println version
    | .nothingGiven => IO.eprintln usage
    | _ => IO.eprintln ("error: " ++ e.message ++ "\n\nFor more information, try '--help'.")
    return e.exitCode.toUInt32
  | .ok i =>
    let files ← i.view readPlace
    match i.run files with
    | .error e =>
      printError e
      return 1
    | .ok o =>
      IO.print o.printed.out
      IO.eprint o.printed.err
      if o.printed.crashed then IO.eprintln "capacity overflow"
      return o.exitCode.toUInt32

end Program

end UnitCheck

def main (args : List String) : IO UInt32 := UnitCheck.Program.run args
