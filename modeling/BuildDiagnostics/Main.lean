import BuildDiagnostics.Command.Run

/-!
# The command line

The outer layer of the command: it reads arguments, environment and files, calls `Command.run`, and
prints what comes out.
-/

namespace BuildDiagnostics.Command

/-- The help of the command. -/
def helpText : String :=
  String.intercalate "\n"
    ["Extract editor diagnostics from compiler output",
     "",
     "Usage: buildlens [OPTIONS] [FILE]",
     "",
     "Arguments:",
     "  [FILE]  Captured compiler output. Reads stdin when omitted",
     "",
     "Options:",
     "      --format <FORMAT>  Output format: \x60text\x60 or \x60json\x60",
     "      --root <ROOT>      Base directory for relative locations (default: current directory)",
     "      --config <CONFIG>  Config file (default: ~/.buildlens/config.toml)",
     "      --fail-on-error    Exit with status 1 when any error diagnostic is found",
     "      --no-summary       Do not print the summary line to stderr",
     "  -h, --help             Print help"]

/-- The cause that an operation on a file failed for. -/
def causeOf (e : IO.Error) : String :=
  let withCode (code : UInt32) (details : String) : String :=
    details ++ " (os error " ++ toString code ++ ")"
  match e with
  | .noFileOrDirectory _ code details | .interrupted _ code details => withCode code details
  | .alreadyExists _ code details | .invalidArgument _ code details
  | .permissionDenied _ code details | .resourceExhausted _ code details
  | .inappropriateType _ code details | .noSuchThing _ code details => withCode code details
  | .otherError code details | .resourceBusy code details | .resourceVanished code details
  | .unsupportedOperation code details | .hardwareFault code details
  | .unsatisfiedConstraints code details | .illegalOperation code details
  | .protocolError code details | .timeExpired code details => withCode code details
  | .unexpectedEof => "unexpected end of file"
  | .userError message => message

/-- How many bytes are read at a time. -/
def chunkSize : USize := 8192

/-- Reads a stream to its end or to its failure. -/
partial def readAll (stream : IO.FS.Stream) (chunks : List (List UInt8)) : IO ByteStream := do
  match ← (stream.read chunkSize).toBaseIO with
  | .error e => return { chunks := chunks.reverse, failure := some (causeOf e) }
  | .ok chunk =>
    if chunk.isEmpty then return { chunks := chunks.reverse }
    else readAll stream (chunk.toList :: chunks)

/-- Opens a file and reads it. The paths that come here were texts before, and display as these. -/
def readFile (path : Path) : IO (Except IO.Error ByteStream) := do
  match ← (IO.FS.Handle.mk path.display .read).toBaseIO with
  | .error e => return .error e
  | .ok handle => return .ok (← readAll (.ofHandle handle) [])

/-- Looks for a config file. -/
def readConfig (path : Path) : IO Config.FileContent := do
  match ← readFile path with
  | .error (.noFileOrDirectory ..) => return .missing
  | .error e@(.inappropriateType _ _ details) =>
    return if details == "Not a directory" then .missing else .unreadable (causeOf e)
  | .error e => return .unreadable (causeOf e)
  | .ok { failure := some cause, .. } => return .unreadable cause
  | .ok { chunks, .. } => return .bytes chunks.flatten

/-- Loads the config: from the given path, or from the user's home directory if there is one. -/
def loadConfig (flags : Flags) : IO (Except ConfigError (Option Config)) := do
  let home := (← IO.getEnv "HOME").filter fun home => !home.isEmpty
  match flags.config.or (home.map fun home => Config.defaultPath (.ofText home)) with
  | some path => return Config.load path (← readConfig path)
  | none => return .ok none

/-- The variables that the log and the config refer to. -/
def readEnvironment (config : Config) : IO Environment := do
  let referred := (config.root.map fun root => (Template.ofChars root.toList).names).getD []
  let values ← (logVariable :: referred).mapM fun name => return (name, ← IO.getEnv name)
  return fun name => (values.lookup name).join

/-- Opens and reads the input of the command. -/
def readInputStream (flags : Flags) : IO (Except RunError ByteStream) := do
  match flags.file with
  | none => return .ok (← readAll (← IO.getStdin) [])
  | some path => return (← readFile path).mapError fun e => .opening path (causeOf e)

/-- The current directory, or why it is not known. -/
def readCurrentDir : IO (Except String Path) := do
  match ← IO.currentDir.toBaseIO with
  | .ok path => return .ok (.ofText path.toString)
  | .error e => return .error (causeOf e)

/-- Writes a text out. -/
def writeOut (stream : IO.FS.Stream) (text : String) : IO Unit := do
  stream.putStr text
  stream.flush

/-- Prints the outcome of the command and answers its exit status. The log keeps what can be written
to it, but the outcome has to be printed whole. -/
def report (outcome : Outcome) (filter : Log.Filter) : IO UInt32 := do
  let stdout ← IO.getStdout
  let stderr ← IO.getStderr
  for event in outcome.events.filter filter.shows do
    discard (writeOut stderr (event.display ++ "\n")).toBaseIO
  let print : IO Unit := do
    writeOut stdout outcome.stdout
    writeOut stderr outcome.stderr
  match ← print.toBaseIO with
  | .ok () => return outcome.status.toUInt32
  | .error e =>
    let failed := Outcome.ofError (.writing (causeOf e))
    discard (writeOut stderr failed.stderr).toBaseIO
    return failed.status.toUInt32

/-- Runs the command on its arguments. -/
def main (arguments : List String) : IO UInt32 := do
  match Flags.ofArguments arguments with
  | .error .help =>
    discard (writeOut (← IO.getStdout) (helpText ++ "\n")).toBaseIO
    return 0
  | .error (.usage e) => report (.ofUsageError e) .warnings
  | .ok flags =>
    let loaded ← loadConfig flags
    let env ← readEnvironment (effectiveConfig loaded)
    let currentDir ← readCurrentDir
    let input ←
      match Settings.resolve flags (effectiveConfig loaded) env currentDir with
      | .ok _ => readInputStream flags
      | .error e => pure (.error e)
    report (run FileUri.ofResolved? flags loaded env currentDir input) (logFilter loaded env)

end BuildDiagnostics.Command

/-- Extracts diagnostics from compiler output. -/
def main (arguments : List String) : IO UInt32 :=
  BuildDiagnostics.Command.main arguments
