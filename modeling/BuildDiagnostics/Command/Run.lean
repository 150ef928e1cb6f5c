import BuildDiagnostics.Build.Session
import BuildDiagnostics.Command.Arguments
import BuildDiagnostics.Document.Store
import BuildDiagnostics.Log.Filter
import BuildDiagnostics.Settings.Config

/-!
# Running the command

Everything the command does between its inputs and its outputs, as one function: flags, config,
current directory and input in; texts for the two output streams, exit status and log events out.
Diagnostics go to standard output, in the order of the extraction. The summary and the exit status
are taken from the store that the diagnostics were published to. A failure ends the run with an error
in the place of both; what was logged before it stays.
-/

namespace BuildDiagnostics.Command

/-- Why a run gives no diagnostics. -/
inductive RunError
  /-- The current directory is needed and cannot be found. -/
  | currentDir (cause : String)
  /-- The input file cannot be opened. -/
  | opening (path : Path) (cause : String)
  | reading (error : ReadError)
  /-- The diagnostics or the summary cannot be printed. -/
  | writing (cause : String)
  deriving DecidableEq, Repr

/-- The text of a run error, its cause last. -/
def RunError.message : RunError → String
  | currentDir cause => "resolving current directory: " ++ cause
  | opening path cause => "opening " ++ path.display ++ ": " ++ cause
  | reading error => error.message
  | writing cause => cause

/-- What the flags and the config say together. -/
structure Settings where
  format : OutputFormat
  /-- Whether a summary is printed. -/
  summary : Bool
  /-- Whether an error among the diagnostics shows in the exit status. -/
  failOnError : Bool
  /-- The directory that relative locations start from. -/
  root : Path
  deriving DecidableEq, Repr

namespace Settings

/-- The root that the flags or the config name. -/
def namedRoot? (flags : Flags) (config : Config) (env : Environment) : Option Path :=
  flags.root.or (config.workspaceRoot env)

/-- The settings of a run with the given root. A flag wins over the config. -/
def withRoot (flags : Flags) (config : Config) (root : Path) : Settings where
  format := flags.format.getD config.outputSection.format
  summary := config.outputSection.summary && !flags.noSummary
  failOnError := config.outputSection.failOnError || flags.failOnError
  root

/-- The settings of a run. Only where no root is named has the current directory to be known. -/
def resolve (flags : Flags) (config : Config) (env : Environment)
    (currentDir : Except String Path) : Except RunError Settings :=
  match namedRoot? flags config env with
  | some root => .ok (withRoot flags config root)
  | none => (currentDir.mapError .currentDir).map (withRoot flags config)

/-- The event of having resolved the settings. -/
def event (s : Settings) : Log.Event where
  level := .debug
  target := .program
  fields := [("format", .text s.format.word), ("root", .path s.root.display)]
  message := "Settings resolved"

end Settings

/-- The event of going on without a config that does not load. -/
def ignoredConfigEvent (e : ConfigError) : Log.Event where
  level := .warn
  target := .program
  message := "Ignoring config: " ++ e.message

/-- What a run leaves behind. -/
structure Outcome where
  stdout : String := ""
  /-- The text on standard error other than log events. -/
  stderr : String := ""
  status : UInt8
  events : List Log.Event := []
  deriving DecidableEq, Repr

namespace Outcome

/-- Prints what was found. -/
def ofReport (write : FileUri.Writer) (settings : Settings) (report : Report) : Outcome :=
  let diagnostics := report.extraction.diagnostics
  let snapshot := (Store.publish write {} diagnostics settings.root).snapshot
  { stdout := render settings.format diagnostics
    stderr :=
      if settings.summary then snapshot.summaryLine report.extraction.skipped.size ++ "\n" else ""
    status := if settings.failOnError && snapshot.errorCount > 0 then 1 else 0
    events := report.events ++ publishEvents write diagnostics settings.root }

/-- The outcome of a run that failed. -/
def ofError (e : RunError) : Outcome where
  stderr := "buildlens: " ++ e.message ++ "\n"
  status := 2

/-- The outcome of arguments that make no sense. -/
def ofUsageError (e : UsageError) : Outcome where
  stderr := e.report
  status := 2

/-- The outcome with what was logged before it. -/
def after (events : List Log.Event) (outcome : Outcome) : Outcome :=
  { outcome with events := events ++ outcome.events }

end Outcome

/-- Reads the input to its end. Nothing is read from a compiler's standard error. -/
def readInput : Except RunError ByteStream → List Log.Event × Except RunError Session
  | .error e => ([], .error e)
  | .ok stream =>
    let (events, session) := Session.drain stream {}
    (events, session.mapError .reading)

/-- The config that holds when loading one gave `loaded`: the default one if there is none. -/
def effectiveConfig (loaded : Except ConfigError (Option Config)) : Config :=
  match loaded with
  | .ok (some config) => config
  | _ => {}

/-- What is logged when loading a config gave `loaded`. -/
def loadEvents : Except ConfigError (Option Config) → List Log.Event
  | .ok _ => []
  | .error e => [ignoredConfigEvent e]

/-- The command once its settings are known. -/
def runWith (write : FileUri.Writer) (settings : Settings) (input : Except RunError ByteStream) :
    Outcome :=
  let (events, session) := readInput input
  let outcome :=
    match session with
    | .ok session => Outcome.ofReport write settings session.finish
    | .error e => Outcome.ofError e
  outcome.after (settings.event :: events)

/-- The command with flags that make sense. -/
def run (write : FileUri.Writer) (flags : Flags) (loaded : Except ConfigError (Option Config))
    (env : Environment) (currentDir : Except String Path) (input : Except RunError ByteStream) :
    Outcome :=
  let outcome :=
    match Settings.resolve flags (effectiveConfig loaded) env currentDir with
    | .ok settings => runWith write settings input
    | .error e => Outcome.ofError e
  outcome.after (loadEvents loaded)

/-- The variable that holds the log filter of the environment. -/
def logVariable : String := "RUST_LOG"

/-- The filter of the command's log: that of the environment, else that of the config. -/
def logFilter (loaded : Except ConfigError (Option Config)) (env : Environment) : Log.Filter :=
  .choose (env logVariable) (effectiveConfig loaded).logFilter

end BuildDiagnostics.Command
