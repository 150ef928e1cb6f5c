import BuildDiagnostics.Build.ByteStream
import BuildDiagnostics.Extraction
import BuildDiagnostics.Text.Utf8

/-!
# Build sessions

One run of a compiler. Its standard output is captured as bytes and decoded once, at the end, since
a chunk may end inside a character. Its standard error is only echoed to the log and its lines are
counted. `finish` extracts the diagnostics from everything captured.
-/

namespace BuildDiagnostics

/-- The text of the captured bytes, with invalid parts replaced. -/
def Capture.text (c : Capture) : String :=
  Text.Utf8.decode c.bytes.toList

/-- The output of one compiler run so far. -/
structure Session where
  stdout : Capture := {}
  /-- How many lines of standard error were echoed. -/
  stderrLines : Nat := 0
  deriving DecidableEq, Repr

/-- What one compiler run gave. -/
structure Report where
  extraction : Extraction
  /-- How many bytes of standard output were captured. -/
  stdoutBytes : Nat
  /-- How many lines of standard error were echoed. -/
  stderrLines : Nat

/-- The event of a line on the compiler's standard error, whose line ends are left out. -/
def echoEvent (line : String) : Log.Event where
  level := .info
  target := .compiler
  message := String.ofList (Text.dropEndWhile (fun c => c == '\r' || c == '\n') line.toList)

/-- Why the output of a compiler could not be read. -/
inductive ReadError
  | stdout (cause : String)
  | stderr (cause : String)
  deriving DecidableEq, Repr

/-- The text of a read error, its cause last. -/
def ReadError.message : ReadError → String
  | stdout cause => "reading compiler stdout: " ++ cause
  | stderr cause => "reading compiler stderr: " ++ cause

namespace Session

/-- Captures a chunk of standard output. -/
def pushStdout (s : Session) (chunk : List UInt8) : Session :=
  { s with stdout := s.stdout.push chunk }

/-- Echoes a line of standard error; the event goes to the log. -/
def pushStderrLine (s : Session) (line : String) : Log.Event × Session :=
  (echoEvent line, { s with stderrLines := s.stderrLines + 1 })

/-- A session with everything two streams yield, beside the events of the lines that were echoed.
Standard output is read first, to its end or its failure. The failure of either stream is the failure
of the session; the lines that were echoed until then stay in the log. -/
def drain (stdout stderr : ByteStream) : List Log.Event × Except ReadError Session :=
  match stdout.capture with
  | .error cause => ([], .error (.stdout cause))
  | .ok captured =>
    let (lines, failure) := stderr.lines
    let events := lines.toList.map fun line => echoEvent (Text.Utf8.decode line)
    match failure with
    | some cause => (events, .error (.stderr cause))
    | none => (events, .ok { stdout := captured, stderrLines := lines.size })

/-- The report of the run. -/
def finish (s : Session) : Report where
  extraction := .ofText s.stdout.text
  stdoutBytes := s.stdout.size
  stderrLines := s.stderrLines

end Session

namespace Report

/-- Whether the run reported an error. -/
def hasErrors (r : Report) : Bool :=
  r.extraction.diagnostics.hasErrors

/-- The event at the end of a run. -/
def summaryEvent (r : Report) : Log.Event where
  level := .info
  target := .session
  fields :=
    [("stdout_bytes", .count r.stdoutBytes),
     ("stderr_lines", .count r.stderrLines),
     ("diagnostics", .count r.extraction.diagnostics.totalCount),
     ("skipped", .count r.extraction.skipped.size)]
  message := "Build output processed"

/-- The events of finishing a session. -/
def events (r : Report) : List Log.Event :=
  r.extraction.events ++ [r.summaryEvent]

end Report

end BuildDiagnostics
