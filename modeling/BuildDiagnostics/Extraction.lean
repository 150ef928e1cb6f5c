import BuildDiagnostics.Block.Segmenter
import BuildDiagnostics.Diagnostic.ByLocation
import BuildDiagnostics.Log.Event

/-!
# Extraction

One pass over a text of compiler output: its diagnostics grouped by location, the blocks that gave
none, and how many lines came before the first block. A malformed block drops itself and nothing
else. The events of a pass follow from its result.
-/

namespace BuildDiagnostics

/-- A block that gave no diagnostic. -/
structure SkippedBlock where
  /-- The number of the header's line in the output, from 1. -/
  lineNumber : Nat
  header : String
  error : BlockError
  deriving DecidableEq, Repr

/-- The event of skipping a block. -/
def SkippedBlock.event (skipped : SkippedBlock) : Log.Event where
  level := .warn
  target := .extraction
  fields := [("line", .count skipped.lineNumber), ("header", .text skipped.header)]
  message := "Skipping malformed diagnostic block: " ++ skipped.error.message

/-- What one pass over a text found. -/
structure Extraction where
  diagnostics : DiagnosticsByLocation := {}
  /-- The blocks that gave no diagnostic, in the order of the output. -/
  skipped : Array SkippedBlock := #[]
  /-- How many lines came before the first block. -/
  ignoredLines : Nat := 0

namespace Extraction

/-- Adds what one block gives. -/
def addBlock (e : Extraction) (block : Block) : Extraction :=
  match block.build with
  | .ok diagnostic => { e with diagnostics := e.diagnostics.push diagnostic }
  | .error error =>
    let skipped := { lineNumber := block.lineNumber, header := block.header, error }
    { e with skipped := e.skipped.push skipped }

/-- The extraction of a text of compiler output. -/
def ofText (text : String) : Extraction :=
  let (e, segments) := (Segments.ofText text).fold addBlock {}
  { e with ignoredLines := segments.ignored }

/-- The event at the end of a pass. -/
def summaryEvent (e : Extraction) : Log.Event where
  level := .debug
  target := .extraction
  fields :=
    [("locations", .count e.diagnostics.size),
     ("diagnostics", .count e.diagnostics.totalCount),
     ("skipped", .count e.skipped.size),
     ("ignored_lines", .count e.ignoredLines)]
  message := "Extracted diagnostics"

/-- The events of a pass: one for each skipped block, then a summary. -/
def events (e : Extraction) : List Log.Event :=
  e.skipped.toList.map SkippedBlock.event ++ [e.summaryEvent]

end Extraction

/-- The diagnostics of a text of compiler output, grouped by location. -/
def extract (text : String) : DiagnosticsByLocation :=
  (Extraction.ofText text).diagnostics

end BuildDiagnostics
