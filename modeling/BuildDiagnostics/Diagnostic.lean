import BuildDiagnostics.Json
import BuildDiagnostics.Location
import BuildDiagnostics.Severity

/-!
# Diagnostics

One report of a compiler: where, how grave, what, and which columns of the line. Lines and columns
count from 0 in 32 bits; the columns are a half-open range whose end is derived from a width, so it
never lies before the start. `displayLine` writes a diagnostic in the compiler's own form, counting
from 1.
-/

namespace BuildDiagnostics

/-- The largest 32-bit number. -/
def maxPosition : UInt32 := 4294967295

/-- The column `width` after `start`, or the last column there is when that lies beyond it. -/
def columnAfter (start : UInt32) (width : Nat) : UInt32 :=
  UInt32.ofNat (min (start.toNat + width) maxPosition.toNat)

theorem toNat_columnAfter (start : UInt32) (width : Nat) :
    (columnAfter start width).toNat = min (start.toNat + width) maxPosition.toNat :=
  UInt32.toNat_ofNat_of_lt' (Nat.lt_of_le_of_lt (Nat.min_le_right ..) (by decide))

theorem le_columnAfter (start : UInt32) (width : Nat) : start ≤ columnAfter start width := by
  rw [UInt32.le_iff_toNat_le, toNat_columnAfter]
  have := start.toNat_lt
  have : maxPosition.toNat = 2 ^ 32 - 1 := rfl
  omega

/-- One diagnostic of a compiler. The message is all that followed the severity, its leading space
included. -/
structure Diagnostic where
  location : Location
  severity : Severity
  message : String
  /-- The line, from 0. -/
  line : UInt32
  /-- The first column of the range, from 0. -/
  startCol : UInt32
  /-- The first column after the range. -/
  endCol : UInt32
  /-- A range does not end before it starts. -/
  start_le_end : startCol ≤ endCol
  deriving DecidableEq, Repr

namespace Diagnostic

/-- The diagnostic over `width` columns from `startCol`, cut off at the last column there is. -/
def ofWidth (location : Location) (severity : Severity) (message : String)
    (line startCol : UInt32) (width : Nat) : Diagnostic where
  location
  severity
  message
  line
  startCol
  endCol := columnAfter startCol width
  start_le_end := le_columnAfter startCol width

/-- How many columns the range has. -/
def width (d : Diagnostic) : UInt32 :=
  d.endCol - d.startCol

/-- A position as it is shown: from 1, so one more digit may be needed than 32 bits hold. -/
def oneBased (position : UInt32) : String :=
  Text.Decimal.text (position.toNat + 1)

/-- What follows the message of a shown diagnostic: its range, unless that is empty. -/
def rangeSuffix (d : Diagnostic) : String :=
  if d.startCol < d.endCol then
    " [" ++ oneBased d.startCol ++ ".." ++ oneBased d.endCol ++ "]"
  else ""

/-- The diagnostic in the form `location:line:column: severity:message`, counting from 1, with the
range in brackets at the end when it is not empty. -/
def displayLine (d : Diagnostic) : String :=
  d.location.raw ++ ":" ++ oneBased d.line ++ ":" ++ oneBased d.startCol ++ ": "
    ++ d.severity.label ++ ":" ++ d.message ++ d.rangeSuffix

/-- The diagnostic as a JSON object. -/
def toJson (d : Diagnostic) : Json :=
  .object
    [("location", .text d.location.raw),
     ("severity", .text d.severity.label),
     ("message", .text d.message),
     ("line", .number d.line.toNat),
     ("start_col", .number d.startCol.toNat),
     ("end_col", .number d.endCol.toNat)]

end Diagnostic

end BuildDiagnostics
