import BuildDiagnostics.Severity
import BuildDiagnostics.Text.Decimal
import BuildDiagnostics.Text.Split

/-!
# Header lines

A block of compiler output begins with a header `path:line:column: severity:message`. `LineKind.of`
says which lines are headers: those that split at colons into more than four fields, the fourth of
which is, blanks aside, one of the words a compiler uses. `Header.ofLine` takes a line apart at its
first four colons; the message keeps every colon after these.
-/

namespace BuildDiagnostics

/-- The words a compiler uses for the severity of a diagnostic. -/
def severityTokens : List String :=
  ["error", "warning", "note"]

/-- What a line of output is to the blocks around it. -/
inductive LineKind
  /-- It opens a block. -/
  | blockStart
  /-- It belongs to the open block, or to none. -/
  | continuation
  deriving DecidableEq, Repr

/-- Whether a line opens a block: it has a fourth field that is a severity, and a fifth one, which
may be empty. A line of source code of this form is taken for a header too. -/
def isBlockStart (line : String) : Bool :=
  match (Text.splitOn ':' line.toList).drop 3 with
  | severity :: _ :: _ => severityTokens.contains (String.ofList (Text.trim severity))
  | _ => false

/-- What a line of output is to the blocks around it. -/
def LineKind.of (line : String) : LineKind :=
  if isBlockStart line then .blockStart else .continuation

/-- A position in a header. -/
inductive PositionField
  | line
  | column
  deriving DecidableEq, Repr

/-- The word for a position in a header. -/
def PositionField.label : PositionField → String
  | line => "line"
  | column => "column"

/-- Why a block gives no diagnostic. -/
inductive BlockError
  /-- The header has fewer than five fields. -/
  | tooFewFields (found : Nat)
  /-- A position, given as it was written, is not a number of 32 bits. -/
  | notAnInteger (field : PositionField) (value : String)
  deriving DecidableEq, Repr

/-- The text of a block error. -/
def BlockError.message : BlockError → String
  | tooFewFields found =>
    "header has " ++ Text.Decimal.text found ++ " colon-separated fields, expected at least 5"
  | notAnInteger field value => field.label ++ " \x60" ++ value ++ "\x60 is not an integer"

/-- The fields of a header, each as it was written. -/
structure Header where
  path : String
  line : String
  column : String
  severity : String
  message : String
  deriving DecidableEq, Repr

namespace Header

/-- How many fields a header has. -/
def fieldCount : Nat := 5

/-- The fields of a line, taken apart at its first four colons. -/
def ofLine (text : String) : Except BlockError Header :=
  let fields := (Text.splitFirst ':' fieldCount text.toList).map String.ofList
  match fields with
  | [path, line, column, severity, message] => .ok { path, line, column, severity, message }
  | _ => .error (.tooFewFields fields.length)

end Header

end BuildDiagnostics
