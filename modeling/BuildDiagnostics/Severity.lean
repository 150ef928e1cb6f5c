import BuildDiagnostics.Text.Blank

/-!
# Severities

How grave a diagnostic is. Compilers write `error`, `warning` or `note`; a note is shown as `info`.
-/

namespace BuildDiagnostics

/-- How grave a diagnostic is, gravest first. -/
inductive Severity
  | error
  | warning
  | info
  deriving DecidableEq, Repr, Inhabited

namespace Severity

/-- The severity a compiler's token stands for, blanks around it aside. Every token other than
`error` and `warning` stands for `info`. -/
def ofToken (token : String) : Severity :=
  match Text.trimmed token with
  | "error" => error
  | "warning" => warning
  | _ => info

/-- The word a severity is shown as. -/
def label : Severity → String
  | error => "error"
  | warning => "warning"
  | info => "info"

/-- The place of a severity in the order, from 1 for the gravest. -/
def rank : Severity → Nat
  | error => 1
  | warning => 2
  | info => 3

/-- Graver severities come first. -/
instance : Ord Severity where
  compare a b := compare a.rank b.rank

/-- Whether it is an error. -/
def isError (severity : Severity) : Bool :=
  severity == error

@[simp] theorem isError_iff {severity : Severity} : severity.isError = true ↔ severity = error := by
  simp [isError]

end Severity

end BuildDiagnostics
