import BuildDiagnostics.Document.Publish

/-!
# Snapshots

The documents that are shown, in an order that does not depend on how they were stored: those with
errors first, then by key. Counts and the one-line summary are taken from the documents.
-/

namespace BuildDiagnostics

/-- Documents in order. -/
structure Snapshot where
  documents : List Document
  deriving DecidableEq, Repr

namespace Document

/-- The order of documents in a snapshot: those with errors first, then by key. -/
def le (a b : Document) : Bool :=
  if a.hasErrors = b.hasErrors then a.key.le b.key else a.hasErrors

end Document

namespace Snapshot

/-- The snapshot of documents given in any order. -/
def ofDocuments (documents : List Document) : Snapshot where
  documents := documents.mergeSort Document.le

/-- Whether no document is shown. -/
def isEmpty (s : Snapshot) : Bool :=
  s.documents.isEmpty

/-- All diagnostics, document by document. -/
def diagnostics (s : Snapshot) : List Diagnostic :=
  s.documents.flatMap fun d => d.items.toList

/-- How many diagnostics have the given severity. -/
def count (s : Snapshot) (severity : Severity) : Nat :=
  s.diagnostics.countP fun d => d.severity = severity

/-- How many errors there are. -/
def errorCount (s : Snapshot) : Nat :=
  s.count .error

/-- How many warnings there are. -/
def warningCount (s : Snapshot) : Nat :=
  s.count .warning

/-- How many diagnostics are neither errors nor warnings. -/
def infoCount (s : Snapshot) : Nat :=
  s.count .info

/-- How many diagnostics there are. -/
def totalCount (s : Snapshot) : Nat :=
  s.documents.foldr (fun d n => d.items.size + n) 0

/-- The counts in short, such as `E:3 W:5`; nothing when no document is shown. -/
def status (s : Snapshot) : String :=
  if s.isEmpty then ""
  else "E:" ++ Text.Decimal.text s.errorCount ++ " W:" ++ Text.Decimal.text s.warningCount

/-- One line about a build: its counts, and how many blocks were malformed. -/
def summaryLine (s : Snapshot) (skipped : Nat) : String :=
  let counts := if s.isEmpty then "no diagnostics" else s.status
  match skipped with
  | 0 => counts
  | 1 => counts ++ ", 1 malformed block skipped"
  | n => counts ++ ", " ++ Text.Decimal.text n ++ " malformed blocks skipped"

/-- The total is the number of diagnostics. -/
theorem totalCount_eq_length (s : Snapshot) : s.totalCount = s.diagnostics.length := by
  unfold totalCount diagnostics
  induction s.documents with
  | nil => rfl
  | cons d documents ih => simp [ih]

end Snapshot

end BuildDiagnostics
