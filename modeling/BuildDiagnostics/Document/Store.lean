import BuildDiagnostics.Document.Snapshot
import Std.Data.HashMap

/-!
# The store

A sink that remembers what was last published. It is a finite map from documents to diagnostics that
are never empty: setting a document to no diagnostics removes it.
-/

namespace BuildDiagnostics

/-- The documents that are shown, each with its diagnostics. -/
structure Store where
  documents : Std.HashMap DocumentKey (Array Diagnostic) := ∅

namespace Store

/-- The diagnostics shown for a document. -/
def get? (s : Store) (key : DocumentKey) : Option (Array Diagnostic) :=
  s.documents[key]?

/-- Shows nothing any more. -/
def clear (_ : Store) : Store := {}

/-- Shows diagnostics for a document; a document without diagnostics is not shown. -/
def set (s : Store) (key : DocumentKey) (items : Array Diagnostic) : Store :=
  if items.isEmpty then { s with documents := s.documents.erase key }
  else { s with documents := s.documents.insert key items }

/-- The store as a sink. -/
def sink : Sink Store where
  clear := clear
  set := set

/-- Replaces everything the store shows by a grouping of diagnostics. -/
def publish (write : FileUri.Writer) (s : Store) (result : DiagnosticsByLocation) (root : Path) :
    Store :=
  BuildDiagnostics.publish write sink s result root

/-- The content of the store in order. -/
def snapshot (s : Store) : Snapshot :=
  .ofDocuments (s.documents.toList.map fun (key, items) => { key, items })

@[simp] theorem get?_clear (s : Store) (key : DocumentKey) : s.clear.get? key = none := by
  simp [clear, get?]

/-- What is shown for a document is what it was last set to. -/
theorem get?_set (s : Store) (key : DocumentKey) (items : Array Diagnostic) (key' : DocumentKey) :
    (s.set key items).get? key' =
      if key = key' then if items.isEmpty then none else some items else s.get? key' := by
  unfold set get?
  split
  · rw [Std.HashMap.getElem?_erase]
    simp
  · rw [Std.HashMap.getElem?_insert]
    simp

end Store

end BuildDiagnostics
