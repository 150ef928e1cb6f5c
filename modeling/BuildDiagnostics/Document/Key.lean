import BuildDiagnostics.Location
import BuildDiagnostics.Log.Event
import BuildDiagnostics.Path.FileUri

/-!
# Document keys

A rendering surface files diagnostics under documents. The key of a location is the URI of its file,
after resolving its path against the workspace root, so that two spellings of one file share a key.
A pseudo-source, and a path that stays relative, is kept verbatim. How a URI is written is left to a
`FileUri.Writer`.
-/

namespace BuildDiagnostics

/-- The key diagnostics are filed under. -/
inductive DocumentKey
  /-- A source file. -/
  | file (uri : FileUri)
  /-- What is no file, as the compiler wrote it. -/
  | verbatim (raw : String)
  deriving DecidableEq, Repr, Hashable, Inhabited

/-- The URI of a location's file, if the location is a file path and absolute once it is joined to
the workspace root. -/
def Location.fileUri? (write : FileUri.Writer) (location : Location) (root : Path) :
    Option FileUri :=
  location.filePath?.bind fun text => write (root.join (.ofText text)).resolve

namespace DocumentKey

/-- The document of a location. -/
def ofLocation (write : FileUri.Writer) (location : Location) (root : Path) : DocumentKey :=
  match location.fileUri? write root with
  | some uri => file uri
  | none => verbatim location.raw

/-- The event of keeping a file path verbatim because it has no URI. -/
def unrepresentable (location : Location) : Log.Event where
  level := .debug
  target := .publication
  fields := [("location", .text location.raw)]
  message := "Location is not representable as a file URI"

/-- What finding the document of a location reports. -/
def events (write : FileUri.Writer) (location : Location) (root : Path) : List Log.Event :=
  if location.isFile && (location.fileUri? write root).isNone then [unrepresentable location]
  else []

/-- The order of documents: files first, and each kind by its text. -/
def le : DocumentKey → DocumentKey → Bool
  | file a, file b => a.text ≤ b.text
  | file _, verbatim _ => true
  | verbatim _, file _ => false
  | verbatim a, verbatim b => a ≤ b

end DocumentKey

end BuildDiagnostics
