import BuildDiagnostics.Text.Split
import BuildDiagnostics.Text.Utf8

/-!
# Paths

A path is any bytes; most are those of a text, but a directory may have a name that is none. The
components of a path are a view on its bytes, and two spellings with the same view name the same file.
`resolve` removes `.` and `..` lexically: the file system is never asked, a `..` takes back the name
before it, and one that has no name before it does nothing, at the root as well as at the start of a
relative path.
-/

namespace BuildDiagnostics

/-- A path as it was written. -/
structure Path where
  bytes : List UInt8
  deriving DecidableEq, Repr, Inhabited

namespace Path

/-- The path that a text spells. -/
def ofText (text : String) : Path :=
  ⟨Text.Utf8.encode text⟩

/-- The path as it is shown: what is no text in it is replaced. -/
def display (path : Path) : String :=
  Text.Utf8.decode path.bytes

/-- The byte between two components. -/
def slash : UInt8 := 0x2F

/-- The byte that `.` and `..` are made of. -/
def dot : UInt8 := 0x2E

/-- One step of a path. -/
inductive Component
  /-- The step `.`, which stays. -/
  | here
  /-- The step `..`. -/
  | up
  | name (bytes : List UInt8)
  deriving DecidableEq, Repr

/-- The component between two slashes, if there is one. -/
def Component.ofPiece? (piece : List UInt8) : Option Component :=
  if piece = [] then none
  else if piece = [dot] then some here
  else if piece = [dot, dot] then some up
  else some (name piece)

/-- Whether the path starts at the root. -/
def isAbsolute (path : Path) : Bool :=
  path.bytes.head? == some slash

/-- The steps of the path, after the root if it has one. Repeated slashes and one at the end make no
difference. -/
def components (path : Path) : List Component :=
  (Text.splitOn slash path.bytes).filterMap Component.ofPiece?

/-- The path `child` as seen from `base`: an absolute one is itself, any other is put behind `base`,
with a slash between the two unless `base` is empty or ends with one. -/
def join (base child : Path) : Path :=
  if child.isAbsolute then child
  else if base.bytes.isEmpty || base.bytes.getLast? == some slash then ⟨base.bytes ++ child.bytes⟩
  else ⟨base.bytes ++ slash :: child.bytes⟩

/-- A path without `.` and `..`. -/
structure Resolved where
  absolute : Bool
  names : List (List UInt8)
  deriving DecidableEq, Repr

namespace Resolved

/-- The names left after one more step. -/
def step (names : List (List UInt8)) : Component → List (List UInt8)
  | .here => names
  | .up => names.dropLast
  | .name bytes => names ++ [bytes]

/-- The spelling of a resolved path. -/
def toPath (r : Resolved) : Path :=
  ⟨(if r.absolute then [slash] else []) ++ [slash].intercalate r.names⟩

end Resolved

/-- The path with `.` and `..` resolved lexically. -/
def resolve (path : Path) : Resolved where
  absolute := path.isAbsolute
  names := path.components.foldl Resolved.step []

/-- The spelling of a path without `.`, `..` and needless slashes. -/
def normalize (path : Path) : Path :=
  path.resolve.toPath

end Path

end BuildDiagnostics
