import BuildDiagnostics.Path
import BuildDiagnostics.Text.Hexadecimal

/-!
# File URIs

The `file://` URI of an absolute path: a slash and the percent-encoded name for each component. The
percent sign and the slash are among the encoded bytes, so the names can be read back and different
files have different URIs. Whoever needs the URI of a path is given a `Writer`; `ofResolved?` is the
one that the command uses.
-/

namespace BuildDiagnostics

/-- A URI of the form `file:///…`. -/
structure FileUri where
  text : String
  deriving DecidableEq, Repr, Hashable, Inhabited

namespace FileUri

/-- The URI of a path, if it has one. -/
abbrev Writer := Path.Resolved → Option FileUri

/-- A percent sign and the two digits of a byte. -/
def percentByte (b : UInt8) : List Char :=
  '%' :: Text.Hexadecimal.upper b.toNat

/-- Bytes as text: the encoded ones as percent signs and digits, the others as themselves. -/
def percentEncode (encoded : UInt8 → Bool) (bytes : List UInt8) : List Char :=
  bytes.flatMap fun b => if encoded b then percentByte b else [Char.ofNat b.toNat]

/-- The printable ASCII characters that are encoded in a path segment. -/
def reserved : List Char :=
  [' ', '"', '<', '>', '\x60', '#', '?', '\x7b', '\x7d', '/', '%', '\\']

/-- Whether a byte is encoded in a path segment: one that is no printable ASCII, or is reserved. -/
def isEncoded (b : UInt8) : Bool :=
  b < 0x20 || 0x7F ≤ b || reserved.contains (Char.ofNat b.toNat)

/-- What every file URI starts with. -/
def scheme : String := "file://"

/-- The URI of a path. Only an absolute path has one; that of the root ends in a slash. -/
def ofResolved? : Writer := fun path =>
  if path.absolute then
    let names := if path.names.isEmpty then [[]] else path.names
    some ⟨scheme ++ String.ofList (names.flatMap fun name => '/' :: percentEncode isEncoded name)⟩
  else none

end FileUri

end BuildDiagnostics
