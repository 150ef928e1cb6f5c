import BuildDiagnostics.Text.Split

/-!
# Output streams

A stream is what reading it yields: chunks of bytes, then an end or a failure. A read that yields no
bytes ends the reading it belongs to, as the end of the stream does. The standard output of a
compiler is captured whole or not at all; its standard error is cut into lines, which are there as soon
as they have ended, whatever comes after them. Neither depends on where one chunk ends and the next
begins.
-/

namespace BuildDiagnostics

/-- What reading a stream yields: the chunks in order, then the given failure or the end. -/
structure ByteStream where
  chunks : List (List UInt8) := []
  failure : Option String := none
  deriving DecidableEq, Repr, Inhabited

/-- The bytes captured from the standard output of a compiler. -/
structure Capture where
  bytes : Array UInt8 := #[]
  deriving DecidableEq, Repr, Inhabited

namespace Capture

/-- Appends a chunk. -/
def push (c : Capture) (chunk : List UInt8) : Capture :=
  ⟨c.bytes.appendList chunk⟩

/-- How many bytes were captured. -/
def size (c : Capture) : Nat :=
  c.bytes.size

/-- Whether nothing was captured. -/
def isEmpty (c : Capture) : Bool :=
  c.bytes.isEmpty

@[simp] theorem toList_bytes_push (c : Capture) (chunk : List UInt8) :
    (c.push chunk).bytes.toList = c.bytes.toList ++ chunk := by
  simp [push]

end Capture

namespace ByteStream

/-- The stream of the given bytes in one chunk. -/
def ofBytes (bytes : List UInt8) : ByteStream where
  chunks := if bytes.isEmpty then [] else [bytes]

/-- Appends all chunks up to an empty one. -/
def captureFrom (failure : Option String) (captured : Capture) :
    List (List UInt8) → Except String Capture
  | [] =>
    match failure with
    | some cause => .error cause
    | none => .ok captured
  | [] :: _ => .ok captured
  | chunk :: rest => captureFrom failure (captured.push chunk) rest

/-- All bytes of the stream, or its failure. -/
def capture (s : ByteStream) : Except String Capture :=
  captureFrom s.failure {} s.chunks

/-- The lines and the failure after them, when `pending` is the start of a line and `lines` are the
lines before it. An empty chunk ends a line that has begun, and where none has begun it ends the
stream. A line that has not ended when the failure comes is lost. -/
def linesFrom (failure : Option String) (pending : List UInt8) (lines : Array (List UInt8)) :
    List (List UInt8) → Array (List UInt8) × Option String
  | [] =>
    if failure.isSome || pending.isEmpty then (lines, failure) else (lines.push pending, none)
  | [] :: rest =>
    if pending.isEmpty then (lines, none) else linesFrom failure [] (lines.push pending) rest
  | chunk :: rest =>
    let pieces := Text.splitOn 0x0A (pending ++ chunk)
    linesFrom failure (pieces.getLast?.getD []) (lines.appendList pieces.dropLast) rest

/-- The lines of the stream without their line feeds, and its failure if it is met. At the end of the
stream the bytes after the last line feed are a line when there are any. -/
def lines (s : ByteStream) : Array (List UInt8) × Option String :=
  linesFrom s.failure [] #[] s.chunks

end ByteStream

end BuildDiagnostics
