import BuildDiagnostics.Build.Session
import BuildDiagnostics.Proofs.Lines
import Mathlib.Data.List.TakeWhile

/-!
# What is read from a stream

Reading goes on until a read yields no bytes. Such a read may come before the failure that the stream
ends with, and then the failure is never met: `capture_eq` tells from the chunks which of the two
happens first, and which bytes were read.

Where every read yields something, a stream is its bytes and its failure. The chunks they came in are
not seen in the lines, although a line may begin in one chunk and end in a later one
(`lines_of_ne_nil`). `drain_of_ne_nil` says what two streams give together, and what stays in the log
when one of them fails.
-/

namespace BuildDiagnostics

namespace ByteStream

/-- The bytes of all reads before the first that yields none. -/
def bytesRead (s : ByteStream) : List UInt8 :=
  (s.chunks.takeWhile (· ≠ [])).flatten

/-- The failure that reading the stream meets. -/
def readFailure? (s : ByteStream) : Option String :=
  if [] ∈ s.chunks then none else s.failure

theorem captureFrom_eq (failure : Option String) (captured : Capture)
    (chunks : List (List UInt8)) :
    captureFrom failure captured chunks =
      match (if [] ∈ chunks then none else failure) with
      | some cause => .error cause
      | none => .ok ⟨captured.bytes ++ (chunks.takeWhile (· ≠ [])).flatten.toArray⟩ := by
  induction chunks generalizing captured with
  | nil => cases failure <;> simp [captureFrom]
  | cons chunk rest ih =>
    cases chunk with
    | nil => simp [captureFrom]
    | cons b bs =>
      have hmem : [] ∈ (b :: bs) :: rest ↔ [] ∈ rest := by simp
      have hpush : (captured.push (b :: bs)).bytes ++ (rest.takeWhile (· ≠ [])).flatten.toArray =
          captured.bytes ++ (((b :: bs) :: rest).takeWhile (· ≠ [])).flatten.toArray := by
        rw [← Array.toList_inj]
        simp
      have hstep : captureFrom failure captured ((b :: bs) :: rest) =
          captureFrom failure (captured.push (b :: bs)) rest := rfl
      rw [hstep, ih, hpush]
      simp only [hmem]

/-- Either the failure is met, or exactly the bytes before the end are captured. -/
theorem capture_eq (s : ByteStream) :
    s.capture =
      match s.readFailure? with
      | some cause => .error cause
      | none => .ok ⟨s.bytesRead.toArray⟩ := by
  rw [capture, captureFrom_eq, readFailure?, bytesRead]
  simp

/-- All bytes that the stream holds. -/
def bytes (s : ByteStream) : List UInt8 :=
  s.chunks.flatten

section NonEmptyReads

variable {s : ByteStream} (h : ∀ chunk ∈ s.chunks, chunk ≠ [])
include h

theorem readFailure?_of_ne_nil : s.readFailure? = s.failure :=
  if_neg fun hnil => h [] hnil rfl

theorem bytesRead_of_ne_nil : s.bytesRead = s.bytes := by
  have hall : s.chunks.takeWhile (· ≠ []) = s.chunks :=
    List.takeWhile_eq_self_iff.2 fun chunk hchunk => decide_eq_true (h chunk hchunk)
  rw [bytesRead, hall, bytes]

end NonEmptyReads

/-- The lines of bytes that are read up to their end, or to a failure: then the last line is one of
them only if it has ended. -/
def linesUpTo (failure : Option String) (bytes : List UInt8) : List (List UInt8) :=
  if failure.isSome then (Text.splitOn 0x0A bytes).dropLast else Text.piecesOf 0x0A bytes

theorem linesUpTo_append (failure : Option String) (xs ys : List UInt8) :
    linesUpTo failure (xs ++ ys) =
      (Text.splitOn 0x0A xs).dropLast
        ++ linesUpTo failure ((Text.splitOn 0x0A xs).getLast?.getD [] ++ ys) := by
  cases failure with
  | none => exact Text.piecesOf_append 0x0A xs ys
  | some cause =>
    have hsplit := congrArg List.dropLast (Text.splitOn_append 0x0A xs ys)
    rw [List.dropLast_append_of_ne_nil (Text.splitOn_ne_nil _ _)] at hsplit
    exact hsplit

theorem linesUpTo_prefix (failure : Option String) (bytes : List UInt8) :
    linesUpTo failure bytes <+: Text.piecesOf 0x0A bytes := by
  cases failure with
  | none => exact List.prefix_rfl
  | some cause =>
    rw [linesUpTo, if_pos Option.isSome_some, Text.piecesOf]
    split
    · exact List.prefix_rfl
    · exact List.dropLast_prefix _

/-- Before a failure there are as many lines as have ended. -/
theorem length_linesUpTo_some (cause : String) (bytes : List UInt8) :
    (linesUpTo (some cause) bytes).length = bytes.count 0x0A := by
  rw [linesUpTo, if_pos Option.isSome_some, List.length_dropLast, Text.length_splitOn,
    Nat.add_sub_cancel]

theorem linesFrom_of_ne_nil (failure : Option String) {pending : List UInt8}
    (hpending : 0x0A ∉ pending) (lines : Array (List UInt8)) {chunks : List (List UInt8)}
    (h : ∀ chunk ∈ chunks, chunk ≠ []) :
    linesFrom failure pending lines chunks =
      (lines ++ (linesUpTo failure (pending ++ chunks.flatten)).toArray, failure) := by
  -- what is pending is the part of a line that all chunks so far end with, so it holds no line feed
  induction chunks generalizing pending lines with
  | nil =>
    rw [linesFrom, List.flatten_nil, List.append_nil, linesUpTo, Text.piecesOf_of_not_mem hpending,
      Text.splitOn_of_not_mem hpending]
    cases failure with
    | some cause => simp
    | none => cases pending <;> simp
  | cons chunk rest ih =>
    cases chunk with
    | nil => exact absurd rfl (h [] List.mem_cons_self)
    | cons b bs =>
      have hstep : linesFrom failure pending lines ((b :: bs) :: rest) =
          linesFrom failure ((Text.splitOn 0x0A (pending ++ b :: bs)).getLast?.getD [])
            (lines.appendList (Text.splitOn 0x0A (pending ++ b :: bs)).dropLast) rest := rfl
      have hrest : ∀ chunk ∈ rest, chunk ≠ [] := fun c hc => h c (List.mem_cons_of_mem _ hc)
      rw [hstep, ih (Text.not_mem_getLast?_splitOn 0x0A _) _ hrest, List.flatten_cons,
        ← List.append_assoc, linesUpTo_append failure (pending ++ b :: bs)]
      congr 1
      rw [← Array.toList_inj]
      simp

theorem lines_of_ne_nil {s : ByteStream} (h : ∀ chunk ∈ s.chunks, chunk ≠ []) :
    s.lines = ((linesUpTo s.failure s.bytes).toArray, s.failure) := by
  rw [lines, linesFrom_of_ne_nil s.failure List.not_mem_nil #[] h, List.nil_append, bytes]
  simp

end ByteStream

namespace Session

open ByteStream (linesUpTo)

/-- What two streams give together: the failure of the first that fails, or else all that both hold.
The lines of standard error that were read by then are in the log. -/
theorem drain_of_ne_nil (stdout : ByteStream) {stderr : ByteStream}
    (h : ∀ chunk ∈ stderr.chunks, chunk ≠ []) :
    drain stdout stderr =
      match stdout.readFailure? with
      | some cause => ([], .error (.stdout cause))
      | none =>
        let lines := linesUpTo stderr.failure stderr.bytes
        (lines.map fun line => echoEvent (Text.Utf8.decode line),
          match stderr.failure with
          | some cause => .error (.stderr cause)
          | none => .ok { stdout := ⟨stdout.bytesRead.toArray⟩, stderrLines := lines.length }) := by
  rw [drain, ByteStream.capture_eq, ByteStream.lines_of_ne_nil h]
  cases stdout.readFailure? with
  | some cause => rfl
  | none => cases stderr.failure <;> rfl

end Session

end BuildDiagnostics
