import BuildDiagnostics.Proofs.Decoding
import BuildDiagnostics.Proofs.Streams
import Mathlib.Data.List.DropRight

/-!
# The lines of standard error

Standard error is cut into lines while it is read, and each line is decoded on its own as it comes.
The same lines come out when all bytes are decoded first and the text is cut (`piecesOf_decode`), since
a line feed is an ASCII byte. How many there are is read off the bytes (`length_piecesOf`). With
`drain_of_ends`, which does away with the reads, `drain_echoes` says what is echoed in terms of the
whole stream.
-/

namespace BuildDiagnostics

namespace Text

/-! ## How many pieces there are -/

section Pieces

variable {α : Type} [DecidableEq α] (sep : α)

/-- The last piece is empty where nothing comes after the last separator. -/
theorem getLast?_splitOn_eq_nil_iff (xs : List α) :
    (splitOn sep xs).getLast? = some [] ↔ xs = [] ∨ xs.getLast? = some sep := by
  cases xs using List.reverseRecOn with
  | nil => exact iff_of_true rfl (.inl rfl)
  | append_singleton xs x =>
    have hne : xs ++ [x] ≠ [] := List.append_ne_nil_of_right_ne_nil xs (List.cons_ne_nil x [])
    rw [List.getLast?_concat, Option.some.injEq]
    by_cases h : x = sep
    · rw [h, splitOn_append_cons, splitOn_nil, List.getLast?_concat]
      exact iff_of_true rfl (.inr rfl)
    · have hlast : sep ∉ (splitOn sep xs).getLast?.getD [] ++ [x] := fun hmem =>
        (List.mem_append.1 hmem).elim (not_mem_getLast?_splitOn sep xs)
          fun hx => h (List.mem_singleton.1 hx).symm
      rw [splitOn_append, splitOn_of_not_mem hlast, List.getLast?_concat, Option.some.injEq]
      exact iff_of_false (List.append_ne_nil_of_right_ne_nil _ (List.cons_ne_nil x []))
        (not_or.2 ⟨hne, h⟩)

theorem length_piecesOf (xs : List α) :
    (piecesOf sep xs).length =
      xs.count sep + if xs ≠ [] ∧ xs.getLast? ≠ some sep then 1 else 0 := by
  have hlength := length_splitOn sep xs
  rw [piecesOf]
  by_cases h : xs = [] ∨ xs.getLast? = some sep
  · rw [if_pos ((getLast?_splitOn_eq_nil_iff sep xs).2 h), List.length_dropLast, hlength,
      if_neg (not_and_or.2 (h.imp not_not_intro not_not_intro))]
    rfl
  · rw [if_neg ((getLast?_splitOn_eq_nil_iff sep xs).not.2 h), hlength, if_pos (not_or.1 h)]

end Pieces

namespace Utf8

/-- **Cutting and decoding may change places.** -/
theorem piecesOf_decode {sep : UInt8} (hsep : sep < 0x80) (bytes : List UInt8) :
    piecesOf (asciiChar sep) (decode bytes).toList =
      (piecesOf sep bytes).map fun piece => (decode piece).toList := by
  have hempty (last? : Option (List UInt8)) :
      (last?.map fun piece => (decode piece).toList) = some [] ↔ last? = some [] := by
    cases last? with
    | none => exact iff_of_false nofun nofun
    | some piece =>
      rw [Option.map_some, Option.some.injEq, Option.some.injEq, String.toList_eq_nil_iff]
      exact decode_eq_empty_iff
  rw [piecesOf, splitOn_decode hsep, List.getLast?_map, piecesOf]
  by_cases h : (splitOn sep bytes).getLast? = some []
  · rw [if_pos ((hempty _).2 h), if_pos h, List.map_dropLast]
  · rw [if_neg ((hempty _).not.2 h), if_neg h]

end Utf8

end Text

open Text.Utf8 (decode)

/-- A line is echoed alike with and without its line feed. -/
theorem echoEvent_append_feed (line : List UInt8) :
    echoEvent (decode (line ++ [0x0A])) = echoEvent (decode line) := by
  rw [echoEvent, echoEvent, Text.Utf8.toList_decode_append_singleton line (by decide),
    Text.Utf8.asciiChar_feed, Text.dropEndWhile_append_singleton, if_pos (by decide)]

namespace Session

/-- Two streams that end without a failure are drained, standard error line by line. -/
theorem drain_of_ends {stdout stderr : ByteStream} (hstdout : stdout.readFailure? = none)
    (hreads : ∀ chunk ∈ stderr.chunks, chunk ≠ []) (hstderr : stderr.failure = none) :
    drain stdout stderr =
      let lines := Text.piecesOf 0x0A stderr.bytes
      (lines.map fun line => echoEvent (decode line),
        .ok { stdout := ⟨stdout.bytesRead.toArray⟩, stderrLines := lines.length }) := by
  rw [drain_of_ne_nil stdout hreads, hstdout, hstderr]
  rfl

/-- What is echoed of a line is read off its piece of the decoded stream. -/
theorem map_echoEvent_piecesOf (bytes : List UInt8) :
    ((Text.piecesOf 0x0A bytes).map fun line => echoEvent (decode line)) =
      (Text.piecesOf '\n' (decode bytes).toList).map fun piece =>
        { level := .info
          target := .compiler
          message := String.ofList (piece.rdropWhile fun c => c == '\r' || c == '\n') } := by
  have hfeed : (0x0A : UInt8) < 0x80 := by decide
  have hpieces := Text.Utf8.piecesOf_decode hfeed bytes
  rw [Text.Utf8.asciiChar_feed] at hpieces
  rw [hpieces, List.map_map]
  rfl

/-- **The echoed lines are the lines of the whole stream.** Where no read is empty and neither stream
fails, the lines that go to the log are the pieces of the decoded standard error between line feeds,
each without the carriage returns and line feeds at its end; a piece after the last line feed counts
only if it is not empty. Their number is read off the bytes. It is the same to decode every line on its
own, with its line feed or without it, and no matter which reads the bytes came in. -/
theorem drain_echoes {stdout stderr : ByteStream} (hstdout : stdout.readFailure? = none)
    (hreads : ∀ chunk ∈ stderr.chunks, chunk ≠ []) (hstderr : stderr.failure = none) :
    ∃ events session, drain stdout stderr = (events, .ok session) ∧
      (events = (Text.piecesOf '\n' (decode stderr.bytes).toList).map fun piece =>
        { level := .info
          target := .compiler
          message := String.ofList (piece.rdropWhile fun c => c == '\r' || c == '\n') }) ∧
      session.stderrLines = events.length ∧
      (events.length = stderr.bytes.count 0x0A +
        if stderr.bytes ≠ [] ∧ stderr.bytes.getLast? ≠ some 0x0A then 1 else 0) ∧
      (events = (Text.piecesOf 0x0A stderr.bytes).map fun line => echoEvent (decode line)) ∧
      (∀ line, echoEvent (decode (line ++ [0x0A])) = echoEvent (decode line)) ∧
      ∀ stdout' stderr' : ByteStream, stdout'.readFailure? = none →
        (∀ chunk ∈ stderr'.chunks, chunk ≠ []) → stderr'.failure = none →
        stderr'.bytes = stderr.bytes →
        ∃ session', drain stdout' stderr' = (events, .ok session') ∧
          session'.stderrLines = session.stderrLines := by
  refine ⟨_, _, drain_of_ends hstdout hreads hstderr, ?_, ?_, ?_, rfl, echoEvent_append_feed, ?_⟩
  · exact map_echoEvent_piecesOf stderr.bytes
  · exact (List.length_map _).symm
  · rw [List.length_map, Text.length_piecesOf]
  · intro stdout' stderr' hstdout' hreads' hstderr' hbytes
    rw [drain_of_ends hstdout' hreads' hstderr', hbytes]
    exact ⟨_, rfl, rfl⟩

/-- Standard error in reads that cut a character and a line end. It has a blank line, a line with many
carriage returns and a last line that does not end. -/
def sampleReads : ByteStream where
  chunks := [[0xC3], [0xA9, 0x0D], [0x0A, 0x0A, 0x78, 0x0D, 0x0D], [0x0A, 0xE2], [0x82]]

theorem drain_echoes_sampleReads :
    ByteStream.readFailure? { chunks := [[]], failure := some "late" } = none ∧
      (∀ chunk ∈ sampleReads.chunks, chunk ≠ []) ∧ sampleReads.failure = none ∧
      ∃ events session,
        drain { chunks := [[]], failure := some "late" } sampleReads = (events, .ok session) ∧
          events.map Log.Event.message = ["é", "", "x", "\uFFFD"] ∧ session.stderrLines = 4 := by
  have hstdout : ByteStream.readFailure? { chunks := [[]], failure := some "late" } = none := by decide
  have hreads : ∀ chunk ∈ sampleReads.chunks, chunk ≠ [] := by decide
  obtain ⟨events, session, hdrain, hevents, hlines, hcount, -⟩ := drain_echoes hstdout hreads rfl
  refine ⟨hstdout, hreads, rfl, events, session, hdrain, ?_, ?_⟩
  · rw [hevents]
    decide +kernel
  · rw [hlines, hcount]
    decide +kernel

end Session

end BuildDiagnostics
