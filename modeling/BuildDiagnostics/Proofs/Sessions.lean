import BuildDiagnostics.Proofs.Streams
import Mathlib.Data.List.Induction

/-!
# What a session remembers of its steps

A session is fed chunks of standard output and lines of standard error, in any order. All it keeps is
the bytes of the chunks in a row and the number of the lines (`run_eq`), so neither the cuts between the
chunks nor their order among the lines is seen in its report. Draining two streams is feeding their
bytes at once and their lines one by one (`drain_agrees_run`), so it does not matter either into which
reads a stream is cut, be it by the writer or by the size of a buffer.
-/

namespace BuildDiagnostics

/-- What a session may be fed. -/
inductive SessionStep
  | stdout (chunk : List UInt8)
  | stderr (line : String)
  deriving DecidableEq, Repr

namespace SessionStep

def chunk : SessionStep → List UInt8
  | stdout chunk => chunk
  | stderr _ => []

def line? : SessionStep → Option String
  | stdout _ => none
  | stderr line => some line

/-- The bytes of standard output that some steps feed. -/
def captured (steps : List SessionStep) : List UInt8 :=
  steps.flatMap chunk

/-- The lines of standard error that some steps feed. -/
def echoed (steps : List SessionStep) : List String :=
  steps.filterMap line?

/-- The steps that feed the bytes of standard output in one chunk, then standard error line by line. -/
def ofBytes (stdout stderr : List UInt8) : List SessionStep :=
  .stdout stdout ::
    (Text.piecesOf 0x0A stderr).map fun piece => .stderr (Text.Utf8.decode piece)

theorem captured_ofBytes (stdout stderr : List UInt8) : captured (ofBytes stdout stderr) = stdout := by
  simp [captured, ofBytes, chunk, List.flatMap_map]

theorem echoed_ofBytes (stdout stderr : List UInt8) :
    echoed (ofBytes stdout stderr) = (Text.piecesOf 0x0A stderr).map Text.Utf8.decode := by
  rw [echoed, ofBytes, List.filterMap_cons_none rfl, List.filterMap_map, ← List.filterMap_eq_map]
  rfl

end SessionStep

open SessionStep (captured echoed)

namespace Session

/-- One step of a session, with the events it sends to the log. -/
def take (s : Session) : SessionStep → List Log.Event × Session
  | .stdout chunk => ([], s.pushStdout chunk)
  | .stderr line =>
    let (event, s) := s.pushStderrLine line
    ([event], s)

/-- A new session after some steps, with all events on the way. -/
def run (steps : List SessionStep) : List Log.Event × Session :=
  steps.foldl (fun (events, s) step => (events ++ (s.take step).1, (s.take step).2)) ([], {})

theorem run_append_singleton (steps : List SessionStep) (step : SessionStep) :
    run (steps ++ [step]) =
      ((run steps).1 ++ ((run steps).2.take step).1, ((run steps).2.take step).2) := by
  rw [run, List.foldl_append]
  rfl

theorem run_eq (steps : List SessionStep) :
    run steps =
      ((echoed steps).map echoEvent,
       { stdout := ⟨(captured steps).toArray⟩, stderrLines := (echoed steps).length }) := by
  induction steps using List.reverseRecOn with
  | nil => rfl
  | append_singleton steps step ih =>
    rw [run_append_singleton, ih]
    unfold captured echoed
    cases step with
    | stdout chunk => simp [take, pushStdout, Capture.push, SessionStep.chunk, SessionStep.line?]
    | stderr line => simp [take, pushStderrLine, SessionStep.chunk, SessionStep.line?]

theorem finish_run_congr {xs ys : List SessionStep} (hbytes : captured xs = captured ys)
    (hcount : (echoed xs).length = (echoed ys).length) :
    (run xs).2.finish = (run ys).2.finish := by
  rw [run_eq, run_eq, hbytes, hcount]

theorem run_ofBytes (stdout stderr : List UInt8) :
    run (SessionStep.ofBytes stdout stderr) =
      ((Text.piecesOf 0x0A stderr).map fun piece => echoEvent (Text.Utf8.decode piece),
       { stdout := ⟨stdout.toArray⟩, stderrLines := (Text.piecesOf 0x0A stderr).length }) := by
  rw [run_eq, SessionStep.captured_ofBytes, SessionStep.echoed_ofBytes, List.map_map,
    List.length_map]
  rfl

/-- **Neither chunks nor interleaving matter, and draining is feeding.** Two sessions that were fed the
same bytes and equally many lines report the same. Draining two streams, read by read, fails just when
one of them does, with the context of the first that does. When standard error fails, the lines that had
ended stay echoed, the first of those that feeding echoes. Otherwise it echoes and reports what feeding
the bytes at once and the lines one by one does. -/
theorem drain_agrees_run :
    (∀ xs ys : List SessionStep, captured xs = captured ys →
      (echoed xs).length = (echoed ys).length →
      (run xs).2.finish = (run ys).2.finish) ∧
    ∀ stdout stderr : ByteStream, (∀ chunk ∈ stdout.chunks, chunk ≠ []) →
      (∀ chunk ∈ stderr.chunks, chunk ≠ []) →
      let drained := drain stdout stderr
      let fed := run (SessionStep.ofBytes stdout.bytes stderr.bytes)
      ((∃ session, drained.2 = .ok session) ↔ stdout.failure = none ∧ stderr.failure = none) ∧
      (∀ session, drained.2 = .ok session →
        drained.1 = fed.1 ∧ session.finish = fed.2.finish) ∧
      (∀ stdout' stderr' : ByteStream, (∀ chunk ∈ stdout'.chunks, chunk ≠ []) →
        (∀ chunk ∈ stderr'.chunks, chunk ≠ []) →
        stdout'.bytes = stdout.bytes → stdout'.failure = stdout.failure →
        stderr'.bytes = stderr.bytes → stderr'.failure = stderr.failure →
        drain stdout' stderr' = drained) ∧
      (∀ cause, stdout.failure = some cause →
        drained.1 = [] ∧ ∃ error, drained.2 = .error error ∧
          error.message = "reading compiler stdout: " ++ cause) ∧
      (∀ cause, stdout.failure = none → stderr.failure = some cause →
        drained.1 <+: fed.1 ∧ drained.1.length = stderr.bytes.count 0x0A ∧
          ∃ error, drained.2 = .error error ∧
            error.message = "reading compiler stderr: " ++ cause) := by
  refine ⟨fun xs ys hbytes hcount => finish_run_congr hbytes hcount, ?_⟩
  intro stdout stderr hstdout hstderr drained fed
  have hdrain : drained = _ := drain_of_ne_nil stdout hstderr
  have hfed : fed = _ := run_ofBytes stdout.bytes stderr.bytes
  rw [ByteStream.readFailure?_of_ne_nil hstdout, ByteStream.bytesRead_of_ne_nil hstdout] at hdrain
  refine ⟨?_, ?_, ?_, ?_, ?_⟩
  · rw [hdrain]
    cases stdout.failure with
    | some cause => simp
    | none => cases stderr.failure <;> simp
  · intro session hok
    rw [hdrain] at hok ⊢
    rw [hfed]
    cases hout : stdout.failure with
    | some cause =>
      rw [hout] at hok
      cases hok
    | none =>
      cases herr : stderr.failure with
      | some cause =>
        rw [hout, herr] at hok
        cases hok
      | none =>
        rw [hout, herr] at hok
        cases hok
        exact ⟨rfl, rfl⟩
  · intro stdout' stderr' hstdout' hstderr' hbytes hfailure hbytes' hfailure'
    rw [drain_of_ne_nil stdout' hstderr', ByteStream.readFailure?_of_ne_nil hstdout',
      ByteStream.bytesRead_of_ne_nil hstdout', hbytes, hfailure, hbytes', hfailure']
    exact hdrain.symm
  · intro cause hcause
    rw [hdrain, hcause]
    exact ⟨rfl, _, rfl, rfl⟩
  · intro cause hout herr
    rw [hdrain, hout, herr, hfed]
    refine ⟨(ByteStream.linesUpTo_prefix _ _).map _, ?_, _, rfl, rfl⟩
    exact (List.length_map _).trans (ByteStream.length_linesUpTo_some cause stderr.bytes)

/-- Standard output whose header and whose caret line are cut, one of them inside a line end. -/
def sampleStdout : ByteStream where
  chunks := ["a:1:1: er", "ror: x\n  let\r", "\n  ^^\n"].map Text.Utf8.encode

/-- Standard error of two lines in three reads; the second line does not end. -/
def sampleStderr : ByteStream where
  chunks := ["ld: w", "arn\r\ndo", "ne"].map Text.Utf8.encode

/-- The same streams, which do not end but fail. -/
def sampleStdoutGone : ByteStream := { sampleStdout with failure := some "gone" }

def sampleStderrLate : ByteStream := { sampleStderr with failure := some "late" }

theorem drain_agrees_run_sampleStdout :
    (∀ chunk ∈ sampleStdout.chunks, chunk ≠ []) ∧ (∀ chunk ∈ sampleStderr.chunks, chunk ≠ []) ∧
      (∃ session, (drain sampleStdout sampleStderr).2 = .ok session) ∧
      drain (.ofBytes sampleStdout.bytes) (.ofBytes sampleStderr.bytes) =
        drain sampleStdout sampleStderr ∧
      ((drain sampleStdoutGone sampleStderrLate).1 = [] ∧
        ∃ error, (drain sampleStdoutGone sampleStderrLate).2 = .error error ∧
          error.message = "reading compiler stdout: " ++ "gone") ∧
      ((drain sampleStdout sampleStderrLate).1 <+:
          (run (SessionStep.ofBytes sampleStdout.bytes sampleStderr.bytes)).1 ∧
        (drain sampleStdout sampleStderrLate).1.length = sampleStderr.bytes.count 0x0A ∧
        ∃ error, (drain sampleStdout sampleStderrLate).2 = .error error ∧
          error.message = "reading compiler stderr: " ++ "late") ∧
      (run [.stdout [0x61], .stderr "x", .stdout [0x62]]).2.finish =
        (run [.stderr "y", .stdout [], .stdout [0x61, 0x62]]).2.finish := by
  have hstdout : ∀ chunk ∈ sampleStdout.chunks, chunk ≠ [] := by decide
  have hstderr : ∀ chunk ∈ sampleStderr.chunks, chunk ≠ [] := by decide
  obtain ⟨hrun, hdrain⟩ := drain_agrees_run
  obtain ⟨hok, -, hcut, -, -⟩ := hdrain sampleStdout sampleStderr hstdout hstderr
  obtain ⟨-, -, -, hgone, -⟩ := hdrain sampleStdoutGone sampleStderrLate hstdout hstderr
  obtain ⟨-, -, -, -, hlate⟩ := hdrain sampleStdout sampleStderrLate hstdout hstderr
  have honce : drain (.ofBytes sampleStdout.bytes) (.ofBytes sampleStderr.bytes) =
      drain sampleStdout sampleStderr :=
    hcut _ _ (by decide) (by decide) (by decide) rfl (by decide) rfl
  exact ⟨hstdout, hstderr, hok.2 ⟨rfl, rfl⟩, honce, hgone "gone" rfl, hlate "late" rfl rfl,
    hrun _ _ rfl rfl⟩

end Session

end BuildDiagnostics
