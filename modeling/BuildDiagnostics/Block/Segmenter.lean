import BuildDiagnostics.Block
import BuildDiagnostics.Text.Lines

/-!
# Segmenting output into blocks

A `Segmenter` is fed lines in the order of the output and gives each block back once the next
header, or the end, seals it. Lines before the first header belong to no block and are only counted.
`Segments` does the same for a whole text, one block at a time; once it has answered `none` it does
so for ever.
-/

namespace BuildDiagnostics

/-- The state between two lines of output. -/
structure Segmenter where
  /-- The block that is still open. -/
  current : Option Block := none
  /-- How many lines were pushed. -/
  linesSeen : Nat := 0
  /-- How many lines belong to no block. -/
  ignored : Nat := 0
  deriving DecidableEq, Repr

namespace Segmenter

/-- Takes the next line. A header opens a new block and gives back the one before it. -/
def push (s : Segmenter) (line : String) : Option Block × Segmenter :=
  let linesSeen := s.linesSeen + 1
  match LineKind.of line with
  | .blockStart =>
    (s.current, { s with current := some { lineNumber := linesSeen, header := line }, linesSeen })
  | .continuation =>
    match s.current with
    | some block => (none, { s with current := some (block.addLine line), linesSeen })
    | none => (none, { s with linesSeen, ignored := s.ignored + 1 })

/-- Seals the open block and gives it back. -/
def finish (s : Segmenter) : Option Block × Segmenter :=
  (s.current, { s with current := none })

/-- All blocks that pushing `lines` gives back, and the state after the last of them. -/
def pushAll (s : Segmenter) (lines : List String) : List Block × Segmenter :=
  lines.foldl (fun (blocks, s) line => (blocks ++ (s.push line).1.toList, (s.push line).2)) ([], s)

end Segmenter

/-- The blocks of a text that are still to come. -/
structure Segments where
  remaining : List String
  segmenter : Segmenter := {}
  /-- Whether the end of the text was met. -/
  exhausted : Bool := false
  deriving DecidableEq, Repr

namespace Segments

/-- The blocks of a text, whose lines end with a line feed or with a carriage return and a line
feed. -/
def ofText (text : String) : Segments where
  remaining := Text.lines text

/-- How many lines before the first header were met so far. -/
def ignored (s : Segments) : Nat :=
  s.segmenter.ignored

/-- Pushes lines until a block is sealed, by a header or by the end. -/
def advance (segmenter : Segmenter) : List String → Option Block × Segments
  | [] =>
    let (block?, segmenter) := segmenter.finish
    (block?, { remaining := [], segmenter, exhausted := true })
  | line :: rest =>
    match segmenter.push line with
    | (some block, segmenter) => (some block, { remaining := rest, segmenter })
    | (none, segmenter) => advance segmenter rest

/-- The next block. -/
def next (s : Segments) : Option Block × Segments :=
  if s.exhausted then (none, s) else advance s.segmenter s.remaining

/-- How many calls of `next` may still give a block. -/
def left (s : Segments) : Nat :=
  if s.exhausted then 0 else s.remaining.length + 1

theorem left_advance (segmenter : Segmenter) (lines : List String) :
    (advance segmenter lines).2.left < lines.length + 1 := by
  induction lines generalizing segmenter with
  | nil => simp [advance, left]
  | cons line rest ih =>
    unfold advance
    split
    · simp [left]
    · next segmenter _ => exact Nat.lt_succ_of_lt (ih segmenter)

theorem left_next {s : Segments} {block : Block} (h : s.next.1 = some block) :
    s.next.2.left < s.left := by
  unfold next at h ⊢
  split
  · next e => simp [e] at h
  · next e =>
    have := left_advance s.segmenter s.remaining
    simpa [left, e] using this

/-- Folds over the blocks that are still to come; the second component is what is left of them. -/
def fold {β : Type} (f : β → Block → β) (init : β) (s : Segments) : β × Segments :=
  match _ : s.next.1 with
  | none => (init, s.next.2)
  | some block => fold f (f init block) s.next.2
termination_by s.left
decreasing_by exact left_next ‹_›

/-- The blocks that are still to come. -/
def toList (s : Segments) : List Block :=
  match _ : s.next.1 with
  | none => []
  | some block => block :: toList s.next.2
termination_by s.left
decreasing_by exact left_next ‹_›

/-- A fold over the text is a fold over the list of its blocks. -/
theorem fold_fst {β : Type} (f : β → Block → β) (init : β) (s : Segments) :
    (s.fold f init).1 = s.toList.foldl f init := by
  fun_induction fold f init s with
  | case1 init s h =>
    rw [toList]
    split <;> simp_all
  | case2 init s block h ih =>
    rw [toList.eq_def s]
    split
    · simp_all
    · next h' =>
      rw [h] at h'
      cases h'
      exact ih

end Segments

end BuildDiagnostics
