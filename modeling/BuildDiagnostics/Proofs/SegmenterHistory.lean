import BuildDiagnostics.Proofs.Segmentation
import Mathlib.Data.List.DropRight
import Mathlib.Data.List.Induction

/-!
# What becomes of each pushed line

A segmenter may be pushed and finished in any order, and pushed again after a finish. Everything that
is said here about such a run is said in terms of the calls alone: which lines were pushed, numbered
from the first call on, and which of them came since the last finish. `Accounts` is what holds between
the calls, the blocks that were given back and the state; every call keeps it (`Accounts.push_header`,
`Accounts.push_open`, `Accounts.push_ignored`, `Accounts.finish`), so it holds of every run
(`accounts_run`). `run_history` reads off it where each line went and when each block comes back.
-/

namespace BuildDiagnostics

/-- A call of a segmenter. -/
inductive SegmenterCall
  | push (line : String)
  | finish
  deriving DecidableEq, Repr

namespace SegmenterCall

/-- The line that a call pushes. -/
def line? : SegmenterCall → Option String
  | push line => some line
  | finish => none

/-- Whether a call seals the block that is open. -/
def seals : SegmenterCall → Bool
  | push line => isBlockStart line
  | finish => true

/-- The lines of the calls. -/
def pushed (calls : List SegmenterCall) : List String :=
  calls.filterMap line?

/-- The lines that were pushed since the start or since the last finish. -/
def pushedSinceFinish (calls : List SegmenterCall) : List String :=
  pushed (calls.rtakeWhile (· ≠ finish))

/-- Whether a header was pushed since the start or since the last finish. -/
def headerSinceFinish (calls : List SegmenterCall) : Bool :=
  (pushedSinceFinish calls).any isBlockStart

/-- The number of the line that a call pushes, if the calls before it leave the line no block. -/
def strayNumber? (before : List SegmenterCall) : SegmenterCall → Option Nat
  | push line =>
    if isBlockStart line || headerSinceFinish before then none else some ((pushed before).length + 1)
  | finish => none

/-- The numbers, counted from 1, of the continuation lines without a header since the last finish. -/
def strayNumbers (calls : List SegmenterCall) : List Nat :=
  (List.range calls.length).filterMap fun k => calls[k]?.bind (strayNumber? (calls.take k))

/-! ## One more call -/

variable (calls : List SegmenterCall) (line : String)

theorem pushed_push : pushed (calls ++ [push line]) = pushed calls ++ [line] := by
  rw [pushed, List.filterMap_append]
  rfl

theorem pushed_finish : pushed (calls ++ [finish]) = pushed calls := by
  rw [pushed, List.filterMap_append]
  exact List.append_nil _

theorem headerSinceFinish_push :
    headerSinceFinish (calls ++ [push line]) = (headerSinceFinish calls || isBlockStart line) := by
  rw [headerSinceFinish, pushedSinceFinish, List.rtakeWhile_concat_pos _ _ _ (by simp), pushed_push,
    List.any_append, List.any_cons, List.any_nil, Bool.or_false]
  rfl

theorem headerSinceFinish_finish : headerSinceFinish (calls ++ [finish]) = false := by
  rw [headerSinceFinish, pushedSinceFinish, List.rtakeWhile_concat_neg _ _ _ (by simp)]
  rfl

theorem strayNumbers_append_singleton (call : SegmenterCall) :
    strayNumbers (calls ++ [call]) = strayNumbers calls ++ (strayNumber? calls call).toList := by
  have hbefore : ∀ k ∈ List.range calls.length,
      (calls ++ [call])[k]?.bind (strayNumber? ((calls ++ [call]).take k)) =
        calls[k]?.bind (strayNumber? (calls.take k)) := by
    intro k hk
    have hlt := List.mem_range.1 hk
    rw [List.getElem?_append_left hlt, List.take_append_of_le_length (Nat.le_of_lt hlt)]
  have hlast : (calls ++ [call])[calls.length]?.bind
      (strayNumber? ((calls ++ [call]).take calls.length)) = strayNumber? calls call := by
    rw [List.getElem?_concat_length, List.take_left]
    rfl
  rw [strayNumbers, List.length_append, List.length_singleton, List.range_succ,
    List.filterMap_append, List.filterMap_congr hbefore, List.filterMap_cons, hlast]
  cases strayNumber? calls call <;> rfl

theorem strayNumbers_of_none {call : SegmenterCall} (h : strayNumber? calls call = none) :
    strayNumbers (calls ++ [call]) = strayNumbers calls := by
  rw [strayNumbers_append_singleton, h, Option.toList_none, List.append_nil]

/-- The number of the line that is pushed next comes after those of the lines so far. -/
theorem range'_pushed_push :
    List.range' 1 (pushed (calls ++ [push line])).length =
      List.range' 1 (pushed calls).length ++ [(pushed calls).length + 1] := by
  rw [pushed_push, List.length_append, List.length_singleton, List.range'_concat, Nat.one_mul,
    Nat.add_comm 1]

end SegmenterCall

open SegmenterCall (pushed headerSinceFinish strayNumbers strayNumber?)

namespace Block

/-- The numbers of the block's lines. -/
def lineNumbers (block : Block) : List Nat :=
  List.range' block.lineNumber block.lines.length

/-- Whether the block's lines are consecutive lines, the first of which has the block's number. -/
def StandsIn (block : Block) (lines : List String) : Prop :=
  ∃ before after, lines = before ++ block.lines ++ after ∧ block.lineNumber = before.length + 1

/-- Whether the block is a header with continuation lines. -/
structure Shaped (block : Block) : Prop where
  header : isBlockStart block.header = true
  context : ∀ line ∈ block.context.toList, isBlockStart line = false

theorem lines_addLine (block : Block) (line : String) :
    (block.addLine line).lines = block.lines ++ [line] := by
  simp [lines, addLine]

theorem StandsIn.append {block : Block} {lines : List String} (h : block.StandsIn lines)
    (more : List String) : block.StandsIn (lines ++ more) := by
  obtain ⟨before, after, rfl, hnumber⟩ := h
  exact ⟨before, after ++ more, by simp, hnumber⟩

theorem StandsIn.end_le {block : Block} {lines : List String} (h : block.StandsIn lines) :
    block.lineNumber + block.lines.length ≤ lines.length + 1 := by
  obtain ⟨before, after, rfl, hnumber⟩ := h
  simp only [List.length_append]
  omega

/-- A block that ends with the lines goes on with the next line. -/
theorem StandsIn.addLine {block : Block} {lines : List String} (h : block.StandsIn lines)
    (hend : block.lineNumber + block.lines.length = lines.length + 1) (line : String) :
    (block.addLine line).StandsIn (lines ++ [line]) := by
  obtain ⟨before, after, rfl, hnumber⟩ := h
  have hafter : after = [] := by
    simp only [List.length_append] at hend
    exact List.eq_nil_of_length_eq_zero (by omega)
  exact ⟨before, [], by simp [hafter, lines_addLine], hnumber⟩

theorem StandsIn.getElem? {block : Block} {lines : List String} (h : block.StandsIn lines) {i : Nat}
    (hi : i < block.lines.length) :
    lines[block.lineNumber + i - 1]? = block.lines[i]? := by
  obtain ⟨before, after, rfl, hnumber⟩ := h
  have hindex : block.lineNumber + i - 1 = before.length + i := by omega
  rw [hindex, List.append_assoc, List.getElem?_append_right (Nat.le_add_right ..),
    Nat.add_sub_cancel_left, List.getElem?_append_left hi]

theorem Shaped.addLine {block : Block} (h : block.Shaped) {line : String}
    (hline : isBlockStart line = false) : (block.addLine line).Shaped where
  header := h.header
  context := by
    intro line' hmem
    rw [Block.addLine, Array.toList_push] at hmem
    rcases List.mem_append.1 hmem with hmem | hmem
    · exact h.context line' hmem
    · rw [List.mem_singleton.1 hmem, hline]

theorem length_lineNumbers (block : Block) : block.lineNumbers.length = block.lines.length :=
  List.length_range'

theorem lineNumbers_addLine (block : Block) (line : String) :
    (block.addLine line).lineNumbers =
      block.lineNumbers ++ [block.lineNumber + block.lines.length] := by
  rw [lineNumbers, lines_addLine, List.length_append, List.length_singleton, List.range'_concat,
    Nat.one_mul]
  rfl

end Block

namespace Segmenter

/-- The answer of a segmenter to a call, and its next state. -/
def call (s : Segmenter) : SegmenterCall → Option Block × Segmenter
  | .push line => s.push line
  | .finish => s.finish

/-- The answers to a list of calls, and the state after the last of them. -/
def run (s : Segmenter) (calls : List SegmenterCall) : List (Option Block) × Segmenter :=
  calls.foldl (fun (answers, s) call => (answers ++ [(s.call call).1], (s.call call).2)) ([], s)

theorem run_append_singleton (s : Segmenter) (calls : List SegmenterCall) (call : SegmenterCall) :
    s.run (calls ++ [call]) =
      ((s.run calls).1 ++ [((s.run calls).2.call call).1], ((s.run calls).2.call call).2) := by
  rw [run, List.foldl_append]
  rfl

/-- What holds after `calls` that gave back `blocks` and left the state `s`. -/
structure Accounts (calls : List SegmenterCall) (blocks : List Block) (s : Segmenter) : Prop where
  linesSeen : s.linesSeen = (pushed calls).length
  standsIn : ∀ block ∈ blocks ++ s.current.toList, block.StandsIn (pushed calls)
  shaped : ∀ block ∈ blocks ++ s.current.toList, block.Shaped
  ordered : (blocks ++ s.current.toList).Pairwise
    fun a b => a.lineNumber + a.lines.length ≤ b.lineNumber
  current_end : ∀ block ∈ s.current,
    block.lineNumber + block.lines.length = (pushed calls).length + 1
  current_isSome : s.current.isSome = headerSinceFinish calls
  ignored : s.ignored = (strayNumbers calls).length
  lineNumbers : (strayNumbers calls ++ (blocks ++ s.current.toList).flatMap Block.lineNumbers).Perm
    (List.range' 1 (pushed calls).length)

namespace Accounts

theorem start : Accounts [] [] {} where
  linesSeen := rfl
  standsIn := by simp
  shaped := by simp
  ordered := List.Pairwise.nil
  current_end := by simp
  current_isSome := rfl
  ignored := rfl
  lineNumbers := List.Perm.refl _

variable {calls : List SegmenterCall} {blocks : List Block} {s : Segmenter}
  (h : Accounts calls blocks s)
include h

theorem linesSeen_push (line : String) :
    s.linesSeen + 1 = (pushed (calls ++ [.push line])).length := by
  rw [SegmenterCall.pushed_push, List.length_append, ← h.linesSeen]
  rfl

theorem finish : Accounts (calls ++ [.finish]) (blocks ++ s.current.toList) s.finish.2 := by
  have hblocks : blocks ++ s.current.toList ++ s.finish.2.current.toList =
      blocks ++ s.current.toList := List.append_nil _
  have hpushed : pushed (calls ++ [.finish]) = pushed calls := SegmenterCall.pushed_finish calls
  have hstray : strayNumbers (calls ++ [.finish]) = strayNumbers calls :=
    SegmenterCall.strayNumbers_of_none calls rfl
  refine ⟨?_, ?_, ?_, ?_, ?_, ?_, ?_, ?_⟩
  · rw [hpushed]
    exact h.linesSeen
  · rw [hpushed, hblocks]
    exact h.standsIn
  · rw [hblocks]
    exact h.shaped
  · rw [hblocks]
    exact h.ordered
  · rintro block ⟨⟩
  · rw [SegmenterCall.headerSinceFinish_finish]
    rfl
  · rw [hstray]
    exact h.ignored
  · rw [hstray, hblocks, hpushed]
    exact h.lineNumbers

/-- A header seals the open block and begins a new one at the last line. -/
theorem push_header {line : String} (hline : isBlockStart line = true) :
    Accounts (calls ++ [.push line]) (blocks ++ s.current.toList) (s.push line).2 := by
  let block : Block := { lineNumber := s.linesSeen + 1, header := line }
  have hnumber : block.lineNumber = (pushed calls).length + 1 := congrArg (· + 1) h.linesSeen
  have hstray : strayNumbers (calls ++ [.push line]) = strayNumbers calls := by
    apply SegmenterCall.strayNumbers_of_none
    rw [strayNumber?, hline, Bool.true_or, if_pos rfl]
  have hblock : block.StandsIn (pushed calls ++ [line]) :=
    ⟨pushed calls, [], by rw [List.append_nil]; rfl, hnumber⟩
  rw [Segmenter.push_header s hline]
  exact {
    linesSeen := h.linesSeen_push line
    standsIn := by
      rw [SegmenterCall.pushed_push]
      intro b hb
      rcases List.mem_append.1 hb with hb | hb
      · exact (h.standsIn b hb).append [line]
      · rw [List.mem_singleton.1 hb]
        exact hblock
    shaped := by
      intro b hb
      rcases List.mem_append.1 hb with hb | hb
      · exact h.shaped b hb
      · rw [List.mem_singleton.1 hb]
        exact ⟨hline, by simp⟩
    ordered := by
      refine List.pairwise_append.2 ⟨h.ordered, List.pairwise_singleton _ _, fun a ha b hb => ?_⟩
      rw [List.mem_singleton.1 hb]
      exact hnumber ▸ (h.standsIn a ha).end_le
    current_end := by
      rintro _ ⟨⟩
      rw [← h.linesSeen_push line]
      rfl
    current_isSome := by
      rw [SegmenterCall.headerSinceFinish_push, hline, Bool.or_true]
      rfl
    ignored := by
      rw [hstray]
      exact h.ignored
    lineNumbers := by
      have hnumbers :
          (some block).toList.flatMap Block.lineNumbers = [(pushed calls).length + 1] := by
        rw [Option.toList_some, List.flatMap_singleton, Block.lineNumbers, hnumber]
        rfl
      rw [hstray, SegmenterCall.range'_pushed_push, List.flatMap_append, ← List.append_assoc,
        hnumbers]
      exact h.lineNumbers.append_right _ }

/-- A continuation line is the next line of the open block. -/
theorem push_open {block : Block} (hcurrent : s.current = some block) {line : String}
    (hline : isBlockStart line = false) :
    Accounts (calls ++ [.push line]) blocks (s.push line).2 := by
  have hpush : (s.push line).2 =
      { s with current := some (block.addLine line), linesSeen := s.linesSeen + 1 } := by
    rw [Segmenter.push_continuation s hline, hcurrent]
    rfl
  have hheader : headerSinceFinish calls = true := by
    rw [← h.current_isSome, hcurrent]
    rfl
  have hstray : strayNumbers (calls ++ [.push line]) = strayNumbers calls := by
    apply SegmenterCall.strayNumbers_of_none
    rw [strayNumber?, hheader, Bool.or_true, if_pos rfl]
  have hmem : block ∈ blocks ++ s.current.toList := by
    rw [hcurrent]
    exact List.mem_append_right _ List.mem_cons_self
  have hend := h.current_end block hcurrent
  have hcurrents : s.current.toList = [block] := by
    rw [hcurrent]
    rfl
  rw [hpush]
  exact {
    linesSeen := h.linesSeen_push line
    standsIn := by
      rw [SegmenterCall.pushed_push]
      intro b hb
      rcases List.mem_append.1 hb with hb | hb
      · exact (h.standsIn b (List.mem_append_left _ hb)).append [line]
      · rw [List.mem_singleton.1 hb]
        exact (h.standsIn block hmem).addLine hend line
    shaped := by
      intro b hb
      rcases List.mem_append.1 hb with hb | hb
      · exact h.shaped b (List.mem_append_left _ hb)
      · rw [List.mem_singleton.1 hb]
        exact (h.shaped block hmem).addLine hline
    ordered := by
      have hordered := h.ordered
      rw [hcurrents, List.pairwise_append] at hordered
      refine List.pairwise_append.2
        ⟨hordered.1, List.pairwise_singleton _ _, fun a ha b hb => ?_⟩
      rw [List.mem_singleton.1 hb]
      exact hordered.2.2 a ha block List.mem_cons_self
    current_end := by
      rintro _ ⟨⟩
      rw [SegmenterCall.pushed_push, Block.lines_addLine, List.length_append, List.length_append,
        List.length_singleton, ← hend]
      exact (Nat.add_assoc ..).symm
    current_isSome := by
      rw [SegmenterCall.headerSinceFinish_push, hheader]
      rfl
    ignored := by
      rw [hstray]
      exact h.ignored
    lineNumbers := by
      have hnumbers : (block.addLine line).lineNumbers =
          block.lineNumbers ++ [(pushed calls).length + 1] := by
        rw [Block.lineNumbers_addLine, hend]
      have hlines := h.lineNumbers
      rw [hcurrents, List.flatMap_append, List.flatMap_singleton, ← List.append_assoc] at hlines
      rw [hstray, SegmenterCall.range'_pushed_push, Option.toList_some, List.flatMap_append,
        List.flatMap_singleton, hnumbers, ← List.append_assoc, ← List.append_assoc]
      exact hlines.append_right _ }

/-- Without an open block a continuation line is ignored. -/
theorem push_ignored (hcurrent : s.current = none) {line : String}
    (hline : isBlockStart line = false) :
    Accounts (calls ++ [.push line]) blocks (s.push line).2 := by
  have hpush : (s.push line).2 =
      { current := none, linesSeen := s.linesSeen + 1, ignored := s.ignored + 1 } := by
    rw [Segmenter.push_continuation s hline, hcurrent]
    rfl
  have hheader : headerSinceFinish calls = false := by
    rw [← h.current_isSome, hcurrent]
    rfl
  have hstray : strayNumber? calls (.push line) = some ((pushed calls).length + 1) := by
    rw [strayNumber?, hline, hheader]
    rfl
  have hblocks : blocks ++ s.current.toList = blocks := by
    rw [hcurrent, Option.toList_none, List.append_nil]
  have hstandsIn := h.standsIn
  have hshaped := h.shaped
  have hordered := h.ordered
  have hlines := h.lineNumbers
  rw [hblocks] at hstandsIn hshaped hordered hlines
  rw [hpush]
  exact {
    linesSeen := h.linesSeen_push line
    standsIn := by
      rw [Option.toList_none, List.append_nil, SegmenterCall.pushed_push]
      exact fun b hb => (hstandsIn b hb).append [line]
    shaped := by
      rw [Option.toList_none, List.append_nil]
      exact hshaped
    ordered := by
      rw [Option.toList_none, List.append_nil]
      exact hordered
    current_end := by
      rintro b ⟨⟩
    current_isSome := by
      rw [SegmenterCall.headerSinceFinish_push, hheader, hline]
      rfl
    ignored := by
      rw [SegmenterCall.strayNumbers_append_singleton, hstray, List.length_append, ← h.ignored]
      rfl
    lineNumbers := by
      rw [SegmenterCall.strayNumbers_append_singleton, hstray, SegmenterCall.range'_pushed_push,
        Option.toList_none, List.append_nil, List.append_assoc]
      -- the number moves from the ignored lines to the end
      refine (List.perm_append_comm.append_left _).trans ?_
      rw [← List.append_assoc]
      exact hlines.append_right _ }

theorem call (call : SegmenterCall) :
    Accounts (calls ++ [call]) (blocks ++ (s.call call).1.toList) (s.call call).2 := by
  cases call with
  | finish => exact h.finish
  | push line =>
    cases hline : isBlockStart line with
    | true =>
      have hanswer : (s.push line).1 = s.current := by rw [Segmenter.push_header s hline]
      rw [Segmenter.call, hanswer]
      exact h.push_header hline
    | false =>
      have hanswer : (s.push line).1 = none := by rw [Segmenter.push_continuation s hline]
      rw [Segmenter.call, hanswer, Option.toList_none, List.append_nil]
      cases hcurrent : s.current with
      | none => exact h.push_ignored hcurrent hline
      | some block => exact h.push_open hcurrent hline

end Accounts

/-- The blocks that a run gave back. -/
def blocksOf (answers : List (Option Block)) : List Block :=
  answers.flatMap Option.toList

theorem accounts_run (calls : List SegmenterCall) :
    Accounts calls (blocksOf (run {} calls).1) (run {} calls).2 := by
  induction calls using List.reverseRecOn with
  | nil => exact Accounts.start
  | append_singleton calls call ih =>
    have hstep := ih.call call
    rw [run_append_singleton, blocksOf, List.flatMap_append, List.flatMap_singleton]
    exact hstep

/-- A call that seals gives back the open block. -/
theorem call_fst (s : Segmenter) (call : SegmenterCall) :
    (s.call call).1 = if call.seals then s.current else none := by
  cases call with
  | finish => rfl
  | push line =>
    rw [Segmenter.call, SegmenterCall.seals]
    cases hline : isBlockStart line with
    | true => rw [push_header s hline, if_pos rfl]
    | false =>
      rw [push_continuation s hline]
      rfl

/-- Every line is ignored, or in one block. -/
theorem Accounts.length_pushed {calls : List SegmenterCall} {blocks : List Block} {s : Segmenter}
    (h : Accounts calls blocks s) :
    (pushed calls).length =
      s.ignored + (blocks.flatMap Block.lines).length +
        (s.current.toList.flatMap Block.lines).length := by
  have hlines (blocks : List Block) :
      (blocks.flatMap Block.lineNumbers).length = (blocks.flatMap Block.lines).length := by
    rw [List.length_flatMap, List.length_flatMap]
    simp only [Block.length_lineNumbers]
  have hlength := h.lineNumbers.length_eq
  rw [List.length_append, List.length_range', ← h.ignored, hlines, List.flatMap_append,
    List.length_append, ← Nat.add_assoc] at hlength
  exact hlength.symm

/-- **Where every line of a run goes, and when every block comes back.** Of any calls, each pushed line
is ignored or in one block; the blocks are stretches of the pushed lines, one after the other; a call
that seals gives back the block that was opened since the last finish, up to the last line; and a line
is ignored just when it is no header and none came since the last finish. -/
theorem run_history (calls : List SegmenterCall) :
    let answers := (run {} calls).1
    let s := (run {} calls).2
    let blocks := blocksOf answers
    let lines := pushed calls
    (strayNumbers calls ++ (blocks ++ s.current.toList).flatMap Block.lineNumbers).Perm
        (List.range' 1 lines.length) ∧
      s.ignored = (strayNumbers calls).length ∧
      lines.length =
        s.ignored + (blocks.flatMap Block.lines).length +
          (s.current.toList.flatMap Block.lines).length ∧
      (∀ block ∈ blocks ++ s.current.toList,
        1 ≤ block.lineNumber ∧
        (∀ i < block.lines.length, lines[block.lineNumber + i - 1]? = block.lines[i]?) ∧
        isBlockStart block.header = true ∧
        ∀ line ∈ block.context.toList, isBlockStart line = false) ∧
      (blocks ++ s.current.toList).Pairwise
        (fun a b => a.lineNumber + a.lines.length ≤ b.lineNumber) ∧
      s.current.isSome = headerSinceFinish calls ∧
      (∀ block ∈ s.current, block.lineNumber + block.lines.length = lines.length + 1) ∧
      (∀ call, (run {} (calls ++ [call])).1 =
        answers ++ [if call.seals then s.current else none]) ∧
      ∀ call, (run {} (calls ++ [call])).2.ignored =
        s.ignored + (strayNumber? calls call).toList.length := by
  intro answers s blocks lines
  have h : Accounts calls blocks s := accounts_run calls
  -- the last two parts speak of one more call
  refine ⟨h.lineNumbers, h.ignored, h.length_pushed, fun block hblock => ?_, h.ordered,
    h.current_isSome, h.current_end, fun call => ?_, fun call => ?_⟩
  · have hstands := h.standsIn block hblock
    have hshaped := h.shaped block hblock
    refine ⟨?_, fun i hi => hstands.getElem? hi, hshaped.header, hshaped.context⟩
    obtain ⟨before, after, -, hnumber⟩ := hstands
    omega
  · rw [run_append_singleton, call_fst]
  · have hnext := (accounts_run (calls ++ [call])).ignored
    rw [hnext, h.ignored, SegmenterCall.strayNumbers_append_singleton, List.length_append]

end Segmenter

end BuildDiagnostics
