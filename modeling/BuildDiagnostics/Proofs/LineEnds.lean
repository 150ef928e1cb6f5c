import BuildDiagnostics.Output
import BuildDiagnostics.Proofs.Lines
import BuildDiagnostics.Proofs.Positions

/-!
# Ends of lines

The same lines can be written as many texts, since each of them may end in one way or the other
(`Text.WrittenAs`). Reading a text gives back the lines it was written from
(`Text.lines_of_writtenAs`), and every text is one that its own lines can be written as
(`Text.writtenAs_lines`). So extraction, which sees a text through its lines only, gives the same
for all of them (`ofText_writtenAs`).
-/

namespace BuildDiagnostics

namespace Text

/-- The texts that some lines can be written as. Every line has an end of its own; the last one may
do without, unless it is empty. -/
inductive WrittenAs : List String → String → Prop
  | nil : WrittenAs [] ""
  | unended {line : String} (h : line ≠ "") : WrittenAs [line] line
  | ended {line : String} {ls : List String} {rest : String} (lineEnd : LineEnd)
      (h : WrittenAs ls rest) : WrittenAs (line :: ls) (line ++ lineEnd.text ++ rest)

theorem lines_of_feed_not_mem {line : String} (h : '\n' ∉ line.toList) (hne : line ≠ "") :
    lines line = [line] := by
  have hcs : line.toList ≠ [] := fun e => hne (String.toList_eq_nil_iff.1 e)
  simp [lines, linesOf, splitOn_of_not_mem h, Option.filter, hcs]

/-- Reading undoes writing, unless a line ends with a return, which may be taken for a part of the
end that is written after it. -/
theorem lines_of_writtenAs {ls : List String} {text : String} (h : WrittenAs ls text)
    (hfeed : ∀ line ∈ ls, '\n' ∉ line.toList)
    (hreturn : ∀ line ∈ ls, line.toList.getLast? ≠ some '\r') : lines text = ls := by
  induction h with
  | nil => rfl
  | unended hne => exact lines_of_feed_not_mem (hfeed _ List.mem_cons_self) hne
  | ended lineEnd _ ih =>
    rw [lines_append_lineEnd (hfeed _ List.mem_cons_self) (hreturn _ List.mem_cons_self) lineEnd,
      ih (fun l hl => hfeed l (List.mem_cons_of_mem _ hl))
        (fun l hl => hreturn l (List.mem_cons_of_mem _ hl))]

-- the line read is shorter than the one written
example : lines ("x\r" ++ LineEnd.feed.text) = ["x"] := by decide

/-- What stands before a line feed is a line and maybe a return, which belongs to the line's end. -/
theorem exists_lineEnd (piece : List Char) :
    ∃ lineEnd : LineEnd,
      String.ofList piece ++ "\n" = String.ofList (dropReturn piece) ++ lineEnd.text := by
  by_cases h : piece.getLast? = some '\r'
  · obtain ⟨line, rfl⟩ := List.getLast?_eq_some_iff.1 h
    refine ⟨.returnFeed, ?_⟩
    rw [dropReturn_append_return, ← String.toList_inj]
    simp [LineEnd.text]
  · refine ⟨.feed, ?_⟩
    rw [dropReturn_of_getLast? h]
    rfl

theorem writtenAs_lines (text : String) : WrittenAs (lines text) text := by
  by_cases hmem : '\n' ∈ text.toList
  · obtain ⟨piece, rest, htext, hpiece⟩ := List.eq_append_cons_of_mem hmem
    obtain ⟨lineEnd, hend⟩ := exists_lineEnd piece
    have hwhole :
        text = String.ofList (dropReturn piece) ++ lineEnd.text ++ String.ofList rest := by
      rw [← hend, ← String.toList_inj, htext]
      simp
    have hlines : lines text = String.ofList (dropReturn piece) :: lines (String.ofList rest) := by
      rw [lines, htext, linesOf_append_feed hpiece, List.map_cons, lines, String.toList_ofList]
    have hshort : (String.ofList rest).toList.length < text.toList.length := by
      rw [String.toList_ofList, htext, List.length_append, List.length_cons]
      omega
    have ih := writtenAs_lines (String.ofList rest)
    rw [hlines]
    exact hwhole ▸ .ended lineEnd ih
  · by_cases hne : text = ""
    · rw [hne]
      exact .nil
    · rw [lines_of_feed_not_mem hmem hne]
      exact .unended hne
termination_by text.toList.length
decreasing_by exact hshort

end Text

theorem Extraction.ofText_eq_byPosition_of_lines {text : String} {ls : List String}
    (h : Text.lines text = ls) : ofText text = .byPosition ls := by
  rw [ofText_eq_ofBlocks, ofBlocks_blocksAfter, h]

/-- **Line endings do not matter.** Lines that hold no line feed and do not end with a carriage
return are the lines of exactly those texts that they can be written as. Any two of these texts
have the same extraction, that of the lines by their numbers, and the same is printed for both. -/
theorem ofText_writtenAs {ls : List String} (hfeed : ∀ line ∈ ls, '\n' ∉ line.toList)
    (hreturn : ∀ line ∈ ls, line.toList.getLast? ≠ some '\r') :
    (∀ text, Text.WrittenAs ls text ↔ Text.lines text = ls) ∧
      ∀ text text', Text.WrittenAs ls text → Text.WrittenAs ls text' →
        Extraction.ofText text = .byPosition ls ∧
          Extraction.ofText text = Extraction.ofText text' ∧
          ∀ format, render format (extract text) = render format (extract text') := by
  have hlines {text : String} (h : Text.WrittenAs ls text) : Text.lines text = ls :=
    Text.lines_of_writtenAs h hfeed hreturn
  refine ⟨fun text => ⟨hlines, fun h => h ▸ Text.writtenAs_lines text⟩, ?_⟩
  intro text text' h h'
  have htext := Extraction.ofText_eq_byPosition_of_lines (hlines h)
  have htext' := Extraction.ofText_eq_byPosition_of_lines (hlines h')
  have heq : Extraction.ofText text = Extraction.ofText text' := htext.trans htext'.symm
  refine ⟨htext, heq, fun format => ?_⟩
  rw [extract, extract, heq]

/-- A line of no block, a blank line, and a report with returns inside of its lines. -/
def sampleLines : List String :=
  ["building", "", "a:1:1: error: x\ry", "  s", "\r ^^"]

def sampleFed : String :=
  "building\n\na:1:1: error: x\ry\n  s\n\r ^^\n"

/-- The same lines with ends of both kinds, and none after the last of them. -/
def sampleMixed : String :=
  "building\r\n\na:1:1: error: x\ry\r\n  s\n\r ^^"

theorem ofText_writtenAs_sampleLines :
    (∀ line ∈ sampleLines, '\n' ∉ line.toList) ∧
      (∀ line ∈ sampleLines, line.toList.getLast? ≠ some '\r') ∧
      Text.WrittenAs sampleLines sampleFed ∧ Text.WrittenAs sampleLines sampleMixed ∧
      Text.lines sampleMixed = sampleLines ∧
      Extraction.ofText sampleFed = Extraction.ofText sampleMixed ∧
      (Extraction.ofText sampleFed).ignoredLines = 2 ∧
      render .text (extract sampleFed) = render .text (extract sampleMixed) := by
  have hfeed : ∀ line ∈ sampleLines, '\n' ∉ line.toList := by decide
  have hreturn : ∀ line ∈ sampleLines, line.toList.getLast? ≠ some '\r' := by decide
  have hfed : Text.WrittenAs sampleLines sampleFed :=
    .ended .feed (.ended .feed (.ended .feed (.ended .feed (.ended .feed .nil))))
  have hmixed : Text.WrittenAs sampleLines sampleMixed :=
    .ended .returnFeed (.ended .feed (.ended .returnFeed (.ended .feed (.unended (by decide)))))
  obtain ⟨hexact, hsame⟩ := ofText_writtenAs hfeed hreturn
  obtain ⟨hposition, heq, hrender⟩ := hsame sampleFed sampleMixed hfed hmixed
  have hignored : (Extraction.byPosition sampleLines).ignoredLines = 2 := by decide +kernel
  exact ⟨hfeed, hreturn, hfed, hmixed, (hexact sampleMixed).1 hmixed, heq,
    hposition ▸ hignored, hrender .text⟩

end BuildDiagnostics
