import BuildDiagnostics.Proofs.Positions

/-!
# Output that is put together

Where one text ends with its line and the next one begins with a header, nothing passes over the cut:
the blocks of the two texts together are those of the first, then those of the second with their line
numbers moved up (`blocksAfter_append_header`). What an extraction shows of blocks is compatible with
that, list by list (`Extraction.listed_append`, `Extraction.skipped_append`), so the extraction of the
whole is put together from the extractions of its parts. `ofText_append_startsBlock` says so, and that a
malformed block in between leaves no trace but its own report.

Without a header at the cut, the block that the first text leaves open takes up the lines before the
next header (`exists_blocksAfter_append`).
-/

namespace BuildDiagnostics

namespace Text

/-- A text that does not break off inside a line. -/
def AtLineEnd (text : String) : Prop :=
  text = "" ∨ text.toList.getLast? = some '\n'

instance (text : String) : Decidable (AtLineEnd text) :=
  inferInstanceAs (Decidable (_ ∨ _))

theorem lines_append {first : String} (h : AtLineEnd first) (second : String) :
    lines (first ++ second) = lines first ++ lines second := by
  rcases h with rfl | h
  · rw [String.empty_append]
    rfl
  · obtain ⟨front, hfront⟩ := List.getLast?_eq_some_iff.1 h
    rw [lines, lines, lines, String.toList_append, hfront, ← List.map_append, List.append_assoc,
      ← linesOf_append_cons]
    rfl

theorem AtLineEnd.append {first second : String} (h₁ : AtLineEnd first) (h₂ : AtLineEnd second) :
    AtLineEnd (first ++ second) := by
  rcases h₂ with rfl | h₂
  · rwa [String.append_empty]
  · right
    rw [String.toList_append, List.getLast?_append, h₂]
    rfl

end Text

/-! ## Line numbers -/

/-- The block as it stands after `count` more lines. -/
def Block.shift (count : Nat) (block : Block) : Block :=
  { block with lineNumber := block.lineNumber + count }

/-- The report as it stands after `count` more lines. -/
def SkippedBlock.shift (count : Nat) (skipped : SkippedBlock) : SkippedBlock :=
  { skipped with lineNumber := skipped.lineNumber + count }

theorem Block.build_shift (count : Nat) (block : Block) :
    (block.shift count).build = block.build := rfl

theorem Block.diagnostic?_shift (count : Nat) (block : Block) :
    (block.shift count).diagnostic? = block.diagnostic? := rfl

theorem Block.skipped?_shift (count : Nat) (block : Block) :
    (block.shift count).skipped? = block.skipped?.map (SkippedBlock.shift count) := by
  rw [skipped?, skipped?, build_shift]
  cases block.build with
  | ok d => rfl
  | error error => rfl

theorem blocksAfter_add (seen count : Nat) (lines : List String) :
    blocksAfter (seen + count) lines = (blocksAfter seen lines).map (Block.shift count) := by
  induction lines generalizing seen with
  | nil => rfl
  | cons line rest ih =>
    have hseen : seen + count + 1 = seen + 1 + count := Nat.add_right_comm ..
    cases h : isBlockStart line with
    | true =>
      rw [blocksAfter_header h, blocksAfter_header h, List.map_cons, hseen, ih]
      rfl
    | false => rw [blocksAfter_continuation h, blocksAfter_continuation h, hseen, ih]

/-! ## The cut -/

theorem Segmenter.linesSeen_pushAll (s : Segmenter) (lines : List String) :
    (s.pushAll lines).2.linesSeen = s.linesSeen + lines.length := by
  induction lines generalizing s with
  | nil => rfl
  | cons line rest ih =>
    have hstep : (s.push line).2.linesSeen = s.linesSeen + 1 := by
      cases h : isBlockStart line with
      | true => rw [push_header s h]
      | false => rw [push_continuation s h]
    rw [pushAll_cons, ih, hstep, List.length_cons]
    omega

theorem Segmenter.pushAll_append (s : Segmenter) (xs ys : List String) :
    s.pushAll (xs ++ ys) =
      ((s.pushAll xs).1 ++ ((s.pushAll xs).2.pushAll ys).1, ((s.pushAll xs).2.pushAll ys).2) := by
  induction xs generalizing s with
  | nil => rfl
  | cons x xs ih => rw [List.cons_append, pushAll_cons, ih, pushAll_cons s x xs, List.append_assoc]

/-- Of the blocks of some lines all but the open one stay as they are, whatever lines follow; the open
one takes up the lines before the next header. -/
theorem exists_blocksAfter_append (seen : Nat) (xs : List String) :
    ∃ (sealedBlocks : List Block) (openBlock : Option Block),
      blocksAfter seen xs = sealedBlocks ++ openBlock.toList ∧
      ∀ ys, blocksAfter seen (xs ++ ys) =
        sealedBlocks ++ (openBlock.map (·.addLines (ys.takeWhile isContinuation))).toList
          ++ blocksAfter (seen + xs.length) ys := by
  -- the segmenter's run over `xs` holds both parts
  have hstart (lines : List String) := Segmenter.pushAll_blocks { linesSeen := seen } lines
  simp only [Option.map_none, Option.toList_none, List.nil_append] at hstart
  refine ⟨_, _, (hstart xs).symm, fun ys => ?_⟩
  rw [← hstart, Segmenter.pushAll_append, List.append_assoc, Segmenter.pushAll_blocks,
    Segmenter.linesSeen_pushAll, List.append_assoc]

/-- Whether the first line, if there is one, opens a block. -/
def StartsBlock (lines : List String) : Prop :=
  ∀ line ∈ lines.head?, isBlockStart line = true

theorem takeWhile_of_startsBlock {lines : List String} (h : StartsBlock lines) :
    lines.takeWhile isContinuation = [] := by
  cases lines with
  | nil => rfl
  | cons line rest => exact takeWhile_header (h line rfl) rest

theorem blocksAfter_append_header (seen : Nat) (xs : List String) {ys : List String}
    (h : StartsBlock ys) :
    blocksAfter seen (xs ++ ys) =
      blocksAfter seen xs ++ (blocksAfter seen ys).map (Block.shift xs.length) := by
  obtain ⟨sealedBlocks, openBlock, hxs, happend⟩ := exists_blocksAfter_append seen xs
  have hopen : openBlock.map (·.addLines (ys.takeWhile isContinuation)) = openBlock := by
    rw [takeWhile_of_startsBlock h]
    cases openBlock <;> simp
  rw [happend, hopen, ← hxs, blocksAfter_add]

theorem length_takeWhile_append_header (xs : List String) {ys : List String}
    (h : StartsBlock ys) :
    ((xs ++ ys).takeWhile isContinuation).length = (xs.takeWhile isContinuation).length := by
  rw [List.takeWhile_append, takeWhile_of_startsBlock h, List.append_nil]
  split
  · next hall => exact hall.symm
  · rfl

theorem takeWhile_append_of_continuation {inner : List String}
    (h : ∀ line ∈ inner, isBlockStart line = false) (rest : List String) :
    (inner ++ rest).takeWhile isContinuation = inner ++ rest.takeWhile isContinuation := by
  refine List.takeWhile_append_of_pos fun line hline => ?_
  rw [isContinuation, h line hline]
  rfl

theorem blocksAfter_append_of_continuation {inner : List String}
    (h : ∀ line ∈ inner, isBlockStart line = false) (seen : Nat) (rest : List String) :
    blocksAfter seen (inner ++ rest) = blocksAfter (seen + inner.length) rest := by
  induction inner generalizing seen with
  | nil => rfl
  | cons line inner ih =>
    have hseen : seen + (line :: inner).length = seen + 1 + inner.length := by
      rw [List.length_cons]
      omega
    rw [List.cons_append, blocksAfter_continuation (h line List.mem_cons_self),
      ih (fun line' hline => h line' (List.mem_cons_of_mem line hline)), hseen]

theorem blocksAfter_eq_nil {lines : List String} (h : ∀ line ∈ lines, isBlockStart line = false)
    (seen : Nat) : blocksAfter seen lines = [] := by
  have hnil := blocksAfter_append_of_continuation h seen []
  rw [List.append_nil] at hnil
  exact hnil

/-! ## What blocks give -/

theorem filterMap_skipped?_shift (count : Nat) (blocks : List Block) :
    (blocks.map (Block.shift count)).filterMap Block.skipped? =
      (blocks.filterMap Block.skipped?).map (SkippedBlock.shift count) := by
  rw [List.filterMap_map, List.map_filterMap]
  exact List.filterMap_congr fun block _ => Block.skipped?_shift count block

theorem filterMap_diagnostic?_shift (count : Nat) (blocks : List Block) :
    (blocks.map (Block.shift count)).filterMap Block.diagnostic? =
      blocks.filterMap Block.diagnostic? := by
  rw [List.filterMap_map]
  exact List.filterMap_congr fun block _ => Block.diagnostic?_shift count block

namespace Extraction

/-- The diagnostics of a text in the order of the text. -/
def listed (text : String) : List Diagnostic :=
  (blocksAfter 0 (Text.lines text)).filterMap Block.diagnostic?

theorem diagnostics_ofText (text : String) : (ofText text).diagnostics = .ofList (listed text) := by
  rw [ofText_eq_ofBlocks]
  rfl

theorem skipped_ofText (text : String) :
    (ofText text).skipped =
      ((blocksAfter 0 (Text.lines text)).filterMap Block.skipped?).toArray := by
  rw [ofText_eq_ofBlocks]
  rfl

theorem ignoredLines_ofText (text : String) :
    (ofText text).ignoredLines = ((Text.lines text).takeWhile isContinuation).length := by
  rw [ofText_eq_ofBlocks]
  rfl

section Cut

variable {first second : String} (hfirst : Text.AtLineEnd first)
  (hsecond : StartsBlock (Text.lines second))
include hfirst hsecond

theorem listed_append : listed (first ++ second) = listed first ++ listed second := by
  rw [listed, Text.lines_append hfirst, blocksAfter_append_header 0 _ hsecond, List.filterMap_append,
    filterMap_diagnostic?_shift]
  rfl

theorem skipped_append :
    (ofText (first ++ second)).skipped =
      (ofText first).skipped
        ++ (ofText second).skipped.map (SkippedBlock.shift (Text.lines first).length) := by
  rw [skipped_ofText, Text.lines_append hfirst, blocksAfter_append_header 0 _ hsecond,
    List.filterMap_append, filterMap_skipped?_shift, skipped_ofText, skipped_ofText]
  simp

theorem ignoredLines_append :
    (ofText (first ++ second)).ignoredLines = (ofText first).ignoredLines := by
  rw [ignoredLines_ofText, Text.lines_append hfirst, length_takeWhile_append_header _ hsecond,
    ignoredLines_ofText]

end Cut

end Extraction

/-! ## A malformed block -/

/-- The diagnostic with another width. -/
def Diagnostic.resize (d : Diagnostic) (width : Nat) : Diagnostic :=
  .ofWidth d.location d.severity d.message d.line d.startCol width

/-- The lines after a header have a say in the width and in nothing else. -/
theorem Header.diagnostic_eq_map (header : String) (width : Nat) :
    Header.diagnostic header width =
      (Header.diagnostic header 0).map (·.resize width) := by
  unfold Header.diagnostic
  cases Header.ofLine header with
  | error error => rfl
  | ok fields =>
    cases hline : Block.readPosition .line fields.line with
    | error error => simp [bind, Except.bind, Except.map, hline]
    | ok line =>
      cases hcolumn : Block.readPosition .column fields.column with
      | error error => simp [bind, Except.bind, Except.map, hline, hcolumn]
      | ok startCol => simp [bind, Except.bind, Except.map, hline, hcolumn, pure, Except.pure,
          Diagnostic.resize, Diagnostic.ofWidth]

/-- Whole lines that are one block: a header that gives no diagnostic, and context. -/
structure IsMalformedBlock (text header : String) (error : BlockError) : Prop where
  getLast?_text : text.toList.getLast? = some '\n'
  lines_text : ∃ context, Text.lines text = header :: context ∧
    ∀ line ∈ context, isBlockStart line = false
  isBlockStart_header : isBlockStart header = true
  diagnostic_header : Header.diagnostic header 0 = .error error

namespace IsMalformedBlock

variable {text header : String} {error : BlockError} (h : IsMalformedBlock text header error)
include h

theorem startsBlock : StartsBlock (Text.lines text) := by
  obtain ⟨context, hlines, -⟩ := h.lines_text
  rw [hlines]
  rintro _ ⟨⟩
  exact h.isBlockStart_header

theorem exists_block : ∃ block, blocksAfter 0 (Text.lines text) = [block] ∧
    block.lineNumber = 1 ∧ block.header = header ∧ block.build = .error error := by
  obtain ⟨context, hlines, hcontext⟩ := h.lines_text
  let block : Block := Block.addLines { lineNumber := 1, header } (context.takeWhile isContinuation)
  have hblocks : blocksAfter 0 (Text.lines text) = [block] := by
    rw [hlines, blocksAfter_header h.isBlockStart_header, blocksAfter_eq_nil hcontext]
  have hbuild : block.build = .error error := by
    have hmap := Header.diagnostic_eq_map header block.width
    rwa [h.diagnostic_header] at hmap
  exact ⟨block, hblocks, rfl, rfl, hbuild⟩

theorem listed_eq_nil : Extraction.listed text = [] := by
  obtain ⟨block, hblocks, -, -, hbuild⟩ := h.exists_block
  rw [Extraction.listed, hblocks]
  simp [Block.diagnostic?, hbuild, Except.toOption]

theorem skipped_eq :
    (Extraction.ofText text).skipped = #[{ lineNumber := 1, header, error }] := by
  obtain ⟨block, hblocks, hnumber, hheader, hbuild⟩ := h.exists_block
  rw [Extraction.skipped_ofText, hblocks]
  simp [Block.skipped?, hbuild, hnumber, hheader]

theorem atLineEnd : Text.AtLineEnd text :=
  .inr h.getLast?_text

end IsMalformedBlock

/-! ## The whole and its parts -/

/-- **The extraction of a text is put together from those of its parts**, when the first part ends with
a line and the second one starts with a header. A malformed block put in between adds its own report
and leaves all diagnostics as they are. -/
theorem ofText_append_startsBlock {first second : String} (hfirst : Text.AtLineEnd first)
    (hsecond : StartsBlock (Text.lines second)) :
    let whole := Extraction.ofText (first ++ second)
    let front := Extraction.ofText first
    let back := Extraction.ofText second
    let count := (Text.lines first).length
    (∀ raw, whole.diagnostics.itemsAt raw =
        front.diagnostics.itemsAt raw ++ back.diagnostics.itemsAt raw) ∧
      whole.diagnostics.locations =
        front.diagnostics.locations
          ++ back.diagnostics.locations.filter (· ∉ front.diagnostics.locations) ∧
      whole.skipped = front.skipped ++ back.skipped.map (SkippedBlock.shift count) ∧
      whole.ignoredLines = front.ignoredLines ∧
      ∀ middle header error, IsMalformedBlock middle header error →
        let other := Extraction.ofText (first ++ middle ++ second)
        other.diagnostics = whole.diagnostics ∧
          other.skipped =
            front.skipped ++ #[{ lineNumber := count + 1, header, error }]
              ++ back.skipped.map (SkippedBlock.shift (count + (Text.lines middle).length)) ∧
          other.ignoredLines = whole.ignoredLines := by
  intro whole front back count
  have hwhole : whole.diagnostics =
      .ofList (Extraction.listed first ++ Extraction.listed second) := by
    rw [← Extraction.listed_append hfirst hsecond]
    exact Extraction.diagnostics_ofText _
  have hfront : front.diagnostics = .ofList (Extraction.listed first) :=
    Extraction.diagnostics_ofText first
  have hback : back.diagnostics = .ofList (Extraction.listed second) :=
    Extraction.diagnostics_ofText second
  have hignored : whole.ignoredLines = front.ignoredLines :=
    Extraction.ignoredLines_append hfirst hsecond
  refine ⟨fun raw => ?_, ?_, Extraction.skipped_append hfirst hsecond, hignored, ?_⟩
  · simp only [hwhole, hfront, hback, DiagnosticsByLocation.itemsAt_ofList, Grouping.withKey_append]
  · simp only [hwhole, hfront, hback, DiagnosticsByLocation.locations_ofList,
      Grouping.keys_append]
  · intro middle header error hmiddle other
    have hjoined : Text.AtLineEnd (first ++ middle) := hfirst.append hmiddle.atLineEnd
    have hlines : (Text.lines (first ++ middle)).length = count + (Text.lines middle).length := by
      rw [Text.lines_append hfirst, List.length_append]
    refine ⟨?_, ?_, ?_⟩
    · have hother : other.diagnostics = .ofList (Extraction.listed (first ++ middle ++ second)) :=
        Extraction.diagnostics_ofText _
      rw [hother, hwhole, Extraction.listed_append hjoined hsecond,
        Extraction.listed_append hfirst hmiddle.startsBlock, hmiddle.listed_eq_nil, List.append_nil]
    · have hother := Extraction.skipped_append hjoined hsecond
      rw [Extraction.skipped_append hfirst hmiddle.startsBlock, hmiddle.skipped_eq, hlines] at hother
      simpa [SkippedBlock.shift, Nat.add_comm] using hother
    · rw [hignored]
      exact (Extraction.ignoredLines_append hjoined hsecond).trans
        (Extraction.ignoredLines_append hfirst hmiddle.startsBlock)

/-- A line of no block, a report, and a blank line. -/
def sampleFront : String := "building\r\na:1:1: error: x\r\n\n"

/-- A header without a line number, and context. -/
def sampleMiddle : String := "b:one:1: error: y\n ^\n"

/-- Reports on an old and a new location, the last one without the end of its line. -/
def sampleBack : String := "a:2:2: note: z\n  s\n  ^^\nc:?:1: warning: w\nc:3:1: warning: w"

theorem ofText_append_startsBlock_sample :
    Text.AtLineEnd sampleFront ∧ StartsBlock (Text.lines sampleBack) ∧
      IsMalformedBlock sampleMiddle "b:one:1: error: y" (.notAnInteger .line "one") ∧
      (Extraction.ofText (sampleFront ++ sampleBack)).ignoredLines =
        (Extraction.ofText sampleFront).ignoredLines ∧
      (Extraction.ofText (sampleFront ++ sampleMiddle ++ sampleBack)).diagnostics =
        (Extraction.ofText (sampleFront ++ sampleBack)).diagnostics := by
  have hfront : Text.AtLineEnd sampleFront := .inr (by decide +kernel)
  have hback : StartsBlock (Text.lines sampleBack) := by
    unfold StartsBlock
    decide +kernel
  have hmiddle : IsMalformedBlock sampleMiddle "b:one:1: error: y" (.notAnInteger .line "one") := {
    getLast?_text := by decide +kernel
    lines_text := ⟨[" ^"], by decide +kernel, by decide +kernel⟩
    isBlockStart_header := by decide +kernel
    diagnostic_header := by decide +kernel }
  obtain ⟨-, -, -, hignored, hinsert⟩ := ofText_append_startsBlock hfront hback
  exact ⟨hfront, hback, hmiddle, hignored, (hinsert _ _ _ hmiddle).1⟩

end BuildDiagnostics
