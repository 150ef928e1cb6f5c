import BuildDiagnostics.Extraction
import BuildDiagnostics.Proofs.ByLocation

/-!
# The blocks of a list of lines

`blocksAfter` cuts a list of lines into blocks by looking ahead: a header takes the lines up to the
next one. The segmenter looks back instead, at its open block. `pushAll_blocks` relates the two at
every state of a run: what the run gives back, followed by the block it leaves open, is the block that
was open at its start, with the continuation lines that come first, followed by the blocks of the
lines. `fold_blocks` carries this over to the iterator and `ofText_eq_ofBlocks` to the extraction.
-/

namespace BuildDiagnostics

/-- Whether a line leaves the open block open. -/
def isContinuation (line : String) : Bool :=
  !isBlockStart line

namespace Block

/-- The block with more lines of context. -/
def addLines (block : Block) (lines : List String) : Block :=
  { block with context := block.context ++ lines.toArray }

@[simp] theorem addLines_nil (block : Block) : block.addLines [] = block := by
  simp [addLines]

@[simp] theorem addLines_addLine (block : Block) (line : String) (lines : List String) :
    (block.addLine line).addLines lines = block.addLines (line :: lines) := by
  simp [addLine, addLines]

end Block

/-- The blocks of lines that come after `seen` others. -/
def blocksAfter (seen : Nat) : List String → List Block
  | [] => []
  | line :: rest =>
    if isBlockStart line then
      Block.addLines { lineNumber := seen + 1, header := line } (rest.takeWhile isContinuation)
        :: blocksAfter (seen + 1) rest
    else blocksAfter (seen + 1) rest

theorem blocksAfter_header {line : String} (h : isBlockStart line = true) (seen : Nat)
    (rest : List String) :
    blocksAfter seen (line :: rest) =
      Block.addLines { lineNumber := seen + 1, header := line } (rest.takeWhile isContinuation)
        :: blocksAfter (seen + 1) rest := by
  rw [blocksAfter, if_pos h]

theorem blocksAfter_continuation {line : String} (h : isBlockStart line = false) (seen : Nat)
    (rest : List String) : blocksAfter seen (line :: rest) = blocksAfter (seen + 1) rest := by
  rw [blocksAfter, if_neg (Bool.eq_false_iff.1 h)]

theorem takeWhile_header {line : String} (h : isBlockStart line = true) (rest : List String) :
    (line :: rest).takeWhile isContinuation = [] := by
  simp [isContinuation, h]

theorem takeWhile_continuation {line : String} (h : isBlockStart line = false)
    (rest : List String) :
    (line :: rest).takeWhile isContinuation = line :: rest.takeWhile isContinuation := by
  simp [isContinuation, h]

/-! ## Runs of the segmenter -/

namespace Segmenter

variable (s : Segmenter)

/-- A header seals the open block and opens its own. -/
theorem push_header {line : String} (h : isBlockStart line = true) :
    s.push line =
      (s.current,
       { s with
         current := some { lineNumber := s.linesSeen + 1, header := line }
         linesSeen := s.linesSeen + 1 }) := by
  unfold push LineKind.of
  rw [if_pos h]

/-- Any other line joins the open block, or is ignored. -/
theorem push_continuation {line : String} (h : isBlockStart line = false) :
    s.push line =
      (none,
       { current := s.current.map (·.addLine line)
         linesSeen := s.linesSeen + 1
         ignored := if s.current.isNone then s.ignored + 1 else s.ignored }) := by
  unfold push LineKind.of
  rw [if_neg (by simp [h])]
  cases e : s.current with
  | none => simp
  | some block => simp

theorem foldl_push (blocks : List Block) (lines : List String) :
    lines.foldl (fun (blocks, s) line => (blocks ++ (s.push line).1.toList, (s.push line).2))
        (blocks, s) =
      (blocks ++ (s.pushAll lines).1, (s.pushAll lines).2) := by
  induction lines generalizing blocks s with
  | nil => simp [pushAll]
  | cons line rest ih =>
    have hcons : s.pushAll (line :: rest) = _ := ih (s.push line).2 ([] ++ (s.push line).1.toList)
    rw [List.foldl_cons, ih, hcons]
    simp

@[simp] theorem pushAll_nil : s.pushAll [] = ([], s) := rfl

theorem pushAll_cons (line : String) (rest : List String) :
    s.pushAll (line :: rest) =
      ((s.push line).1.toList ++ ((s.push line).2.pushAll rest).1,
       ((s.push line).2.pushAll rest).2) := by
  rw [pushAll, List.foldl_cons, foldl_push, List.nil_append]

/-- **A run gives back the blocks of its lines**, up to the one that it leaves open. -/
theorem pushAll_blocks (lines : List String) :
    (s.pushAll lines).1 ++ (s.pushAll lines).2.current.toList =
      (s.current.map (·.addLines (lines.takeWhile isContinuation))).toList
        ++ blocksAfter s.linesSeen lines := by
  induction lines generalizing s with
  | nil => cases e : s.current <;> simp [blocksAfter, e]
  | cons line rest ih =>
    rw [pushAll_cons, List.append_assoc, ih]
    cases h : isBlockStart line with
    | true =>
      rw [push_header s h, takeWhile_header h, blocksAfter_header h]
      cases e : s.current <;> simp
    | false =>
      rw [push_continuation s h, takeWhile_continuation h, blocksAfter_continuation h]
      cases e : s.current <;> simp

/-- Only lines that come while no block is open are ignored. -/
theorem ignored_pushAll (lines : List String) :
    (s.pushAll lines).2.ignored =
      s.ignored +
        if s.current.isNone then (lines.takeWhile isContinuation).length else 0 := by
  induction lines generalizing s with
  | nil => simp
  | cons line rest ih =>
    rw [pushAll_cons, ih]
    cases h : isBlockStart line with
    | true => simp [push_header s h, takeWhile_header h]
    | false =>
      rw [push_continuation s h, takeWhile_continuation h]
      cases e : s.current with
      | none => simp only [Option.isNone_none, ↓reduceIte, Option.map_none, List.length_cons]; omega
      | some block => simp

end Segmenter

/-! ## The iterator -/

namespace Segments

theorem fold_next {β : Type} (f : β → Block → β) (init : β) (s : Segments) :
    s.fold f init =
      match s.next with
      | (none, rest) => (init, rest)
      | (some block, rest) => rest.fold f (f init block) := by
  rw [fold]
  split <;> split <;> simp_all

theorem fold_exhausted {β : Type} (f : β → Block → β) (init : β) (s : Segmenter) :
    ({ remaining := [], segmenter := s, exhausted := true } : Segments).fold f init =
      (init, { remaining := [], segmenter := s, exhausted := true }) := by
  rw [fold_next]
  rfl

theorem next_nil (s : Segmenter) :
    ({ remaining := [], segmenter := s } : Segments).next =
      (s.current, { remaining := [], segmenter := s.finish.2, exhausted := true }) := rfl

theorem next_cons_of_none {s s' : Segmenter} {line : String} (h : s.push line = (none, s'))
    (rest : List String) :
    ({ remaining := line :: rest, segmenter := s } : Segments).next =
      ({ remaining := rest, segmenter := s' } : Segments).next := by
  show advance s (line :: rest) = advance s' rest
  rw [advance, h]

theorem next_cons_of_some {s s' : Segmenter} {line : String} {block : Block}
    (h : s.push line = (some block, s')) (rest : List String) :
    ({ remaining := line :: rest, segmenter := s } : Segments).next =
      (some block, { remaining := rest, segmenter := s' }) := by
  show advance s (line :: rest) = _
  rw [advance, h]

/-- Folding over the blocks of the remaining lines folds over what the segmenter gives back for
them, the last block included. -/
theorem fold_blocks {β : Type} (f : β → Block → β) (init : β) (s : Segmenter)
    (lines : List String) :
    ({ remaining := lines, segmenter := s } : Segments).fold f init =
      (((s.pushAll lines).1 ++ (s.pushAll lines).2.current.toList).foldl f init,
       { remaining := [], segmenter := (s.pushAll lines).2.finish.2, exhausted := true }) := by
  induction lines generalizing init s with
  | nil =>
    rw [fold_next, next_nil, Segmenter.pushAll_nil]
    cases s.current with
    | none => rfl
    | some block => exact fold_exhausted f (f init block) s.finish.2
  | cons line rest ih =>
    rw [Segmenter.pushAll_cons]
    cases e : s.push line with
    | mk block? s' =>
      cases block? with
      | none =>
        -- no block is sealed, so the next one is that of the remaining lines
        rw [fold_next, next_cons_of_none e, ← fold_next, ih]
        rfl
      | some block =>
        rw [fold_next, next_cons_of_some e]
        exact ih (f init block) s'

/-- The iterator gives the blocks of the lines. -/
theorem toList_ofText (text : String) :
    (ofText text).toList = blocksAfter 0 (Text.lines text) := by
  have hblocks := Segmenter.pushAll_blocks {} (Text.lines text)
  simp only [Option.map_none, Option.toList_none, List.nil_append] at hblocks
  have hfold := fold_fst (fun blocks block => block :: blocks) [] (ofText text)
  rw [ofText, fold_blocks, hblocks] at hfold
  simp only [List.foldl_flip_cons_eq_append', List.append_nil, List.reverse_inj] at hfold
  exact hfold.symm

end Segments

/-! ## The extraction -/

/-- The diagnostic of a block that has one. -/
def Block.diagnostic? (block : Block) : Option Diagnostic :=
  block.build.toOption

theorem Block.diagnostic?_eq_some_iff {block : Block} {d : Diagnostic} :
    block.diagnostic? = some d ↔ block.build = .ok d := by
  rw [diagnostic?]
  cases block.build with
  | ok d' => simp [Except.toOption]
  | error e => simp [Except.toOption]

/-- What is reported about a block that has no diagnostic. -/
def Block.skipped? (block : Block) : Option SkippedBlock :=
  match block.build with
  | .ok _ => none
  | .error error => some { lineNumber := block.lineNumber, header := block.header, error }

namespace Extraction

/-- What blocks give that come after `ignoredLines` lines of no block. -/
def ofBlocks (ignoredLines : Nat) (blocks : List Block) : Extraction where
  diagnostics := .ofList (blocks.filterMap Block.diagnostic?)
  skipped := (blocks.filterMap Block.skipped?).toArray
  ignoredLines

theorem foldl_addBlock (e : Extraction) (blocks : List Block) :
    blocks.foldl addBlock e =
      { e with
        diagnostics := (blocks.filterMap Block.diagnostic?).foldl .push e.diagnostics
        skipped := e.skipped ++ (blocks.filterMap Block.skipped?).toArray } := by
  induction blocks generalizing e with
  | nil => simp
  | cons block blocks ih =>
    rw [List.foldl_cons, ih]
    cases h : block.build with
    | ok d => simp [addBlock, Block.diagnostic?, Block.skipped?, h, Except.toOption]
    | error error => simp [addBlock, Block.diagnostic?, Block.skipped?, h, Except.toOption]

/-- **The extraction of a text is that of the blocks of its lines.** -/
theorem ofText_eq_ofBlocks (text : String) :
    ofText text =
      .ofBlocks ((Text.lines text).takeWhile isContinuation).length
        (blocksAfter 0 (Text.lines text)) := by
  have hblocks := Segmenter.pushAll_blocks {} (Text.lines text)
  have hignored := Segmenter.ignored_pushAll {} (Text.lines text)
  simp only [Option.map_none, Option.toList_none, List.nil_append] at hblocks
  rw [ofText, Segments.ofText, Segments.fold_blocks, hblocks, foldl_addBlock]
  simp only [ofBlocks, Segments.ignored, Segmenter.finish, hignored, DiagnosticsByLocation.ofList]
  simp

theorem exists_ofList (text : String) : ∃ ds, (ofText text).diagnostics = .ofList ds := by
  rw [ofText_eq_ofBlocks]
  exact ⟨_, rfl⟩

end Extraction

theorem mem_extract {d : Diagnostic} {text : String} :
    d ∈ (extract text).diagnostics ↔
      d ∈ (blocksAfter 0 (Text.lines text)).filterMap Block.diagnostic? := by
  rw [extract, Extraction.ofText_eq_ofBlocks]
  exact DiagnosticsByLocation.mem_diagnostics_ofList

/-- The diagnostics of a text are those of its blocks that have one. -/
theorem mem_extract_iff_exists_block {d : Diagnostic} {text : String} :
    d ∈ (extract text).diagnostics ↔
      ∃ block ∈ (Segments.ofText text).toList, block.build = .ok d := by
  rw [mem_extract, List.mem_filterMap, Segments.toList_ofText]
  simp only [Block.diagnostic?_eq_some_iff]

end BuildDiagnostics
