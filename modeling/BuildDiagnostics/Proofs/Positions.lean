import Mathlib.Data.List.Basic
import BuildDiagnostics.Proofs.Segmentation

/-!
# Extraction by line numbers

A second account of the extraction, which knows no open block and no fold. `headerPositions` are the
numbers of the header lines; a block reaches from its header to the line before the next header
(`spans`), and what it gives is read off two lines at fixed distances from its start (`resultAt`).
`ofText_eq_byPosition` says that this is what the one-pass extraction computes.
-/

namespace BuildDiagnostics

variable (lines : List String)

/-- The line with the given number, counted from 1. -/
def lineAt (position : Nat) : String :=
  lines.getD (position - 1) ""

/-- The numbers, counted from 1, of the lines that open a block. -/
def headerPositions : List Nat :=
  lines.findIdxs isBlockStart 1

/-- Where each block starts, and the first line number after it. -/
def spans : List (Nat × Nat) :=
  (headerPositions lines).zip ((headerPositions lines).tail ++ [lines.length + 1])

/-- What a header says, when its annotation is `width` columns wide. -/
def Header.diagnostic (header : String) (width : Nat) : Except BlockError Diagnostic := do
  let header ← Header.ofLine header
  let line ← Block.readPosition .line header.line
  let startCol ← Block.readPosition .column header.column
  return .ofWidth ⟨header.path⟩ (.ofToken header.severity) header.message line startCol width

/-- What the block gives that reaches from line `span.1` to the line before `span.2`. Its width is
read off its third line, if that is still in the block. -/
def resultAt (span : Nat × Nat) : Except BlockError Diagnostic :=
  Header.diagnostic (lineAt lines span.1)
    (if span.1 + 2 < span.2 then Block.annotationWidth (lineAt lines (span.1 + 2)) else 0)

/-- The report on a block that fails. -/
def skippedAt (span : Nat × Nat) : Option SkippedBlock :=
  match resultAt lines span with
  | .ok _ => none
  | .error error => some { lineNumber := span.1, header := lineAt lines span.1, error }

/-- The extraction of lines, by line numbers. -/
def Extraction.byPosition : Extraction where
  diagnostics := .ofList ((spans lines).filterMap fun span => (resultAt lines span).toOption)
  skipped := ((spans lines).filterMap (skippedAt lines)).toArray
  ignoredLines := (headerPositions lines).head?.elim lines.length (· - 1)

/-! ## Looking ahead to the next position -/

section Positions

variable {α : Type} (p : α → Bool)

/-- How many elements come before the first one that satisfies `p`, read off its position. -/
theorem length_takeWhile_not (xs : List α) (start : Nat) :
    (xs.takeWhile fun x => !p x).length =
      (xs.findIdxs p start).head?.getD (start + xs.length) - start := by
  induction xs generalizing start with
  | nil => simp
  | cons x xs ih =>
    rw [List.findIdxs_cons]
    cases h : p x with
    | true => simp [h]
    | false =>
      have hle : start + 1 ≤ (xs.findIdxs p (start + 1)).head?.getD (start + 1 + xs.length) := by
        cases e : (xs.findIdxs p (start + 1)).head? with
        | none => simp
        | some i => exact List.ge_of_mem_findIdxs i (List.mem_of_head? e)
      have hlength : start + (x :: xs).length = start + 1 + xs.length := by
        simp only [List.length_cons]; omega
      rw [List.takeWhile_cons_of_pos (by simp [h]), List.length_cons, ih (start + 1), hlength]
      simp only [Bool.false_eq_true, ↓reduceIte]
      omega

theorem takeWhile_not_eq_take (xs : List α) (start : Nat) :
    (xs.takeWhile fun x => !p x) =
      xs.take ((xs.findIdxs p start).head?.getD (start + xs.length) - start) := by
  rw [← length_takeWhile_not]
  exact (List.prefix_iff_eq_take.1 (List.takeWhile_prefix _))

theorem zip_tail_cons (a b : Nat) (rest : List Nat) :
    (a :: rest).zip (rest ++ [b]) = (a, rest.head?.getD b) :: rest.zip (rest.tail ++ [b]) := by
  cases rest <;> rfl

end Positions

/-! ## Blocks as slices -/

/-- The block that reaches from line `span.1` to the line before `span.2`. -/
def blockAt (span : Nat × Nat) : Block where
  lineNumber := span.1
  header := lineAt lines span.1
  context := ((lines.drop span.1).take (span.2 - (span.1 + 1))).toArray

/-- The blocks of a rest of the lines are slices of all lines. -/
theorem blocksAfter_eq_map_blockAt {seen : Nat} {rest : List String} (h : lines.drop seen = rest) :
    blocksAfter seen rest =
      ((rest.findIdxs isBlockStart (seen + 1)).zip
        ((rest.findIdxs isBlockStart (seen + 1)).tail ++ [seen + rest.length + 1])).map
          (blockAt lines) := by
  -- `h` ties a position in the rest to its number among all lines
  induction rest generalizing seen with
  | nil => rfl
  | cons line rest ih =>
    have hdrop : lines.drop (seen + 1) = rest := by
      rw [← List.drop_drop, h, List.drop_one, List.tail_cons]
    have hend : seen + (line :: rest).length + 1 = seen + 1 + rest.length + 1 := by
      simp only [List.length_cons]; omega
    rw [List.findIdxs_cons, hend]
    cases hline : isBlockStart line with
    | false =>
      rw [blocksAfter_continuation hline, ih hdrop]
      rfl
    | true =>
      have hheader : lineAt lines (seen + 1) = line := by
        have hget : lines[seen]? = some line := by
          rw [← List.head?_drop, h, List.head?_cons]
        rw [lineAt, Nat.add_sub_cancel, List.getD_eq_getElem?_getD, hget, Option.getD_some]
      -- looking ahead for the next header is stopping at its position
      have hcontext := takeWhile_not_eq_take isBlockStart rest (seen + 1 + 1)
      have hlength : seen + 1 + 1 + rest.length = seen + 1 + rest.length + 1 := by omega
      rw [hlength] at hcontext
      rw [blocksAfter_header hline, ih hdrop, if_pos rfl, List.tail_cons, zip_tail_cons,
        List.map_cons]
      congr 1
      rw [blockAt, hheader, hdrop, ← hcontext]
      simp only [Block.addLines, Array.empty_append]
      rfl

theorem blocksAfter_zero : blocksAfter 0 lines = (spans lines).map (blockAt lines) := by
  have h := blocksAfter_eq_map_blockAt lines (rfl : lines.drop 0 = lines)
  rwa [Nat.zero_add, Nat.zero_add] at h

theorem Block.build_eq (block : Block) :
    block.build = Header.diagnostic block.header block.width := rfl

/-- What a slice gives depends on two lines only. -/
theorem build_blockAt (span : Nat × Nat) : (blockAt lines span).build = resultAt lines span := by
  rw [Block.build_eq, resultAt]
  congr 1
  have hthird : (blockAt lines span).annotation? =
      if span.1 + 2 < span.2 then lines[span.1 + 1]? else none := by
    rw [Block.annotation?, blockAt, List.getElem?_toArray, List.getElem?_take, List.getElem?_drop]
    by_cases h : span.1 + 2 < span.2
    · rw [if_pos (by omega), if_pos h]
    · rw [if_neg (by omega), if_neg h]
  rw [Block.width, hthird]
  by_cases h : span.1 + 2 < span.2
  · have hpos : span.1 + 2 - 1 = span.1 + 1 := rfl
    rw [if_pos h, if_pos h, lineAt, List.getD_eq_getElem?_getD, hpos]
    cases lines[span.1 + 1]? with
    | none => rfl
    | some line => rfl
  · rw [if_neg h, if_neg h]
    rfl

/-! ## The whole extraction -/

theorem map_fst_spans : (spans lines).map Prod.fst = headerPositions lines := by
  apply List.map_fst_zip
  rw [List.length_append, List.length_tail, List.length_singleton]
  omega

theorem length_spans : (spans lines).length = (headerPositions lines).length := by
  rw [← map_fst_spans, List.length_map]

theorem diagnostic?_blockAt (span : Nat × Nat) :
    (blockAt lines span).diagnostic? = (resultAt lines span).toOption := by
  rw [Block.diagnostic?, build_blockAt]

theorem skipped?_blockAt (span : Nat × Nat) :
    (blockAt lines span).skipped? = skippedAt lines span := by
  rw [Block.skipped?, build_blockAt]
  rfl

theorem length_takeWhile_isContinuation :
    (lines.takeWhile isContinuation).length =
      (headerPositions lines).head?.elim lines.length (· - 1) := by
  have h : (lines.takeWhile isContinuation).length = _ :=
    length_takeWhile_not isBlockStart lines 1
  rw [h, headerPositions]
  cases (lines.findIdxs isBlockStart 1).head? with
  | none => exact Nat.add_sub_cancel_left ..
  | some i => rfl

theorem ofBlocks_blocksAfter :
    Extraction.ofBlocks (lines.takeWhile isContinuation).length (blocksAfter 0 lines) =
      .byPosition lines := by
  have hdiagnostics : (blocksAfter 0 lines).filterMap Block.diagnostic? =
      (spans lines).filterMap fun span => (resultAt lines span).toOption := by
    rw [blocksAfter_zero, List.filterMap_map]
    exact List.filterMap_congr fun span _ => diagnostic?_blockAt lines span
  have hskipped : (blocksAfter 0 lines).filterMap Block.skipped? =
      (spans lines).filterMap (skippedAt lines) := by
    rw [blocksAfter_zero, List.filterMap_map]
    exact List.filterMap_congr fun span _ => skipped?_blockAt lines span
  rw [Extraction.ofBlocks, hdiagnostics, hskipped, length_takeWhile_isContinuation,
    Extraction.byPosition]

/-- Each span has a diagnostic or a report on its failure, and never both. -/
theorem length_results (places : List (Nat × Nat)) :
    (places.filterMap fun span => (resultAt lines span).toOption).length
      + (places.filterMap (skippedAt lines)).length = places.length := by
  induction places with
  | nil => rfl
  | cons span places ih =>
    cases h : resultAt lines span with
    | ok d =>
      simp only [List.filterMap_cons, skippedAt, h, Except.toOption, List.length_cons] at ih ⊢
      omega
    | error error =>
      simp only [List.filterMap_cons, skippedAt, h, Except.toOption, List.length_cons] at ih ⊢
      omega

theorem totalCount_byPosition :
    (Extraction.byPosition lines).diagnostics.totalCount
      + (Extraction.byPosition lines).skipped.size = (headerPositions lines).length := by
  have hcount : (Extraction.byPosition lines).diagnostics.totalCount =
      ((spans lines).filterMap fun span => (resultAt lines span).toOption).length := by
    rw [DiagnosticsByLocation.totalCount_eq_length, Extraction.byPosition]
    exact (DiagnosticsByLocation.diagnostics_ofList_perm _).length_eq
  have hsize : (Extraction.byPosition lines).skipped.size =
      ((spans lines).filterMap (skippedAt lines)).length := by
    rw [Extraction.byPosition, List.size_toArray]
  rw [hcount, hsize, length_results, length_spans]

theorem map_lineNumber_sublist (places : List (Nat × Nat)) :
    ((places.filterMap (skippedAt lines)).map SkippedBlock.lineNumber).Sublist
      (places.map Prod.fst) := by
  induction places with
  | nil => exact .slnil
  | cons span places ih =>
    cases h : resultAt lines span with
    | ok d =>
      simp only [List.filterMap_cons, skippedAt, h, List.map_cons]
      exact ih.cons _
    | error error =>
      simp only [List.filterMap_cons, skippedAt, h, List.map_cons]
      exact ih.cons_cons _

theorem lineNumber_byPosition_sublist :
    ((Extraction.byPosition lines).skipped.toList.map SkippedBlock.lineNumber).Sublist
      (headerPositions lines) := by
  rw [Extraction.byPosition, ← map_fst_spans]
  exact map_lineNumber_sublist lines (spans lines)

/-- **The extraction is that of the line numbers.** In particular every header is accounted for once,
as a diagnostic or as a skipped block, and the skipped blocks stand in the order of the text. -/
theorem ofText_eq_byPosition (text : String) :
    let lines := Text.lines text
    let extraction := Extraction.ofText text
    extraction = .byPosition lines ∧
      (spans lines).map Prod.fst = headerPositions lines ∧
      extraction.diagnostics.totalCount + extraction.skipped.size =
        (headerPositions lines).length ∧
      (extraction.skipped.toList.map SkippedBlock.lineNumber).Sublist (headerPositions lines) ∧
      (extraction.skipped.toList.map SkippedBlock.lineNumber).Pairwise (· < ·) := by
  have heq : Extraction.ofText text = .byPosition (Text.lines text) := by
    rw [Extraction.ofText_eq_ofBlocks, ofBlocks_blocksAfter]
  dsimp only
  rw [heq]
  have hsublist := lineNumber_byPosition_sublist (Text.lines text)
  exact ⟨rfl, map_fst_spans _, totalCount_byPosition _, hsublist,
    List.pairwise_findIdxs.sublist hsublist⟩

end BuildDiagnostics
