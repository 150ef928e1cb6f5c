import BuildDiagnostics.Proofs.Growth
import Mathlib.Data.List.Forall2

/-!
# Lines of context that make no difference

What a block gives depends on its header and on its third line. Two blocks that share these two give the
same, up to line numbers (`Block.Reads`), and so do lists of such blocks (`filterMap_diagnostic?_of_reads`,
`filterMap_skipped?_of_reads`). Lines that open no block may come and go inside a block, as long as its
third line stays: the blocks before the place of the edit are not reached, the block around it keeps
header and third line, and the blocks after it are only moved (`forall₂_reads_replace`).
`ofText_edit_context` states the edits of a text: lines put before it, lines put in or taken out after
the third line of a block, another second line.
-/

namespace BuildDiagnostics

/-! ## What is read of a block -/

/-- The block `b` gives what `a` gives, under the line number that `number` makes of that of `a`. -/
structure Block.Reads (number : Nat → Nat) (a b : Block) : Prop where
  lineNumber : b.lineNumber = number a.lineNumber
  header : b.header = a.header
  annotation? : b.annotation? = a.annotation?

/-- The report with another line number. -/
def SkippedBlock.withNumber (number : Nat → Nat) (skipped : SkippedBlock) : SkippedBlock :=
  { skipped with lineNumber := number skipped.lineNumber }

section Reads

variable {number : Nat → Nat} {a b : Block} {as bs : List Block}

theorem Block.Reads.build (h : a.Reads number b) : b.build = a.build := by
  rw [build_eq, build_eq, width, width, h.header, h.annotation?]

theorem Block.Reads.diagnostic? (h : a.Reads number b) : b.diagnostic? = a.diagnostic? := by
  rw [Block.diagnostic?, Block.diagnostic?, h.build]

theorem Block.Reads.skipped? (h : a.Reads number b) :
    b.skipped? = a.skipped?.map (SkippedBlock.withNumber number) := by
  rw [Block.skipped?, Block.skipped?, h.build, h.lineNumber, h.header]
  cases a.build with
  | ok d => rfl
  | error error => rfl

theorem filterMap_diagnostic?_of_reads (h : List.Forall₂ (Block.Reads number) as bs) :
    bs.filterMap Block.diagnostic? = as.filterMap Block.diagnostic? := by
  induction h with
  | nil => rfl
  | cons hab _ ih => rw [List.filterMap_cons, List.filterMap_cons, hab.diagnostic?, ih]

theorem filterMap_skipped?_of_reads (h : List.Forall₂ (Block.Reads number) as bs) :
    bs.filterMap Block.skipped? =
      (as.filterMap Block.skipped?).map (SkippedBlock.withNumber number) := by
  induction h with
  | nil => rfl
  | @cons a b as bs hab _ ih =>
    rw [List.filterMap_cons, List.filterMap_cons, hab.skipped?, ih]
    cases a.skipped? <;> rfl

end Reads

/-! ## Line numbers around an edit -/

/-- The number of a line when, after the line `place`, `removed` lines make way for `added` others. -/
def renumber (place removed added number : Nat) : Nat :=
  if number ≤ place then number else number - removed + added

theorem renumber_of_le {place number : Nat} (h : number ≤ place) (removed added : Nat) :
    renumber place removed added number = number :=
  if_pos h

theorem renumber_add {place number : Nat} (h : place < number) (removed added : Nat) :
    renumber place removed added (number + removed) = number + added := by
  rw [renumber, if_neg (by omega)]
  omega

theorem renumber_one_one (place : Nat) : renumber place 1 1 = id := by
  funext number
  unfold renumber
  split
  · rfl
  · exact Nat.sub_add_cancel (by omega)

theorem lineNumber_of_mem_blocksAfter {block : Block} {seen : Nat} {lines : List String}
    (h : block ∈ blocksAfter seen lines) :
    seen < block.lineNumber ∧ block.lineNumber ≤ seen + lines.length := by
  induction lines generalizing seen with
  | nil => cases h
  | cons line rest ih =>
    rw [List.length_cons]
    cases hline : isBlockStart line with
    | false =>
      rw [blocksAfter_continuation hline] at h
      have := ih h
      omega
    | true =>
      rw [blocksAfter_header hline] at h
      rcases List.mem_cons.1 h with rfl | h
      · show seen < seen + 1 ∧ seen + 1 ≤ _
        omega
      · have := ih h
        omega

/-! ## The place of an edit -/

/-- The lines end inside a block, with the lines `context` after its header so far. -/
def EndsInBlock (lines context : List String) : Prop :=
  ∃ before header, lines = before ++ header :: context ∧ isBlockStart header = true ∧
    ∀ line ∈ context, isBlockStart line = false

/-- Lines of context inside a block reach that block only. -/
theorem EndsInBlock.exists_blocks {front context : List String} (h : EndsInBlock front context) :
    ∃ earlier number header, (∀ block ∈ earlier, block.lineNumber ≤ front.length) ∧
      number ≤ front.length ∧
      ∀ inner back, (∀ line ∈ inner, isBlockStart line = false) →
        blocksAfter 0 (front ++ (inner ++ back)) =
          (earlier ++ [Block.addLines { lineNumber := number, header }
              (context ++ inner ++ back.takeWhile isContinuation)])
            ++ (blocksAfter front.length back).map (Block.shift inner.length) := by
  obtain ⟨before, header, rfl, hheader, hcontext⟩ := h
  refine ⟨blocksAfter 0 before, before.length + 1, header, ?_, ?_, ?_⟩
  · intro block hblock
    have hle := (lineNumber_of_mem_blocksAfter hblock).2
    rw [List.length_append]
    omega
  · rw [List.length_append, List.length_cons]
    omega
  · intro inner back hinner
    have hstarts : StartsBlock (header :: (context ++ (inner ++ back))) := by
      rintro _ ⟨⟩
      exact hheader
    have hseen : 0 + before.length + 1 + context.length + inner.length =
        (before ++ header :: context).length + inner.length := by
      rw [List.length_append, List.length_cons]
      omega
    rw [List.append_assoc, List.cons_append, blocksAfter_append_header 0 before hstarts,
      ← blocksAfter_add, blocksAfter_header hheader, takeWhile_append_of_continuation hcontext,
      takeWhile_append_of_continuation hinner, blocksAfter_append_of_continuation hcontext,
      blocksAfter_append_of_continuation hinner, hseen, blocksAfter_add, Nat.zero_add]
    simp

section Replace

variable {front context old new : List String} (hfront : EndsInBlock front context)
  (hold : ∀ line ∈ old, isBlockStart line = false) (hnew : ∀ line ∈ new, isBlockStart line = false)
  (hthird : ∀ rest, (context ++ new ++ rest)[1]? = (context ++ old ++ rest)[1]?)
  (back : List String)
include hfront hold hnew hthird

theorem forall₂_reads_replace :
    List.Forall₂ (Block.Reads (renumber front.length old.length new.length))
      (blocksAfter 0 (front ++ (old ++ back))) (blocksAfter 0 (front ++ (new ++ back))) := by
  obtain ⟨earlier, number, header, hearlier, hnumber, hblocks⟩ := hfront.exists_blocks
  rw [hblocks old back hold, hblocks new back hnew]
  refine List.rel_append (List.rel_append ?_ (.cons ?_ .nil)) ?_
  · refine List.forall₂_same.2 fun block hblock => ⟨?_, rfl, rfl⟩
    exact (renumber_of_le (hearlier block hblock) ..).symm
  · refine ⟨(renumber_of_le hnumber ..).symm, rfl, ?_⟩
    simpa [Block.annotation?, Block.addLines] using hthird (back.takeWhile isContinuation)
  · rw [List.forall₂_map_left_iff, List.forall₂_map_right_iff]
    refine List.forall₂_same.2 fun block hblock => ⟨?_, rfl, rfl⟩
    exact (renumber_add (lineNumber_of_mem_blocksAfter hblock).1 ..).symm

end Replace

/-! ## Edits of a text -/

/-- Whole lines, none of which opens a block. -/
structure IsContext (text : String) : Prop where
  atLineEnd : Text.AtLineEnd text
  continuation : ∀ line ∈ Text.lines text, isBlockStart line = false

instance (text : String) : Decidable (IsContext text) :=
  decidable_of_iff (Text.AtLineEnd text ∧ ∀ line ∈ Text.lines text, isBlockStart line = false)
    ⟨fun h => ⟨h.1, h.2⟩, fun h => ⟨h.1, h.2⟩⟩

theorem lines_inside {front inner : String} (hfront : Text.AtLineEnd front) (hinner : IsContext inner)
    (back : String) :
    Text.lines (front ++ inner ++ back) =
      Text.lines front ++ (Text.lines inner ++ Text.lines back) := by
  rw [String.append_assoc, Text.lines_append hfront, Text.lines_append hinner.atLineEnd]

namespace Extraction

section Lead

variable {lead : String} (hlead : IsContext lead) (text : String)
include hlead

theorem listed_lead : listed (lead ++ text) = listed text := by
  rw [listed, Text.lines_append hlead.atLineEnd,
    blocksAfter_append_of_continuation hlead.continuation, blocksAfter_add,
    filterMap_diagnostic?_shift]
  rfl

theorem skipped_lead :
    (ofText (lead ++ text)).skipped =
      (ofText text).skipped.map (SkippedBlock.shift (Text.lines lead).length) := by
  rw [skipped_ofText, Text.lines_append hlead.atLineEnd,
    blocksAfter_append_of_continuation hlead.continuation, blocksAfter_add,
    filterMap_skipped?_shift, skipped_ofText]
  simp

theorem ignoredLines_lead :
    (ofText (lead ++ text)).ignoredLines =
      (ofText text).ignoredLines + (Text.lines lead).length := by
  rw [ignoredLines_ofText, Text.lines_append hlead.atLineEnd,
    takeWhile_append_of_continuation hlead.continuation, List.length_append, ignoredLines_ofText,
    Nat.add_comm]

end Lead

section Replace

variable {front old new : String} {context : List String} (hend : Text.AtLineEnd front)
  (hfront : EndsInBlock (Text.lines front) context) (hold : IsContext old) (hnew : IsContext new)
  (hthird : ∀ rest, (context ++ Text.lines new ++ rest)[1]? = (context ++ Text.lines old ++ rest)[1]?)
  (back : String)
include hend hfront

theorem ignoredLines_replace :
    (ofText (front ++ new ++ back)).ignoredLines = (ofText (front ++ old ++ back)).ignoredLines := by
  have hheader : ∃ line ∈ Text.lines front, isBlockStart line = true := by
    obtain ⟨before, header, hlines, hstart, -⟩ := hfront
    exact ⟨header, by simp [hlines], hstart⟩
  rw [String.append_assoc, String.append_assoc, ignoredLines_append_growing hend _ hheader,
    ignoredLines_append_growing hend _ hheader]

include hold hnew hthird

theorem diagnostics_replace :
    (ofText (front ++ new ++ back)).diagnostics = (ofText (front ++ old ++ back)).diagnostics := by
  have hreads := forall₂_reads_replace hfront hold.continuation hnew.continuation hthird
    (Text.lines back)
  rw [diagnostics_ofText, diagnostics_ofText, listed, listed, lines_inside hend hnew,
    lines_inside hend hold, filterMap_diagnostic?_of_reads hreads]

theorem skipped_replace :
    (ofText (front ++ new ++ back)).skipped =
      (ofText (front ++ old ++ back)).skipped.map
        (SkippedBlock.withNumber (renumber (Text.lines front).length (Text.lines old).length
          (Text.lines new).length)) := by
  have hreads := forall₂_reads_replace hfront hold.continuation hnew.continuation hthird
    (Text.lines back)
  rw [skipped_ofText, skipped_ofText, lines_inside hend hnew, lines_inside hend hold,
    filterMap_skipped?_of_reads hreads]
  simp

end Replace

end Extraction

/-- **Only headers and third lines matter.** Lines of context may be put before a text; inside a block
that has three lines already any of them may be taken out or put in; and a block's second line may be
any other. The diagnostics stay, and so do the skipped blocks but for the numbers of the lines after
the edit. -/
theorem ofText_edit_context :
    (∀ lead text, IsContext lead →
      let before := Extraction.ofText text
      let after := Extraction.ofText (lead ++ text)
      after.diagnostics = before.diagnostics ∧
        after.skipped = before.skipped.map (SkippedBlock.shift (Text.lines lead).length) ∧
        after.ignoredLines = before.ignoredLines + (Text.lines lead).length) ∧
    (∀ front old new back context, Text.AtLineEnd front →
      EndsInBlock (Text.lines front) context → 2 ≤ context.length →
      IsContext old → IsContext new →
      let before := Extraction.ofText (front ++ old ++ back)
      let after := Extraction.ofText (front ++ new ++ back)
      after.diagnostics = before.diagnostics ∧
        after.skipped = before.skipped.map
          (SkippedBlock.withNumber (renumber (Text.lines front).length (Text.lines old).length
            (Text.lines new).length)) ∧
        after.ignoredLines = before.ignoredLines) ∧
    ∀ front old new back, Text.AtLineEnd front → EndsInBlock (Text.lines front) [] →
      IsContext old → IsContext new → (Text.lines old).length = 1 → (Text.lines new).length = 1 →
      let before := Extraction.ofText (front ++ old ++ back)
      let after := Extraction.ofText (front ++ new ++ back)
      after.diagnostics = before.diagnostics ∧ after.skipped = before.skipped ∧
        after.ignoredLines = before.ignoredLines := by
  refine ⟨?_, ?_, ?_⟩
  · intro lead text hlead before after
    refine ⟨?_, Extraction.skipped_lead hlead text, Extraction.ignoredLines_lead hlead text⟩
    exact (Extraction.diagnostics_ofText _).trans
      ((congrArg _ (Extraction.listed_lead hlead text)).trans
        (Extraction.diagnostics_ofText text).symm)
  · intro front old new back context hend hfront hcontext hold hnew before after
    -- the third line is one of `context`
    have hthird (rest : List String) :
        (context ++ Text.lines new ++ rest)[1]? = (context ++ Text.lines old ++ rest)[1]? := by
      rw [List.append_assoc, List.append_assoc, List.getElem?_append_left hcontext,
        List.getElem?_append_left hcontext]
    exact ⟨Extraction.diagnostics_replace hend hfront hold hnew hthird back,
      Extraction.skipped_replace hend hfront hold hnew hthird back,
      Extraction.ignoredLines_replace hend hfront back⟩
  · intro front old new back hend hfront hold hnew hone hone' before after
    -- the third line is the first one of what follows
    have hthird (rest : List String) :
        ([] ++ Text.lines new ++ rest)[1]? = ([] ++ Text.lines old ++ rest)[1]? := by
      rw [List.nil_append, List.nil_append, List.getElem?_append_right (Nat.le_of_eq hone'),
        List.getElem?_append_right (Nat.le_of_eq hone), hone, hone']
    have hskipped := Extraction.skipped_replace hend hfront hold hnew hthird back
    have hsame : SkippedBlock.withNumber id = id := rfl
    rw [hone, hone', renumber_one_one, hsame, Array.map_id] at hskipped
    exact ⟨Extraction.diagnostics_replace hend hfront hold hnew hthird back, hskipped,
      Extraction.ignoredLines_replace hend hfront back⟩

/-- A block of three lines. -/
def sampleBlock : String := "a:1:1: error: x\n  let\n  ^^\n"

theorem ofText_edit_context_sampleBlock :
    IsContext "" ∧ IsContext "ld: 1 warning\n\n" ∧ Text.AtLineEnd sampleBlock ∧
      EndsInBlock (Text.lines sampleBlock) ["  let", "  ^^"] ∧
      (Extraction.ofText ("ld: 1 warning\n\n" ++ sampleBlock)).ignoredLines =
        (Extraction.ofText sampleBlock).ignoredLines + 2 ∧
      (Extraction.ofText (sampleBlock ++ "ld: 1 warning\n\n" ++ "b:y:1: note: z")).skipped =
        (Extraction.ofText (sampleBlock ++ "" ++ "b:y:1: note: z")).skipped.map
          (SkippedBlock.withNumber (renumber 3 0 2)) ∧
      (Extraction.ofText ("b:2:5: note: z\n" ++ "\r\n" ++ "    ^")).diagnostics =
        (Extraction.ofText ("b:2:5: note: z\n" ++ "  f()\n" ++ "    ^")).diagnostics := by
  have hempty : IsContext "" := by decide +kernel
  have hwarning : IsContext "ld: 1 warning\n\n" := by decide +kernel
  have hend : Text.AtLineEnd sampleBlock := by decide +kernel
  have hfront : EndsInBlock (Text.lines sampleBlock) ["  let", "  ^^"] :=
    ⟨[], "a:1:1: error: x", by decide +kernel, by decide +kernel, by decide +kernel⟩
  have hheader : EndsInBlock (Text.lines "b:2:5: note: z\n") [] :=
    ⟨[], "b:2:5: note: z", by decide +kernel, by decide +kernel, by decide +kernel⟩
  obtain ⟨hlead, hlater, hsecond⟩ := ofText_edit_context
  obtain ⟨-, -, hignored⟩ := hlead _ sampleBlock hwarning
  obtain ⟨-, hskipped, -⟩ := hlater _ _ _ "b:y:1: note: z" _ hend hfront (Nat.le_refl 2) hempty hwarning
  obtain ⟨hdiagnostics, -, -⟩ := hsecond "b:2:5: note: z\n" "  f()\n" "\r\n" "    ^"
    (by decide +kernel) hheader (by decide +kernel) (by decide +kernel) (by decide +kernel)
    (by decide +kernel)
  have hlead : (Text.lines "ld: 1 warning\n\n").length = 2 := by decide +kernel
  have hblock : (Text.lines sampleBlock).length = 3 := by decide +kernel
  have hnone : (Text.lines "").length = 0 := rfl
  rw [hlead] at hignored
  rw [hlead, hblock, hnone] at hskipped
  exact ⟨hempty, hwarning, hend, hfront, hignored, hskipped, hdiagnostics⟩

end BuildDiagnostics
