import BuildDiagnostics.Proofs.Concatenation
import BuildDiagnostics.Proofs.DisplayLine

/-!
# Output that goes on

A text of whole lines may be followed by anything, also by lines that belong to its last block. What
was extracted from it stays: the locations, the reports on skipped blocks and the diagnostics of every
location are prefixes of those of the longer text. The one exception is the diagnostic of the last
block. As long as that block has fewer than three lines its range is empty, and a third line can give
it one (`Block.build_addLines`, `ofText_append_growing`).
-/

namespace BuildDiagnostics

/-- The second diagnostic is the first one with a range where that has none. -/
structure Diagnostic.Widens (d d' : Diagnostic) : Prop where
  empty : d.endCol = d.startCol
  endCol_lt : d.endCol < d'.endCol
  location : d'.location = d.location
  severity : d'.severity = d.severity
  message : d'.message = d.message
  line : d'.line = d.line
  startCol : d'.startCol = d.startCol

/-! ## One block -/

theorem lt_columnAfter {start : UInt32} {width : Nat} (hstart : start < maxPosition)
    (hwidth : width ≠ 0) : start < columnAfter start width := by
  have hlt := UInt32.lt_iff_toNat_lt.1 hstart
  rw [UInt32.lt_iff_toNat_lt, toNat_columnAfter]
  omega

/-- Below the last column a width makes a range. -/
theorem Diagnostic.widens_resize {d : Diagnostic} {width : Nat} (hstart : d.startCol < maxPosition)
    (hwidth : width ≠ 0) : (d.resize 0).Widens (d.resize width) where
  empty := columnAfter_zero d.startCol
  endCol_lt := by
    show columnAfter d.startCol 0 < columnAfter d.startCol width
    rw [columnAfter_zero]
    exact lt_columnAfter hstart hwidth
  location := rfl
  severity := rfl
  message := rfl
  line := rfl
  startCol := rfl

namespace Block

theorem startCol_lt_of_build {block : Block} {d : Diagnostic} (h : block.build = .ok d) :
    d.startCol < maxPosition := by
  obtain ⟨header, line, startCol, -, -, hcolumn, rfl⟩ := build_eq_ok_iff.1 h
  exact readPosition_lt hcolumn

theorem build_eq_map (block : Block) :
    block.build = (Header.diagnostic block.header 0).map (·.resize block.width) :=
  Header.diagnostic_eq_map block.header block.width

/-- A third line stays the third line. -/
theorem width_addLines {block : Block} (h : 3 ≤ block.lines.length) (lines : List String) :
    (block.addLines lines).width = block.width := by
  have hsize : 1 < block.context.size := by
    rw [Block.lines, List.length_cons, Array.length_toList] at h
    omega
  rw [width, width, annotation?, annotation?, addLines, Array.getElem?_append_left hsize]

theorem width_eq_zero {block : Block} (h : block.lines.length < 3) : block.width = 0 := by
  have hsize : block.context.size ≤ 1 := by
    rw [Block.lines, List.length_cons, Array.length_toList] at h
    omega
  rw [width, annotation?, Array.getElem?_eq_none hsize]
  rfl

/-- **More lines of context change a diagnostic at most by giving it a range.** -/
theorem build_addLines {block : Block} {d : Diagnostic} (h : block.build = .ok d)
    (lines : List String) :
    (block.addLines lines).build = .ok d ∨
      ∃ d', (block.addLines lines).build = .ok d' ∧ block.lines.length < 3 ∧ d.Widens d' := by
  have hlonger := build_eq_map (block.addLines lines)
  rw [build_eq_map] at h
  cases hheader : Header.diagnostic block.header 0 with
  | error error =>
    rw [hheader] at h
    cases h
  | ok d₀ =>
    have hd : d₀.resize block.width = d := by
      rw [hheader] at h
      exact Except.ok.inj h
    have hd' : (block.addLines lines).build = .ok (d₀.resize (block.addLines lines).width) := by
      rw [hlonger]
      show (Header.diagnostic block.header 0).map _ = _
      rw [hheader]
      rfl
    rcases Nat.lt_or_ge block.lines.length 3 with hfew | hmany
    · rw [width_eq_zero hfew] at hd
      by_cases hwidth : (block.addLines lines).width = 0
      · left
        rw [hd', hwidth, hd]
      · right
        have hstart : (d₀.resize (block.addLines lines).width).startCol < maxPosition :=
          startCol_lt_of_build hd'
        refine ⟨_, hd', hfew, ?_⟩
        rw [← hd]
        exact Diagnostic.widens_resize hstart hwidth
    · left
      rw [hd', width_addLines hmany, hd]

theorem build_addLines_error {block : Block} {error : BlockError} (h : block.build = .error error)
    (lines : List String) : (block.addLines lines).build = .error error := by
  rw [build_eq_map] at h ⊢
  show (Header.diagnostic block.header 0).map _ = _
  cases hheader : Header.diagnostic block.header 0 with
  | error error =>
    rw [hheader] at h
    exact h
  | ok d =>
    rw [hheader] at h
    cases h

theorem skipped?_addLines (block : Block) (lines : List String) :
    (block.addLines lines).skipped? = block.skipped? := by
  cases h : block.build with
  | error error =>
    rw [skipped?, skipped?, h, build_addLines_error h]
    rfl
  | ok d =>
    rw [skipped?, skipped?, h]
    rcases build_addLines h lines with hsame | ⟨d', hd', -, -⟩
    · rw [hsame]
    · rw [hd']

end Block

/-! ## Lists that go on -/

namespace DiagnosticsByLocation

theorem locations_ofList_prefix {xs ys : List Diagnostic}
    (h : xs.map Diagnostic.location <+: ys.map Diagnostic.location) :
    (ofList xs).locations <+: (ofList ys).locations := by
  obtain ⟨later, hlater⟩ := h
  rw [locations_ofList, locations_ofList, Grouping.keys, Grouping.keys, ← hlater,
    List.eraseDups_append]
  exact List.prefix_append _ _

theorem itemsAt_ofList_prefix {xs ys : List Diagnostic} (h : xs <+: ys) (raw : String) :
    (ofList xs).itemsAt raw <+: (ofList ys).itemsAt raw := by
  rw [itemsAt_ofList, itemsAt_ofList]
  exact h.filter _

end DiagnosticsByLocation

theorem filterMap_toList {α β : Type} (f : α → Option β) (a? : Option α) :
    a?.toList.filterMap f = (a?.bind f).toList := by
  rw [Option.toList_bind, List.filterMap_eq_flatMap_toList]
  rfl

namespace Extraction

variable {first : String} (hfirst : Text.AtLineEnd first) (second : String)
include hfirst

/-- The diagnostics of a text are the first ones of any longer text, but for the last of them. -/
theorem listed_append_growing :
    listed first <+: listed (first ++ second) ∨
      ∃ block d d' earlier, (blocksAfter 0 (Text.lines first)).getLast? = some block ∧
        block.lines.length < 3 ∧ block.build = .ok d ∧ d.Widens d' ∧
        listed first = earlier ++ [d] ∧ earlier ++ [d'] <+: listed (first ++ second) := by
  obtain ⟨sealedBlocks, openBlock, hblocks, happend⟩ :=
    exists_blocksAfter_append 0 (Text.lines first)
  have hlisted : listed first =
      sealedBlocks.filterMap Block.diagnostic? ++ (openBlock.bind Block.diagnostic?).toList := by
    rw [listed, hblocks, List.filterMap_append, filterMap_toList]
  have hlonger : sealedBlocks.filterMap Block.diagnostic?
        ++ ((openBlock.map (·.addLines ((Text.lines second).takeWhile isContinuation))).bind
          Block.diagnostic?).toList <+: listed (first ++ second) := by
    rw [listed, Text.lines_append hfirst, happend, List.filterMap_append, List.filterMap_append,
      filterMap_toList]
    exact List.prefix_append _ _
  -- what follows reaches the open block only, and its header alone decides whether it is skipped
  cases openBlock with
  | none =>
    left
    rw [hlisted]
    exact hlonger
  | some block =>
    cases hbuild : block.build with
    | error error =>
      left
      rw [hlisted]
      simpa [Block.diagnostic?, hbuild, Block.build_addLines_error hbuild, Except.toOption]
        using hlonger
    | ok d =>
      rcases Block.build_addLines hbuild ((Text.lines second).takeWhile isContinuation) with
        hsame | ⟨d', hd', hfew, hwidens⟩
      · left
        rw [hlisted]
        simpa [Block.diagnostic?, hbuild, hsame, Except.toOption] using hlonger
      · right
        refine ⟨block, d, d', sealedBlocks.filterMap Block.diagnostic?, ?_, hfew, hbuild, hwidens,
          ?_, ?_⟩
        · rw [hblocks, Option.toList_some, List.getLast?_concat]
        · simpa [Block.diagnostic?, hbuild, Except.toOption] using hlisted
        · simpa [Block.diagnostic?, hd', Except.toOption] using hlonger

theorem skipped_append_growing :
    (ofText first).skipped.toList <+: (ofText (first ++ second)).skipped.toList := by
  obtain ⟨sealedBlocks, openBlock, hblocks, happend⟩ :=
    exists_blocksAfter_append 0 (Text.lines first)
  have hopen (lines : List String) :
      (openBlock.map (·.addLines lines)).bind Block.skipped? = openBlock.bind Block.skipped? := by
    cases openBlock with
    | none => rfl
    | some block => exact Block.skipped?_addLines block lines
  rw [skipped_ofText, skipped_ofText, Text.lines_append hfirst, happend, hblocks]
  simp only [List.filterMap_append, filterMap_toList, hopen]
  exact List.prefix_append _ _

/-- Nothing is ignored after the first header. -/
theorem ignoredLines_append_growing
    (hheader : ∃ line ∈ Text.lines first, isBlockStart line = true) :
    (ofText (first ++ second)).ignoredLines = (ofText first).ignoredLines := by
  obtain ⟨line, hline, hstart⟩ := hheader
  have hne : ((Text.lines first).takeWhile isContinuation).length ≠ (Text.lines first).length := by
    intro h
    have hall := List.takeWhile_eq_self_iff.1
      ((List.takeWhile_prefix isContinuation).eq_of_length h) line hline
    rw [isContinuation, hstart] at hall
    cases hall
  rw [ignoredLines_ofText, ignoredLines_ofText, Text.lines_append hfirst, List.takeWhile_append,
    if_neg hne]

end Extraction

/-! ## Everything extracted so far -/

/-- **What was extracted stays when output goes on.** At most one diagnostic changes, that of the last
block, and only in that it gets a range when a third line arrives. -/
theorem ofText_append_growing {first : String} (hfirst : Text.AtLineEnd first) (second : String) :
    let before := Extraction.ofText first
    let after := Extraction.ofText (first ++ second)
    before.diagnostics.locations <+: after.diagnostics.locations ∧
      before.skipped.toList <+: after.skipped.toList ∧
      ((∃ line ∈ Text.lines first, isBlockStart line = true) →
        after.ignoredLines = before.ignoredLines) ∧
      ((∀ raw, before.diagnostics.itemsAt raw <+: after.diagnostics.itemsAt raw) ∨
        ∃ block d d', (Segments.ofText first).toList.getLast? = some block ∧
          block.lines.length < 3 ∧ block.build = .ok d ∧ d.Widens d' ∧
          (∀ raw, raw ≠ d.location.raw →
            before.diagnostics.itemsAt raw <+: after.diagnostics.itemsAt raw) ∧
          ∃ earlier, before.diagnostics.itemsAt d.location.raw = earlier ++ [d] ∧
            earlier ++ [d'] <+: after.diagnostics.itemsAt d.location.raw) := by
  intro before after
  have hbefore : before.diagnostics = .ofList (Extraction.listed first) :=
    Extraction.diagnostics_ofText first
  have hafter : after.diagnostics = .ofList (Extraction.listed (first ++ second)) :=
    Extraction.diagnostics_ofText _
  have hskipped := Extraction.skipped_append_growing hfirst second
  have hignored := Extraction.ignoredLines_append_growing hfirst second
  rw [hbefore, hafter]
  rcases Extraction.listed_append_growing hfirst second with
    hlisted | ⟨block, d, d', earlier, hblock, hfew, hbuild, hwidens, hlisted, hlonger⟩
  · exact ⟨DiagnosticsByLocation.locations_ofList_prefix (hlisted.map _), hskipped, hignored,
      .inl fun raw => DiagnosticsByLocation.itemsAt_ofList_prefix hlisted raw⟩
  · have hlocations : (earlier ++ [d]).map Diagnostic.location =
        (earlier ++ [d']).map Diagnostic.location := by
      simp [hwidens.location]
    rw [hlisted]
    refine ⟨?_, hskipped, hignored, .inr ⟨block, d, d', ?_, hfew, hbuild, hwidens, ?_, ?_⟩⟩
    · apply DiagnosticsByLocation.locations_ofList_prefix
      rw [hlocations]
      exact hlonger.map _
    · rw [Segments.toList_ofText, hblock]
    · -- the diagnostic that changes is in no other location's list
      intro raw hraw
      have hne : d.location ≠ ⟨raw⟩ := fun e => hraw (by rw [e])
      have hsame : (DiagnosticsByLocation.ofList (earlier ++ [d])).itemsAt raw =
          (DiagnosticsByLocation.ofList earlier).itemsAt raw := by
        simp only [DiagnosticsByLocation.itemsAt_ofList, Grouping.withKey_append]
        simp [Grouping.withKey, hne]
      rw [hsame]
      exact DiagnosticsByLocation.itemsAt_ofList_prefix ((List.prefix_append _ _).trans hlonger) raw
    · refine ⟨(DiagnosticsByLocation.ofList earlier).itemsAt d.location.raw, ?_, ?_⟩
      · simp only [DiagnosticsByLocation.itemsAt_ofList, Grouping.withKey_append]
        simp [Grouping.withKey]
      · have hprefix := DiagnosticsByLocation.itemsAt_ofList_prefix hlonger d.location.raw
        simp only [DiagnosticsByLocation.itemsAt_ofList, Grouping.withKey_append] at hprefix ⊢
        simpa [Grouping.withKey, hwidens.location] using hprefix

/-- Output that breaks off before the third line of its last block. -/
def sampleStart : String := "building\na:1:1: error: x\nb:2:5: note: y\r\n  src\r\n"

/-- How it goes on: with that line, and with a block of its own. -/
def sampleRest : String := "  ^^\r\nc:3:1: error: z"

theorem ofText_append_growing_sampleStart :
    let before := Extraction.ofText sampleStart
    let after := Extraction.ofText (sampleStart ++ sampleRest)
    Text.AtLineEnd sampleStart ∧ (∃ line ∈ Text.lines sampleStart, isBlockStart line = true) ∧
      before.diagnostics.locations <+: after.diagnostics.locations ∧
      after.ignoredLines = before.ignoredLines ∧
      ∃ block d d', (Segments.ofText sampleStart).toList.getLast? = some block ∧
        block.lines.length < 3 ∧ block.build = .ok d ∧ d.Widens d' ∧
        ∃ earlier, before.diagnostics.itemsAt d.location.raw = earlier ++ [d] ∧
          earlier ++ [d'] <+: after.diagnostics.itemsAt d.location.raw := by
  intro before after
  have hend : Text.AtLineEnd sampleStart := .inr (by decide +kernel)
  have hheader : ∃ line ∈ Text.lines sampleStart, isBlockStart line = true :=
    ⟨"a:1:1: error: x", by decide +kernel, by decide +kernel⟩
  obtain ⟨hlocations, -, hignored, hitems⟩ := ofText_append_growing hend sampleRest
  have hchanged : ¬ before.diagnostics.itemsAt "b" <+: after.diagnostics.itemsAt "b" := by
    rw [Extraction.diagnostics_ofText, Extraction.diagnostics_ofText,
      DiagnosticsByLocation.itemsAt_ofList, DiagnosticsByLocation.itemsAt_ofList]
    decide +kernel
  rcases hitems with hsame | ⟨block, d, d', hblock, hfew, hbuild, hwidens, -, hlast⟩
  · exact absurd (hsame "b") hchanged
  · exact ⟨hend, hheader, hlocations, hignored hheader, block, d, d', hblock, hfew, hbuild, hwidens,
      hlast⟩

end BuildDiagnostics
