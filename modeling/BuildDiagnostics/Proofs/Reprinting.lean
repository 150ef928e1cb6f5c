import Mathlib.Data.List.Forall2
import BuildDiagnostics.Output
import BuildDiagnostics.Proofs.DisplayLine
import BuildDiagnostics.Proofs.Lines
import BuildDiagnostics.Proofs.Segmentation

/-!
# Printed diagnostics as compiler output

Diagnostics that are printed as text are lines of compiler output once more. Every line opens a block
of its own (`map_build_blocksAfter`), so the extraction of the text finds each diagnostic again, in
the order in which they were printed (`ofText_join_displayLine`). That order is by location, and
grouping it once more changes nothing: printing is a fixed point (`render_extract_render`).
-/

namespace BuildDiagnostics

/-! ## What holds of extracted diagnostics -/

theorem header_mem_of_mem_blocksAfter {block : Block} {seen : Nat} {lines : List String}
    (h : block ∈ blocksAfter seen lines) : block.header ∈ lines := by
  induction lines generalizing seen with
  | nil => cases h
  | cons line rest ih =>
    cases hline : isBlockStart line with
    | true =>
      rw [blocksAfter_header hline] at h
      rcases List.mem_cons.1 h with rfl | h
      · exact List.mem_cons_self ..
      · exact List.mem_cons_of_mem _ (ih h)
    | false =>
      rw [blocksAfter_continuation hline] at h
      exact List.mem_cons_of_mem _ (ih h)

theorem legible_of_mem_extract {d : Diagnostic} {text : String}
    (h : d ∈ (extract text).diagnostics) : d.Legible := by
  obtain ⟨block, hblock, hbuild⟩ := mem_extract_iff_exists_block.1 h
  rw [Segments.toList_ofText] at hblock
  have hfeed := Text.feed_not_mem_of_mem_lines (header_mem_of_mem_blocksAfter hblock)
  exact Block.legible_of_build hfeed hbuild

/-! ## Blocks of one line -/

namespace Diagnostic

/-- What a diagnostic keeps when it is printed and read again: everything but its range, which is
the end of the message now. -/
structure KeptIn (d again : Diagnostic) : Prop where
  location : again.location = d.location
  severity : again.severity = d.severity
  line : again.line = d.line
  startCol : again.startCol = d.startCol
  width : again.width = 0
  message : again.message = d.message ++ d.rangeSuffix

theorem endCol_reread (d : Diagnostic) : d.reread.endCol = d.startCol :=
  columnAfter_zero d.startCol

theorem keptIn_reread (d : Diagnostic) : d.KeptIn d.reread where
  location := rfl
  severity := rfl
  line := rfl
  startCol := rfl
  width := by
    rw [width, endCol_reread]
    exact UInt32.sub_self _
  message := rfl

theorem displayLine_reread (d : Diagnostic) : d.reread.displayLine = d.displayLine := by
  have hsuffix : d.reread.rangeSuffix = "" := rangeSuffix_of_endCol_eq d.endCol_reread
  rw [displayLine_eq_text, displayLine_eq_text, header, hsuffix, String.append_empty]
  rfl

end Diagnostic

section Printed

variable {ds : List Diagnostic} (hlegible : ∀ d ∈ ds, d.Legible)
  (hseverity : ∀ d ∈ ds, d.severity ≠ .info)

include hlegible hseverity

/-- Printed lines are blocks, each of which is one line long. -/
theorem map_build_blocksAfter (seen : Nat) :
    (blocksAfter seen (ds.map Diagnostic.displayLine)).map Block.build =
      ds.map fun d => .ok d.reread := by
  induction ds generalizing seen with
  | nil => rfl
  | cons d ds ih =>
    have hd := hlegible d (List.mem_cons_self ..)
    have hds := fun d' hd' => hlegible d' (List.mem_cons_of_mem d hd')
    have hsd := hseverity d (List.mem_cons_self ..)
    have hsds := fun d' hd' => hseverity d' (List.mem_cons_of_mem d hd')
    -- the next printed line is a header again, so this block has no third line and no width
    have hcontext : (ds.map Diagnostic.displayLine).takeWhile isContinuation = [] := by
      cases ds with
      | nil => rfl
      | cons d' ds =>
        have hd' := List.mem_cons_self (a := d') (l := ds)
        exact takeWhile_header (Diagnostic.isBlockStart_displayLine (hds d' hd') (hsds d' hd')) _
    rw [List.map_cons, blocksAfter_header (Diagnostic.isBlockStart_displayLine hd hsd), hcontext,
      Block.addLines_nil, List.map_cons, Block.build_displayLine hd hsd, ih hds hsds, List.map_cons]

theorem diagnostics_blocksAfter :
    (blocksAfter 0 (ds.map Diagnostic.displayLine)).filterMap Block.diagnostic? =
      ds.map Diagnostic.reread := by
  have hbuild := map_build_blocksAfter hlegible hseverity 0
  have hfilter := congrArg (List.filterMap Except.toOption) hbuild
  rw [List.filterMap_map, List.filterMap_map] at hfilter
  exact hfilter.trans (congrFun List.filterMap_eq_map ds)

theorem skipped_blocksAfter :
    (blocksAfter 0 (ds.map Diagnostic.displayLine)).filterMap Block.skipped? = [] := by
  rw [List.filterMap_eq_nil_iff]
  intro block hblock
  have hmem := List.mem_map_of_mem (f := Block.build) hblock
  rw [map_build_blocksAfter hlegible hseverity 0] at hmem
  obtain ⟨d, -, hbuild⟩ := List.mem_map.1 hmem
  rw [Block.skipped?, ← hbuild]

theorem ignored_displayLine :
    ((ds.map Diagnostic.displayLine).takeWhile isContinuation).length = 0 := by
  cases ds with
  | nil => rfl
  | cons d ds =>
    have hd := List.mem_cons_self (a := d) (l := ds)
    rw [List.map_cons, takeWhile_header
      (Diagnostic.isBlockStart_displayLine (hlegible d hd) (hseverity d hd))]
    rfl

/-- **Printed diagnostics are extracted as they were printed.** -/
theorem ofText_join_displayLine
    (hreturn : ∀ d ∈ ds, d.width = 0 → d.message.toList.getLast? ≠ some '\r') :
    Extraction.ofText (String.join (ds.map fun d => d.displayLine ++ "\n")) =
      { diagnostics := .ofList (ds.map Diagnostic.reread) } := by
  have hmap : (ds.map fun d => d.displayLine ++ "\n") =
      (ds.map Diagnostic.displayLine).map (· ++ "\n") := by
    rw [List.map_map]
    rfl
  have hlines : Text.lines (String.join (ds.map fun d => d.displayLine ++ "\n")) =
      ds.map Diagnostic.displayLine := by
    rw [hmap]
    apply Text.lines_join
    · intro line hline
      obtain ⟨d, hd, rfl⟩ := List.mem_map.1 hline
      exact Diagnostic.feed_not_mem_displayLine (hlegible d hd)
    · intro line hline
      obtain ⟨d, hd, rfl⟩ := List.mem_map.1 hline
      exact Diagnostic.getLast?_displayLine (hreturn d hd)
  rw [Extraction.ofText_eq_ofBlocks, hlines, Extraction.ofBlocks,
    diagnostics_blocksAfter hlegible hseverity, skipped_blocksAfter hlegible hseverity,
    ignored_displayLine hlegible hseverity]

end Printed

/-- **Text output is a fixed point.** What is printed for a text without notes is read again without
loss: no line is ignored and no block is skipped, the locations and the diagnostics come back in
their order, and printing them gives the same text. -/
theorem render_extract_render (text : String)
    (hseverity : ∀ d ∈ (extract text).diagnostics, d.severity ≠ .info)
    (hreturn : ∀ d ∈ (extract text).diagnostics,
      d.width = 0 → d.message.toList.getLast? ≠ some '\r') :
    let printed := render .text (extract text)
    let again := Extraction.ofText printed
    again.ignoredLines = 0 ∧ again.skipped = #[] ∧
      again.diagnostics.locations = (extract text).locations ∧
      List.Forall₂ Diagnostic.KeptIn (extract text).diagnostics again.diagnostics.diagnostics ∧
      render .text (extract printed) = printed := by
  intro printed again
  obtain ⟨ds, hds⟩ : ∃ ds, extract text = .ofList ds := Extraction.exists_ofList text
  have hagain : again =
      { diagnostics := .ofList ((extract text).diagnostics.map Diagnostic.reread) } :=
    ofText_join_displayLine (fun d hd => legible_of_mem_extract hd) hseverity hreturn
  have hdiagnostics : again.diagnostics.diagnostics =
      (extract text).diagnostics.map Diagnostic.reread := by
    rw [hagain, hds]
    exact DiagnosticsByLocation.diagnostics_ofList_map ds fun _ => rfl
  have hlocations : again.diagnostics.locations = (extract text).locations := by
    rw [hagain, hds]
    exact DiagnosticsByLocation.locations_ofList_map ds fun _ => rfl
  refine ⟨?_, ?_, hlocations, ?_, ?_⟩
  · rw [hagain]
  · rw [hagain]
  · rw [hdiagnostics, List.forall₂_map_right_iff, List.forall₂_same]
    exact fun d _ => d.keptIn_reread
  · show renderText again.diagnostics = renderText (extract text)
    rw [renderText, hdiagnostics, List.map_map, renderText]
    congr 1
    refine List.map_congr_left fun d _ => ?_
    exact congrArg (· ++ "\n") d.displayLine_reread

/-- Output with a range, an empty location, a position 0 and colons in a message. -/
def sampleOutput : String :=
  "b:2:3: error: x: y\n  x\n ^^\n:0:0: warning:\r\nb:1:1: error: z"

theorem render_extract_render_sampleOutput :
    (extract sampleOutput).diagnostics.length = 3 ∧
      (∀ d ∈ (extract sampleOutput).diagnostics, d.severity ≠ .info) ∧
      (∀ d ∈ (extract sampleOutput).diagnostics,
        d.width = 0 → d.message.toList.getLast? ≠ some '\r') ∧
      render .text (extract (render .text (extract sampleOutput))) =
        render .text (extract sampleOutput) := by
  have hblocks : ∀ d ∈ (blocksAfter 0 (Text.lines sampleOutput)).filterMap Block.diagnostic?,
      d.severity ≠ .info ∧ (d.width = 0 → d.message.toList.getLast? ≠ some '\r') := by
    decide +kernel
  have hlength :
      ((blocksAfter 0 (Text.lines sampleOutput)).filterMap Block.diagnostic?).length = 3 := by
    decide +kernel
  have hseverity : ∀ d ∈ (extract sampleOutput).diagnostics, d.severity ≠ .info :=
    fun d hd => (hblocks d (mem_extract.1 hd)).1
  have hreturn : ∀ d ∈ (extract sampleOutput).diagnostics,
      d.width = 0 → d.message.toList.getLast? ≠ some '\r' :=
    fun d hd => (hblocks d (mem_extract.1 hd)).2
  refine ⟨?_, hseverity, hreturn, ?_⟩
  · rw [extract, Extraction.ofText_eq_ofBlocks, ← hlength]
    exact (DiagnosticsByLocation.diagnostics_ofList_perm _).length_eq
  · exact (render_extract_render sampleOutput hseverity hreturn).2.2.2.2

end BuildDiagnostics
