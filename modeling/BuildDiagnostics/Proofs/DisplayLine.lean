import BuildDiagnostics.Proofs.Header

/-!
# The line of a diagnostic

`displayLine` writes a diagnostic as a header. What keeps that header from being read back as
something else are the colons and line feeds that the diagnostic's texts may hold, and positions that
leave 32 bits when they are counted from 1. A diagnostic that came from a line of text has none of
these (`legible_of_build`), and any such diagnostic reads back from its line as `reread`, unless its
severity is shown by a word that compilers do not use (`build_displayLine`).
-/

namespace BuildDiagnostics

theorem columnAfter_zero (start : UInt32) : columnAfter start 0 = start := by
  apply UInt32.toNat_inj.1
  have hlt := start.toNat_lt
  have hmax : maxPosition.toNat = 2 ^ 32 - 1 := rfl
  rw [toNat_columnAfter]
  omega

namespace Diagnostic

/-- A legible diagnostic fills one line, and the line's first four colons and its numbers are where
the diagnostic has them. -/
structure Legible (d : Diagnostic) : Prop where
  colon_not_mem_location : ':' ∉ d.location.raw.toList
  feed_not_mem_location : '\n' ∉ d.location.raw.toList
  feed_not_mem_message : '\n' ∉ d.message.toList
  line_lt : d.line < maxPosition
  startCol_lt : d.startCol < maxPosition

/-- The fields of the diagnostic's line. -/
def header (d : Diagnostic) : Header where
  path := d.location.raw
  line := oneBased d.line
  column := oneBased d.startCol
  severity := " " ++ d.severity.label
  message := d.message ++ d.rangeSuffix

/-- What the line of a diagnostic says: the range has become a part of the message. -/
def reread (d : Diagnostic) : Diagnostic :=
  .ofWidth d.location d.severity (d.message ++ d.rangeSuffix) d.line d.startCol 0

theorem displayLine_eq_text (d : Diagnostic) : d.displayLine = d.header.text := by
  apply String.toList_inj.1
  simp [displayLine, Header.text, header]

/-- An empty range is not shown. -/
theorem rangeSuffix_of_endCol_eq {d : Diagnostic} (h : d.endCol = d.startCol) :
    d.rangeSuffix = "" := by
  rw [rangeSuffix, h]
  exact if_neg (UInt32.lt_irrefl _)

/-! ## Characters of a line -/

theorem not_mem_oneBased {c : Char} (h : c.isDigit = false) (position : UInt32) :
    c ∉ (oneBased position).toList := by
  intro hc
  rw [oneBased, Text.Decimal.text, String.toList_ofList] at hc
  have hdigit := List.all_eq_true.1 (Text.Decimal.all_isDigit_digits _) c hc
  rw [h] at hdigit
  cases hdigit

theorem feed_not_mem_rangeSuffix (d : Diagnostic) : '\n' ∉ d.rangeSuffix.toList := by
  have hstart := not_mem_oneBased (by decide : '\n'.isDigit = false) d.startCol
  have hend := not_mem_oneBased (by decide : '\n'.isDigit = false) d.endCol
  unfold rangeSuffix
  split
  · simp [hstart, hend]
  · simp

theorem not_mem_label {c : Char} (h : c.isAlpha = false) (severity : Severity) :
    c ∉ severity.label.toList := by
  intro hc
  have hall : severity.label.toList.all Char.isAlpha = true := by
    cases severity <;> decide
  have halpha := List.all_eq_true.1 hall c hc
  rw [h] at halpha
  cases halpha

theorem separated_header {d : Diagnostic} (h : d.Legible) : d.header.Separated where
  path := h.colon_not_mem_location
  line := not_mem_oneBased (by decide) d.line
  column := not_mem_oneBased (by decide) d.startCol
  severity := by
    have hlabel := not_mem_label (by decide : ':'.isAlpha = false) d.severity
    simp [header, hlabel]

theorem feed_not_mem_displayLine {d : Diagnostic} (h : d.Legible) :
    '\n' ∉ d.displayLine.toList := by
  have hline := not_mem_oneBased (by decide : '\n'.isDigit = false) d.line
  have hcolumn := not_mem_oneBased (by decide : '\n'.isDigit = false) d.startCol
  have hlabel := not_mem_label (by decide : '\n'.isAlpha = false) d.severity
  have hsuffix := feed_not_mem_rangeSuffix d
  simp [displayLine, h.feed_not_mem_location, hline, hcolumn, hlabel, h.feed_not_mem_message,
    hsuffix]

theorem width_eq_zero_of_not_lt {d : Diagnostic} (h : ¬ d.startCol < d.endCol) : d.width = 0 := by
  have hle : d.endCol ≤ d.startCol := UInt32.not_lt.1 h
  have heq : d.endCol = d.startCol := UInt32.le_antisymm hle d.start_le_end
  rw [width, heq, UInt32.sub_self]

/-- A line ends as its message does, unless it shows a range. -/
theorem getLast?_displayLine {d : Diagnostic}
    (h : d.width = 0 → d.message.toList.getLast? ≠ some '\r') :
    d.displayLine.toList.getLast? ≠ some '\r' := by
  rw [displayLine_eq_text, Header.toList_text]
  by_cases hrange : d.startCol < d.endCol
  · -- a range ends with its bracket
    have hsuffix : (d.message ++ d.rangeSuffix).toList =
        (d.message ++ " [" ++ oneBased d.startCol ++ ".." ++ oneBased d.endCol).toList ++ [']'] := by
      simp [rangeSuffix, hrange]
    simp only [header, hsuffix]
    simp [List.getLast?_append, List.getLast?_cons]
  · have hsuffix : d.rangeSuffix = "" := if_neg hrange
    have hmessage := h (width_eq_zero_of_not_lt hrange)
    simp only [header, hsuffix, String.append_empty]
    cases e : d.message.toList.getLast? with
    | none => simp [List.getLast?_append, List.getLast?_cons, e]
    | some c =>
      rw [e] at hmessage
      simpa [List.getLast?_append, List.getLast?_cons, e] using hmessage

/-! ## Reading a line back -/

theorem trimmed_severity (d : Diagnostic) : Text.trimmed d.header.severity = d.severity.label := by
  show Text.trimmed (" " ++ d.severity.label) = d.severity.label
  cases d.severity <;> decide

/-- Of the words that severities are shown as, those of errors and warnings are words of compilers. -/
theorem isBlockStart_displayLine {d : Diagnostic} (h : d.Legible) (hseverity : d.severity ≠ .info) :
    isBlockStart d.displayLine = true := by
  rw [displayLine_eq_text, Header.isBlockStart_text (separated_header h), trimmed_severity]
  cases e : d.severity with
  | error => decide
  | warning => decide
  | info => exact absurd e hseverity

theorem ofToken_severity {d : Diagnostic} (hseverity : d.severity ≠ .info) :
    Severity.ofToken d.header.severity = d.severity := by
  rw [Severity.ofToken, trimmed_severity]
  cases e : d.severity with
  | error => rfl
  | warning => rfl
  | info => exact absurd e hseverity

end Diagnostic

namespace Block

open Diagnostic (Legible)

theorem build_eq_ok_iff {block : Block} {d : Diagnostic} :
    block.build = .ok d ↔
      ∃ header line startCol, Header.ofLine block.header = .ok header ∧
        readPosition .line header.line = .ok line ∧
        readPosition .column header.column = .ok startCol ∧
        d = .ofWidth ⟨header.path⟩ (.ofToken header.severity) header.message line startCol
          block.width := by
  unfold build
  cases hheader : Header.ofLine block.header with
  | error e => simp [bind, Except.bind]
  | ok header =>
    cases hline : readPosition .line header.line with
    | error e => simp [bind, Except.bind, hline]
    | ok line =>
      cases hcolumn : readPosition .column header.column with
      | error e => simp [bind, Except.bind, hline, hcolumn]
      | ok startCol =>
        simp [bind, Except.bind, hline, hcolumn, pure, Except.pure, eq_comm]

/-- **A diagnostic that came from a line of text is legible.** -/
theorem legible_of_build {block : Block} {d : Diagnostic} (hfeed : '\n' ∉ block.header.toList)
    (h : block.build = .ok d) : d.Legible := by
  obtain ⟨header, line, startCol, hheader, hline, hcolumn, rfl⟩ := build_eq_ok_iff.1 h
  obtain ⟨htext, hseparated⟩ := Header.ofLine_eq_ok_iff.1 hheader
  rw [htext, Header.toList_text] at hfeed
  simp only [List.mem_append, List.mem_cons, not_or] at hfeed
  exact {
    colon_not_mem_location := hseparated.path
    feed_not_mem_location := hfeed.1
    feed_not_mem_message := hfeed.2.2.2.2.2.2.2.2
    line_lt := readPosition_lt hline
    startCol_lt := readPosition_lt hcolumn }

/-- **A legible diagnostic reads back from its line**, with its range in the message. -/
theorem build_displayLine {d : Diagnostic} (h : d.Legible) (hseverity : d.severity ≠ .info)
    (lineNumber : Nat) : build { lineNumber, header := d.displayLine } = .ok d.reread := by
  refine build_eq_ok_iff.2 ⟨d.header, d.line, d.startCol, ?_, ?_, ?_, ?_⟩
  · exact Header.ofLine_eq_ok_iff.2 ⟨d.displayLine_eq_text, Diagnostic.separated_header h⟩
  · exact readPosition_oneBased .line h.line_lt
  · exact readPosition_oneBased .column h.startCol_lt
  · rw [Diagnostic.ofToken_severity hseverity]
    rfl

end Block

end BuildDiagnostics
