import BuildDiagnostics.Proofs.PositionGrammar

/-!
# Headers as compilers write them

A compiler writes its positions without needless zeros and one space before the severity
(`Header.Written`). Such a header is read into a diagnostic whose line shows the path, the positions
and the message to the letter: numbers without needless zeros are written as they were read
(`Decimal.digits_value`). Only the word for the severity may change. The reader knows the words
`error`, `warning` and `note`, while a note is shown as `info`, which no reader knows. So errors and
warnings come back as they were written, and notes are lost (`displayLine_eq_text_iff`).
-/

namespace BuildDiagnostics

/-! ## Numbers without needless zeros -/

namespace Text.Decimal

/-- A number of 32 bits, other than 0, as it is written without sign and without needless zeros. -/
structure Canonical (cs : List Char) : Prop extends Spells32 cs where
  head_ne_zero : cs.head? ≠ some '0'

theorem digits_eq_map {n : Nat} (h : 0 < n) : digits n = (Nat.digits 10 n).reverse.map digit := by
  fun_induction digits n with
  | case1 n hlt =>
    rw [Nat.digits_of_lt 10 n (Nat.ne_of_gt h) hlt]
    rfl
  | case2 n hge ih =>
    rw [ih (by omega), Nat.digits_def' (by decide) h, List.reverse_cons, List.map_append]
    rfl

theorem sub_lt_ten {c : Char} (h : '0' ≤ c ∧ c ≤ '9') : c.toNat - '0'.toNat < 10 := by
  have hhigh : c.toNat ≤ '9'.toNat := h.2
  have hnine : '9'.toNat = '0'.toNat + 9 := rfl
  omega

theorem digit_sub {c : Char} (h : '0' ≤ c ∧ c ≤ '9') : digit (c.toNat - '0'.toNat) = c := by
  have hlow : '0'.toNat ≤ c.toNat := h.1
  rw [digit, Nat.add_sub_cancel' hlow, Char.ofNat_toNat]

theorem natDigits_value {cs : List Char} (h : Canonical cs) :
    Nat.digits 10 (value cs) = cs.reverse.map fun c => c.toNat - '0'.toNat := by
  have hlt : ∀ d ∈ cs.reverse.map fun c => c.toNat - '0'.toNat, d < 10 := by
    intro d hd
    obtain ⟨c, hc, rfl⟩ := List.mem_map.1 hd
    exact sub_lt_ten (h.digit c (List.mem_reverse.1 hc))
  obtain ⟨c, rest, rfl⟩ := List.exists_cons_of_ne_nil h.ne_nil
  have hfirst : c.toNat - '0'.toNat ≠ 0 := by
    intro hzero
    have hchar := digit_sub (h.digit c List.mem_cons_self)
    rw [hzero] at hchar
    exact h.head_ne_zero (congrArg some hchar.symm)
  exact Nat.digits_ofDigits 10 (by decide) _ hlt (by simpa using hfirst)

theorem value_pos {cs : List Char} (h : Canonical cs) : 0 < value cs := by
  rw [Nat.pos_iff_ne_zero, ← Nat.digits_ne_nil_iff_ne_zero, natDigits_value h]
  simpa using h.ne_nil

/-- **Without needless zeros a number is written as it was read.** -/
theorem digits_value {cs : List Char} (h : Canonical cs) : digits (value cs) = cs := by
  rw [digits_eq_map (value_pos h), natDigits_value h, ← List.map_reverse, List.reverse_reverse,
    List.map_map]
  exact (List.map_congr_left fun c hc => digit_sub (h.digit c hc)).trans (List.map_id cs)

end Text.Decimal

/-- A field without needless zeros is what some position is shown as. -/
theorem exists_oneBased_eq {field : String} (h : Text.Decimal.Canonical field.toList) :
    ∃ position, position < maxPosition ∧ Diagnostic.oneBased position = field := by
  have hdigits := Text.Decimal.digits_value h
  have hle := h.value_le
  have hpos := Text.Decimal.value_pos h
  generalize Text.Decimal.value field.toList = n at hdigits hle hpos
  have hlt : n - 1 < UInt32.size := by
    have hsize : UInt32.size = 4294967295 + 1 := rfl
    omega
  have htoNat : (UInt32.ofNat (n - 1)).toNat = n - 1 := UInt32.toNat_ofNat_of_lt' hlt
  have hmax : maxPosition.toNat = 4294967295 := rfl
  refine ⟨UInt32.ofNat (n - 1), ?_, ?_⟩
  · rw [UInt32.lt_iff_toNat_lt, htoNat]
    omega
  · rw [Diagnostic.oneBased, htoNat, Nat.sub_add_cancel hpos, Text.Decimal.text, hdigits,
      String.ofList_toList]

/-! ## Headers -/

namespace Header

/-- A header as compilers write it, with the given word for the severity. -/
structure Written (h : Header) (token : String) : Prop where
  path : ':' ∉ h.path.toList
  line : Text.Decimal.Canonical h.line.toList
  column : Text.Decimal.Canonical h.column.toList
  severity : h.severity = " " ++ token
  mem_tokens : token ∈ severityTokens

/-- The header with the word that the severity is shown as. -/
def relabel (h : Header) (severity : Severity) : Header :=
  { h with severity := " " ++ severity.label }

section Written

variable {h : Header} {token : String}

theorem colon_not_mem_of_canonical {field : String} (hf : Text.Decimal.Canonical field.toList) :
    ':' ∉ field.toList := by
  obtain ⟨position, -, rfl⟩ := exists_oneBased_eq hf
  exact Diagnostic.not_mem_oneBased (by decide) position

theorem Written.separated (hw : h.Written token) (severity : String)
    (hseverity : ':' ∉ severity.toList) : { h with severity }.Separated where
  path := hw.path
  line := colon_not_mem_of_canonical hw.line
  column := colon_not_mem_of_canonical hw.column
  severity := hseverity

theorem Written.token_cases (hw : h.Written token) :
    token = "error" ∨ token = "warning" ∨ token = "note" := by
  have htoken := hw.mem_tokens
  simp only [severityTokens, List.mem_cons, List.not_mem_nil, or_false] at htoken
  exact htoken

theorem Written.opens (hw : h.Written token) : h.Opens h.text where
  text := rfl
  separated := hw.separated h.severity (by
    rw [hw.severity]
    rcases hw.token_cases with rfl | rfl | rfl <;> decide)
  severity := by
    rw [hw.severity]
    rcases hw.token_cases with rfl | rfl | rfl <;> decide

/-- Among the words of compilers only `note` is not what its severity is shown as. -/
theorem Written.label_eq_iff (hw : h.Written token) :
    (Severity.ofToken h.severity).label = token ↔ token ≠ "note" := by
  rw [hw.severity]
  rcases hw.token_cases with rfl | rfl | rfl <;> decide

theorem Written.fieldsOf_relabel (hw : h.Written token) (severity : Severity) :
    (h.relabel severity).FieldsOf (h.relabel severity).text where
  text := rfl
  separated := hw.separated (" " ++ severity.label) (by
    have hlabel := Diagnostic.not_mem_label (by decide : ':'.isAlpha = false) severity
    simp [hlabel])

theorem Written.relabel_text_eq_iff (hw : h.Written token) :
    (h.relabel (.ofToken h.severity)).text = h.text ↔ token ≠ "note" := by
  rw [← hw.label_eq_iff]
  constructor
  · intro htext
    have hfields := hw.fieldsOf_relabel (.ofToken h.severity)
    rw [htext] at hfields
    have hheader := hfields.unique hw.opens.toFieldsOf
    have hword : " " ++ (Severity.ofToken h.severity).label = " " ++ token :=
      (congrArg Header.severity hheader).trans hw.severity
    exact (String.append_right_inj " ").1 hword
  · intro hlabel
    rw [relabel, hlabel, ← hw.severity]

/-- What is shown of a note is no header any more. -/
theorem Written.exists_opens_relabel_iff (hw : h.Written token) :
    (∃ h' : Header, h'.Opens (h.relabel (.ofToken h.severity)).text ∧
      Severity.ofToken h'.severity = .ofToken h.severity) ↔ token ≠ "note" := by
  constructor
  · rintro ⟨h', ho, -⟩ rfl
    obtain rfl := ho.toFieldsOf.unique (hw.fieldsOf_relabel _)
    have hinfo : Severity.ofToken h.severity = .info := by
      rw [hw.severity]
      decide
    have hunknown : Text.trimmed (" " ++ Severity.info.label) ∉ severityTokens := by decide
    have hknown := ho.severity
    rw [hinfo] at hknown
    exact hunknown hknown
  · intro hne
    rw [hw.relabel_text_eq_iff.2 hne]
    exact ⟨h, hw.opens, rfl⟩

end Written

end Header

/-! ## Header and line -/

theorem Header.Written.build_text {h : Header} {token : String} (hw : h.Written token)
    (lineNumber : Nat) :
    ∃ d, Block.build { lineNumber, header := h.text } = .ok d ∧
      d.severity = .ofToken h.severity ∧
      d.displayLine = (h.relabel (.ofToken h.severity)).text := by
  obtain ⟨line, hline, eline⟩ := exists_oneBased_eq hw.line
  obtain ⟨startCol, hstart, ecolumn⟩ := exists_oneBased_eq hw.column
  have hreadLine := Block.readPosition_oneBased .line hline
  have hreadColumn := Block.readPosition_oneBased .column hstart
  rw [eline] at hreadLine
  rw [ecolumn] at hreadColumn
  have hbuild : Block.build { lineNumber, header := h.text } =
      .ok (.ofWidth ⟨h.path⟩ (.ofToken h.severity) h.message line startCol 0) :=
    Block.build_eq_ok_iff.2 ⟨h, line, startCol,
      Header.ofLine_eq_ok_iff_fieldsOf.2 hw.opens.toFieldsOf, hreadLine, hreadColumn, rfl⟩
  generalize Severity.ofToken h.severity = severity at hbuild ⊢
  refine ⟨_, hbuild, rfl, ?_⟩
  -- without a third line there is no range to show
  have hsuffix := Diagnostic.rangeSuffix_of_endCol_eq
    (d := .ofWidth ⟨h.path⟩ severity h.message line startCol 0) (columnAfter_zero startCol)
  rw [Diagnostic.displayLine_eq_text, Diagnostic.header, hsuffix, String.append_empty, Header.relabel,
    ← eline, ← ecolumn]
  rfl

/-- **A header comes back as it was written, unless it is that of a note.** It is read, what is shown of
it differs from it at most in the word for the severity, and this word is the same for errors and
warnings only. For a note it is one that no reader knows. -/
theorem displayLine_eq_text_iff {h : Header} {token : String} (hw : h.Written token)
    (lineNumber : Nat) :
    h.Opens h.text ∧ isBlockStart h.text = true ∧
      ∃ d, Block.build { lineNumber, header := h.text } = .ok d ∧ d.Says h ∧
        d.displayLine = (h.relabel d.severity).text ∧
        (d.displayLine = h.text ↔ token ≠ "note") ∧
        ((∃ h' : Header, h'.Opens d.displayLine ∧ Severity.ofToken h'.severity = d.severity) ↔
          token ≠ "note") := by
  obtain ⟨d, hbuild, hseverity, hdisplay⟩ := hw.build_text lineNumber
  refine ⟨hw.opens, hw.opens.isBlockStart, d, hbuild, Block.says_of_build hw.opens hbuild, ?_, ?_, ?_⟩
  · rw [hdisplay, hseverity]
  · rw [hdisplay]
    exact hw.relabel_text_eq_iff
  · rw [hdisplay, hseverity]
    exact hw.exists_opens_relabel_iff

/-- The header of a warning at the last position that can be written, with colons in its message. -/
def sampleWarning : Header := ⟨"a b.swift", "4294967295", "10", " warning", " x: y:"⟩

theorem displayLine_eq_text_iff_sampleWarning :
    sampleWarning.Written "warning" ∧
      ∃ d, Block.build { lineNumber := 7, header := sampleWarning.text } = .ok d ∧
        d.displayLine = "a b.swift:4294967295:10: warning: x: y:" := by
  have hline : Text.Decimal.Canonical sampleWarning.line.toList :=
    ⟨Text.Decimal.exists_readUnsigned?_iff.1 ⟨4294967295, by decide +kernel, by decide⟩, by decide +kernel⟩
  have hcolumn : Text.Decimal.Canonical sampleWarning.column.toList :=
    ⟨Text.Decimal.exists_readUnsigned?_iff.1 ⟨10, by decide +kernel, by decide⟩, by decide +kernel⟩
  have hwritten : sampleWarning.Written "warning" :=
    ⟨by decide +kernel, hline, hcolumn, by decide +kernel, by decide⟩
  obtain ⟨-, -, d, hbuild, -, -, hsame, -⟩ := displayLine_eq_text_iff hwritten 7
  refine ⟨hwritten, d, hbuild, ?_⟩
  rw [hsame.2 (by decide)]
  decide +kernel

/-- The header of a note. -/
def sampleNote : Header := ⟨"a.swift", "1", "1", " note", " x"⟩

theorem note_shown_as_info :
    sampleNote.Written "note" ∧
      ∃ d, Block.build { lineNumber := 1, header := sampleNote.text } = .ok d ∧
        d.displayLine ≠ sampleNote.text ∧ isBlockStart d.displayLine = false := by
  have hone : Text.Decimal.Canonical sampleNote.line.toList :=
    ⟨Text.Decimal.exists_readUnsigned?_iff.1 ⟨1, by decide +kernel, by decide⟩, by decide +kernel⟩
  refine ⟨⟨by decide +kernel, hone, hone, by decide +kernel, by decide⟩, ?_⟩
  exact ⟨.ofWidth ⟨"a.swift"⟩ .info " x" 0 0 0, by decide +kernel, by decide +kernel,
    by decide +kernel⟩

end BuildDiagnostics
