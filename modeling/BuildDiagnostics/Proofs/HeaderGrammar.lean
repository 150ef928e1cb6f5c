import BuildDiagnostics.Proofs.DisplayLine
import BuildDiagnostics.Proofs.SegmenterHistory

/-!
# The grammar of headers

A line opens a block when it is `path:line:column:severity:message` with no colon in the first four
fields and, blanks aside, a word of compilers for the severity (`Header.Opens`). Two readers decide on
this form, each with a splitter of its own: the one that looks for headers cuts a line at every colon,
the one that reads a header at the first four. They agree (`isBlockStart_iff_exists_opens`), and a line
has its fields in one way only (`Header.FieldsOf.unique`). So the header of a block is never too short
to be read, and what a diagnostic says is what the fields say (`header_grammar`).
-/

namespace BuildDiagnostics

namespace Header

/-- The line is made of the fields, and its first four colons are those between them. -/
structure FieldsOf (h : Header) (line : String) : Prop where
  text : line = h.text
  separated : h.Separated

/-- The line is made of the fields, and the severity is one. -/
structure Opens (h : Header) (line : String) : Prop extends h.FieldsOf line where
  severity : Text.trimmed h.severity ∈ severityTokens

theorem ofLine_eq_ok_iff_fieldsOf {h : Header} {line : String} :
    ofLine line = .ok h ↔ h.FieldsOf line := by
  rw [ofLine_eq_ok_iff]
  constructor
  · rintro ⟨htext, hseparated⟩
    exact ⟨htext, hseparated⟩
  · rintro ⟨htext, hseparated⟩
    exact ⟨htext, hseparated⟩

theorem FieldsOf.unique {h h' : Header} {line : String} (hf : h.FieldsOf line)
    (hf' : h'.FieldsOf line) : h = h' := by
  have hread := ofLine_eq_ok_iff_fieldsOf.2 hf
  rw [ofLine_eq_ok_iff_fieldsOf.2 hf'] at hread
  exact (Except.ok.inj hread).symm

/-- A line that more than three colons cut into pieces has the fields of a header. -/
theorem exists_fieldsOf_of_splitOn {line : String} {path number column severity next : List Char}
    {pieces : List (List Char)}
    (h : Text.splitOn ':' line.toList = path :: number :: column :: severity :: next :: pieces) :
    ∃ message, FieldsOf ⟨.ofList path, .ofList number, .ofList column, .ofList severity, message⟩
      line := by
  obtain ⟨rest₁, e₁, hpath, h₁⟩ := Text.exists_of_splitOn_cons_cons h
  obtain ⟨rest₂, e₂, hnumber, h₂⟩ := Text.exists_of_splitOn_cons_cons h₁
  obtain ⟨rest₃, e₃, hcolumn, h₃⟩ := Text.exists_of_splitOn_cons_cons h₂
  obtain ⟨rest₄, e₄, hseverity, -⟩ := Text.exists_of_splitOn_cons_cons h₃
  refine ⟨.ofList rest₄, String.toList_inj.1 ?_, ?_⟩
  · rw [toList_text, e₁, e₂, e₃, e₄]
    simp only [String.toList_ofList]
  · constructor
    · rwa [String.toList_ofList]
    · rwa [String.toList_ofList]
    · rwa [String.toList_ofList]
    · rwa [String.toList_ofList]

theorem Opens.isBlockStart {h : Header} {line : String} (ho : h.Opens line) :
    isBlockStart line = true := by
  rw [ho.text, isBlockStart_text ho.separated, List.contains_iff_mem]
  exact ho.severity

end Header

/-- **The two readers agree**: the lines that are taken for headers are those that have the fields of
a header, a severity among them. -/
theorem isBlockStart_iff_exists_opens {line : String} :
    isBlockStart line = true ↔ ∃ h : Header, h.Opens line := by
  constructor
  · intro hline
    -- fewer than five pieces have no severity with a message after it
    rcases e : Text.splitOn ':' line.toList with
      _ | ⟨path, _ | ⟨number, _ | ⟨column, _ | ⟨severity, _ | ⟨next, pieces⟩⟩⟩⟩⟩
    case cons.cons.cons.cons.cons =>
      obtain ⟨message, hf⟩ := Header.exists_fieldsOf_of_splitOn e
      refine ⟨_, hf, ?_⟩
      rw [hf.text, Header.isBlockStart_text hf.separated] at hline
      exact List.contains_iff_mem.1 hline
    all_goals
      rw [isBlockStart, e] at hline
      cases hline
  · rintro ⟨h, ho⟩
    exact ho.isBlockStart

/-! ## What a block says -/

/-- A diagnostic says what the fields of a header say: the path and the message to the letter, and
the severity by its word. -/
structure Diagnostic.Says (d : Diagnostic) (h : Header) : Prop where
  location : d.location.raw = h.path
  message : d.message = h.message
  error_iff : d.severity = .error ↔ Text.trimmed h.severity = "error"
  warning_iff : d.severity = .warning ↔ Text.trimmed h.severity = "warning"
  info_iff : d.severity = .info ↔ Text.trimmed h.severity = "note"

/-- The header of the block has the fields of one, the block does not fail for a lack of fields, and
its diagnostic, if it has one, says what they say. -/
def Block.WellHeaded (block : Block) : Prop :=
  ∃ h : Header, h.Opens block.header ∧
    (∀ found, block.build ≠ .error (.tooFewFields found)) ∧
    ∀ d, block.build = .ok d → d.Says h

theorem Severity.ofToken_iff {token : String} (h : Text.trimmed token ∈ severityTokens) :
    (ofToken token = .error ↔ Text.trimmed token = "error") ∧
      (ofToken token = .warning ↔ Text.trimmed token = "warning") ∧
      (ofToken token = .info ↔ Text.trimmed token = "note") := by
  unfold ofToken
  simp only [severityTokens, List.mem_cons, List.not_mem_nil, or_false] at h
  rcases h with h | h | h
  · rw [h]; decide
  · rw [h]; decide
  · rw [h]; decide

namespace Block

theorem readPosition_eq_error {field : PositionField} {raw : String} {e : BlockError}
    (h : readPosition field raw = .error e) : e = .notAnInteger field raw := by
  unfold readPosition at h
  split at h
  · cases h
  · cases h
    rfl

/-- Once the fields of the header are known, building a block is reading its two positions. -/
theorem build_of_fieldsOf {block : Block} {h : Header} (hf : h.FieldsOf block.header) :
    block.build = (do
      let line ← readPosition .line h.line
      let startCol ← readPosition .column h.column
      return .ofWidth ⟨h.path⟩ (.ofToken h.severity) h.message line startCol block.width) := by
  rw [build, Header.ofLine_eq_ok_iff_fieldsOf.2 hf]
  rfl

theorem build_ne_tooFewFields {block : Block} {h : Header} (hf : h.FieldsOf block.header)
    (found : Nat) : block.build ≠ .error (.tooFewFields found) := by
  rw [build_of_fieldsOf hf]
  cases hline : readPosition .line h.line with
  | error e =>
    rw [readPosition_eq_error hline]
    intro hbuild
    cases hbuild
  | ok line =>
    cases hcolumn : readPosition .column h.column with
    | error e =>
      rw [readPosition_eq_error hcolumn]
      intro hbuild
      cases hbuild
    | ok startCol =>
      intro hbuild
      cases hbuild

theorem says_of_build {block : Block} {h : Header} (ho : h.Opens block.header) {d : Diagnostic}
    (hbuild : block.build = .ok d) : d.Says h := by
  obtain ⟨h', line, startCol, hheader, -, -, rfl⟩ := build_eq_ok_iff.1 hbuild
  obtain rfl := ho.toFieldsOf.unique (Header.ofLine_eq_ok_iff_fieldsOf.1 hheader)
  obtain ⟨herror, hwarning, hinfo⟩ := Severity.ofToken_iff ho.severity
  constructor
  · rfl
  · rfl
  · simp only [Diagnostic.ofWidth, herror]
  · simp only [Diagnostic.ofWidth, hwarning]
  · simp only [Diagnostic.ofWidth, hinfo]

theorem wellHeaded_of_isBlockStart {block : Block} (h : isBlockStart block.header = true) :
    block.WellHeaded := by
  obtain ⟨header, ho⟩ := isBlockStart_iff_exists_opens.1 h
  exact ⟨header, ho, build_ne_tooFewFields ho.toFieldsOf, fun d hd => says_of_build ho hd⟩

end Block

theorem isBlockStart_of_mem_blocksAfter {block : Block} {seen : Nat} {lines : List String}
    (h : block ∈ blocksAfter seen lines) : isBlockStart block.header = true := by
  induction lines generalizing seen with
  | nil => cases h
  | cons line rest ih =>
    cases hline : isBlockStart line with
    | true =>
      rw [blocksAfter_header hline] at h
      rcases List.mem_cons.1 h with rfl | h
      · exact hline
      · exact ih h
    | false =>
      rw [blocksAfter_continuation hline] at h
      exact ih h

/-- **One grammar of headers.** A line opens a block exactly when it has the fields of a header, a
severity among them; it has them in one way, which is how they are read; and every block, of a text or
of a segmenter that was called in any way, is built from these fields. -/
theorem header_grammar :
    (∀ line, isBlockStart line = true ↔ ∃ h : Header, h.Opens line) ∧
      (∀ (line : String) (h h' : Header), h.FieldsOf line → h'.FieldsOf line → h = h') ∧
      (∀ (line : String) (h : Header), Header.ofLine line = .ok h ↔ h.FieldsOf line) ∧
      (∀ text, ∀ block ∈ (Segments.ofText text).toList, block.WellHeaded) ∧
      ∀ calls, ∀ block ∈ Segmenter.blocksOf (Segmenter.run {} calls).1, block.WellHeaded := by
  refine ⟨fun line => isBlockStart_iff_exists_opens, fun line h h' => Header.FieldsOf.unique,
    fun line h => Header.ofLine_eq_ok_iff_fieldsOf, fun text block hblock => ?_,
    fun calls block hblock => ?_⟩
  · rw [Segments.toList_ofText] at hblock
    exact Block.wellHeaded_of_isBlockStart (isBlockStart_of_mem_blocksAfter hblock)
  · have hshaped := (Segmenter.accounts_run calls).shaped block (List.mem_append_left _ hblock)
    exact Block.wellHeaded_of_isBlockStart hshaped.header

/-- A header with blanks around its fields and colons at the front of its message. -/
def sampleHeader : Header := ⟨" a", "+07", " 2", "\u00a0note ", ":: m"⟩

theorem header_grammar_sampleHeader :
    let block : Block := { lineNumber := 1, header := sampleHeader.text, context := #["x"] }
    let d := Diagnostic.ofWidth ⟨" a"⟩ .info ":: m" 6 1 0
    sampleHeader.Opens sampleHeader.text ∧ isBlockStart sampleHeader.text = true ∧
      Header.ofLine sampleHeader.text = .ok sampleHeader ∧
      block ∈ (Segments.ofText (sampleHeader.text ++ "\nx")).toList ∧
      block ∈ Segmenter.blocksOf
        (Segmenter.run {} [.push sampleHeader.text, .push "x", .finish]).1 ∧
      block.WellHeaded ∧ block.build = .ok d ∧ d.Says sampleHeader := by
  intro block d
  have hfields : sampleHeader.FieldsOf sampleHeader.text :=
    ⟨rfl, by decide +kernel, by decide +kernel, by decide +kernel, by decide +kernel⟩
  have ho : sampleHeader.Opens sampleHeader.text := ⟨hfields, by decide +kernel⟩
  have hlist : block ∈ (Segments.ofText (sampleHeader.text ++ "\nx")).toList := by
    rw [Segments.toList_ofText]
    decide +kernel
  have hrun : block ∈ Segmenter.blocksOf
      (Segmenter.run {} [.push sampleHeader.text, .push "x", .finish]).1 := by
    decide +kernel
  have hbuild : block.build = .ok d := by decide +kernel
  obtain ⟨hstart, hunique, hread, htext, hcalls⟩ := header_grammar
  obtain ⟨h, ho', -, hsays⟩ := htext _ block hlist
  obtain rfl := hunique _ _ _ ho'.toFieldsOf hfields
  exact ⟨ho, (hstart _).2 ⟨_, ho⟩, (hread _ _).2 hfields, hlist, hrun, hcalls _ block hrun, hbuild,
    hsays d hbuild⟩

end BuildDiagnostics
