import Mathlib.Data.Nat.Digits.Defs
import BuildDiagnostics.Proofs.HeaderGrammar

/-!
# The grammar of positions

A position in a header is, blanks aside, a number of 32 bits: at most one plus sign, then digits from
`0` to `9`, at least one, with as many zeros in front as one likes (`IsPosition`). A block has a
diagnostic exactly when its line and its column are positions, and otherwise fails for the first of
the two that is none (`Header.Fault`). Nothing else of a block matters (`build_outcome`).
-/

namespace BuildDiagnostics

namespace Text.Decimal

/-- The number that digits spell, of which the last one counts the units. -/
def value (cs : List Char) : Nat :=
  Nat.ofDigits 10 (cs.reverse.map fun c => c.toNat - '0'.toNat)

/-- One or more digits that spell a number of 32 bits. -/
structure Spells32 (cs : List Char) : Prop where
  ne_nil : cs ≠ []
  digit : ∀ c ∈ cs, '0' ≤ c ∧ c ≤ '9'
  value_le : value cs ≤ 4294967295

/-- A number of 32 bits, with a plus sign or without one. -/
inductive IsUInt32 : List Char → Prop
  | unsigned {cs : List Char} (h : Spells32 cs) : IsUInt32 cs
  | signed {cs : List Char} (h : Spells32 cs) : IsUInt32 ('+' :: cs)

/-- Reading from the front gives what counting from the back does. -/
theorem ofDigits_eq_value (cs : List Char) : ofDigits cs = value cs := by
  induction cs using List.reverseRecOn with
  | nil => rfl
  | append_singleton cs c ih =>
    have hvalue : value (cs ++ [c]) = (c.toNat - '0'.toNat) + 10 * value cs := by
      rw [value, List.reverse_append, List.reverse_singleton, List.singleton_append, List.map_cons,
        Nat.ofDigits_cons]
      rfl
    rw [ofDigits_append_singleton, ih, hvalue, Nat.add_comm]

theorem isDigit_iff {c : Char} : c.isDigit = true ↔ '0' ≤ c ∧ c ≤ '9' := by
  rw [Char.isDigit, Bool.and_eq_true, decide_eq_true_iff, decide_eq_true_iff]
  exact Iff.rfl

theorem readUnsigned?_eq_some_iff {cs : List Char} {n : Nat} :
    readUnsigned? cs = some n ↔ cs ≠ [] ∧ (∀ c ∈ cs, '0' ≤ c ∧ c ≤ '9') ∧ value cs = n := by
  rw [readUnsigned?, ofDigits_eq_value]
  simp only [List.all_eq_true, isDigit_iff]
  split
  · next h =>
    rw [Option.some.injEq]
    exact ⟨fun e => ⟨h.1, h.2, e⟩, fun h => h.2.2⟩
  · next h =>
    constructor
    · intro e
      cases e
    · rintro ⟨hne, hdigit, -⟩
      exact absurd ⟨hne, hdigit⟩ h

theorem exists_readUnsigned?_iff {cs : List Char} :
    (∃ n, readUnsigned? cs = some n ∧ n < UInt32.size) ↔ Spells32 cs := by
  constructor
  · rintro ⟨n, hread, hn⟩
    obtain ⟨hne, hdigit, rfl⟩ := readUnsigned?_eq_some_iff.1 hread
    exact ⟨hne, hdigit, Nat.le_of_lt_succ hn⟩
  · rintro ⟨hne, hdigit, hvalue⟩
    exact ⟨value cs, readUnsigned?_eq_some_iff.2 ⟨hne, hdigit, rfl⟩, Nat.lt_succ_of_le hvalue⟩

theorem exists_read?_iff {cs : List Char} :
    (∃ n, read? cs = some n ∧ n < UInt32.size) ↔ IsUInt32 cs := by
  unfold read?
  split
  · next cs =>
    rw [exists_readUnsigned?_iff]
    constructor
    · exact .signed
    · -- a plus sign is no digit
      rintro (⟨-, hdigit, -⟩ | h)
      · exact absurd (hdigit '+' (List.mem_cons_self ..)) (by decide)
      · exact h
  · next hsign =>
    rw [exists_readUnsigned?_iff]
    constructor
    · exact .unsigned
    · rintro (h | h)
      · exact h
      · exact absurd rfl (hsign _)

/-- **What is read as a number of 32 bits.** -/
theorem isSome_readUInt32?_iff {cs : List Char} : (readUInt32? cs).isSome ↔ IsUInt32 cs := by
  rw [← exists_read?_iff, readUInt32?]
  cases read? cs with
  | none => simp
  | some n =>
    by_cases h : n < UInt32.size
    · simp [h]
    · simp [h]

instance (cs : List Char) : Decidable (IsUInt32 cs) :=
  decidable_of_iff _ isSome_readUInt32?_iff

end Text.Decimal

/-! ## Positions and their faults -/

/-- A field that stands for a position. -/
def IsPosition (field : String) : Prop :=
  Text.Decimal.IsUInt32 (Text.trim field.toList)

instance (field : String) : Decidable (IsPosition field) :=
  inferInstanceAs (Decidable (Text.Decimal.IsUInt32 _))

namespace Header

/-- What is wrong with a header, the line before the column. -/
inductive Fault (h : Header) : BlockError → Prop
  | line (hline : ¬ IsPosition h.line) : Fault h (.notAnInteger .line h.line)
  | column (hline : IsPosition h.line) (hcolumn : ¬ IsPosition h.column) :
    Fault h (.notAnInteger .column h.column)

theorem positions_or_fault (h : Header) :
    (IsPosition h.line ∧ IsPosition h.column) ∨ ∃ e, h.Fault e := by
  by_cases hline : IsPosition h.line
  · by_cases hcolumn : IsPosition h.column
    · exact .inl ⟨hline, hcolumn⟩
    · exact .inr ⟨_, .column hline hcolumn⟩
  · exact .inr ⟨_, .line hline⟩

/-- Only the positions of a header can be wrong. -/
theorem Fault.congr {h h' : Header} {e : BlockError} (hline : h.line = h'.line)
    (hcolumn : h.column = h'.column) (hfault : h.Fault e) : h'.Fault e := by
  cases hfault with
  | line hbad =>
    rw [hline] at hbad ⊢
    exact .line hbad
  | column hgood hbad =>
    rw [hline] at hgood
    rw [hcolumn] at hbad ⊢
    exact .column hgood hbad

end Header

namespace Block

theorem exists_readPosition_eq_ok (field : PositionField) {raw : String} (h : IsPosition raw) :
    ∃ position, readPosition field raw = .ok position := by
  obtain ⟨value, hvalue⟩ := Option.isSome_iff_exists.1 (Text.Decimal.isSome_readUInt32?_iff.2 h)
  rw [readPosition, hvalue]
  exact ⟨_, rfl⟩

theorem readPosition_of_not (field : PositionField) {raw : String} (h : ¬ IsPosition raw) :
    readPosition field raw = .error (.notAnInteger field raw) := by
  have hnone : Text.Decimal.readUInt32? (Text.trim raw.toList) = none := by
    rw [← Option.not_isSome_iff_eq_none, Text.Decimal.isSome_readUInt32?_iff]
    exact h
  rw [readPosition, hnone]

section Fields

variable {block : Block} {h : Header} (hf : h.FieldsOf block.header)
include hf

theorem exists_build_eq_ok (hline : IsPosition h.line) (hcolumn : IsPosition h.column) :
    ∃ d, block.build = .ok d := by
  obtain ⟨line, e₁⟩ := exists_readPosition_eq_ok .line hline
  obtain ⟨startCol, e₂⟩ := exists_readPosition_eq_ok .column hcolumn
  rw [build_of_fieldsOf hf, e₁, e₂]
  exact ⟨_, rfl⟩

theorem build_of_fault {e : BlockError} (hfault : h.Fault e) : block.build = .error e := by
  rw [build_of_fieldsOf hf]
  cases hfault with
  | line hline =>
    rw [readPosition_of_not .line hline]
    rfl
  | column hline hcolumn =>
    obtain ⟨line, e₁⟩ := exists_readPosition_eq_ok .line hline
    rw [e₁, readPosition_of_not .column hcolumn]
    rfl

theorem exists_build_eq_ok_iff :
    (∃ d, block.build = .ok d) ↔ IsPosition h.line ∧ IsPosition h.column := by
  constructor
  · rintro ⟨d, hd⟩
    rcases h.positions_or_fault with hpositions | ⟨e, hfault⟩
    · exact hpositions
    · rw [build_of_fault hf hfault] at hd
      cases hd
  · rintro ⟨hline, hcolumn⟩
    exact exists_build_eq_ok hf hline hcolumn

theorem build_eq_error_iff {e : BlockError} : block.build = .error e ↔ h.Fault e := by
  constructor
  · intro he
    rcases h.positions_or_fault with ⟨hline, hcolumn⟩ | ⟨e', hfault⟩
    · obtain ⟨d, hd⟩ := exists_build_eq_ok hf hline hcolumn
      rw [hd] at he
      cases he
    · rw [build_of_fault hf hfault] at he
      cases he
      exact hfault
  · exact build_of_fault hf

end Fields

theorem skipped?_eq_some_iff {block : Block} {skipped : SkippedBlock} :
    block.skipped? = some skipped ↔
      skipped.lineNumber = block.lineNumber ∧ skipped.header = block.header ∧
        block.build = .error skipped.error := by
  unfold skipped?
  cases hbuild : block.build with
  | ok d => simp
  | error e =>
    constructor
    · rintro ⟨⟩
      exact ⟨rfl, rfl, rfl⟩
    · rintro ⟨hnumber, hheader, he⟩
      cases he
      rw [← hnumber, ← hheader]

end Block

theorem mem_skipped_iff {text : String} {skipped : SkippedBlock} :
    skipped ∈ (Extraction.ofText text).skipped ↔
      ∃ block ∈ (Segments.ofText text).toList, skipped.lineNumber = block.lineNumber ∧
        skipped.header = block.header ∧ block.build = .error skipped.error := by
  rw [Extraction.ofText_eq_ofBlocks, Extraction.ofBlocks, List.mem_toArray, List.mem_filterMap,
    Segments.toList_ofText]
  simp only [Block.skipped?_eq_some_iff]

/-- **Which blocks fail, and why.** A block has a diagnostic exactly when its line and its column are
positions; else it fails for the line, as it is written, if that is no position, and for the column
otherwise. Blocks with the same two fields fail alike, and the blocks that are skipped are those whose
header has such a fault. -/
theorem build_outcome :
    (∀ (block : Block) (h : Header), h.FieldsOf block.header →
      ((∃ d, block.build = .ok d) ↔ IsPosition h.line ∧ IsPosition h.column) ∧
        ∀ e, block.build = .error e ↔ h.Fault e) ∧
      (∀ (block block' : Block) (h h' : Header), h.FieldsOf block.header →
        h'.FieldsOf block'.header → h.line = h'.line → h.column = h'.column →
        ∀ e, block.build = .error e ↔ block'.build = .error e) ∧
      ∀ text skipped, skipped ∈ (Extraction.ofText text).skipped ↔
        ∃ block ∈ (Segments.ofText text).toList, skipped.lineNumber = block.lineNumber ∧
          skipped.header = block.header ∧
          ∃ h : Header, h.Opens block.header ∧ h.Fault skipped.error := by
  refine ⟨fun block h hf => ⟨Block.exists_build_eq_ok_iff hf, fun e => Block.build_eq_error_iff hf⟩,
    fun block block' h h' hf hf' hline hcolumn e => ?_, fun text skipped => ?_⟩
  · rw [Block.build_eq_error_iff hf, Block.build_eq_error_iff hf']
    exact ⟨Header.Fault.congr hline hcolumn, Header.Fault.congr hline.symm hcolumn.symm⟩
  · rw [mem_skipped_iff]
    refine exists_congr fun block => and_congr_right fun hblock => and_congr_right fun _ =>
      and_congr_right fun _ => ?_
    rw [Segments.toList_ofText] at hblock
    obtain ⟨h, ho⟩ := isBlockStart_iff_exists_opens.1 (isBlockStart_of_mem_blocksAfter hblock)
    constructor
    · intro he
      exact ⟨h, ho, (Block.build_eq_error_iff ho.toFieldsOf).1 he⟩
    · rintro ⟨h', ho', hfault⟩
      exact Block.build_of_fault ho'.toFieldsOf hfault

/-- A header with zeros in front of the largest number there is. -/
def sampleLargest : Header := ⟨"a", " +0004294967295", "0", " error", " x"⟩

/-- A header with a digit of another script. -/
def sampleForeignDigit : Header := ⟨"b", "7", "\u0663 ", " note", ""⟩

theorem build_outcome_sampleForeignDigit :
    let block : Block := { lineNumber := 2, header := sampleForeignDigit.text }
    let other : Block := { lineNumber := 5, header := "c:7:\u0663 : error: y", context := #["", "^"] }
    let error : BlockError := .notAnInteger .column "\u0663 "
    (∃ d, Block.build { lineNumber := 1, header := sampleLargest.text } = .ok d) ∧
      sampleForeignDigit.Opens block.header ∧ sampleForeignDigit.Fault error ∧
      block.build = .error error ∧ other.build = .error error ∧
      { lineNumber := 2, header := sampleForeignDigit.text, error } ∈
        (Extraction.ofText (sampleLargest.text ++ "\n" ++ sampleForeignDigit.text)).skipped := by
  intro block other error
  have hlargest : sampleLargest.FieldsOf sampleLargest.text :=
    ⟨rfl, by decide +kernel, by decide +kernel, by decide +kernel, by decide +kernel⟩
  have hfields : sampleForeignDigit.FieldsOf block.header :=
    ⟨rfl, by decide +kernel, by decide +kernel, by decide +kernel, by decide +kernel⟩
  have hother : Header.FieldsOf ⟨"c", "7", "\u0663 ", " error", " y"⟩ other.header :=
    ⟨by decide +kernel, by decide +kernel, by decide +kernel, by decide +kernel, by decide +kernel⟩
  have hopens : sampleForeignDigit.Opens block.header := ⟨hfields, by decide +kernel⟩
  have hfault : sampleForeignDigit.Fault error :=
    .column (by decide +kernel) (by decide +kernel)
  have hblock : block ∈ (Segments.ofText
      (sampleLargest.text ++ "\n" ++ sampleForeignDigit.text)).toList := by
    rw [Segments.toList_ofText]
    decide +kernel
  obtain ⟨hbuild, hsame, hskipped⟩ := build_outcome
  have herror : block.build = .error error := ((hbuild _ _ hfields).2 error).2 hfault
  refine ⟨?_, hopens, hfault, herror, ?_, ?_⟩
  · exact (hbuild _ _ hlargest).1.2 ⟨by decide +kernel, by decide +kernel⟩
  · exact (hsame block other _ _ hfields hother rfl rfl error).1 herror
  · exact (hskipped _ _).2 ⟨block, hblock, rfl, rfl, _, hopens, hfault⟩

end BuildDiagnostics
