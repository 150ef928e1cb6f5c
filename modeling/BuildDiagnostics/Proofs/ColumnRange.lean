import BuildDiagnostics.Proofs.Growth
import BuildDiagnostics.Proofs.PositionGrammar

/-!
# Which columns a diagnostic covers

The header of a block counts lines and columns from 1, its diagnostic counts them from 0, and the
third line of the block, blanks at its ends aside, is as wide as the range (`Diagnostic.Covers`). All
of it is arithmetic that is cut off twice: a position 0 stays where 1 is, and no range reaches beyond
the last column. Cutting off never swallows a range, since a header cannot name the last column: its
numbers have 32 bits and count from 1 (`startCol_lt_columnAfter_iff`). So a range is empty, and is not
shown, exactly when nothing is underlined (`extract_covers`).
-/

namespace BuildDiagnostics

/-! ## Numbers of a header -/

namespace Text.Decimal

/-- The number that a field without blanks denotes. -/
def magnitude : List Char → Nat
  | '+' :: cs => value cs
  | cs => value cs

theorem magnitude_of_read? {cs : List Char} {n : Nat} (h : read? cs = some n) :
    magnitude cs = n := by
  unfold read? at h
  split at h
  · exact (readUnsigned?_eq_some_iff.1 h).2.2
  · next hsign =>
    rw [magnitude]
    · exact (readUnsigned?_eq_some_iff.1 h).2.2
    · exact hsign

theorem toNat_of_readUInt32? {cs : List Char} {n : UInt32} (h : readUInt32? cs = some n) :
    n.toNat = magnitude cs := by
  unfold readUInt32? at h
  split at h
  · next m hread =>
    split at h
    · next hm =>
      cases h
      rw [magnitude_of_read? hread]
      exact UInt32.toNat_ofNat_of_lt' hm
    · cases h
  · cases h

end Text.Decimal

/-- The number that stands in a field of a header. -/
def fieldNumber (field : String) : Nat :=
  Text.Decimal.magnitude (Text.trim field.toList)

namespace Block

/-- A position counts from 0 what the header counts from 1; a 0 in the header is taken for a 1. -/
theorem readPosition_eq_ok {field : PositionField} {raw : String} {position : UInt32}
    (h : readPosition field raw = .ok position) :
    IsPosition raw ∧ position.toNat = max (fieldNumber raw) 1 - 1 := by
  unfold readPosition at h
  split at h
  · next value hvalue =>
    have hnumber : value.toNat = fieldNumber raw := Text.Decimal.toNat_of_readUInt32? hvalue
    refine ⟨Text.Decimal.isSome_readUInt32?_iff.1 (Option.isSome_of_eq_some hvalue), ?_⟩
    cases h
    rw [← hnumber]
    split
    · next hzero =>
      rw [hzero]
      rfl
    · next hne =>
      have hpos : 0 < value.toNat := Nat.pos_of_ne_zero fun e => hne (UInt32.toNat_inj.1 e)
      have hone : (1 : UInt32).toNat = 1 := rfl
      have hle : 1 ≤ value := UInt32.le_iff_toNat_le.2 hpos
      rw [UInt32.toNat_sub_of_le _ _ hle]
      omega
  · cases h

/-! ## The third line -/

/-- How many characters the third line has, blanks at its ends aside. -/
def underlineLength (block : Block) : Nat :=
  match block.lines[2]? with
  | some third => (Text.trim third.toList).length
  | none => 0

/-- The block has a third line, and that line is not blank. -/
def Underlined (block : Block) : Prop :=
  ∃ third, block.lines[2]? = some third ∧ ∃ c ∈ third.toList, Text.isBlank c = false

theorem lines_getElem?_two (block : Block) : block.lines[2]? = block.annotation? := by
  rw [lines, List.getElem?_cons_succ, annotation?, Array.getElem?_toList]

theorem width_eq_underlineLength (block : Block) : block.width = block.underlineLength := by
  rw [width, underlineLength, lines_getElem?_two]
  cases block.annotation? with
  | none => rfl
  | some third => rfl

end Block

theorem Text.trim_eq_nil_iff {cs : List Char} :
    trim cs = [] ↔ ∀ c ∈ cs, isBlank c = true := by
  rw [trim, dropEndWhile, List.reverse_eq_nil_iff, List.dropWhile_eq_nil_iff]
  constructor
  · intro h
    -- the blanks in front are followed by nothing but blanks, so there is nothing after them
    have hrest : cs.dropWhile isBlank = [] := by
      by_contra hne
      have hhead := List.head_dropWhile_not isBlank hne
      rw [h _ (List.mem_reverse.2 (List.head_mem hne))] at hhead
      cases hhead
    exact List.dropWhile_eq_nil_iff.1 hrest
  · intro h c hc
    exact h c ((List.dropWhile_sublist _).subset (List.mem_reverse.1 hc))

theorem Block.underlineLength_pos_iff {block : Block} :
    0 < block.underlineLength ↔ block.Underlined := by
  unfold underlineLength Underlined
  split
  · next third hthird =>
    rw [List.length_pos_iff, Ne, Text.trim_eq_nil_iff]
    simp [hthird]
  · next hnone => simp [hnone]

/-! ## The range -/

theorem startCol_lt_columnAfter_iff {start : UInt32} (h : start < maxPosition) (width : Nat) :
    start < columnAfter start width ↔ 0 < width := by
  constructor
  · intro hlt
    rcases Nat.eq_zero_or_pos width with rfl | hpos
    · rw [columnAfter_zero] at hlt
      exact absurd hlt (UInt32.lt_irrefl start)
    · exact hpos
  · intro hpos
    exact lt_columnAfter h (Nat.ne_of_gt hpos)

/-- It makes no difference whether a width is cut off at 32 bits before it is added. -/
theorem columnAfter_min (start : UInt32) (width : Nat) :
    columnAfter start (min width maxPosition.toNat) = columnAfter start width := by
  apply UInt32.toNat_inj.1
  rw [toNat_columnAfter, toNat_columnAfter]
  omega

theorem toNat_columnAfter_sub (start : UInt32) (width : Nat) :
    (columnAfter start width - start).toNat = min width (maxPosition.toNat - start.toNat) := by
  have hlt := start.toNat_lt
  have hmax : maxPosition.toNat = 2 ^ 32 - 1 := rfl
  rw [UInt32.toNat_sub_of_le _ _ (le_columnAfter start width), toNat_columnAfter]
  omega

/-- What the range of a diagnostic is, by the numbers in the header and the width underlined. -/
structure Diagnostic.Covers (d : Diagnostic) (line column width : Nat) : Prop where
  line : d.line.toNat = max line 1 - 1
  line_lt : d.line < maxPosition
  startCol : d.startCol.toNat = max column 1 - 1
  startCol_lt : d.startCol < maxPosition
  endCol : d.endCol.toNat = min (d.startCol.toNat + width) maxPosition.toNat
  endCol_cut : d.endCol = columnAfter d.startCol (min width maxPosition.toNat)
  startCol_le : d.startCol ≤ d.endCol
  width : d.width.toNat = min width (maxPosition.toNat - d.startCol.toNat)

theorem Diagnostic.covers_ofWidth {header : Header} {line startCol : UInt32}
    (hline : Block.readPosition .line header.line = .ok line)
    (hcolumn : Block.readPosition .column header.column = .ok startCol) (location : Location)
    (severity : Severity) (message : String) (width : Nat) :
    (ofWidth location severity message line startCol width).Covers
      (fieldNumber header.line) (fieldNumber header.column) width where
  line := (Block.readPosition_eq_ok hline).2
  line_lt := Block.readPosition_lt hline
  startCol := (Block.readPosition_eq_ok hcolumn).2
  startCol_lt := Block.readPosition_lt hcolumn
  endCol := toNat_columnAfter startCol width
  endCol_cut := (columnAfter_min startCol width).symm
  startCol_le := le_columnAfter startCol width
  width := toNat_columnAfter_sub startCol width

/-! ## The range as it is shown -/

/-- The line of a diagnostic without its range. -/
def Header.shown (h : Header) (severity : Severity) (line column : Nat) : String :=
  h.path ++ ":" ++ Text.Decimal.text line ++ ":" ++ Text.Decimal.text column ++ ": "
    ++ severity.label ++ ":" ++ h.message

/-- A range from one column to before another, both counted from 1. -/
def bracketed (first last : Nat) : String :=
  " [" ++ Text.Decimal.text first ++ ".." ++ Text.Decimal.text last ++ "]"

theorem Diagnostic.Covers.displayLine_eq {d : Diagnostic} {h : Header} {line column width : Nat}
    (hd : d.Covers line column width) (htold : d.Says h) :
    d.displayLine = h.shown d.severity (max line 1) (max column 1) ++ d.rangeSuffix := by
  have hline : d.line.toNat + 1 = max line 1 := by
    rw [hd.line]
    omega
  have hcolumn : d.startCol.toNat + 1 = max column 1 := by
    rw [hd.startCol]
    omega
  rw [Header.shown, ← hline, ← hcolumn, ← htold.location, ← htold.message]
  rfl

theorem Diagnostic.Covers.rangeSuffix_eq {d : Diagnostic} {line column width : Nat}
    (hd : d.Covers line column width) (hlt : d.startCol < d.endCol) :
    d.rangeSuffix = bracketed (max column 1) (min (max column 1 + width) (2 ^ 32)) := by
  have hmax : maxPosition.toNat = 2 ^ 32 - 1 := rfl
  have hcolumn : d.startCol.toNat + 1 = max column 1 := by
    rw [hd.startCol]
    omega
  have hend : d.endCol.toNat + 1 = min (max column 1 + width) (2 ^ 32) := by
    rw [hd.endCol, ← hcolumn]
    omega
  rw [rangeSuffix, if_pos hlt, bracketed, ← hend, ← hcolumn]
  rfl

/-! ## Blocks of a text -/

theorem Block.covers_of_build {block : Block} {h : Header} (hf : h.FieldsOf block.header)
    {d : Diagnostic} (hbuild : block.build = .ok d) :
    IsPosition h.line ∧ IsPosition h.column ∧
      d.Covers (fieldNumber h.line) (fieldNumber h.column) block.underlineLength ∧
      (d.startCol < d.endCol ↔ block.Underlined) := by
  obtain ⟨h', line, startCol, hheader, hline, hcolumn, rfl⟩ := build_eq_ok_iff.1 hbuild
  obtain rfl := hf.unique (Header.ofLine_eq_ok_iff_fieldsOf.1 hheader)
  have hcovers := Diagnostic.covers_ofWidth hline hcolumn ⟨h.path⟩ (.ofToken h.severity) h.message
    block.width
  rw [← width_eq_underlineLength, ← underlineLength_pos_iff, ← width_eq_underlineLength]
  exact ⟨(readPosition_eq_ok hline).1, (readPosition_eq_ok hcolumn).1, hcovers,
    startCol_lt_columnAfter_iff (readPosition_lt hcolumn) block.width⟩

/-- **The range of an extracted diagnostic** is what the header and the third line of its block say,
cut off at the last column. It is empty just when nothing is underlined, and shown when it is not. -/
theorem extract_covers (text : String) :
    (∀ block ∈ (Segments.ofText text).toList, ∀ d, block.build = .ok d →
      ∃ h : Header, h.Opens block.header ∧ IsPosition h.line ∧ IsPosition h.column ∧
        let line := fieldNumber h.line
        let column := fieldNumber h.column
        let width := block.underlineLength
        let shown := h.shown d.severity (max line 1) (max column 1)
        d.Covers line column width ∧
          (d.startCol < d.endCol ↔ block.Underlined) ∧
          (block.Underlined → d.displayLine =
            shown ++ bracketed (max column 1) (min (max column 1 + width) (2 ^ 32))) ∧
          (¬ block.Underlined → d.displayLine = shown)) ∧
      ∀ d, d ∈ (extract text).diagnostics ↔
        ∃ block ∈ (Segments.ofText text).toList, block.build = .ok d := by
  constructor
  · intro block hblock d hbuild
    rw [Segments.toList_ofText] at hblock
    obtain ⟨h, ho⟩ := isBlockStart_iff_exists_opens.1 (isBlockStart_of_mem_blocksAfter hblock)
    obtain ⟨hline, hcolumn, hcovers, hrange⟩ := Block.covers_of_build ho.toFieldsOf hbuild
    have hdisplay := hcovers.displayLine_eq (Block.says_of_build ho hbuild)
    refine ⟨h, ho, hline, hcolumn, hcovers, hrange, fun hunder => ?_, fun hplain => ?_⟩
    · rw [hdisplay, hcovers.rangeSuffix_eq (hrange.2 hunder)]
    · have hsuffix : d.rangeSuffix = "" := if_neg (mt hrange.1 hplain)
      rw [hdisplay, hsuffix, String.append_empty]
  · exact fun d => mem_extract_iff_exists_block

/-- A header in the last column that can be named, with more underlined than fits. -/
def sampleLastColumn : Header := ⟨"a", "0", "4294967295", " error", " x"⟩

theorem extract_covers_sampleLastColumn :
    let text := "building\n" ++ sampleLastColumn.text ++ "\nsrc\n \u00a0^~~ \n"
    ∃ block ∈ (Segments.ofText text).toList, ∃ d, block.build = .ok d ∧
      block.underlineLength = 3 ∧ d.line.toNat = 0 ∧ d.startCol.toNat = 2 ^ 32 - 2 ∧
      d.width.toNat = 1 ∧
      d.displayLine = "a:1:4294967295: error: x [4294967295..4294967296]" := by
  intro text
  let block : Block := {
    lineNumber := 2
    header := sampleLastColumn.text
    context := #["src", " \u00a0^~~ "] }
  have hblock : block ∈ (Segments.ofText text).toList := by
    rw [Segments.toList_ofText]
    decide +kernel
  have hbuild : block.build = .ok (.ofWidth ⟨"a"⟩ .error " x" 0 4294967294 3) := by
    decide +kernel
  have hlength : block.underlineLength = 3 := by decide +kernel
  have hfields : sampleLastColumn.FieldsOf block.header :=
    ⟨rfl, by decide +kernel, by decide +kernel, by decide +kernel, by decide +kernel⟩
  have hunder : block.Underlined := Block.underlineLength_pos_iff.1 (by rw [hlength]; decide)
  obtain ⟨h, ho, -, -, hcovers, -, hshown, -⟩ := (extract_covers text).1 block hblock _ hbuild
  obtain rfl := ho.toFieldsOf.unique hfields
  have hstart : Diagnostic.startCol (.ofWidth ⟨"a"⟩ .error " x" 0 4294967294 3) = 4294967294 := rfl
  refine ⟨block, hblock, _, hbuild, hlength, hcovers.line.trans (by decide +kernel),
    hcovers.startCol.trans (by decide +kernel), ?_, ?_⟩
  · rw [hcovers.width, hlength, hstart]
    rfl
  · rw [hshown hunder, hlength]
    decide +kernel

end BuildDiagnostics
