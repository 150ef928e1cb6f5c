import BuildDiagnostics.Build.Session
import BuildDiagnostics.Proofs.Concatenation
import BuildDiagnostics.Proofs.Decoding

/-!
# The text of captured output

Captured output is decoded once, at its end, so the chunks it came in are not seen. Its text can also
be had line by line: the lines of the text are the lines of the bytes, each decoded on its own
(`lines_decode`). What one line holds, valid or not, reaches no other line, so a header is found and
read whatever stands around it, and only its width is settled by the lines after it
(`exists_block_of_line`).
-/

namespace BuildDiagnostics

namespace Text

/-- The line without the one carriage return that may stand at its end. -/
def dropReturnByte (line : List UInt8) : List UInt8 :=
  if line.getLast? = some 0x0D then line.dropLast else line

/-- The lines of some bytes, cut where the lines of a text are. -/
def linesOfBytes (bytes : List UInt8) : List (List UInt8) :=
  let pieces := splitOn 0x0A bytes
  pieces.dropLast.map dropReturnByte ++ (pieces.getLast?.filter (· ≠ [])).toList

namespace Utf8

theorem dropReturn_decode (line : List UInt8) :
    dropReturn (decode line).toList = (decode (dropReturnByte line)).toList := by
  have hiff : (decode line).toList.getLast? = some '\r' ↔ line.getLast? = some 0x0D :=
    getLast?_decode_eq_some_iff (b := 0x0D) (by decide)
  unfold dropReturn dropReturnByte
  by_cases h : line.getLast? = some 0x0D
  · obtain ⟨front, rfl⟩ := List.getLast?_eq_some_iff.1 h
    rw [if_pos (hiff.2 h), if_pos h, toList_decode_append_singleton front (by decide),
      List.dropLast_concat, List.dropLast_concat]
  · rw [if_neg (hiff.not.2 h), if_neg h]

end Utf8

open Utf8 (decode)

/-- **Each line is decoded on its own.** -/
theorem lines_decode (bytes : List UInt8) : lines (decode bytes) = (linesOfBytes bytes).map decode := by
  have hfeed : (0x0A : UInt8) < 0x80 := by decide
  have hpieces := Utf8.splitOn_decode hfeed bytes
  rw [Utf8.asciiChar_feed] at hpieces
  have hends (pieces : List (List UInt8)) :
      ((pieces.map fun piece => (decode piece).toList).dropLast.map dropReturn).map String.ofList =
        (pieces.dropLast.map dropReturnByte).map decode := by
    simp [← List.map_dropLast, Utf8.dropReturn_decode]
  have hlast (last? : Option (List UInt8)) :
      ((last?.map fun piece => (decode piece).toList).filter (· ≠ [])).map String.ofList =
        (last?.filter (· ≠ [])).map decode := by
    cases last? with
    | none => rfl
    | some piece =>
      have hempty : (decode piece).toList = [] ↔ piece = [] :=
        String.toList_eq_nil_iff.trans Utf8.decode_eq_empty_iff
      by_cases h : piece = []
      · rw [h]
        rfl
      · simp [Option.filter, h, hempty]
  rw [lines, linesOf, linesOfBytes, hpieces]
  rw [List.map_append, hends, List.getLast?_map, ← Option.toList_map, hlast, Option.toList_map,
    List.map_append]

end Text

/-! ## Blocks of such a text -/

theorem exists_of_mem_blocksAfter {block : Block} {seen : Nat} {lines : List String}
    (h : block ∈ blocksAfter seen lines) :
    ∃ front header rest, lines = front ++ header :: rest ∧ isBlockStart header = true ∧
      block = Block.addLines { lineNumber := seen + front.length + 1, header }
        (rest.takeWhile isContinuation) := by
  induction lines generalizing seen with
  | nil => cases h
  | cons line lines ih =>
    have hlater (hmem : block ∈ blocksAfter (seen + 1) lines) :
        ∃ front header rest, line :: lines = front ++ header :: rest ∧
          isBlockStart header = true ∧
          block = Block.addLines { lineNumber := seen + front.length + 1, header }
            (rest.takeWhile isContinuation) := by
      obtain ⟨front, header, rest, hlines, hheader, hblock⟩ := ih hmem
      refine ⟨line :: front, header, rest, congrArg (line :: ·) hlines, hheader, ?_⟩
      rw [hblock, List.length_cons, Nat.add_right_comm seen 1, Nat.add_assoc seen]
    cases hline : isBlockStart line with
    | true =>
      rw [blocksAfter_header hline] at h
      rcases List.mem_cons.1 h with hblock | hmem
      · exact ⟨[], line, lines, rfl, hline, hblock⟩
      · exact hlater hmem
    | false =>
      rw [blocksAfter_continuation hline] at h
      exact hlater h

theorem mem_blocksAfter (front : List String) {header : String} (h : isBlockStart header = true)
    (rest : List String) :
    Block.addLines { lineNumber := front.length + 1, header } (rest.takeWhile isContinuation) ∈
      blocksAfter 0 (front ++ header :: rest) := by
  have hstarts : StartsBlock (header :: rest) := by
    rintro _ ⟨⟩
    exact h
  rw [blocksAfter_append_header 0 front hstarts, ← blocksAfter_add, blocksAfter_header h,
    Nat.zero_add]
  exact List.mem_append_right _ List.mem_cons_self

/-- Two lines decide about the second line of what comes before the next header. -/
theorem getElem?_one_takeWhile {xs ys : List String} (h : xs.take 2 = ys.take 2) (p : String → Bool) :
    (xs.takeWhile p)[1]? = (ys.takeWhile p)[1]? := by
  rw [← List.getElem?_take_of_lt Nat.one_lt_two, List.take_takeWhile, h, ← List.take_takeWhile,
    List.getElem?_take_of_lt Nat.one_lt_two]

/-- A block is found again among any lines that hold its header in the same place. The two lines after
the header settle what else is read of it. -/
theorem exists_block_of_header {xs ys : List String} {block : Block}
    (hblock : block ∈ blocksAfter 0 xs)
    (h : ys[block.lineNumber - 1]? = xs[block.lineNumber - 1]?) :
    ∃ block' ∈ blocksAfter 0 ys, block'.lineNumber = block.lineNumber ∧
      block'.header = block.header ∧
      ((ys.drop block.lineNumber).take 2 = (xs.drop block.lineNumber).take 2 →
        block'.annotation? = block.annotation?) := by
  obtain ⟨front, header, rest, rfl, hheader, rfl⟩ := exists_of_mem_blocksAfter hblock
  have hnumber : 0 + front.length + 1 - 1 = front.length := by omega
  have hxs : (front ++ header :: rest)[front.length]? = some header := by
    rw [List.getElem?_append_right (Nat.le_refl _), Nat.sub_self, List.getElem?_cons_zero]
  dsimp only [Block.addLines] at h
  rw [hnumber, hxs] at h
  obtain ⟨hlt, hget⟩ := List.getElem?_eq_some_iff.1 h
  have hys : ys = ys.take front.length ++ header :: ys.drop (front.length + 1) := by
    rw [← hget, List.getElem_cons_drop, List.take_append_drop]
  have hmem := mem_blocksAfter (ys.take front.length) hheader (ys.drop (front.length + 1))
  rw [← hys, List.length_take_of_le (Nat.le_of_lt hlt)] at hmem
  refine ⟨_, hmem, ?_, rfl, fun hrest => ?_⟩
  · show front.length + 1 = 0 + front.length + 1
    rw [Nat.zero_add]
  · have hdrop : (front ++ header :: rest).drop (front.length + 1) = rest := by
      rw [← List.drop_drop, List.drop_left, List.drop_one, List.tail_cons]
    dsimp only [Block.addLines] at hrest
    rw [Nat.zero_add, hdrop] at hrest
    simpa [Block.annotation?, Block.addLines] using getElem?_one_takeWhile hrest isContinuation

open Text (linesOfBytes)
open Text.Utf8 (decode)

/-- The same of blocks of decoded bytes, told by the lines of the bytes. -/
theorem exists_block_of_line {bytes bytes' : List UInt8} {block : Block}
    (hblock : block ∈ (Segments.ofText (decode bytes)).toList)
    (h : (linesOfBytes bytes')[block.lineNumber - 1]? =
      (linesOfBytes bytes)[block.lineNumber - 1]?) :
    ∃ block' ∈ (Segments.ofText (decode bytes')).toList, block'.lineNumber = block.lineNumber ∧
      block'.header = block.header ∧
      (((linesOfBytes bytes').drop block.lineNumber).take 2 =
          ((linesOfBytes bytes).drop block.lineNumber).take 2 →
        block'.width = block.width) := by
  rw [Segments.toList_ofText, Text.lines_decode] at hblock
  have hheader : ((linesOfBytes bytes').map decode)[block.lineNumber - 1]? =
      ((linesOfBytes bytes).map decode)[block.lineNumber - 1]? := by
    rw [List.getElem?_map, List.getElem?_map, h]
  obtain ⟨block', hmem, hnumber, hsame, hannotation⟩ := exists_block_of_header hblock hheader
  rw [← Text.lines_decode, ← Segments.toList_ofText] at hmem
  refine ⟨block', hmem, hnumber, hsame, fun hnext => ?_⟩
  rw [Block.width, Block.width, hannotation]
  rw [← List.map_drop, ← List.map_drop, ← List.map_take, ← List.map_take, hnext]

/-! ## Captured output -/

namespace Capture

open Text.Utf8 (asciiChar encode isAscii isAsciiChar ofBytes?)

/-- What is captured when the chunks arrive one after the other. -/
def ofChunks (chunks : List (List UInt8)) : Capture :=
  chunks.foldl push {}

theorem toList_bytes_ofChunks (chunks : List (List UInt8)) :
    (ofChunks chunks).bytes.toList = chunks.flatten := by
  have hfoldl (c : Capture) :
      (chunks.foldl push c).bytes.toList = c.bytes.toList ++ chunks.flatten := by
    induction chunks generalizing c with
    | nil => rw [List.foldl_nil, List.flatten_nil, List.append_nil]
    | cons chunk chunks ih =>
      rw [List.foldl_cons, ih, toList_bytes_push, List.flatten_cons, List.append_assoc]
  exact hfoldl {}

theorem text_ofChunks (chunks : List (List UInt8)) :
    (ofChunks chunks).text = decode chunks.flatten := by
  rw [text, toList_bytes_ofChunks]

/-- **The text of captured output.** It depends on the bytes alone, and is the text they encode if
there is one; a decoder that reads strictly first and replaces only where it must gives the same. Cuts
beside an ASCII byte are clean, so ASCII bytes stay where they are and no others of them appear, and
each line is decoded on its own. So a header is found whatever other lines hold, and what it says is
read off its own line; the two lines after it settle the width. -/
theorem text_of_captured (chunks : List (List UInt8)) :
    let bytes := chunks.flatten
    let text := (ofChunks chunks).text
    let textOf (part : List UInt8) : String := (ofChunks [part]).text
    ((∀ chunks', chunks'.flatten = bytes → (ofChunks chunks').text = text) ∧
        (∀ t, bytes = encode t → text = t) ∧
        (∀ t, ofBytes? bytes = some t ↔ bytes = encode t) ∧
        text = (ofBytes? bytes).getD (decode bytes)) ∧
      (∀ xs ys, bytes = xs ++ ys →
        ((∃ b ∈ xs.getLast?, b < 0x80) ∨ ∃ b ∈ ys.head?, b < 0x80) →
        text = textOf xs ++ textOf ys) ∧
      (∀ xs b ys, bytes = xs ++ b :: ys → b < 0x80 →
        text = textOf xs ++ String.singleton (asciiChar b) ++ textOf ys) ∧
      text.toList.filter isAsciiChar = (bytes.filter isAscii).map asciiChar ∧
      text.toList.count '\n' = bytes.count 0x0A ∧
      Text.lines text = (linesOfBytes bytes).map textOf ∧
      ∀ bytes' : List UInt8, ∀ block ∈ (Segments.ofText text).toList,
        (linesOfBytes bytes')[block.lineNumber - 1]? =
          (linesOfBytes bytes)[block.lineNumber - 1]? →
        ∃ block' ∈ (Segments.ofText (textOf bytes')).toList,
          block'.lineNumber = block.lineNumber ∧ block'.header = block.header ∧
            block'.build = Header.diagnostic block.header block'.width ∧
            block.build = Header.diagnostic block.header block.width ∧
            (((linesOfBytes bytes').drop block.lineNumber).take 2 =
              ((linesOfBytes bytes).drop block.lineNumber).take 2 → block'.width = block.width) := by
  intro bytes text textOf
  have htext : text = decode bytes := text_ofChunks chunks
  have htextOf (part : List UInt8) : textOf part = decode part := by
    show (ofChunks [part]).text = _
    rw [text_ofChunks, List.flatten_singleton]
  refine ⟨⟨?_, ?_, ?_, ?_⟩, ?_, ?_, ?_, ?_, ?_, ?_⟩
  · intro chunks' hchunks
    rw [text_ofChunks, hchunks, htext]
  · intro t ht
    rw [htext, ht, Text.Utf8.decode_encode]
  · exact fun t => Text.Utf8.ofBytes?_eq_some_iff
  · rw [htext, Text.Utf8.getD_ofBytes?_decode]
  · intro xs ys hbytes hcut
    rw [htext, hbytes, Text.Utf8.decode_append hcut, htextOf, htextOf]
  · intro xs b ys hbytes hb
    rw [htext, hbytes, Text.Utf8.decode_append_cons xs hb, htextOf, htextOf]
  · rw [htext, Text.Utf8.filter_isAsciiChar_decode]
  · rw [htext]
    exact Text.Utf8.count_asciiChar_decode (b := 0x0A) (by decide) bytes
  · rw [htext, Text.lines_decode]
    exact List.map_congr_left fun part _ => (htextOf part).symm
  · intro bytes' block hblock hlines
    rw [htext] at hblock
    obtain ⟨block', hmem, hnumber, hheader, hwidth⟩ := exists_block_of_line hblock hlines
    rw [← htextOf] at hmem
    refine ⟨block', hmem, hnumber, hheader, ?_, rfl, hwidth⟩
    rw [Block.build_eq, hheader]

/-- Output in two chunks: a character is cut in two, and another one breaks off at the end of a line. -/
def sampleChunks : List (List UInt8) :=
  [Text.Utf8.encode "caf" ++ [0xC3], [0xA9, 0x0A, 0xE2, 0x82, 0x0A, 0xFF] ++ encode "a:1:1: error: x"]

/-- The same last line after two others. -/
def sampleBytes : List UInt8 :=
  encode "cafe\n\n" ++ [0xFF] ++ encode "a:1:1: error: x"

theorem text_of_captured_sampleChunks :
    let text := (ofChunks sampleChunks).text
    (ofChunks [sampleChunks.flatten]).text = text ∧
      text = "café" ++ "\n" ++ (ofChunks [sampleChunks.flatten.drop 6]).text ∧
      text.toList.count '\n' = 2 ∧
      Text.lines text = ["café", "\uFFFD", "\uFFFDa:1:1: error: x"] ∧
      ∃ block ∈ (Segments.ofText (ofChunks [sampleBytes]).text).toList,
        block.lineNumber = 3 ∧ block.header = "\uFFFDa:1:1: error: x" := by
  intro text
  obtain ⟨⟨hchunks, -⟩, -, hcut, -, hcount, hlines, hblocks⟩ := text_of_captured sampleChunks
  have hcafe : (ofChunks [encode "café"]).text = "café" := by
    rw [text_ofChunks, List.flatten_singleton, Text.Utf8.decode_encode]
  refine ⟨hchunks [sampleChunks.flatten] List.flatten_singleton, ?_, ?_, ?_, ?_⟩
  · have hbyte := hcut (encode "café") 0x0A (sampleChunks.flatten.drop 6) (by decide +kernel) (by decide)
    dsimp only at hbyte
    rw [hcafe] at hbyte
    exact hbyte
  · rw [hcount]
    decide +kernel
  · rw [hlines]
    decide +kernel
  · let block : Block := { lineNumber := 3, header := "\uFFFDa:1:1: error: x" }
    have hblock : block ∈ (Segments.ofText text).toList := by
      rw [Segments.toList_ofText, hlines]
      decide +kernel
    obtain ⟨block', hmem, hnumber, hheader, -, -, -⟩ :=
      hblocks sampleBytes block hblock (by decide +kernel)
    exact ⟨block', hmem, hnumber, hheader⟩

end Capture

end BuildDiagnostics
