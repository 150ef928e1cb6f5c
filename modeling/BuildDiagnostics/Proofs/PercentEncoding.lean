import Mathlib.Data.List.Basic
import BuildDiagnostics.Path.FileUri

/-!
# Reading a file URI back

`percentDecode` undoes percent-encoding, whichever bytes are encoded, as long as the percent sign is
one of them and no byte above ASCII is left as it is (`percentDecode_percentEncode`). A slash that is
encoded cannot be taken for a separator, so the segments of a URI are the encoded names of its path
(`segments_of_text`). What is asked of the writer of a URI is collected in `FileUri.Writes`; the
library's own `FileUri.ofResolved?` is such a writer (`writes_ofResolved?`).
-/

namespace BuildDiagnostics

namespace FileUri

/-- The bytes of a text in which a percent sign with two digits stands for one byte. -/
def percentDecode : List Char → List UInt8
  | [] => []
  | [c] => Text.Utf8.encodeChar c
  | [c, d] => Text.Utf8.encodeChar c ++ Text.Utf8.encodeChar d
  | c :: high :: low :: rest =>
    if c = '%' ∧ Text.Hexadecimal.isDigit high ∧ Text.Hexadecimal.isDigit low then
      UInt8.ofNat (16 * Text.Hexadecimal.digitValue high + Text.Hexadecimal.digitValue low)
        :: percentDecode rest
    else Text.Utf8.encodeChar c ++ percentDecode (high :: low :: rest)

/-- The segments of a URI, as they are written. Two slashes in a row and one at the end enclose no
segment. -/
def segments (uri : FileUri) : List (List Char) :=
  (Text.splitOn '/' (uri.text.toList.drop scheme.length)).filter (· ≠ [])

/-- The bytes that have to be encoded for a segment to be read back. -/
structure Separates (encoded : UInt8 → Bool) : Prop where
  percent : encoded 0x25 = true
  slash : encoded 0x2F = true
  of_nonAscii : ∀ b, 0x80 ≤ b → encoded b = true

/-- What is asked of a writer of URIs: it refuses just the paths that are not absolute, and writes a
slash and the encoded name for each component. The URI of the root has no component. -/
structure Writes (encoded : UInt8 → Bool) (write : Writer) : Prop where
  isSome_iff : ∀ path, (write path).isSome = true ↔ path.absolute = true
  text : ∀ path uri, write path = some uri → path.names ≠ [] →
    uri.text.toList = scheme.toList ++
      path.names.flatMap fun name => '/' :: percentEncode encoded name
  text_root : ∀ path uri, write path = some uri → path.names = [] →
    uri.text = scheme ∨ uri.text = scheme ++ "/"

/-! ## Bytes -/

theorem upper_eq (n : Nat) :
    Text.Hexadecimal.upper n = [(Nat.digitChar (n / 16)).toUpper, (Nat.digitChar (n % 16)).toUpper] :=
  rfl

theorem isDigit_toUpper : ∀ n, n < 16 →
    Text.Hexadecimal.isDigit (Nat.digitChar n).toUpper = true := by
  decide +kernel

theorem digitValue_toUpper : ∀ n, n < 16 →
    Text.Hexadecimal.digitValue (Nat.digitChar n).toUpper = n := by
  decide +kernel

theorem toUpper_ne_slash : ∀ n, n < 16 → (Nat.digitChar n).toUpper ≠ '/' := by
  decide +kernel

theorem percentDecode_percentByte (b : UInt8) (rest : List Char) :
    percentDecode (percentByte b ++ rest) = b :: percentDecode rest := by
  have hlt := b.toNat_lt
  have hhigh : b.toNat / 16 < 16 := by omega
  have hlow : b.toNat % 16 < 16 := by omega
  have hvalue : 16 * (b.toNat / 16) + b.toNat % 16 = b.toNat := by omega
  rw [percentByte, upper_eq, List.cons_append, List.cons_append, List.cons_append, List.nil_append,
    percentDecode, if_pos ⟨rfl, isDigit_toUpper _ hhigh, isDigit_toUpper _ hlow⟩,
    digitValue_toUpper _ hhigh, digitValue_toUpper _ hlow, hvalue, UInt8.ofNat_toNat]

theorem percentDecode_cons {c : Char} (h : c ≠ '%') (rest : List Char) :
    percentDecode (c :: rest) = Text.Utf8.encodeChar c ++ percentDecode rest := by
  match rest with
  | [] => exact (List.append_nil _).symm
  | [_] => rfl
  | _ :: _ :: _ => rw [percentDecode, if_neg fun hc => h hc.1]

theorem toNat_ofNat_ascii : ∀ {n : Nat}, n < 0x80 → (Char.ofNat n).toNat = n := by
  decide +kernel

theorem encodeChar_ofNat {b : UInt8} (h : b < 0x80) :
    Text.Utf8.encodeChar (Char.ofNat b.toNat) = [b] := by
  have hlt : b.toNat < 0x80 := UInt8.lt_iff_toNat_lt.1 h
  rw [Text.Utf8.encodeChar, toNat_ofNat_ascii hlt]
  dsimp only
  rw [if_pos hlt, UInt8.ofNat_toNat]

section Encoded

variable {encoded : UInt8 → Bool} (h : Separates encoded)
include h

theorem Separates.lt_of_eq_false {b : UInt8} (hb : encoded b = false) : b < 0x80 := by
  refine UInt8.not_le.1 fun hle => ?_
  rw [h.of_nonAscii b hle] at hb
  cases hb

/-- A byte that is not encoded is left as another character than any byte that is. -/
theorem Separates.ofNat_ne {b code : UInt8} (hb : encoded b = false) (hcode : encoded code = true)
    (hascii : code < 0x80) : Char.ofNat b.toNat ≠ Char.ofNat code.toNat := by
  intro e
  have hlt := UInt8.lt_iff_toNat_lt.1 (h.lt_of_eq_false hb)
  have hnat := congrArg Char.toNat e
  rw [toNat_ofNat_ascii hlt, toNat_ofNat_ascii (UInt8.lt_iff_toNat_lt.1 hascii)] at hnat
  rw [UInt8.toNat_inj.1 hnat, hcode] at hb
  cases hb

/-- **What is encoded is read back.** -/
theorem percentDecode_percentEncode (bytes : List UInt8) :
    percentDecode (percentEncode encoded bytes) = bytes := by
  induction bytes with
  | nil => rfl
  | cons b bytes ih =>
    rw [percentEncode] at ih
    rw [percentEncode, List.flatMap_cons]
    cases hb : encoded b with
    | true => rw [if_pos rfl, percentDecode_percentByte, ih]
    | false =>
      have hpercent : Char.ofNat b.toNat ≠ '%' := h.ofNat_ne hb h.percent (by decide)
      rw [if_neg Bool.false_ne_true, List.singleton_append, percentDecode_cons hpercent,
        encodeChar_ofNat (h.lt_of_eq_false hb), ih, List.singleton_append]

theorem slash_not_mem_percentEncode (bytes : List UInt8) :
    '/' ∉ percentEncode encoded bytes := by
  intro hmem
  obtain ⟨b, -, hb⟩ := List.mem_flatMap.1 hmem
  cases hencoded : encoded b with
  | true =>
    have hlt := b.toNat_lt
    rw [hencoded, if_pos rfl, percentByte, upper_eq, List.mem_cons, List.mem_cons,
      List.mem_singleton] at hb
    rcases hb with hb | hb | hb
    · exact absurd hb (by decide)
    · exact toUpper_ne_slash (b.toNat / 16) (by omega) hb.symm
    · exact toUpper_ne_slash (b.toNat % 16) (by omega) hb.symm
  | false =>
    rw [hencoded, if_neg Bool.false_ne_true, List.mem_singleton] at hb
    exact h.ofNat_ne hencoded h.slash (by decide) hb.symm

end Encoded

theorem percentEncode_ne_nil (encoded : UInt8 → Bool) {bytes : List UInt8} (h : bytes ≠ []) :
    percentEncode encoded bytes ≠ [] := by
  obtain ⟨b, rest, rfl⟩ := List.exists_cons_of_ne_nil h
  rw [percentEncode, List.flatMap_cons]
  cases encoded b <;> simp [percentByte]

end FileUri

/-! ## Segments -/

namespace Text

variable {α : Type} [DecidableEq α] {sep : α}

theorem splitOn_append_of_not_mem {xs : List α} (h : sep ∉ xs) (ys : List α) :
    splitOn sep (xs ++ ys) = (splitOn sep ys).modifyHead (xs ++ ·) := by
  obtain ⟨piece, pieces, e⟩ := List.exists_cons_of_ne_nil (splitOn_ne_nil sep ys)
  rw [e]
  induction xs with
  | nil => exact e
  | cons x xs ih =>
    rw [List.mem_cons, not_or] at h
    rw [List.cons_append, splitOn_cons, if_neg (Ne.symm h.1), ih h.2]
    rfl

/-- Pieces with a separator before each are read off again. -/
theorem splitOn_flatMap_cons {pieces : List (List α)} (h : ∀ piece ∈ pieces, sep ∉ piece) :
    splitOn sep (pieces.flatMap fun piece => sep :: piece) = [] :: pieces := by
  induction pieces with
  | nil => rfl
  | cons piece pieces ih =>
    have hpiece := h piece List.mem_cons_self
    rw [List.flatMap_cons, List.cons_append, splitOn_cons_self, splitOn_append_of_not_mem hpiece,
      ih fun piece' hmem => h piece' (List.mem_cons_of_mem piece hmem)]
    simp

end Text

namespace FileUri

theorem segments_of_text_root {uri : FileUri} (h : uri.text = scheme ∨ uri.text = scheme ++ "/") :
    uri.segments = [] := by
  rcases h with h | h
  · rw [segments, h]
    decide +kernel
  · rw [segments, h]
    decide +kernel

section Written

variable {encoded : UInt8 → Bool} (h : Separates encoded)
include h

/-- The segments of a URI that was written are the encoded names. -/
theorem segments_of_text {uri : FileUri} {names : List (List UInt8)} (hnames : [] ∉ names)
    (htext : uri.text.toList = scheme.toList ++
      names.flatMap fun name => '/' :: percentEncode encoded name) :
    uri.segments = names.map (percentEncode encoded) := by
  let written := names.map (percentEncode encoded)
  have hflat : (names.flatMap fun name => '/' :: percentEncode encoded name) =
      written.flatMap fun piece => '/' :: piece :=
    (List.flatMap_map ..).symm
  have hslash : ∀ piece ∈ written, '/' ∉ piece := by
    intro piece hpiece
    obtain ⟨name, -, rfl⟩ := List.mem_map.1 hpiece
    exact slash_not_mem_percentEncode h _
  have hne : ∀ piece ∈ written, decide (piece ≠ []) = true := by
    intro piece hpiece
    obtain ⟨name, hname, rfl⟩ := List.mem_map.1 hpiece
    exact decide_eq_true (percentEncode_ne_nil encoded fun hnil => hnames (hnil ▸ hname))
  -- the text goes on with a slash after the scheme, so the first piece is empty and left out
  rw [segments, htext, List.drop_left' String.length_toList, hflat, Text.splitOn_flatMap_cons hslash,
    List.filter_cons_of_neg (by decide), List.filter_eq_self.2 hne]

/-- **The names of a path are read back from its URI.** -/
theorem percentDecode_segments {write : Writer} (hwrite : Writes encoded write)
    {path : Path.Resolved} {uri : FileUri} (huri : write path = some uri)
    (hnames : [] ∉ path.names) : uri.segments.map percentDecode = path.names := by
  by_cases hroot : path.names = []
  · rw [segments_of_text_root (hwrite.text_root path uri huri hroot), hroot]
    rfl
  · rw [segments_of_text h hnames (hwrite.text path uri huri hroot), List.map_map]
    exact List.map_id'' (fun name => percentDecode_percentEncode h name) _

end Written

/-! ## The library's writer -/

theorem isEncoded_of_nonAscii {b : UInt8} (h : 0x80 ≤ b) : isEncoded b = true := by
  have hlow : 0x7F ≤ b := UInt8.le_trans (by decide) h
  rw [isEncoded, decide_eq_true hlow, Bool.or_true, Bool.true_or]

theorem separates_isEncoded : Separates isEncoded where
  percent := by decide +kernel
  slash := by decide +kernel
  of_nonAscii _ := isEncoded_of_nonAscii

/-- The library writes URIs as it is asked of a writer. -/
theorem writes_ofResolved? : Writes isEncoded ofResolved? where
  isSome_iff path := by
    rw [ofResolved?]
    cases path.absolute <;> simp
  text path uri h hnames := by
    rw [ofResolved?] at h
    split at h
    · cases h
      have hsome : path.names.isEmpty = false := by simpa using hnames
      simp only [hsome, Bool.false_eq_true, ↓reduceIte, String.toList_append, String.toList_ofList]
    · cases h
  text_root path uri h hnames := by
    rw [ofResolved?] at h
    split at h
    · cases h
      rw [hnames]
      exact .inr rfl
    · cases h

end FileUri

end BuildDiagnostics
