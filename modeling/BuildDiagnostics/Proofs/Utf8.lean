import BuildDiagnostics.Text.Utf8

/-!
# What is encoded is decoded

Fed with the bytes of a character, a decoder that stands between two characters ends up between two
characters again, with that character written (`foldl_feed_encodeChar`). The leads of each length and
the bytes after them are looked at separately: a lead fixes the bits it carries and the bounds on the
second byte (`open?_two`, `open?_three`, `open?_four`), every other byte adds six bits (`feed_inside`).
From these come the sequences of each length, for any bits that keep the bounds (`foldl_feed_two`,
`foldl_feed_three`, `foldl_feed_four`).
So a text is read back from its bytes (`decode_encode`).
-/

namespace BuildDiagnostics.Text.Utf8

namespace Decoder

/-! ## Leads -/

theorem open?_one : ∀ n, n < 0x80 → open? (UInt8.ofNat n) = some (.inl (Char.ofNat n)) := by
  decide +kernel

theorem open?_two : ∀ n, n < 0x20 → 2 ≤ n →
    open? (UInt8.ofNat (0xC0 + n)) = some (.inr (.inside n 0 contLow contHigh)) := by
  decide +kernel

/-- The second byte is bounded so that no shorter form would do and no surrogate comes out. -/
theorem open?_three : ∀ n, n < 0x10 →
    open? (UInt8.ofNat (0xE0 + n)) =
      some (.inr (.inside n 1 (if n = 0 then 0xA0 else contLow)
        (if n = 0x0D then 0x9F else contHigh))) := by
  decide +kernel

/-- The second byte is bounded so that no shorter form would do and the last code point is kept. -/
theorem open?_four : ∀ n, n < 5 →
    open? (UInt8.ofNat (0xF0 + n)) =
      some (.inr (.inside n 2 (if n = 0 then 0x90 else contLow)
        (if n = 4 then 0x8F else contHigh))) := by
  decide +kernel

/-! ## Bytes after the lead -/

theorem toNat_cont {n : Nat} (h : n < 0x40) : (UInt8.ofNat (0x80 + n)).toNat = 0x80 + n :=
  UInt8.toNat_ofNat_of_lt' (by
    show 0x80 + n < 256
    omega)

theorem bits_cont : ∀ n, n < 0x40 → (UInt8.ofNat (0x80 + n) &&& 0x3F).toNat = n := by
  decide +kernel

theorem contLow_le (n : Nat) : contLow.toNat ≤ 0x80 + n :=
  Nat.le_add_right 0x80 n

theorem le_contHigh {n : Nat} (h : n < 0x40) : 0x80 + n ≤ contHigh.toNat :=
  Nat.add_le_add_left (Nat.le_of_lt_succ h) 0x80

section Continuation

variable {text : String} {code n : Nat} {low high : UInt8} (hn : n < 0x40)
  (hlow : low.toNat ≤ 0x80 + n) (hhigh : 0x80 + n ≤ high.toNat)
include hn hlow hhigh

theorem cont_mem : low ≤ UInt8.ofNat (0x80 + n) ∧ UInt8.ofNat (0x80 + n) ≤ high := by
  rw [UInt8.le_iff_toNat_le, UInt8.le_iff_toNat_le, toNat_cont hn]
  exact ⟨hlow, hhigh⟩

/-- A byte that continues a character adds six bits to it. -/
theorem feed_inside (more : Nat) :
    feed ⟨text, .inside code (more + 1) low high⟩ (UInt8.ofNat (0x80 + n)) =
      { text, state := .inside (code * 64 + n) more contLow contHigh } := by
  unfold feed
  dsimp only
  rw [if_pos (cont_mem hn hlow hhigh), bits_cont n hn]

theorem feed_last :
    feed ⟨text, .inside code 0 low high⟩ (UInt8.ofNat (0x80 + n)) =
      { text := text.push (Char.ofNat (code * 64 + n)) } := by
  unfold feed
  dsimp only
  rw [if_pos (cont_mem hn hlow hhigh), bits_cont n hn]

end Continuation

/-! ## Characters -/

theorem feed_char {b : UInt8} {c : Char} (h : open? b = some (.inl c)) (text : String) :
    feed { text } b = { text := text.push c } := by
  show feedFirst text b = _
  rw [feedFirst, h]

theorem feed_lead {b : UInt8} {state : State} (h : open? b = some (.inr state)) (text : String) :
    feed { text } b = { text, state } := by
  show feedFirst text b = _
  rw [feedFirst, h]

section Sequences

variable {n m k l : Nat} (hm : m < 0x40) (hk : k < 0x40) (hl : l < 0x40) (text : String)

include hm in
theorem foldl_feed_two (hn : n < 0x20) (hshort : 2 ≤ n) :
    [UInt8.ofNat (0xC0 + n), UInt8.ofNat (0x80 + m)].foldl feed { text } =
      { text := text.push (Char.ofNat (n * 64 + m)) } := by
  rw [List.foldl_cons, feed_lead (open?_two n hn hshort), List.foldl_cons,
    feed_last hm (contLow_le m) (le_contHigh hm), List.foldl_nil]

include hm hk in
theorem foldl_feed_three (hn : n < 0x10) (hshort : n = 0 → 0x20 ≤ m)
    (hsurrogate : n = 0x0D → m < 0x20) :
    [UInt8.ofNat (0xE0 + n), UInt8.ofNat (0x80 + m), UInt8.ofNat (0x80 + k)].foldl feed { text } =
      { text := text.push (Char.ofNat ((n * 64 + m) * 64 + k)) } := by
  have hlow : (if n = 0 then (0xA0 : UInt8) else contLow).toNat ≤ 0x80 + m := by
    split
    · next h => exact Nat.add_le_add_left (hshort h) 0x80
    · exact contLow_le m
  have hhigh : 0x80 + m ≤ (if n = 0x0D then (0x9F : UInt8) else contHigh).toNat := by
    split
    · next h => exact Nat.add_le_add_left (Nat.le_of_lt_succ (hsurrogate h)) 0x80
    · exact le_contHigh hm
  rw [List.foldl_cons, feed_lead (open?_three n hn), List.foldl_cons, feed_inside hm hlow hhigh,
    List.foldl_cons, feed_last hk (contLow_le k) (le_contHigh hk), List.foldl_nil]

include hm hk hl in
theorem foldl_feed_four (hn : n < 5) (hshort : n = 0 → 0x10 ≤ m) (hmax : n = 4 → m < 0x10) :
    [UInt8.ofNat (0xF0 + n), UInt8.ofNat (0x80 + m), UInt8.ofNat (0x80 + k),
        UInt8.ofNat (0x80 + l)].foldl feed { text } =
      { text := text.push (Char.ofNat (((n * 64 + m) * 64 + k) * 64 + l)) } := by
  have hlow : (if n = 0 then (0x90 : UInt8) else contLow).toNat ≤ 0x80 + m := by
    split
    · next h => exact Nat.add_le_add_left (hshort h) 0x80
    · exact contLow_le m
  have hhigh : 0x80 + m ≤ (if n = 4 then (0x8F : UInt8) else contHigh).toNat := by
    split
    · next h => exact Nat.add_le_add_left (Nat.le_of_lt_succ (hmax h)) 0x80
    · exact le_contHigh hm
  rw [List.foldl_cons, feed_lead (open?_four n hn), List.foldl_cons, feed_inside hm hlow hhigh,
    List.foldl_cons, feed_inside hk (contLow_le k) (le_contHigh hk), List.foldl_cons,
    feed_last hl (contLow_le l) (le_contHigh hl), List.foldl_nil]

end Sequences

/-- The bytes of a character write that character. -/
theorem foldl_feed_encodeChar (text : String) (c : Char) :
    (encodeChar c).foldl feed { text } = { text := text.push c } := by
  have hvalid : c.toNat < 0xD800 ∨ 0xDFFF < c.toNat ∧ c.toNat < 0x110000 := c.valid
  have hchar : Char.ofNat c.toNat = c := Char.ofNat_toNat c
  have hsix (n : Nat) : n % 64 < 0x40 := Nat.mod_lt n (by decide)
  unfold encodeChar
  dsimp only
  rw [Nat.div_one]
  -- a code point that needs the longer form keeps the lower bounds, one that is valid the upper ones
  split
  · next h1 => rw [List.foldl_cons, List.foldl_nil, feed_char (open?_one _ h1), hchar]
  split
  · next h2 =>
    have hcode : c.toNat / 64 * 64 + c.toNat % 64 = c.toNat := by omega
    rw [foldl_feed_two (hsix _) text (by omega) (by omega), hcode, hchar]
  split
  · next h3 =>
    have hcode : (c.toNat / 4096 * 64 + c.toNat / 64 % 64) * 64 + c.toNat % 64 = c.toNat := by
      omega
    rw [foldl_feed_three (hsix _) (hsix _) text (by omega) (by omega) (by omega), hcode, hchar]
  · next h3 =>
    have hcode : ((c.toNat / 262144 * 64 + c.toNat / 4096 % 64) * 64 + c.toNat / 64 % 64) * 64
        + c.toNat % 64 = c.toNat := by
      omega
    rw [foldl_feed_four (hsix _) (hsix _) (hsix _) text (by omega) (by omega) (by omega), hcode,
      hchar]

theorem foldl_feed_encode (text : String) (cs : List Char) :
    (cs.flatMap encodeChar).foldl feed { text } = { text := text ++ String.ofList cs } := by
  induction cs generalizing text with
  | nil => simp
  | cons c cs ih =>
    rw [List.flatMap_cons, List.foldl_append, foldl_feed_encodeChar, ih]
    simp [← String.toList_inj]

end Decoder

/-- **A text is read back from its bytes.** -/
theorem decode_encode (text : String) : decode (encode text) = text := by
  rw [decode, encode]
  show (List.foldl Decoder.feed { text := "" } _).finish = text
  rw [Decoder.foldl_feed_encode, String.ofList_toList, String.empty_append]
  rfl

theorem encode_append (a b : String) : encode (a ++ b) = encode a ++ encode b := by
  rw [encode, String.toList_append, List.flatMap_append]
  rfl

/-! ## Characters above ASCII -/

theorem encodeChar_ascii {c : Char} (h : c.toNat < 0x80) :
    encodeChar c = [UInt8.ofNat c.toNat] :=
  if_pos h

theorem nonAscii_ofNat {n : Nat} (h : 0x80 ≤ n) (h' : n < 0x100) : 0x80 ≤ UInt8.ofNat n := by
  rw [UInt8.le_iff_toNat_le, UInt8.toNat_ofNat_of_lt' h']
  exact h

/-- No byte of such a character can be taken for ASCII. -/
theorem nonAscii_of_mem_encodeChar {c : Char} (h : 0x80 ≤ c.toNat) {b : UInt8}
    (hb : b ∈ encodeChar c) : 0x80 ≤ b := by
  have hvalid : c.toNat < 0xD800 ∨ 0xDFFF < c.toNat ∧ c.toNat < 0x110000 := c.valid
  unfold encodeChar at hb
  dsimp only at hb
  rw [if_neg (Nat.not_lt.2 h)] at hb
  split at hb
  · simp only [List.mem_cons, List.not_mem_nil, or_false] at hb
    rcases hb with rfl | rfl <;> exact nonAscii_ofNat (by omega) (by omega)
  · split at hb
    · simp only [List.mem_cons, List.not_mem_nil, or_false] at hb
      rcases hb with rfl | rfl | rfl <;> exact nonAscii_ofNat (by omega) (by omega)
    · simp only [List.mem_cons, List.not_mem_nil, or_false] at hb
      rcases hb with rfl | rfl | rfl | rfl <;> exact nonAscii_ofNat (by omega) (by omega)

theorem encodeChar_ne_nil (c : Char) : encodeChar c ≠ [] := by
  unfold encodeChar
  dsimp only
  repeat' split
  all_goals exact List.cons_ne_nil _ _

/-- A text that starts with an ASCII byte starts with its character. -/
theorem head?_of_head?_encode {text : String} {b : UInt8} (hb : b < 0x80)
    (h : (encode text).head? = some b) : text.toList.head? = some (Char.ofNat b.toNat) := by
  rw [encode] at h
  cases e : text.toList with
  | nil =>
    rw [e] at h
    cases h
  | cons c cs =>
    obtain ⟨first, rest, hfirst⟩ := List.exists_cons_of_ne_nil (encodeChar_ne_nil c)
    rw [e, List.flatMap_cons, hfirst, List.cons_append, List.head?_cons, Option.some.injEq] at h
    rcases Nat.lt_or_ge c.toNat 0x80 with hlt | hge
    · rw [encodeChar_ascii hlt, List.cons.injEq] at hfirst
      have hbyte : (UInt8.ofNat c.toNat).toNat = c.toNat :=
        UInt8.toNat_ofNat_of_lt' (Nat.lt_trans hlt (by decide))
      rw [← h, ← hfirst.1, hbyte, Char.ofNat_toNat, List.head?_cons]
    · have hbyte := nonAscii_of_mem_encodeChar hge (hfirst ▸ List.mem_cons_self)
      exact absurd (h ▸ hb) (UInt8.not_lt.2 hbyte)

end BuildDiagnostics.Text.Utf8
