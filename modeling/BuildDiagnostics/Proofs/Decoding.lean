import BuildDiagnostics.Proofs.Lines
import BuildDiagnostics.Proofs.Utf8
import Mathlib.Algebra.Group.Nat.Defs
import Mathlib.Data.List.Basic
import Mathlib.Data.List.Count
import Mathlib.Data.List.Induction

/-!
# What a byte can do to a text

An ASCII byte is written as itself, wherever it stands: if it breaks off a character, that one is
replaced before it. Any other byte writes nothing below 0x80, for the code point that a decoder is
about to write is a character above ASCII (`State.Sound`). Both are facts about one byte
(`Decoder.feed_ascii`, `Decoder.AboveAscii.feed`), and with the decoder's states they carry over to all
bytes. So an ASCII byte is a clean cut: the bytes on its two sides are decoded independently of each
other (`decode_append_cons`). Bytes cut at an ASCII separator are therefore decoded piece by piece
(`splitOn_decode`), and the ASCII characters of a text are the ASCII bytes it was decoded from
(`filter_isAsciiChar_decode`).
-/

namespace BuildDiagnostics.Text.Utf8

/-- Induction over a list that falls into two wherever an element of some kind stands. -/
@[elab_as_elim]
theorem cutInduction {α : Type} (p : α → Prop) {motive : List α → Prop}
    (uncut : ∀ xs, (∀ x ∈ xs, ¬ p x) → motive xs)
    (cut : ∀ xs x ys, p x → motive xs → motive ys → motive (xs ++ x :: ys)) (xs : List α) :
    motive xs := by
  induction hn : xs.length using Nat.strongRecOn generalizing xs with
  | _ n ih =>
    by_cases h : ∀ x ∈ xs, ¬ p x
    · exact uncut xs h
    · simp only [not_forall, not_not] at h
      obtain ⟨x, hmem, hx⟩ := h
      obtain ⟨front, back, rfl⟩ := List.append_of_mem hmem
      rw [List.length_append, List.length_cons] at hn
      exact cut front x back hx (ih front.length (by omega) front rfl)
        (ih back.length (by omega) back rfl)

/-- The character with the code of a byte. It is what an ASCII byte encodes. -/
def asciiChar (b : UInt8) : Char :=
  Char.ofNat b.toNat

theorem toNat_ofNat_of_isValidChar {n : Nat} (h : n.isValidChar) : (Char.ofNat n).toNat = n := by
  rw [Char.ofNat, dif_pos h]
  rfl

theorem toNat_asciiChar (b : UInt8) : (asciiChar b).toNat = b.toNat :=
  toNat_ofNat_of_isValidChar (.inl (Nat.lt_trans b.toNat_lt (by decide)))

theorem asciiChar_injective : Function.Injective asciiChar := by
  intro a b h
  rw [← UInt8.toNat_inj, ← toNat_asciiChar a, h, toNat_asciiChar]

theorem asciiChar_feed : asciiChar 0x0A = '\n' := rfl

def isAscii (b : UInt8) : Bool :=
  b < 0x80

def isAsciiChar (c : Char) : Bool :=
  c.toNat < 0x80

theorem isAsciiChar_asciiChar (b : UInt8) : isAsciiChar (asciiChar b) = isAscii b := by
  rw [isAsciiChar, toNat_asciiChar]
  exact decide_eq_decide.2 (UInt8.lt_iff_toNat_lt (b := 0x80)).symm

/-! ## What may come out of a state -/

/-- The least code point that comes out when the next byte is at least `low` and `more` follow. -/
def least (code more : Nat) (low : UInt8) : Nat :=
  (code * 64 + (low.toNat - 0x80)) * 64 ^ more

/-- The code point after the greatest one that comes out when the next byte is at most `high`. -/
def limit (code more : Nat) (high : UInt8) : Nat :=
  (code * 64 + (high.toNat - 0x80) + 1) * 64 ^ more

/-- Inside a character, only bytes above ASCII continue it, and every code point that may come out
is a character above ASCII. -/
def State.Sound : State → Prop
  | .start => True
  | .inside code more low high =>
    (0x80 ≤ low ∧ high ≤ 0xBF) ∧ 0x80 ≤ least code more low ∧
      (limit code more high ≤ 0xD800 ∨
        0xE000 ≤ least code more low ∧ limit code more high ≤ 0x110000)

instance : (state : State) → Decidable state.Sound
  | .start => inferInstanceAs (Decidable True)
  | .inside _ _ _ _ => inferInstanceAs (Decidable (_ ∧ _))

/-- What holds of the bytes of all codes holds of all bytes. -/
theorem forall_byte {P : UInt8 → Prop} (h : ∀ n, n < 256 → P (UInt8.ofNat n)) (b : UInt8) : P b := by
  have hb := h b.toNat b.toNat_lt
  rwa [UInt8.ofNat_toNat] at hb

/-- A byte that begins a longer character leaves the decoder inside it. -/
theorem sound_of_open? {b : UInt8} {state : State} (h : open? b = some (.inr state)) :
    state.Sound ∧ state ≠ .start := by
  have hall : ∀ b, ∀ state ∈ open? b >>= Sum.getRight?, state.Sound ∧ state ≠ .start :=
    forall_byte (by decide +kernel)
  refine hall b state ?_
  rw [h]
  rfl

theorem open?_of_nonAscii {b : UInt8} (hb : 0x80 ≤ b) (c : Char) : open? b ≠ some (.inl c) := by
  have hall : ∀ b, 0x80 ≤ b → (open? b >>= Sum.getLeft?) = none :=
    forall_byte (by decide +kernel)
  intro h
  have hnone := hall b hb
  rw [h] at hnone
  cases hnone

theorem open?_of_ascii {b : UInt8} (h : b < 0x80) : open? b = some (.inl (asciiChar b)) := by
  have hone := Decoder.open?_one b.toNat (UInt8.lt_iff_toNat_lt.1 h)
  rwa [UInt8.ofNat_toNat] at hone

theorem toNat_contLow : contLow.toNat = 0x80 := rfl

theorem toNat_contHigh : contHigh.toNat = 0xBF := rfl

section Continuation

variable {low high b : UInt8}

/-- The bits that a continuing byte adds. -/
theorem bits_of_mem (hlow : 0x80 ≤ b) (hhigh : b ≤ 0xBF) :
    (b &&& 0x3F).toNat = b.toNat - 0x80 := by
  have hmin : 0x80 ≤ b.toNat := UInt8.le_iff_toNat_le.1 hlow
  have hmax : b.toNat ≤ 0xBF := UInt8.le_iff_toNat_le.1 hhigh
  have hb : UInt8.ofNat (0x80 + (b.toNat - 0x80)) = b := by
    rw [Nat.add_sub_cancel' hmin, UInt8.ofNat_toNat]
  have hbits := Decoder.bits_cont (b.toNat - 0x80) (by omega)
  rwa [hb] at hbits

/-- The code points that may come out after one more byte are among those that could before it. -/
theorem least_le_and_le_limit (code more : Nat) (hlow : low ≤ b) (hhigh : b ≤ high) :
    least code more low ≤ (code * 64 + (b.toNat - 0x80)) * 64 ^ more ∧
      (code * 64 + (b.toNat - 0x80) + 1) * 64 ^ more ≤ limit code more high := by
  have hmin := UInt8.le_iff_toNat_le.1 hlow
  have hmax := UInt8.le_iff_toNat_le.1 hhigh
  exact ⟨Nat.mul_le_mul_right _ (by omega), Nat.mul_le_mul_right _ (by omega)⟩

theorem State.Sound.bits {code more : Nat} (h : (State.inside code more low high).Sound)
    (hlow : low ≤ b) (hhigh : b ≤ high) : (b &&& 0x3F).toNat = b.toNat - 0x80 :=
  bits_of_mem (UInt8.le_trans h.1.1 hlow) (UInt8.le_trans hhigh h.1.2)

theorem State.Sound.next {code more : Nat}
    (h : (State.inside code (more + 1) low high).Sound) (hlow : low ≤ b) (hhigh : b ≤ high) :
    (State.inside (code * 64 + (b &&& 0x3F).toNat) more contLow contHigh).Sound := by
  -- with the byte fixed the rest may be any continuation, so both ends move inwards
  obtain ⟨hmin, hmax⟩ := least_le_and_le_limit code (more + 1) hlow hhigh
  have hleast : least (code * 64 + (b.toNat - 0x80)) more contLow =
      (code * 64 + (b.toNat - 0x80)) * 64 ^ (more + 1) := by
    rw [least, toNat_contLow, Nat.sub_self, Nat.add_zero, Nat.pow_succ', Nat.mul_assoc]
  have hlimit : limit (code * 64 + (b.toNat - 0x80)) more contHigh =
      (code * 64 + (b.toNat - 0x80) + 1) * 64 ^ (more + 1) := by
    have hsix (n : Nat) : n * 64 + (0xBF - 0x80) + 1 = (n + 1) * 64 := by omega
    rw [limit, toNat_contHigh, hsix, Nat.pow_succ', Nat.mul_assoc]
  rw [h.bits hlow hhigh]
  obtain ⟨-, hascii, hrange⟩ := h
  refine ⟨⟨by decide, by decide⟩, ?_, ?_⟩
  · rw [hleast]
    exact Nat.le_trans hascii hmin
  · rw [hleast, hlimit]
    rcases hrange with hsmall | ⟨hlarge, hbound⟩
    · exact .inl (Nat.le_trans hmax hsmall)
    · exact .inr ⟨Nat.le_trans hlarge hmin, Nat.le_trans hmax hbound⟩

/-- The character that the last byte completes lies above ASCII. -/
theorem State.Sound.last {code : Nat} (h : (State.inside code 0 low high).Sound)
    (hlow : low ≤ b) (hhigh : b ≤ high) :
    0x80 ≤ (Char.ofNat (code * 64 + (b &&& 0x3F).toNat)).toNat := by
  obtain ⟨hmin, hmax⟩ := least_le_and_le_limit code 0 hlow hhigh
  rw [h.bits hlow hhigh]
  rw [Nat.pow_zero, Nat.mul_one] at hmin hmax
  obtain ⟨-, hascii, hrange⟩ := h
  have hvalid : (code * 64 + (b.toNat - 0x80)).isValidChar := by
    rcases hrange with hsmall | ⟨hlarge, hbound⟩
    · exact .inl (by omega)
    · exact .inr (by omega)
  rw [toNat_ofNat_of_isValidChar hvalid]
  exact Nat.le_trans hascii hmin

end Continuation

/-! ## One byte -/

namespace Decoder

/-- **An ASCII byte** ends the character that was begun and is written itself. -/
theorem feed_ascii {d : Decoder} (h : d.state.Sound) {b : UInt8} (hb : b < 0x80) :
    feed d b = { text := d.finish.push (asciiChar b) } := by
  obtain ⟨text, state⟩ := d
  cases state with
  | start => exact feed_char (open?_of_ascii hb) text
  | inside code more low high =>
    have hbreaks : ¬ (low ≤ b ∧ b ≤ high) := fun hmem =>
      UInt8.not_le.2 hb (UInt8.le_trans h.1.1 hmem.1)
    unfold feed
    dsimp only
    rw [if_neg hbreaks]
    exact feed_char (open?_of_ascii hb) (text.push replacement)

/-- A decoder that has written nothing below 0x80 and is not about to. -/
structure AboveAscii (d : Decoder) : Prop where
  text : ∀ c ∈ d.text.toList, 0x80 ≤ c.toNat
  state : d.state.Sound

theorem forall_mem_push {text : String} (htext : ∀ c ∈ text.toList, 0x80 ≤ c.toNat) {c : Char}
    (hc : 0x80 ≤ c.toNat) : ∀ c' ∈ (text.push c).toList, 0x80 ≤ c'.toNat := by
  rw [String.toList_push]
  exact List.forall_mem_append.2 ⟨htext, List.forall_mem_singleton.2 hc⟩

theorem le_toNat_replacement : 0x80 ≤ replacement.toNat := by
  decide

theorem aboveAscii_feedFirst {text : String} (htext : ∀ c ∈ text.toList, 0x80 ≤ c.toNat) {b : UInt8}
    (hb : 0x80 ≤ b) : AboveAscii (feedFirst text b) := by
  unfold feedFirst
  split
  · next c hopen => exact absurd hopen (open?_of_nonAscii hb c)
  · next state hopen => exact ⟨htext, (sound_of_open? hopen).1⟩
  · exact ⟨forall_mem_push htext le_toNat_replacement, trivial⟩

/-- **Any other byte** writes nothing below 0x80. -/
theorem AboveAscii.feed {d : Decoder} (h : d.AboveAscii) {b : UInt8} (hb : 0x80 ≤ b) :
    (feed d b).AboveAscii := by
  obtain ⟨text, state⟩ := d
  cases state with
  | start => exact aboveAscii_feedFirst h.text hb
  | inside code more low high =>
    unfold Decoder.feed
    dsimp only
    split
    · next hmem =>
      cases more with
      | zero => exact ⟨forall_mem_push h.text (h.state.last hmem.1 hmem.2), trivial⟩
      | succ more => exact ⟨h.text, h.state.next hmem.1 hmem.2⟩
    · exact aboveAscii_feedFirst (forall_mem_push h.text le_toNat_replacement) hb

/-! ## All bytes -/

theorem sound_feed {d : Decoder} (h : d.state.Sound) (b : UInt8) : (feed d b).state.Sound := by
  rcases UInt8.lt_or_le b 0x80 with hb | hb
  · rw [feed_ascii h hb]
    trivial
  · obtain ⟨text, state⟩ := d
    have hempty : AboveAscii ⟨"", state⟩ := ⟨fun _ hc => (List.not_mem_nil hc).elim, h⟩
    rw [feed_text]
    exact (hempty.feed hb).state

theorem sound_foldl_feed {d : Decoder} (h : d.state.Sound) (bytes : List UInt8) :
    (bytes.foldl feed d).state.Sound := by
  induction bytes generalizing d with
  | nil => exact h
  | cons b bytes ih => exact ih (sound_feed h b)

theorem AboveAscii.foldl_feed {d : Decoder} (h : d.AboveAscii) {bytes : List UInt8}
    (hbytes : ∀ b ∈ bytes, 0x80 ≤ b) : (bytes.foldl Decoder.feed d).AboveAscii := by
  induction bytes generalizing d with
  | nil => exact h
  | cons b bytes ih =>
    obtain ⟨hb, hbytes⟩ := List.forall_mem_cons.1 hbytes
    exact ih (h.feed hb) hbytes

theorem AboveAscii.finish {d : Decoder} (h : d.AboveAscii) :
    ∀ c ∈ d.finish.toList, 0x80 ≤ c.toNat := by
  unfold Decoder.finish
  split
  · exact h.text
  · exact forall_mem_push h.text le_toNat_replacement

/-- What was written before has no influence on what is written at the end. -/
theorem finish_append (text more : String) (state : State) :
    finish ⟨text ++ more, state⟩ = text ++ finish ⟨more, state⟩ := by
  cases state with
  | start => rfl
  | inside code n low high =>
    show (text ++ more).push replacement = text ++ more.push replacement
    rw [String.push_eq_append, String.push_eq_append, String.append_assoc]

theorem finish_foldl_feed (text : String) (bytes : List UInt8) :
    (bytes.foldl feed { text }).finish = text ++ decode bytes := by
  rw [foldl_feed_text, finish_append]
  rfl

theorem push_ne_empty (text : String) (c : Char) : text.push c ≠ "" := by
  intro h
  have hnil := congrArg String.toList h
  rw [String.toList_push] at hnil
  exact List.append_ne_nil_of_right_ne_nil _ (List.cons_ne_nil c []) hnil

theorem finish_ne_empty {text : String} {state : State} (h : state ≠ .start) :
    finish ⟨text, state⟩ ≠ "" := by
  cases state with
  | start => exact absurd rfl h
  | inside => exact push_ne_empty text replacement

theorem finish_feedFirst_ne_empty (text : String) (b : UInt8) : (feedFirst text b).finish ≠ "" := by
  unfold feedFirst
  split
  · exact push_ne_empty _ _
  · next state hopen => exact finish_ne_empty (sound_of_open? hopen).2
  · exact push_ne_empty _ _

/-- No byte goes without a trace. -/
theorem finish_feed_ne_empty (d : Decoder) (b : UInt8) : (feed d b).finish ≠ "" := by
  obtain ⟨text, state⟩ := d
  cases state with
  | start => exact finish_feedFirst_ne_empty text b
  | inside code more low high =>
    unfold feed
    dsimp only
    split
    · cases more with
      | zero => exact push_ne_empty _ _
      | succ more => exact finish_ne_empty State.noConfusion
    · exact finish_feedFirst_ne_empty _ b

end Decoder

/-- **An ASCII byte is a clean cut.** It stays where it is, and what stands on its two sides is
decoded on its own. -/
theorem decode_append_cons (xs : List UInt8) {b : UInt8} (hb : b < 0x80) (ys : List UInt8) :
    decode (xs ++ b :: ys) = decode xs ++ String.singleton (asciiChar b) ++ decode ys := by
  have hsound : (xs.foldl Decoder.feed {}).state.Sound :=
    Decoder.sound_foldl_feed (d := {}) trivial xs
  rw [decode, List.foldl_append, List.foldl_cons, Decoder.feed_ascii hsound hb,
    Decoder.finish_foldl_feed, String.push_eq_append]
  rfl

/-- A cut beside an ASCII byte is seen on neither side. -/
theorem decode_append {xs ys : List UInt8}
    (h : (∃ b ∈ xs.getLast?, b < 0x80) ∨ ∃ b ∈ ys.head?, b < 0x80) :
    decode (xs ++ ys) = decode xs ++ decode ys := by
  rcases h with ⟨b, hlast, hb⟩ | ⟨b, hhead, hb⟩
  · obtain ⟨front, rfl⟩ := List.getLast?_eq_some_iff.1 hlast
    rw [List.append_assoc, List.singleton_append, decode_append_cons front hb,
      decode_append_cons front hb []]
    show _ = _ ++ "" ++ _
    rw [String.append_empty]
  · obtain ⟨rest, rfl⟩ := List.head?_eq_some_iff.1 hhead
    have hcons := decode_append_cons [] hb rest
    rw [List.nil_append] at hcons
    rw [decode_append_cons xs hb, hcons, String.append_assoc]
    show _ = _ ++ ("" ++ _ ++ _)
    rw [String.empty_append]

theorem toList_decode_append_singleton (xs : List UInt8) {b : UInt8} (hb : b < 0x80) :
    (decode (xs ++ [b])).toList = (decode xs).toList ++ [asciiChar b] := by
  rw [decode_append_cons xs hb, String.toList_append, String.toList_append, String.toList_singleton]
  exact List.append_nil _

theorem decode_eq_empty_iff {bytes : List UInt8} : decode bytes = "" ↔ bytes = [] := by
  refine ⟨fun h => ?_, fun h => by rw [h]; rfl⟩
  cases bytes using List.reverseRecOn with
  | nil => rfl
  | append_singleton bytes b =>
    rw [decode, List.foldl_append] at h
    exact absurd h (Decoder.finish_feed_ne_empty _ b)

theorem nonAscii_decode {bytes : List UInt8} (h : ∀ b ∈ bytes, 0x80 ≤ b) :
    ∀ c ∈ (decode bytes).toList, 0x80 ≤ c.toNat := by
  have hempty : Decoder.AboveAscii {} := ⟨fun _ hc => (List.not_mem_nil hc).elim, trivial⟩
  exact (hempty.foldl_feed h).finish

/-- Strict reading gives the text that the bytes encode, and fails where there is none. -/
theorem ofBytes?_eq_some_iff {bytes : List UInt8} {t : String} :
    ofBytes? bytes = some t ↔ bytes = encode t := by
  unfold ofBytes?
  dsimp only
  constructor
  · intro h
    split at h
    · next hencode =>
      rw [← Option.some.inj h, hencode]
    · cases h
  · rintro rfl
    rw [decode_encode, if_pos rfl]

/-- To read strictly first and replace only where that fails makes no difference. -/
theorem getD_ofBytes?_decode (bytes : List UInt8) :
    (ofBytes? bytes).getD (decode bytes) = decode bytes := by
  cases h : ofBytes? bytes with
  | none => rfl
  | some t => rw [Option.getD_some, ofBytes?_eq_some_iff.1 h, decode_encode]

/-! ## ASCII characters -/

/-- The last character is not ASCII when the last byte is not. -/
theorem nonAscii_getLast_decode (xs : List UInt8) {b : UInt8} (hb : 0x80 ≤ b) :
    ∀ c ∈ (decode (xs ++ [b])).toList.getLast?, 0x80 ≤ c.toNat := by
  induction xs using cutInduction (· < (0x80 : UInt8)) with
  | uncut xs hall =>
    intro c hc
    refine nonAscii_decode ?_ c (List.mem_of_getLast? hc)
    exact List.forall_mem_append.2
      ⟨fun a ha => UInt8.not_lt.1 (hall a ha), List.forall_mem_singleton.2 hb⟩
  | cut front a back ha _ ih =>
    -- behind an ASCII byte the text begins anew
    have hne : (decode (back ++ [b])).toList ≠ [] := fun h =>
      List.append_ne_nil_of_right_ne_nil back (List.cons_ne_nil b [])
        (decode_eq_empty_iff.1 (String.toList_eq_nil_iff.1 h))
    rw [List.append_assoc, List.cons_append, decode_append_cons front ha, String.toList_append,
      List.getLast?_append_of_ne_nil _ hne]
    exact ih

theorem getLast?_decode_eq_some_iff {bytes : List UInt8} {b : UInt8} (hb : b < 0x80) :
    (decode bytes).toList.getLast? = some (asciiChar b) ↔ bytes.getLast? = some b := by
  cases bytes using List.reverseRecOn with
  | nil => exact iff_of_false nofun nofun
  | append_singleton xs a =>
    rw [List.getLast?_concat, Option.some.injEq]
    rcases UInt8.lt_or_le a 0x80 with ha | ha
    · rw [toList_decode_append_singleton xs ha, List.getLast?_concat, Option.some.injEq]
      exact asciiChar_injective.eq_iff
    · constructor
      · intro h
        have hlast := nonAscii_getLast_decode xs ha _ h
        rw [toNat_asciiChar] at hlast
        exact absurd (UInt8.lt_iff_toNat_lt.1 hb) (Nat.not_lt.2 hlast)
      · rintro rfl
        exact absurd hb (UInt8.not_lt.2 ha)

/-- The ASCII characters of a text are its ASCII bytes, in their order. -/
theorem filter_isAsciiChar_decode (bytes : List UInt8) :
    (decode bytes).toList.filter isAsciiChar = (bytes.filter isAscii).map asciiChar := by
  -- both sides fall apart at any ASCII byte, and are empty where there is none
  induction bytes using cutInduction (· < (0x80 : UInt8)) with
  | uncut bytes hall =>
    have hbytes : bytes.filter isAscii = [] := List.filter_eq_nil_iff.2 fun b hmem hascii =>
      hall b hmem (of_decide_eq_true hascii)
    have hchars := nonAscii_decode fun b hmem => UInt8.not_lt.1 (hall b hmem)
    have htext : (decode bytes).toList.filter isAsciiChar = [] :=
      List.filter_eq_nil_iff.2 fun c hmem hascii =>
        Nat.not_le.2 (of_decide_eq_true hascii) (hchars c hmem)
    rw [hbytes, htext, List.map_nil]
  | cut xs b ys hb ihx ihy =>
    have hbyte : isAscii b = true := decide_eq_true hb
    have hchar : isAsciiChar (asciiChar b) = true := (isAsciiChar_asciiChar b).trans hbyte
    rw [decode_append_cons xs hb, String.toList_append, String.toList_append,
      String.toList_singleton, List.filter_append, List.filter_append, List.filter_append, ihx, ihy,
      List.filter_cons_of_pos hchar, List.filter_cons_of_pos hbyte, List.filter_nil,
      List.append_assoc, List.map_append, List.map_cons]
    rfl

theorem count_asciiChar_decode {b : UInt8} (hb : b < 0x80) (bytes : List UInt8) :
    (decode bytes).toList.count (asciiChar b) = bytes.count b := by
  have hbyte : isAscii b = true := decide_eq_true hb
  have hchar : isAsciiChar (asciiChar b) = true := (isAsciiChar_asciiChar b).trans hbyte
  rw [← List.count_filter hchar, filter_isAsciiChar_decode,
    List.count_map_of_injective _ asciiChar asciiChar_injective, List.count_filter hbyte]

theorem asciiChar_mem_decode_iff {b : UInt8} (hb : b < 0x80) {bytes : List UInt8} :
    asciiChar b ∈ (decode bytes).toList ↔ b ∈ bytes := by
  rw [← List.count_pos_iff, count_asciiChar_decode hb, List.count_pos_iff]

/-- **Bytes are decoded piece by piece**, wherever an ASCII separator cuts them. -/
theorem splitOn_decode {sep : UInt8} (hsep : sep < 0x80) (bytes : List UInt8) :
    splitOn (asciiChar sep) (decode bytes).toList =
      (splitOn sep bytes).map fun piece => (decode piece).toList := by
  induction bytes using cutInduction (· = sep) with
  | uncut bytes hall =>
    have hbytes : sep ∉ bytes := fun hmem => hall sep hmem rfl
    have htext : asciiChar sep ∉ (decode bytes).toList := (asciiChar_mem_decode_iff hsep).not.2 hbytes
    rw [splitOn_of_not_mem hbytes, splitOn_of_not_mem htext, List.map_singleton]
  | cut xs _ ys hb ihx ihy =>
    subst hb
    rw [decode_append_cons xs hsep, String.toList_append, String.toList_append,
      String.toList_singleton, List.append_assoc, List.singleton_append, splitOn_append_cons,
      splitOn_append_cons, ihx, ihy, List.map_append]

end BuildDiagnostics.Text.Utf8
