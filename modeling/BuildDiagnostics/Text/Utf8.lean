/-!
# Text from bytes

A decoder is fed one byte at a time. It holds the text so far and, between the bytes of one
character, what it expects next; `decode` is the fold over all bytes. Bytes that are not UTF-8 are
replaced: each longest part that begins a character and cannot go on counts once, and each byte
that begins nothing counts once. A byte that breaks off a character is looked at afresh, so it is
never swallowed by the part before it. `ofBytes?` is the strict reading, which fails instead of
replacing.
-/

namespace BuildDiagnostics.Text.Utf8

/-- What a decoder stands at. -/
inductive State
  /-- Between two characters. -/
  | start
  /-- Inside a character with the bits `code` so far: the next byte must lie between `low` and
  `high`, and `more` bytes follow it. -/
  | inside (code : Nat) (more : Nat) (low high : UInt8)
  deriving DecidableEq, Repr

/-- The least byte that continues a character. -/
def contLow : UInt8 := 0x80

/-- The greatest byte that continues a character. -/
def contHigh : UInt8 := 0xBF

/-- The character that stands for an invalid part. -/
def replacement : Char := '\uFFFD'

/-- What the first byte of a character begins: a whole character, a longer one, or nothing. The
bounds on the second byte leave out overlong forms, surrogates and what lies beyond U+10FFFF. -/
def open? (b : UInt8) : Option (Char ⊕ State) :=
  let bits (mask : UInt8) := (b &&& mask).toNat
  if b < 0x80 then some (.inl (Char.ofNat b.toNat))
  else if b < 0xC2 then none
  else if b < 0xE0 then some (.inr (.inside (bits 0x1F) 0 contLow contHigh))
  else if b = 0xE0 then some (.inr (.inside (bits 0x0F) 1 0xA0 contHigh))
  else if b = 0xED then some (.inr (.inside (bits 0x0F) 1 contLow 0x9F))
  else if b < 0xF0 then some (.inr (.inside (bits 0x0F) 1 contLow contHigh))
  else if b = 0xF0 then some (.inr (.inside (bits 0x07) 2 0x90 contHigh))
  else if b < 0xF4 then some (.inr (.inside (bits 0x07) 2 contLow contHigh))
  else if b = 0xF4 then some (.inr (.inside (bits 0x07) 2 contLow 0x8F))
  else none

/-- The text decoded so far and the place the decoder stands at. -/
structure Decoder where
  text : String := ""
  state : State := .start
  deriving DecidableEq, Repr

namespace Decoder

/-- Takes a byte that does not continue a character. -/
def feedFirst (text : String) (b : UInt8) : Decoder :=
  match open? b with
  | some (.inl c) => { text := text.push c }
  | some (.inr state) => { text, state }
  | none => { text := text.push replacement }

/-- Takes the next byte. -/
def feed (d : Decoder) (b : UInt8) : Decoder :=
  match d.state with
  | .start => feedFirst d.text b
  | .inside code more low high =>
    if low ≤ b ∧ b ≤ high then
      let code := code * 64 + (b &&& 0x3F).toNat
      match more with
      | 0 => { text := d.text.push (Char.ofNat code) }
      | more + 1 => { text := d.text, state := .inside code more contLow contHigh }
    else
      feedFirst (d.text.push replacement) b

/-- The whole text, when no byte follows: a character that breaks off here is replaced. -/
def finish (d : Decoder) : String :=
  match d.state with
  | .start => d.text
  | .inside .. => d.text.push replacement

/-- The text that is there already is kept in front and has no influence on what follows. -/
theorem feed_text (text : String) (state : State) (b : UInt8) :
    feed ⟨text, state⟩ b = ⟨text ++ (feed ⟨"", state⟩ b).text, (feed ⟨"", state⟩ b).state⟩ := by
  have first (text : String) :
      feedFirst text b = ⟨text ++ (feedFirst "" b).text, (feedFirst "" b).state⟩ := by
    unfold feedFirst
    split <;> simp
  unfold feed
  match state with
  | .start => exact first text
  | .inside code more low high =>
    dsimp only
    split
    · cases more <;> simp
    · rw [first, first ("".push replacement)]
      simp [← String.toList_inj]

/-- The same for any number of bytes. -/
theorem foldl_feed_text (text : String) (state : State) (bytes : List UInt8) :
    bytes.foldl feed ⟨text, state⟩ =
      ⟨text ++ (bytes.foldl feed ⟨"", state⟩).text, (bytes.foldl feed ⟨"", state⟩).state⟩ := by
  induction bytes generalizing text state with
  | nil => simp
  | cons b bytes ih =>
    rw [List.foldl_cons, feed_text, ih, List.foldl_cons, ih (feed ⟨"", state⟩ b).text]
    simp [String.append_assoc]

end Decoder

/-- The text of `bytes`, with invalid parts replaced. -/
def decode (bytes : List UInt8) : String :=
  (bytes.foldl Decoder.feed {}).finish

/-- The bytes of a character. -/
def encodeChar (c : Char) : List UInt8 :=
  let n := c.toNat
  let cont (scale : Nat) : UInt8 := UInt8.ofNat (0x80 + n / scale % 64)
  if n < 0x80 then [UInt8.ofNat n]
  else if n < 0x800 then [UInt8.ofNat (0xC0 + n / 64), cont 1]
  else if n < 0x10000 then [UInt8.ofNat (0xE0 + n / 4096), cont 64, cont 1]
  else [UInt8.ofNat (0xF0 + n / 262144), cont 4096, cont 64, cont 1]

/-- The bytes of a text. -/
def encode (text : String) : List UInt8 :=
  text.toList.flatMap encodeChar

/-- The text that `bytes` are the encoding of, if there is one: nothing had to be replaced exactly
when the text has these bytes. -/
def ofBytes? (bytes : List UInt8) : Option String :=
  let text := decode bytes
  if encode text = bytes then some text else none

end BuildDiagnostics.Text.Utf8
