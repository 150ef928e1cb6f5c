import BuildDiagnostics.Proofs.Utf8
import Mathlib.Data.String.Basic
import Mathlib.Tactic.SplitIfs

/-!
# The order of texts is that of their bytes

Texts are compared by code points and their encodings byte by byte, and the two orders are the same
(`encode_lt_encode_iff`). The encodings of two characters have a first place where they differ, and the
smaller character has the smaller byte there (`precedes_encodeChar`): leads grow with the length of a
form, and within a form the bytes are the digits of the code point, the highest first. Whatever follows
such a place does not matter any more, so the order goes over from characters to texts.
-/

namespace BuildDiagnostics.Text.Utf8

/-- At the first place where the lists differ, the first one has the smaller byte. -/
inductive Precedes : List UInt8 → List UInt8 → Prop
  | head {a b : UInt8} (h : a < b) (as bs : List UInt8) : Precedes (a :: as) (b :: bs)
  | tail (a : UInt8) {as bs : List UInt8} (h : Precedes as bs) : Precedes (a :: as) (a :: bs)

theorem Precedes.append_lt {as bs : List UInt8} (h : Precedes as bs) (cs ds : List UInt8) :
    as ++ cs < bs ++ ds := by
  induction h with
  | head h as bs => exact List.cons_lt_cons_iff.2 (.inl h)
  | tail a h ih => exact List.cons_lt_cons_iff.2 (.inr ⟨rfl, ih⟩)

/-! ## Characters -/

theorem toNat_byte {n : Nat} (h : n < 0x100) : (UInt8.ofNat n).toNat = n :=
  UInt8.toNat_ofNat_of_lt' h

theorem precedes_of_lt {m n : Nat} (h : m < n) (hn : n < 0x100) (as bs : List UInt8) :
    Precedes (UInt8.ofNat m :: as) (UInt8.ofNat n :: bs) := by
  refine .head ?_ as bs
  rw [UInt8.lt_iff_toNat_lt, toNat_byte (Nat.lt_trans h hn), toNat_byte hn]
  exact h

/-- Of two numbers the higher digits are compared first. -/
theorem precedes_of_le {m n : Nat} (h : m ≤ n) (hn : n < 0x100) {as bs : List UInt8}
    (hrest : m = n → Precedes as bs) :
    Precedes (UInt8.ofNat m :: as) (UInt8.ofNat n :: bs) := by
  rcases Nat.lt_or_eq_of_le h with hlt | heq
  · exact precedes_of_lt hlt hn as bs
  · rw [heq]
    exact .tail _ (hrest heq)

/-- The first byte of a code point. -/
def lead (n : Nat) : Nat :=
  if n < 0x80 then n
  else if n < 0x800 then 0xC0 + n / 64
  else if n < 0x10000 then 0xE0 + n / 4096
  else 0xF0 + n / 262144

/-- The bytes after the first one, each with six bits. -/
def continuation (n : Nat) : List UInt8 :=
  let cont (m : Nat) : UInt8 := UInt8.ofNat (0x80 + m % 64)
  if n < 0x80 then []
  else if n < 0x800 then [cont n]
  else if n < 0x10000 then [cont (n / 64), cont n]
  else [cont (n / 4096), cont (n / 64), cont n]

theorem encodeChar_eq_cons (c : Char) :
    encodeChar c = UInt8.ofNat (lead c.toNat) :: continuation c.toNat := by
  unfold encodeChar lead continuation
  simp only [Nat.div_one]
  split_ifs <;> rfl

theorem lead_le_lead {m n : Nat} (h : m ≤ n) (hn : n < 0x110000) : lead m ≤ lead n := by
  unfold lead
  split_ifs <;> omega

theorem lead_lt {n : Nat} (h : n < 0x110000) : lead n < 0x100 := by
  unfold lead
  split_ifs <;> omega

/-- The lead tells how long the form is. -/
theorem form_of_lead_eq {m n : Nat} (hm : m < 0x110000) (hn : n < 0x110000)
    (h : lead m = lead n) :
    (m < 0x80 ↔ n < 0x80) ∧ (m < 0x800 ↔ n < 0x800) ∧ (m < 0x10000 ↔ n < 0x10000) := by
  unfold lead at h
  split_ifs at h <;> omega

/-- Code points with the same lead are told apart by their lower bits, the highest first. -/
theorem precedes_continuation {m n : Nat} (h : m < n) (hn : n < 0x110000)
    (hlead : lead m = lead n) : Precedes (continuation m) (continuation n) := by
  have hform := form_of_lead_eq (Nat.lt_trans h hn) hn hlead
  unfold lead at hlead
  unfold continuation
  simp only [hform] at hlead ⊢
  split_ifs at hlead ⊢
  · omega
  · exact precedes_of_lt (by omega) (by omega) [] []
  · exact precedes_of_le (by omega) (by omega) fun _ =>
      precedes_of_lt (by omega) (by omega) [] []
  · exact precedes_of_le (by omega) (by omega) fun _ =>
      precedes_of_le (by omega) (by omega) fun _ =>
        precedes_of_lt (by omega) (by omega) [] []

theorem precedes_encodeChar {c d : Char} (h : c.toNat < d.toNat) :
    Precedes (encodeChar c) (encodeChar d) := by
  have hd : d.toNat < 0x110000 := by
    have hvalid : d.toNat < 0xD800 ∨ 0xDFFF < d.toNat ∧ d.toNat < 0x110000 := d.valid
    omega
  rw [encodeChar_eq_cons, encodeChar_eq_cons]
  exact precedes_of_le (lead_le_lead (Nat.le_of_lt h) hd) (lead_lt hd)
    (precedes_continuation h hd)

/-! ## Texts -/

theorem flatMap_encodeChar_lt {cs ds : List Char} (h : cs < ds) :
    cs.flatMap encodeChar < ds.flatMap encodeChar := by
  induction cs generalizing ds with
  | nil =>
    cases ds with
    | nil => exact absurd h (List.not_lt_nil _)
    | cons d ds =>
      rw [List.flatMap_cons, encodeChar_eq_cons]
      exact List.nil_lt_cons _ _
  | cons c cs ih =>
    cases ds with
    | nil => exact absurd h (List.not_lt_nil _)
    | cons d ds =>
      rw [List.flatMap_cons, List.flatMap_cons]
      rcases List.cons_lt_cons_iff.1 h with hlt | ⟨rfl, hrest⟩
      · exact (precedes_encodeChar hlt).append_lt _ _
      · exact List.append_left_lt (ih hrest)

/-- **Texts are ordered as their bytes are.** -/
theorem encode_lt_encode_iff {a b : String} : encode a < encode b ↔ a < b := by
  have hmono {a b : String} (h : a < b) : encode a < encode b :=
    flatMap_encodeChar_lt (String.lt_iff_toList_lt.1 h)
  constructor
  · intro h
    rcases lt_trichotomy a b with hlt | rfl | hgt
    · exact hlt
    · exact absurd h (List.lt_irrefl _)
    · exact absurd (List.lt_trans h (hmono hgt)) (List.lt_irrefl _)
  · exact hmono

end BuildDiagnostics.Text.Utf8
