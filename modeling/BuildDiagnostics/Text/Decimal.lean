/-!
# Decimal numbers

Numbers are written in canonical form, without sign or leading zeros. They are read more freely: one
plus sign may stand in front, and leading zeros do not count. `read?_digits` says that what is
written reads back.
-/

namespace BuildDiagnostics.Text.Decimal

/-- The digit that stands for `d`, which is less than ten. -/
def digit (d : Nat) : Char :=
  Char.ofNat ('0'.toNat + d)

/-- The canonical decimal digits of `n`. -/
def digits (n : Nat) : List Char :=
  if n < 10 then [digit n] else digits (n / 10) ++ [digit (n % 10)]

/-- The canonical decimal text of `n`. -/
def text (n : Nat) : String :=
  String.ofList (digits n)

/-- The number that a list of digits denotes, leading zeros allowed. -/
def ofDigits (cs : List Char) : Nat :=
  cs.foldl (fun n c => 10 * n + (c.toNat - '0'.toNat)) 0

/-- Reads one or more digits and nothing else. -/
def readUnsigned? (cs : List Char) : Option Nat :=
  if cs ≠ [] ∧ cs.all Char.isDigit then some (ofDigits cs) else none

/-- Reads one or more digits, after a plus sign or without one. -/
def read? : List Char → Option Nat
  | '+' :: cs => readUnsigned? cs
  | cs => readUnsigned? cs

/-- Reads a number that fits in 32 bits. -/
def readUInt32? (cs : List Char) : Option UInt32 :=
  match read? cs with
  | some n => if n < UInt32.size then some (UInt32.ofNat n) else none
  | none => none

theorem digits_ne_nil (n : Nat) : digits n ≠ [] := by
  unfold digits; split <;> simp

theorem isDigit_digit {d : Nat} (h : d < 10) : (digit d).isDigit := by
  revert d; decide

theorem toNat_digit {d : Nat} (h : d < 10) : (digit d).toNat - '0'.toNat = d := by
  revert d; decide

theorem all_isDigit_digits (n : Nat) : (digits n).all Char.isDigit := by
  fun_induction digits n with
  | case1 n h => simp [isDigit_digit h]
  | case2 n h ih =>
    rw [List.all_append, ih]
    simp [isDigit_digit (Nat.mod_lt n (by decide : 10 > 0))]

theorem ofDigits_append_singleton (cs : List Char) (c : Char) :
    ofDigits (cs ++ [c]) = 10 * ofDigits cs + (c.toNat - '0'.toNat) := by
  simp [ofDigits]

theorem ofDigits_digits (n : Nat) : ofDigits (digits n) = n := by
  fun_induction digits n with
  | case1 n h => simpa [ofDigits] using toNat_digit h
  | case2 n h ih =>
    rw [ofDigits_append_singleton, ih, toNat_digit (Nat.mod_lt n (by decide : 10 > 0))]
    omega

theorem readUnsigned?_digits (n : Nat) : readUnsigned? (digits n) = some n := by
  simp only [readUnsigned?, ofDigits_digits]
  rw [if_pos ⟨digits_ne_nil n, all_isDigit_digits n⟩]

/-- What is written reads back. -/
theorem read?_digits (n : Nat) : read? (digits n) = some n := by
  unfold read?
  split
  · next cs h => have := all_isDigit_digits n; simp [h] at this
  · exact readUnsigned?_digits n

end BuildDiagnostics.Text.Decimal
