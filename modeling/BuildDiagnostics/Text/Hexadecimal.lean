/-!
# Hexadecimal digits

Digits of bases up to 16, the numbers they denote, and a byte as two digits.
-/

namespace BuildDiagnostics.Text.Hexadecimal

/-- Whether `c` is a hexadecimal digit, in either case. -/
def isDigit (c : Char) : Bool :=
  c.isDigit || ('a' ≤ c && c ≤ 'f') || ('A' ≤ c && c ≤ 'F')

/-- The value of a digit in any base up to 16. -/
def digitValue (c : Char) : Nat :=
  if c.isDigit then c.toNat - '0'.toNat
  else if 'a' ≤ c ∧ c ≤ 'f' then c.toNat - 'a'.toNat + 10
  else c.toNat - 'A'.toNat + 10

/-- Whether `c` is a digit in a base up to 16. -/
def isDigitIn (base : Nat) (c : Char) : Bool :=
  isDigit c && digitValue c < base

/-- The number that digits denote in a base. -/
def ofDigits (base : Nat) (cs : List Char) : Nat :=
  cs.foldl (fun n c => base * n + digitValue c) 0

/-- The two lowercase digits of a number below 256. -/
def lower (n : Nat) : List Char :=
  [Nat.digitChar (n / 16), Nat.digitChar (n % 16)]

/-- The two uppercase digits of a number below 256. -/
def upper (n : Nat) : List Char :=
  (lower n).map Char.toUpper

end BuildDiagnostics.Text.Hexadecimal
