import BuildDiagnostics.Text.Decimal
import BuildDiagnostics.Text.Hexadecimal
import BuildDiagnostics.Text.Split

/-!
# TOML numbers

Numbers are kept as they were written, without the underscores between digits: an integer as a base
and digits, a float as a decimal. What counts as a number is decided by its shape alone, which is
wider than what has a value: the digits of an integer with underscores are not looked at one by one,
and after a base there may be none. `IntegerLiteral.value?` tells which integers have a value.
-/

namespace BuildDiagnostics.Toml

open Text.Hexadecimal (ofDigits isDigitIn)

/-- The text after an optional sign, and whether the sign was a minus. -/
def dropSign : List Char → Bool × List Char
  | '+' :: cs => (false, cs)
  | '-' :: cs => (true, cs)
  | cs => (false, cs)

/-- The text without its underscores, each of which has to stand between digits. -/
def ungrouped? (isDigit : Char → Bool) (cs : List Char) : Option (List Char) :=
  let pieces := Text.splitOn '_' cs
  if pieces.dropLast.all (·.getLast?.any isDigit) && pieces.tail.all (·.head?.any isDigit) then
    some pieces.flatten
  else none

/-! ## Integers -/

/-- An integer as it was written, without what marks its base. -/
structure IntegerLiteral where
  base : Nat
  text : List Char
  deriving DecidableEq, Repr

/-- The value of an integer: digits of its base, after a sign or without one. -/
def IntegerLiteral.value? (literal : IntegerLiteral) : Option Int :=
  let (negative, digits) := dropSign literal.text
  if digits ≠ [] ∧ digits.all (isDigitIn literal.base) then
    some (if negative then -(ofDigits literal.base digits : Int) else ofDigits literal.base digits)
  else none

/-- Reads an integer in base 16, 8 or 2. It may lack digits. -/
def IntegerLiteral.ofBase? (base : Nat) (cs : List Char) : Option IntegerLiteral :=
  if cs.all fun c => c == '_' || isDigitIn base c then
    (ungrouped? Text.Hexadecimal.isDigit cs).map ({ base, text := · })
  else none

/-! ## Floats -/

/-- A float as it was written. -/
inductive FloatLiteral
  /-- The number `digits * 10 ^ exponent`, or its opposite. -/
  | finite (negative : Bool) (digits : Nat) (exponent : Int)
  | infinite (negative : Bool)
  | notANumber
  deriving DecidableEq, Repr

namespace FloatLiteral

/-- The least magnitude that a binary float of 64 bits rounds to infinity. -/
def overflowBound : Nat := Nat.pow 2 1024 - Nat.pow 2 970

/-- Whether a finite decimal is too large for a binary float of 64 bits. The count of digits decides
unless the magnitude is close to the bound, so no huge power is ever computed. -/
def overflows : FloatLiteral → Bool
  | finite _ 0 _ => false
  | finite _ digits exponent =>
    let magnitude := (Text.Decimal.digits digits).length + exponent
    if magnitude > 310 then true
    else if magnitude < 300 then false
    else if 0 ≤ exponent then overflowBound ≤ digits * Nat.pow 10 exponent.toNat
    else overflowBound * Nat.pow 10 (-exponent).toNat ≤ digits
  | infinite _ => false
  | notANumber => false

/-- The parts of a text before and after the first character that satisfies `p`. -/
def cutAt (p : Char → Bool) (cs : List Char) : List Char × Option (List Char) :=
  match cs.dropWhile (!p ·) with
  | [] => (cs, none)
  | _ :: rest => (cs.takeWhile (!p ·), some rest)

/-- Reads one or more digits. -/
def digits? (cs : List Char) : Option (List Char) :=
  if cs ≠ [] ∧ cs.all Char.isDigit then some cs else none

/-- Reads an exponent: digits with an optional sign. -/
def exponent? (cs : List Char) : Option Int := do
  let (negative, text) := dropSign cs
  let digits ← digits? text
  return if negative then -(ofDigits 10 digits : Int) else ofDigits 10 digits

/-- Reads a float without underscores: digits with an optional sign, a fraction and an exponent, all
of which have digits. -/
def ofText? (cs : List Char) : Option FloatLiteral := do
  let (negative, text) := dropSign cs
  let (mantissa, exponentText?) := cutAt (fun c => c == 'e' || c == 'E') text
  let (whole, fractionText?) := cutAt (· == '.') mantissa
  let wholeDigits ← digits? whole
  let fractionDigits ← fractionText?.elim (some []) digits?
  let exponent ← exponentText?.elim (some 0) exponent?
  return .finite negative (ofDigits 10 (wholeDigits ++ fractionDigits))
    (exponent - fractionDigits.length)

end FloatLiteral

/-! ## Either -/

/-- A number as it was written. -/
inductive NumberLiteral
  | integer (literal : IntegerLiteral)
  | float (literal : FloatLiteral)
  deriving DecidableEq, Repr

namespace NumberLiteral

/-- Whether the part of an unsigned decimal before its point has a zero in front that it does not
need. -/
def hasNeedlessZero (cs : List Char) : Bool :=
  cs.head? == some '0'
    && 1 < ((cs.takeWhile fun c => c.isDigit || c == '_').filter Char.isDigit).length

/-- Reads a decimal number: `unsigned` is `text` without a sign, and starts with a digit. One with a
point or the letter of an exponent is a float, and only zero itself starts with a zero. -/
def decimal? (text unsigned : List Char) : Option NumberLiteral :=
  let rest := unsigned.dropWhile Char.isDigit
  if !unsigned.head?.any Char.isDigit then none
  else if rest.any fun c => c == '.' || c == 'e' || c == 'E' then
    if hasNeedlessZero unsigned then none
    else ((ungrouped? Char.isDigit text).bind FloatLiteral.ofText?).map float
  else if rest.head? == some '_' || rest.isEmpty then
    if unsigned.head? == some '0' && unsigned ≠ ['0'] then none
    else (ungrouped? Text.Hexadecimal.isDigit text).map fun text => integer { base := 10, text }
  else none

/-- Reads a number. -/
def ofText? (text : List Char) : Option NumberLiteral :=
  match text, dropSign text with
  | '0' :: 'x' :: cs, _ => (IntegerLiteral.ofBase? 16 cs).map integer
  | '0' :: 'o' :: cs, _ => (IntegerLiteral.ofBase? 8 cs).map integer
  | '0' :: 'b' :: cs, _ => (IntegerLiteral.ofBase? 2 cs).map integer
  | _, (negative, ['i', 'n', 'f']) => some (float (.infinite negative))
  | _, (_, ['n', 'a', 'n']) => some (float .notANumber)
  | _, (_, unsigned) => decimal? text unsigned

end NumberLiteral

end BuildDiagnostics.Toml
