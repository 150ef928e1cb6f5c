import BuildDiagnostics.Text.Hexadecimal
import BuildDiagnostics.Toml.Reader

/-!
# TOML strings

Basic strings stand in double quotes and know escapes; literal strings stand in single quotes and
know none. Both have a form in three quotes that may span lines. A function here reads what follows
the opening quotes and answers the text and the rest of the input.
-/

namespace BuildDiagnostics.Toml.Quoted

/-- Whether a character may stand in a line of a string or a comment. -/
def isTextChar (c : Char) : Bool :=
  c == '\t' || (0x20 ≤ c.toNat && c.toNat != 0x7F)

/-- Whether a character is blank within a line. -/
def isSpace (c : Char) : Bool :=
  c == ' ' || c == '\t'

/-- The character with the code point that hexadecimal digits denote. -/
def codePoint? (cs : List Char) : Option Char :=
  let n := Text.Hexadecimal.ofDigits 16 cs
  if cs.all Text.Hexadecimal.isDigit ∧ n.isValidChar then some (Char.ofNat n) else none

/-- The character that an escape stands for, and what comes after it. The backslash is already
taken. -/
def escape? : List Char → Option (Char × List Char)
  | 'b' :: rest => some ('\x08', rest)
  | 't' :: rest => some ('\t', rest)
  | 'n' :: rest => some ('\n', rest)
  | 'f' :: rest => some ('\x0c', rest)
  | 'r' :: rest => some ('\r', rest)
  | 'e' :: rest => some ('\x1b', rest)
  | '"' :: rest => some ('"', rest)
  | '\\' :: rest => some ('\\', rest)
  | 'x' :: a :: b :: rest => (codePoint? [a, b]).map (·, rest)
  | 'u' :: a :: b :: c :: d :: rest => (codePoint? [a, b, c, d]).map (·, rest)
  | 'U' :: a :: b :: c :: d :: e :: f :: g :: h :: rest =>
    (codePoint? [a, b, c, d, e, f, g, h]).map (·, rest)
  | _ => none

/-- An escape takes something. -/
theorem length_lt_of_escape? {cs rest : List Char} {c : Char} (h : escape? cs = some (c, rest)) :
    rest.length < cs.length := by
  have fixed {x y : Char} {r : List Char} (e : some (x, r) = some (y, rest)) : r = rest := by
    simp_all
  have coded {n : Option Char} {r : List Char} (e : n.map (·, r) = some (c, rest)) : r = rest := by
    obtain ⟨_, _, e⟩ := Option.map_eq_some_iff.1 e
    simp_all
  unfold escape? at h
  split at h
  case h_9 | h_10 | h_11 => simp only [← coded h, List.length_cons]; omega
  case h_12 => cases h
  all_goals simp [← fixed h]

/-- The input without the blanks and line ends at its front. -/
def skipLines : List Char → List Char
  | ' ' :: rest => skipLines rest
  | '\t' :: rest => skipLines rest
  | '\n' :: rest => skipLines rest
  | '\r' :: '\n' :: rest => skipLines rest
  | cs => cs

theorem length_skipLines_le (cs : List Char) : (skipLines cs).length ≤ cs.length := by
  fun_induction skipLines cs <;> simp_all <;> omega

/-- What comes after a backslash at the end of a line and all blanks and line ends that follow. -/
def continuation? (cs : List Char) : Option { rest : List Char // rest.length ≤ cs.length } :=
  match cs.dropWhile isSpace with
  | '\n' :: _ | '\r' :: '\n' :: _ => some ⟨skipLines cs, length_skipLines_le cs⟩
  | _ => none

/-- The text of a basic string. `taken` is what comes before, last character first. -/
def basic (taken : List Char) : List Char → Except Error (String × List Char)
  | [] => .error .malformed
  | '"' :: rest => .ok (String.ofList taken.reverse, rest)
  | '\\' :: cs =>
    match _h : escape? cs with
    | some (c, rest) => basic (c :: taken) rest
    | none => .error .malformed
  | c :: rest => if isTextChar c then basic (c :: taken) rest else .error .malformed
termination_by cs => cs.length
decreasing_by
  · have := length_lt_of_escape? _h
    simp only [List.length_cons]
    omega
  · simp only [List.length_cons]
    omega

/-- The text of a literal string. -/
def literal (cs : List Char) : Except Error (String × List Char) :=
  match cs.dropWhile (· != '\'') with
  | [] => .error .malformed
  | _ :: rest =>
    let text := cs.takeWhile (· != '\'')
    if text.all isTextChar then .ok (String.ofList text, rest) else .error .malformed

/-- The end of a string in three quotes: up to two quotes before the last three belong to the
text. -/
def closeBlock (quote : Char) (taken rest : List Char) : String × List Char :=
  let extra := (rest.take 2).takeWhile (· == quote)
  (String.ofList (taken.reverse ++ extra), rest.drop extra.length)

/-- The text of a basic string in three quotes. -/
def basicBlock (taken : List Char) : List Char → Except Error (String × List Char)
  | [] => .error .malformed
  | '"' :: '"' :: '"' :: rest => .ok (closeBlock '"' taken rest)
  | '\\' :: cs =>
    match continuation? cs with
    | some ⟨rest, _⟩ => basicBlock taken rest
    | none =>
      match _h : escape? cs with
      | some (c, rest) => basicBlock (c :: taken) rest
      | none => .error .malformed
  | '\r' :: '\n' :: rest => basicBlock ('\n' :: '\r' :: taken) rest
  | c :: rest =>
    if isTextChar c || c == '\n' then basicBlock (c :: taken) rest else .error .malformed
termination_by cs => cs.length
decreasing_by
  · simp only [List.length_cons]
    omega
  · have := length_lt_of_escape? _h
    simp only [List.length_cons]
    omega
  all_goals
    simp only [List.length_cons]
    omega

/-- The text of a literal string in three quotes. -/
def literalBlock (taken : List Char) : List Char → Except Error (String × List Char)
  | [] => .error .malformed
  | '\'' :: '\'' :: '\'' :: rest => .ok (closeBlock '\'' taken rest)
  | '\r' :: '\n' :: rest => literalBlock ('\n' :: '\r' :: taken) rest
  | c :: rest =>
    if isTextChar c || c == '\n' then literalBlock (c :: taken) rest else .error .malformed

/-- The input without a line end directly at its front. -/
def dropLineEnd : List Char → List Char
  | '\n' :: rest => rest
  | '\r' :: '\n' :: rest => rest
  | cs => cs

/-- The text of a string on one line, with its opening quote. -/
def readLine : Reader String := do
  match ← get with
  | '"' :: rest => StateT.lift (basic [] rest) >>= finish
  | '\'' :: rest => StateT.lift (literal rest) >>= finish
  | _ => throw .malformed
where
  /-- Goes on after the string. -/
  finish (result : String × List Char) : Reader String := do
    set result.2
    return result.1

/-- The text of a string of any form, with its opening quotes. -/
def read : Reader String := do
  match ← get with
  | '"' :: '"' :: '"' :: rest => StateT.lift (basicBlock [] (dropLineEnd rest)) >>= readLine.finish
  | '\'' :: '\'' :: '\'' :: rest =>
    StateT.lift (literalBlock [] (dropLineEnd rest)) >>= readLine.finish
  | _ => readLine

end BuildDiagnostics.Toml.Quoted
