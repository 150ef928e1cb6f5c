import BuildDiagnostics.Text.Decimal
import BuildDiagnostics.Text.Hexadecimal

/-!
# JSON values

A JSON value with natural numbers, whose objects keep the order of their members, and its text. One
printer serves the compact and the indented form: a `Layout` says what stands where a line may
break and after the colon of a member, and blanks are all it may put there.
-/

namespace BuildDiagnostics

/-- A JSON value. Members of an object keep their order. -/
inductive Json
  | number (n : Nat)
  | text (s : String)
  | array (items : List Json)
  | object (members : List (String × Json))

namespace Json

/-! ## Strings -/

/-- A character inside quotes: the quote, the backslash and the characters below U+0020 are escaped
and all else stands for itself. -/
def escape (c : Char) : List Char :=
  if c = '"' then ['\\', '"']
  else if c = '\\' then ['\\', '\\']
  else if c = '\x08' then ['\\', 'b']
  else if c = '\t' then ['\\', 't']
  else if c = '\n' then ['\\', 'n']
  else if c = '\x0c' then ['\\', 'f']
  else if c = '\r' then ['\\', 'r']
  else if c.toNat < 0x20 then ['\\', 'u', '0', '0'] ++ Text.Hexadecimal.lower c.toNat
  else [c]

/-- A string in quotes. -/
def quote (s : String) : List Char :=
  '"' :: s.toList.flatMap escape ++ ['"']

/-! ## Values -/

/-- Where the blanks of a printed value go. -/
structure Layout where
  /-- What stands at a possible line break before something at the given depth. -/
  lineBreak : Nat → List Char
  /-- What stands after the colon of a member. -/
  afterColon : List Char

/-- No blanks at all. -/
def Layout.compact : Layout where
  lineBreak _ := []
  afterColon := []

/-- Every item on a line of its own, two spaces deeper than what holds it. -/
def Layout.indented : Layout where
  lineBreak depth := '\n' :: List.replicate (2 * depth) ' '
  afterColon := [' ']

/-- Items at `depth` in brackets, a comma between two of them. No line break when there are none. -/
def bracketed (layout : Layout) (depth : Nat) (opening closing : Char) :
    List (List Char) → List Char
  | [] => [opening, closing]
  | items =>
    opening :: layout.lineBreak (depth + 1)
      ++ List.intercalate (',' :: layout.lineBreak (depth + 1)) items
      ++ layout.lineBreak depth ++ [closing]

/-- The text of a value that stands at `depth`. -/
def print (layout : Layout) (depth : Nat) : Json → List Char
  | number n => Text.Decimal.digits n
  | text s => quote s
  | array items => bracketed layout depth '[' ']' (items.map (print layout (depth + 1)))
  | object members =>
    bracketed layout depth '\x7b' '\x7d' (members.map fun member =>
      quote member.1 ++ ':' :: layout.afterColon ++ print layout (depth + 1) member.2)
termination_by value => value
decreasing_by
  · decreasing_tactic
  · rename_i h
    have := List.sizeOf_lt_of_mem h
    cases member
    simp_all
    omega

/-- The text of a value on one line, without blanks. -/
def compact (value : Json) : String :=
  String.ofList (print .compact 0 value)

/-- The text of a value over several lines, two spaces a level. -/
def pretty (value : Json) : String :=
  String.ofList (print .indented 0 value)

end Json

end BuildDiagnostics
