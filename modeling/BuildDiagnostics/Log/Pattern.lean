import BuildDiagnostics.Text.Hexadecimal
import BuildDiagnostics.Text.Letter

/-!
# Patterns for the values of fields

The value that a directive asks of a field is a number or a regular expression. The program has no
spans, so no such value is ever compared with one; but a directive whose pattern is no pattern
cannot be read. `Pattern.isValid` decides that, in one pass from left to right.

Patterns know groups, alternatives, repetitions, bracketed classes with nesting and set operations,
the usual escapes, and modes that are switched on and off inside the pattern. They are compiled to
automata that hold no Unicode tables, so what needs one is no pattern: classes of Unicode
characters, word boundaries between them, and letters in either case. In the mode for bytes these
stand for their ASCII counterparts, and what could match a part of a character is no pattern. A
closing brace ends the value of a field, so the counts of a repetition are never complete and an
opening brace stands for itself only behind a backslash or in brackets.
-/

namespace BuildDiagnostics.Log

/-- Whether a text is a number: a decimal with an optional sign, point and exponent, or a word for
infinity or for no number. -/
def isNumber (cs : List Char) : Bool :=
  let unsigned := if cs.head? == some '+' || cs.head? == some '-' then cs.tail else cs
  let word := String.ofList (unsigned.map Char.toLower)
  let isMark (c : Char) := c == 'e' || c == 'E'
  let mantissa := unsigned.takeWhile (!isMark ·)
  let exponent := unsigned.dropWhile (!isMark ·)
  ["inf", "infinity", "nan"].contains word
    || (isMantissa mantissa && (exponent.isEmpty || isExponent exponent.tail))
where
  /-- One or more digits, with at most one point among them. -/
  isMantissa (cs : List Char) : Bool :=
    cs.any Char.isDigit && cs.all (fun c => c.isDigit || c == '.') && cs.count '.' ≤ 1
  /-- One or more digits after an optional sign. -/
  isExponent (cs : List Char) : Bool :=
    let digits := if cs.head? == some '+' || cs.head? == some '-' then cs.tail else cs
    !digits.isEmpty && digits.all Char.isDigit

namespace Pattern

/-! ## Modes -/

/-- What may be switched on and off inside a pattern, as far as it matters to its form. -/
structure Modes where
  /-- Letters match in either case. -/
  caseless : Bool := false
  /-- The pattern is about bytes, not about characters. -/
  bytewise : Bool := false
  /-- Blanks and comments in the pattern are skipped. -/
  spaced : Bool := false
  deriving DecidableEq, Repr

/-- The letters of all modes. -/
def modeLetters : List Char :=
  ['i', 'm', 's', 'U', 'u', 'R', 'x']

/-- Whether a text switches modes: their letters, no one twice, and before those to switch off a
hyphen. -/
def areSwitches (cs : List Char) : Bool :=
  cs.all (fun c => c == '-' || modeLetters.contains c) && decide cs.Nodup && cs.getLast? != some '-'

/-- The modes after a switch. -/
def Modes.switch (m : Modes) (cs : List Char) : Modes :=
  let on := cs.takeWhile (· != '-')
  let off := cs.dropWhile (· != '-')
  let after (letter : Char) (old : Bool) : Bool :=
    (old || on.contains letter) && !off.contains letter
  { caseless := after 'i' m.caseless
    bytewise := !after 'u' !m.bytewise
    spaced := after 'x' m.spaced }

/-- The text without the blanks and comments at its front. -/
def dropFiller (inComment : Bool) : List Char → List Char
  | [] => []
  | c :: cs =>
    if inComment then dropFiller (c != '\n') cs
    else if c = '#' then dropFiller true cs
    else if Text.isBlank c then dropFiller false cs
    else c :: cs

/-- The text without what a mode skips at its front. -/
def Modes.skip (m : Modes) (cs : List Char) : List Char :=
  if m.spaced then dropFiller false cs else cs

/-! ## Single characters -/

/-- What one character, or one escape, stands for. -/
inductive Atom
  /-- A character; `byte` says that two digits after `\x` gave it, which may mean a byte. -/
  | literal (c : Char) (byte : Bool)
  /-- A class with a letter of its own. -/
  | shorthand
  /-- A place in the text. -/
  | place
  deriving DecidableEq, Repr

/-- Takes as many hexadecimal digits as asked for. -/
def hexDigits? (m : Modes) : Nat → List Char → Option (List Char × List Char)
  | 0, cs => some ([], cs)
  | n + 1, cs =>
    match m.skip cs with
    | [] => none
    | c :: rest =>
      if Text.Hexadecimal.isDigit c then (hexDigits? m n rest).map fun (ds, rest) => (c :: ds, rest)
      else none

/-- The character with a code point of so many hexadecimal digits. -/
def codePoint? (m : Modes) (byte : Bool) (count : Nat) (cs : List Char) :
    Option (Atom × List Char) := do
  let (digits, rest) ← hexDigits? m count cs
  let n := Text.Hexadecimal.ofDigits 16 digits
  if n.isValidChar then return (.literal (Char.ofNat n) byte, rest) else none

/-- What an escape stands for, and what comes after it. The backslash is already taken. Letters and
digits stand for something or for nothing, angle brackets are the ends of words, and all else in
ASCII stands for itself. -/
def escape? (m : Modes) : List Char → Option (Atom × List Char)
  | [] => none
  | c :: rest =>
    let forBytes (atom : Atom) := if m.bytewise then some (atom, rest) else none
    match c with
    | 'x' => codePoint? m true 2 rest
    | 'u' => codePoint? m false 4 rest
    | 'U' => codePoint? m false 8 rest
    | 'd' | 's' | 'w' => forBytes .shorthand
    | 'B' | '<' | '>' => forBytes .place
    | 'b' => if rest.head? = some '\x7b' then none else forBytes .place
    | 'A' | 'z' => some (.place, rest)
    | 'a' => some (.literal '\x07' false, rest)
    | 'f' => some (.literal '\x0c' false, rest)
    | 't' => some (.literal '\t' false, rest)
    | 'n' => some (.literal '\n' false, rest)
    | 'r' => some (.literal '\r' false, rest)
    | 'v' => some (.literal '\x0b' false, rest)
    | _ => if c.toNat < 0x80 && !c.isAlphanum then some (.literal c false, rest) else none

/-- Whether a character may stand for itself outside of brackets. -/
def Modes.allows (m : Modes) : Atom → Bool
  | .literal c byte => if m.bytewise then !byte || c.toNat < 0x80 else !m.caseless
  | .shorthand => true
  | .place => true

/-- Whether a character may stand in brackets. -/
def Modes.allowsInBrackets (m : Modes) : Atom → Bool
  | .literal c _ => if m.bytewise then c.toNat < 0x80 else !m.caseless
  | .shorthand => true
  | .place => false

/-! ## Nesting -/

/-- Items side by side, with the depth of the deepest of them. -/
structure Items where
  count : Nat := 0
  depth : Nat := 0
  /-- The depth of the last item, if there is one and it may be repeated. -/
  last : Option Nat := none
  deriving DecidableEq, Repr

namespace Items

/-- Adds an item. -/
def push (s : Items) (depth : Nat) : Items where
  count := s.count + 1
  depth := max s.depth depth
  last := some depth

/-- Repeats the last item. -/
def repeatLast? (s : Items) : Option Items :=
  s.last.map fun depth => { s with depth := max s.depth (depth + 1), last := some (depth + 1) }

/-- The depth of all items together: a single one needs nothing around it. -/
def total (s : Items) : Nat :=
  if s.count ≤ 1 then s.depth else s.depth + 1

end Items

/-- A group, or the whole pattern, that is still open. -/
structure Group where
  modes : Modes := {}
  /-- The depth of the finished alternatives, if there are any. -/
  alternatives : Option Nat := none
  /-- The last alternative. -/
  items : Items := {}
  deriving DecidableEq, Repr

namespace Group

/-- The depth of what is in the group. -/
def depth (g : Group) : Nat :=
  g.alternatives.elim g.items.total fun depth => max depth g.items.total + 1

/-- Begins another alternative. -/
def alternate (g : Group) : Group :=
  { g with alternatives := some (max (g.alternatives.getD 0) g.items.total), items := {} }

/-- Adds an item to the last alternative. -/
def push (g : Group) (depth : Nat) : Group :=
  { g with items := g.items.push depth }

end Group

/-- A bracketed class that is still open. -/
structure Brackets where
  /-- The depth of the operands of the set operations so far, if there are any. -/
  operands : Option Nat := none
  /-- The last operand. -/
  items : Items := {}
  /-- Whether a hyphen or a closing bracket stands for itself, because nothing but hyphens came
  before it. -/
  fresh : Bool := true
  deriving DecidableEq, Repr

namespace Brackets

/-- The depth of what is in the brackets. -/
def depth (b : Brackets) : Nat :=
  b.operands.elim b.items.total fun depth => max depth b.items.total + 1

/-- Begins another operand. -/
def operate (b : Brackets) : Brackets :=
  { operands := some b.depth, fresh := false }

/-- Adds an item to the last operand. -/
def push (b : Brackets) (depth : Nat) : Brackets :=
  { b with items := b.items.push depth }

end Brackets

/-! ## Reading a pattern -/

/-- How far a pattern was read. -/
structure State where
  group : Group := {}
  /-- The groups around it, the innermost first. -/
  outer : List Group := []
  /-- The open brackets, the innermost first. -/
  brackets : List Brackets := []
  /-- The names of groups so far. -/
  names : List (List Char) := []
  deriving DecidableEq, Repr

namespace State

/-- Adds an item without parts. -/
def pushLeaf (s : State) : State :=
  { s with group := s.group.push 0 }

/-- Opens a group with the given modes. -/
def openGroup (s : State) (modes : Modes) : State :=
  { s with group := { modes }, outer := s.group :: s.outer }

/-- Closes the innermost group. -/
def closeGroup? (s : State) : Option State :=
  match s.outer with
  | [] => none
  | group :: outer => some { s with group := group.push (s.group.depth + 1), outer }

/-- Whether a text may name a group. -/
def isName : List Char → Bool
  | [] => false
  | c :: cs =>
    (c == '_' || Text.isLetter c)
      && cs.all fun c => ['_', '.', '[', ']'].contains c || Text.isLetterOrNumeral c

/-- Opens a group whose name and closing angle bracket follow. No two groups have one name. -/
def openNamed? (s : State) (cs : List Char) : Option (State × List Char) :=
  let name := cs.takeWhile (· != '>')
  match cs.dropWhile (· != '>') with
  | [] => none
  | _ :: rest =>
    if isName name && !s.names.contains name then
      some ({ s.openGroup s.group.modes with names := name :: s.names }, rest)
    else none

/-- Switches modes, up to a closing parenthesis for the rest of the group and up to a colon for a
group of their own. -/
def switch? (s : State) (cs : List Char) : Option (State × List Char) :=
  let isEnd (c : Char) := c == ':' || c == ')'
  let letters := cs.takeWhile (!isEnd ·)
  let modes := s.group.modes.switch letters
  if areSwitches letters then
    match cs.dropWhile (!isEnd ·) with
    | ':' :: rest => some (s.openGroup modes, rest)
    | ')' :: rest =>
      let items := { s.group.items with count := s.group.items.count + 1, last := none }
      if letters.isEmpty then none
      else some ({ s with group := { s.group with modes, items } }, rest)
    | _ => none
  else none

/-- Goes on after an opening parenthesis. -/
def open? (s : State) (cs : List Char) : Option (State × List Char) :=
  match s.group.modes.skip cs with
  | '?' :: 'P' :: '<' :: rest => s.openNamed? rest
  | '?' :: '<' :: rest => s.openNamed? rest
  | '?' :: rest => s.switch? rest
  | rest => some (s.openGroup s.group.modes, rest)

/-- Goes on after an opening bracket. No class of bytes is negated: it could match a part of a
character. -/
def openBrackets? (s : State) (cs : List Char) : Option (State × List Char) :=
  let s' := { s with brackets := {} :: s.brackets }
  match s.group.modes.skip cs with
  | '^' :: rest => if s.group.modes.bytewise then none else some (s', rest)
  | rest => some (s', rest)

/-- Closes the innermost brackets. -/
def closeBrackets (s : State) (b : Brackets) (around : List Brackets) : State :=
  match around with
  | [] => { s with group := s.group.push (b.depth + 1), brackets := [] }
  | outer :: more => { s with brackets := outer.push (b.depth + 1) :: more }

/-- Takes what stands outside of brackets. -/
def outside? (s : State) (c : Char) (rest : List Char) : Option (State × List Char) :=
  let m := s.group.modes
  let leaf (atom : Atom) (rest : List Char) :=
    if m.allows atom then some (s.pushLeaf, rest) else none
  match c with
  | '(' => s.open? rest
  | ')' => s.closeGroup?.map (·, rest)
  | '[' => s.openBrackets? rest
  | '|' => some ({ s with group := s.group.alternate }, rest)
  | '?' | '*' | '+' => do
    let items ← s.group.items.repeatLast?
    let rest := if rest.head? = some '?' then rest.tail else rest
    return ({ s with group := { s.group with items } }, rest)
  | '\x7b' => none
  | '\\' => do
    let (atom, rest) ← escape? m rest
    leaf atom rest
  | '.' => if m.bytewise then none else some (s.pushLeaf, rest)
  | '^' | '$' => some (s.pushLeaf, rest)
  | _ => leaf (.literal c false) rest

/-- The names of the classes in brackets and colons. -/
def classNames : List String :=
  ["alnum", "alpha", "ascii", "blank", "cntrl", "digit", "graph", "lower", "print", "punct",
   "space", "upper", "word", "xdigit"]

/-- Takes a named class after its opening bracket, if there is one, and tells whether it is
negated. -/
def namedClass? : List Char → Option (Bool × List Char)
  | ':' :: cs =>
    let negated := cs.head? == some '^'
    let cs := if negated then cs.tail else cs
    let name := String.ofList (cs.takeWhile (· != ':'))
    match cs.dropWhile (· != ':') with
    | ':' :: ']' :: rest => if classNames.contains name then some (negated, rest) else none
    | _ => none
  | _ => none

/-- Takes one end of a range. -/
def atom? (m : Modes) : List Char → Option (Atom × List Char)
  | [] => none
  | '\\' :: rest => escape? m rest
  | c :: rest => some (.literal c false, rest)

/-- Takes a character, a class or a range of characters in brackets. A hyphen before another hyphen
or a closing bracket makes no range. -/
def range? (m : Modes) (cs : List Char) : Option (List Char) := do
  let (low, rest) ← atom? m cs
  if !m.allowsInBrackets low then none
  match m.skip rest with
  | '-' :: more =>
    let more := m.skip more
    if more.head? = some ']' || more.head? = some '-' then return rest
    let (high, rest) ← atom? m more
    match low, high with
    | .literal a _, .literal b _ => if a ≤ b && m.allowsInBrackets high then return rest else none
    | _, _ => none
  | _ => return rest

/-- Takes what stands in brackets. -/
def inside? (s : State) (b : Brackets) (around : List Brackets) (c : Char) (rest : List Char) :
    Option (State × List Char) :=
  let m := s.group.modes
  let go (b : Brackets) : State := { s with brackets := b :: around }
  let settled := { b with fresh := false }
  let first := b.fresh && b.items.count == 0
  if b.fresh && c = '-' || first && c = ']' then
    if m.allowsInBrackets (.literal c false) then
      some (go { b.push 0 with fresh := c == '-' }, rest)
    else none
  else if c = ']' then some (s.closeBrackets b around, rest)
  else if c = '[' then
    match namedClass? rest with
    | some (negated, rest) =>
      let refused := if m.bytewise then negated else m.caseless
      if refused then none else some (go (settled.push 0), rest)
    | none => (go settled).openBrackets? rest
  else if ['&', '-', '~'].contains c && rest.head? = some c then
    some (go settled.operate, rest.tail)
  else (range? m (c :: rest)).map fun rest => (go (settled.push 0), rest)

/-- Takes the next part of a pattern. -/
def step? (s : State) (cs : List Char) : Option (State × List Char) :=
  match s.group.modes.skip cs with
  | [] => some (s, [])
  | c :: rest =>
    match s.brackets with
    | [] => s.outside? c rest
    | b :: around => s.inside? b around c rest

/-- Reads to the end of a pattern. Every step takes something. -/
def run? (s : State) (cs : List Char) : Option State :=
  if cs.isEmpty then some s
  else
    match s.step? cs with
    | none => none
    | some (s, rest) => if rest.length < cs.length then run? s rest else none
termination_by cs.length

end State

/-- How deeply groups, repetitions, alternatives and classes may be nested. -/
def maxDepth : Nat := 250

/-- Whether a text is a pattern. -/
def isValid (cs : List Char) : Bool :=
  (State.run? {} cs).any fun s => s.outer.isEmpty && s.brackets.isEmpty && s.group.depth ≤ maxDepth

end Pattern

end BuildDiagnostics.Log
