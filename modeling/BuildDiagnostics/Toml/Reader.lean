/-!
# Reading TOML

A reader takes characters from the front of its input or fails. Repetition is one combinator,
`iterate`: every round but the last has to take at least one character, so it ends.
-/

namespace BuildDiagnostics.Toml

/-- Why a text is no TOML document. -/
inductive Error
  /-- It breaks the grammar. -/
  | malformed
  /-- Arrays and inline tables are nested too deeply. -/
  | tooDeep
  /-- A key is given twice, or extends what cannot be extended. -/
  | conflict (key : String)
  deriving DecidableEq, Repr

/-- The text of the error. -/
def Error.message : Error → String
  | malformed => "malformed document"
  | tooDeep => "values are nested too deeply"
  | conflict key => "conflicting definitions of key \x60" ++ key ++ "\x60"

/-- What reads from the front of a list of characters. -/
abbrev Reader := StateT (List Char) (Except Error)

namespace Reader

variable {α σ : Type}

/-- The next character, which stays. -/
def peek? : Reader (Option Char) :=
  return (← get).head?

/-- Takes the next character if it is `c`, and tells whether it was. -/
def accept (c : Char) : Reader Bool := do
  match ← get with
  | d :: rest => if d = c then set rest; return true else return false
  | [] => return false

/-- Takes the next character, which has to be `c`. -/
def expect (c : Char) : Reader Unit := do
  unless ← accept c do throw .malformed

/-- Takes all next characters that satisfy `p`. -/
def takeWhile (p : Char → Bool) : Reader (List Char) := do
  let input ← get
  set (input.dropWhile p)
  return input.takeWhile p

/-- Takes exactly `n` digits. -/
def digits (n : Nat) : Reader (List Char) := do
  let input ← get
  let taken := input.take n
  if taken.length = n ∧ taken.all Char.isDigit then
    set (input.drop n)
    return taken
  else throw .malformed

/-- The result of a reader that has to take the whole input. -/
def whole (reader : Reader α) (input : List Char) : Except Error α := do
  match ← reader.run input with
  | (result, []) => return result
  | (_, _ :: _) => throw .malformed

/-- Runs `round` until it answers a result on the right. A round that answers a state on the left
has to take something from the input. -/
def iterate (round : σ → Reader (σ ⊕ α)) (state : σ) : Reader α := fun input =>
  match round state input with
  | .error e => .error e
  | .ok (.inr result, rest) => .ok (result, rest)
  | .ok (.inl state, rest) =>
    if rest.length < input.length then iterate round state rest else .error .malformed
termination_by input => input.length

end Reader

end BuildDiagnostics.Toml
