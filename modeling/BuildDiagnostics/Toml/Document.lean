import BuildDiagnostics.Toml.Quoted
import BuildDiagnostics.Toml.Value

/-!
# TOML documents

A document is a list of statements, one a line: keys with values, and headers that say which table
the following keys belong to. `Document.ofText` reads the statements and builds the root table from
them.
-/

namespace BuildDiagnostics.Toml

namespace Document

/-! ## Blanks, comments and line ends -/

/-- Skips blanks within a line. -/
def skipSpaces : Reader Unit := do
  let _ ← Reader.takeWhile Quoted.isSpace

/-- Skips a comment, if one begins here. -/
def skipComment : Reader Unit := do
  if ← Reader.accept '#' then
    let _ ← Reader.takeWhile Quoted.isTextChar

/-- Takes a line end, if one stands here, and tells whether it did. -/
def acceptLineEnd : Reader Bool := do
  match ← get with
  | '\n' :: rest => set rest; return true
  | '\r' :: '\n' :: rest => set rest; return true
  | _ => return false

/-- Skips blanks, comments and line ends. -/
def skipTrivia : Reader Unit :=
  Reader.iterate (fun _ => do
    skipSpaces
    skipComment
    if ← acceptLineEnd then return .inl () else return .inr ()) ()

/-- Takes the end of a statement: blanks, a comment, and the end of the line or of the document. -/
def finishLine : Reader Unit := do
  skipSpaces
  skipComment
  unless ← acceptLineEnd do
    unless (← get).isEmpty do throw .malformed

/-! ## Keys -/

/-- Whether a character may stand in a key without quotes. -/
def isBareKeyChar (c : Char) : Bool :=
  c.isAlphanum || c == '-' || c == '_'

/-- Reads one part of a key. -/
def readKeyPart : Reader String := do
  match ← Reader.peek? with
  | some '"' | some '\'' => Quoted.readLine
  | _ =>
    let bare ← Reader.takeWhile isBareKeyChar
    if bare.isEmpty then throw .malformed
    return String.ofList bare

/-- How many parts a key may have, and how deeply arrays and inline tables may be nested. -/
def maxDepth : Nat := 80

/-- Reads a key with its dots, and the blanks after it. -/
def readKey : Reader (List String) := do
  let key ← Reader.iterate (fun parts => do
    skipSpaces
    let part ← readKeyPart
    skipSpaces
    if ← Reader.accept '.' then return .inl (part :: parts)
    else return .inr (part :: parts).reverse) []
  if key.length ≤ maxDepth then return key else throw .tooDeep

/-! ## Values -/

/-- Whether a character may stand in a number, a word, a date or a time: whatever does not end one.
-/
def isScalarChar (c : Char) : Bool :=
  !" \t\r\n=,#[]\x7b\x7d".toList.contains c

/-- The value of a word, a number, a date or a time. -/
def scalarOfWord (cs : List Char) : Except Error Scalar :=
  match cs with
  | ['t', 'r', 'u', 'e'] => return .boolean true
  | ['f', 'a', 'l', 's', 'e'] => return .boolean false
  | _ =>
    if Datetime.startsLikeDate cs || Datetime.startsLikeTime cs then
      return .datetime (← Datetime.read.whole cs)
    else
      match NumberLiteral.ofText? cs with
      | some literal => return .number literal
      | none => throw .malformed

/-- Reads a value without parts. A date and a time may have one space between them. -/
def readScalar : Reader Value := do
  match ← Reader.peek? with
  | some '"' | some '\'' => return .scalar (.string (← Quoted.read))
  | _ =>
    let word ← Reader.takeWhile isScalarChar
    let isDate := Datetime.startsLikeDate word && word.length == 10
    let rest ← get
    let word ←
      match rest with
      | ' ' :: c :: _ =>
        if isDate && c.isDigit then
          set rest.tail
          pure (word ++ ' ' :: (← Reader.takeWhile isScalarChar))
        else pure word
      | _ => pure word
    return .scalar (← scalarOfWord word)

/-- Reads the rest of an array after its opening bracket. -/
def readItems (readValue : Reader Value) : Reader Value :=
  Reader.iterate (fun items => do
    skipTrivia
    if ← Reader.accept ']' then return .inr (.array false items.reverse)
    let item ← readValue
    skipTrivia
    if ← Reader.accept ',' then return .inl (item :: items)
    Reader.expect ']'
    return .inr (.array false (item :: items).reverse)) []

/-- Reads a key, an equals sign and a value. What may stand on either side of the equals sign is
read by `skip`. -/
def readPair (skip : Reader Unit) (readValue : Reader Value) : Reader (List String × Value) := do
  let key ← readKey
  skip
  Reader.expect '='
  skip
  return (key, ← readValue)

/-- Reads the rest of an inline table after its opening brace. -/
def readMembers (readValue : Reader Value) : Reader Value :=
  Reader.iterate (fun entries => do
    skipTrivia
    if ← Reader.accept '\x7d' then return .inr (.table .inline entries)
    let (key, value) ← readPair skipTrivia readValue
    let entries ← StateT.lift (Table.insert value key entries)
    skipTrivia
    if ← Reader.accept ',' then return .inl entries
    Reader.expect '\x7d'
    return .inr (.table .inline entries)) []

/-- Reads a value in which arrays and inline tables are nested at most so deep. -/
def readValue : Nat → Reader Value
  | 0 => do
    match ← Reader.peek? with
    | some '[' | some '\x7b' => throw .tooDeep
    | _ => readScalar
  | depth + 1 => do
    if ← Reader.accept '[' then readItems (readValue depth)
    else if ← Reader.accept '\x7b' then readMembers (readValue depth)
    else readScalar

/-! ## Statements -/

/-- A statement of a document. -/
inductive Statement
  | pair (key : List String) (value : Value)
  /-- A header in single brackets. -/
  | table (path : List String)
  /-- A header in double brackets. -/
  | element (path : List String)

/-- Reads a header. -/
def readHeader : Reader Statement := do
  Reader.expect '['
  let double ← Reader.accept '['
  let path ← readKey
  Reader.expect ']'
  if double then
    Reader.expect ']'
    return .element path
  return .table path

/-- Reads all statements. -/
def readStatements : Reader (List Statement) :=
  Reader.iterate (fun statements => do
    skipTrivia
    match ← Reader.peek? with
    | none => return .inr statements.reverse
    | some '[' =>
      let header ← readHeader
      finishLine
      return .inl (header :: statements)
    | some _ =>
      let (key, value) ← readPair skipSpaces (readValue maxDepth)
      finishLine
      return .inl (.pair key value :: statements)) []

/-- The root table so far, and the path of the table that keys go to. -/
structure State where
  root : Table := []
  current : List String := []

/-- Carries out a statement. -/
def State.step (s : State) : Statement → Except Error State
  | .pair key value => return { s with root := ← s.root.within (Table.insert value key) s.current }
  | .table path => return { root := ← s.root.openTable path, current := path }
  | .element path => return { root := ← s.root.openElement path, current := path }

/-- The root table of a document. A byte order mark in front of it is skipped. -/
def ofText (text : String) : Except Error Table := do
  let cs := match text.toList with
    | '\uFEFF' :: rest => rest
    | cs => cs
  let statements ← readStatements.whole cs
  return (← statements.foldlM State.step {}).root

end Document

end BuildDiagnostics.Toml
