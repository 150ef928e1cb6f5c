import BuildDiagnostics.Json
import BuildDiagnostics.Text.Lines

/-!
# Log events

What happens on the way is told as data: each stage answers the events it has to report beside its
result, and the command line decides which of them are shown. An event is shown as one line, unless
its text or a path in it holds line feeds.
-/

namespace BuildDiagnostics.Log

/-- How much an event matters, most first. -/
inductive Level
  | error
  | warn
  | info
  | debug
  | trace
  deriving DecidableEq, Repr

/-- The word a level is shown as. -/
def Level.label : Level → String
  | error => "ERROR"
  | warn => "WARN"
  | info => "INFO"
  | debug => "DEBUG"
  | trace => "TRACE"

/-- How verbose a log has to be to show a level, from 1 for errors. -/
def Level.verbosity : Level → Nat
  | error => 1
  | warn => 2
  | info => 3
  | debug => 4
  | trace => 5

/-- The part of the program that reports an event. -/
inductive Target
  | program
  | extraction
  | session
  | publication
  /-- The compiler itself: a line it wrote to its standard error. -/
  | compiler
  deriving DecidableEq, Repr

/-- The name under which a target is known to log filters. -/
def Target.name : Target → String
  | program => "buildlens"
  | extraction => "buildlens_extract::aggregate"
  | session => "buildlens_build::session"
  | publication => "buildlens_build::publish"
  | compiler => "buildlens::compiler"

/-- The value of a field of an event. -/
inductive FieldValue
  | count (n : Nat)
  | text (s : String)
  | path (s : String)
  deriving DecidableEq, Repr

/-- One reported event: its named fields and its text. -/
structure Event where
  level : Level
  target : Target
  fields : List (String × FieldValue) := []
  message : String
  deriving DecidableEq, Repr

/-- The names of an event's fields. Its text counts as the field `message`. -/
def Event.fieldNames (event : Event) : List String :=
  "message" :: event.fields.map Prod.fst

/-! ## Events as text -/

/-- A character in the text of a shown event. The control characters that a terminal may act on are
written out; line feeds, tabs and the like stay. -/
def visible (c : Char) : List Char :=
  if [0x07, 0x08, 0x0C, 0x1B, 0x7F].contains c.toNat then
    '\\' :: 'x' :: Text.Hexadecimal.lower c.toNat
  else if 0x80 ≤ c.toNat ∧ c.toNat ≤ 0x9F then
    ['\\', 'u', '\x7b'] ++ Text.Hexadecimal.lower c.toNat ++ ['\x7d']
  else [c]

/-- The value of a field as it is shown: texts stand in quotes, paths stand for themselves. -/
def FieldValue.display : FieldValue → String
  | count n => Text.Decimal.text n
  | text s => String.ofList (Json.quote s)
  | path s => s

/-- An event as it is shown. -/
def Event.display (event : Event) : String :=
  event.level.label ++ " " ++ event.target.name ++ ": "
    ++ String.ofList (event.message.toList.flatMap visible)
    ++ String.join (event.fields.map fun (name, value) => " " ++ name ++ "=" ++ value.display)

/-- The lines of a shown event. -/
def Event.lines (event : Event) : List String :=
  Text.lines (event.display ++ "\n")

end BuildDiagnostics.Log
