import BuildDiagnostics.Output
import BuildDiagnostics.Path
import BuildDiagnostics.Settings.Expansion
import BuildDiagnostics.Text.Utf8
import BuildDiagnostics.Toml.Document

/-!
# The config file

Settings from a TOML file. It has three sections, all of them optional, and other keys are ignored
as long as their values can be represented. A section may also be an array of its fields in order.
-/

namespace BuildDiagnostics

/-- The section on how diagnostics are printed. -/
structure OutputSection where
  format : OutputFormat := .text
  /-- Whether a summary is printed. -/
  summary : Bool := true
  /-- Whether an error among the diagnostics shows in the exit status. -/
  failOnError : Bool := false
  deriving DecidableEq, Repr

/-- The section on the workspace. -/
structure WorkspaceSection where
  /-- The directory that relative locations start from, as it was written. -/
  root : Option String := none
  deriving DecidableEq, Repr

/-- The section on the log. -/
structure LogSection where
  filter : Option String := none
  deriving DecidableEq, Repr

/-- The settings of a config file. -/
structure Config where
  output : Option OutputSection := none
  workspace : Option WorkspaceSection := none
  log : Option LogSection := none
  deriving DecidableEq, Repr

/-- Why there are no settings from a config file. -/
inductive ConfigError
  /-- The file cannot be read. -/
  | unreadable (path : Path) (cause : String)
  /-- The file holds no settings. -/
  | invalid (path : Path) (cause : String)
  deriving DecidableEq, Repr

namespace ConfigError

/-- The path of the file. -/
def path : ConfigError → Path
  | unreadable path _ => path
  | invalid path _ => path

/-- The text of the error, its cause last. -/
def message : ConfigError → String
  | unreadable path cause => "failed to read config at " ++ path.display ++ ": " ++ cause
  | invalid path cause => "failed to parse config at " ++ path.display ++ ": " ++ cause

end ConfigError

namespace Config

/-! ## Settings from values -/

/-- Whether a number can be represented: an integer in 128 bits, signed or not, and a float in 64
bits. -/
def representableNumber : Toml.NumberLiteral → Bool
  | .integer literal =>
    literal.value?.any fun n => -(Nat.pow 2 127 : Int) ≤ n && n < (Nat.pow 2 128 : Int)
  | .float literal => !literal.overflows

/-- Whether every number in a value can be represented. -/
def representable : Toml.Value → Bool
  | .scalar (.number literal) => representableNumber literal
  | .scalar _ => true
  | .array _ items => (items.map representable).all id
  | .table _ entries => (entries.map fun entry => representable entry.2).all id
termination_by value => value
decreasing_by
  · decreasing_tactic
  · rename_i h
    have := List.sizeOf_lt_of_mem h
    cases entry
    simp_all
    omega

/-- What a value has to be where it stands. -/
abbrev Shape := Except String

/-- A truth value. -/
def readBoolean : Toml.Value → Shape Bool
  | .scalar (.boolean b) => return b
  | _ => throw "expected a boolean"

/-- A string. -/
def readString : Toml.Value → Shape String
  | .scalar (.string s) => return s
  | _ => throw "expected a string"

/-- An output format: its word, or a table that has the word as its only key, over nothing. -/
def readFormat : Toml.Value → Shape OutputFormat
  | .scalar (.string s) => ofWord s
  | .table _ [(key, .table _ [])] => ofWord key
  | .table _ [(key, .array _ [])] => ofWord key
  | _ => throw "expected an output format"
where
  /-- The format with the given word. -/
  ofWord (word : String) : Shape OutputFormat :=
    match OutputFormat.ofWord? word with
    | some format => return format
    | none => throw "expected an output format"

/-- The fields of a section, by name and by place. -/
structure Fields where
  /-- The value of the field with a name, or of the one at a place. -/
  get? : String → Nat → Option Toml.Value
  /-- Whether the section is an array, so that its fields go by place. -/
  positional : Bool

/-- The fields of a section with the given names. Of a table the other keys have to be
representable; the elements of an array after the named ones are not looked at. A date or a time is
a section without fields. -/
def fieldsOf (names : List String) : Toml.Value → Shape Fields
  | .table _ entries =>
    if entries.all fun (key, value) => names.contains key || representable value then
      return { get? := fun name _ => Toml.Table.get? entries name, positional := false }
    else throw "number out of range"
  | .array _ items => return { get? := fun _ place => items[place]?, positional := true }
  | .scalar (.datetime _) => return { get? := fun _ _ => none, positional := false }
  | .scalar _ => throw "expected a section"

/-- The section on output. Every field may be missing. -/
def readOutput (value : Toml.Value) : Shape OutputSection := do
  let fields ← fieldsOf ["format", "summary", "fail_on_error"] value
  let defaults : OutputSection := {}
  let format ← (fields.get? "format" 0).elim (pure defaults.format) readFormat
  let summary ← (fields.get? "summary" 1).elim (pure defaults.summary) readBoolean
  let failOnError ← (fields.get? "fail_on_error" 2).elim (pure defaults.failOnError) readBoolean
  return { format, summary, failOnError }

/-- The only field of a section, a string. It may be missing from a table but not from an array. -/
def readOnly (name : String) (value : Toml.Value) : Shape (Option String) := do
  let fields ← fieldsOf [name] value
  match fields.get? name 0 with
  | some value => return some (← readString value)
  | none => if fields.positional then throw "expected a field" else return none

/-- The settings that a document holds. -/
def ofTable (t : Toml.Table) : Shape Config := do
  let fields ← fieldsOf ["output", "workspace", "log"] (.table .implied t)
  let output ← (fields.get? "output" 0).mapM readOutput
  let workspace ← (fields.get? "workspace" 1).mapM fun v => return { root := ← readOnly "root" v }
  let log ← (fields.get? "log" 2).mapM fun v => return { filter := ← readOnly "filter" v }
  return { output, workspace, log }

/-- The settings that a text holds, or why it holds none. -/
def ofText (text : String) : Except String Config := do
  ofTable (← (Toml.Document.ofText text).mapError Toml.Error.message)

/-! ## Settings from files -/

/-- What looking for a file gave. -/
inductive FileContent
  /-- There is no such file. -/
  | missing
  /-- The file is there and cannot be read. -/
  | unreadable (cause : String)
  | bytes (content : List UInt8)
  deriving DecidableEq, Repr

/-- The settings of the file at a path; none when there is no file. -/
def load (path : Path) : FileContent → Except ConfigError (Option Config)
  | .missing => return none
  | .unreadable cause => throw (.unreadable path cause)
  | .bytes content =>
    match Text.Utf8.ofBytes? content with
    | none => throw (.unreadable path "stream did not contain valid UTF-8")
    | some text =>
      match ofText text with
      | .ok config => return some config
      | .error cause => throw (.invalid path cause)

/-- Where the config file of a user with the given home directory is. -/
def defaultPath (home : Path) : Path :=
  (home.join (.ofText ".buildlens")).join (.ofText "config.toml")

/-! ## What the settings say -/

/-- The section on output, or what holds without one. -/
def outputSection (c : Config) : OutputSection :=
  c.output.getD {}

/-- The workspace root as it was written. -/
def root (c : Config) : Option String :=
  c.workspace.bind WorkspaceSection.root

/-- The workspace root with its references expanded, unless that is blank. -/
def workspaceRoot (c : Config) (env : Environment) : Option Path :=
  ((c.root.map env.expand).filter fun root => !Text.isBlankText root).map Path.ofText

/-- The filter of the log. -/
def logFilter (c : Config) : Option String :=
  c.log.bind LogSection.filter

end Config

end BuildDiagnostics
