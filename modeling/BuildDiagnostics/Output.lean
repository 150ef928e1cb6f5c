import BuildDiagnostics.Diagnostic.ByLocation

/-!
# Output

How diagnostics are printed: one line each in the compiler's own form, or all together as a JSON
object keyed by location. Both follow the grouping by location.
-/

namespace BuildDiagnostics

/-- How diagnostics are printed. -/
inductive OutputFormat
  | text
  | json
  deriving DecidableEq, Repr

/-- A word that names no output format. -/
structure UnknownFormat where
  word : String
  deriving DecidableEq, Repr

/-- The text of the error. -/
def UnknownFormat.message (e : UnknownFormat) : String :=
  "unknown output format \x60" ++ e.word ++ "\x60 (expected \x60text\x60 or \x60json\x60)"

namespace OutputFormat

/-- The format that is used when none is named. -/
instance : Inhabited OutputFormat := ⟨text⟩

/-- The word for a format. -/
def word : OutputFormat → String
  | text => "text"
  | json => "json"

/-- The format with exactly the given word. -/
def ofWord? : String → Option OutputFormat
  | "text" => some text
  | "json" => some json
  | _ => none

/-- The format that a user names: blanks around the word and the case of ASCII letters do not
matter. -/
def ofUser (given : String) : Except UnknownFormat OutputFormat :=
  match ofWord? (String.ofList ((Text.trim given.toList).map Char.toLower)) with
  | some format => .ok format
  | none => .error ⟨given⟩

end OutputFormat

/-- One line for each diagnostic. -/
def renderText (m : DiagnosticsByLocation) : String :=
  String.join (m.diagnostics.map fun d => d.displayLine ++ "\n")

/-- An indented JSON object and a line feed. -/
def renderJson (m : DiagnosticsByLocation) : String :=
  m.toJson.pretty ++ "\n"

/-- The printed form of diagnostics. -/
def render (format : OutputFormat) (m : DiagnosticsByLocation) : String :=
  match format with
  | .text => renderText m
  | .json => renderJson m

end BuildDiagnostics
