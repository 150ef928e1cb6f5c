import BuildDiagnostics.Output
import BuildDiagnostics.Path
import BuildDiagnostics.Text.Terminal

/-!
# Command-line arguments

Flags, options with a value, and at most one file. The value of an option follows it, as an argument
of its own or behind an equals sign. A value that is an argument of its own is looked at only when
the next flag, option or file is, or at the end: so an argument that is unknown there is reported
first.
-/

namespace BuildDiagnostics.Command

/-- What the command line can set. -/
inductive Argument
  | file
  | format
  | root
  | config
  | failOnError
  | noSummary
  | help
  deriving DecidableEq, Repr

namespace Argument

/-- The argument with a long name. -/
def ofLongName? : String → Option Argument
  | "format" => some format
  | "root" => some root
  | "config" => some config
  | "fail-on-error" => some failOnError
  | "no-summary" => some noSummary
  | "help" => some help
  | _ => none

/-- Whether the argument has a value. -/
def takesValue : Argument → Bool
  | file | format | root | config => true
  | failOnError | noSummary | help => false

/-- The argument as it is shown. -/
def display : Argument → String
  | file => "[FILE]"
  | format => "--format <FORMAT>"
  | root => "--root <ROOT>"
  | config => "--config <CONFIG>"
  | failOnError => "--fail-on-error"
  | noSummary => "--no-summary"
  | help => "--help"

end Argument

/-- Why arguments make no sense. -/
inductive UsageError
  | unexpected (argument : String)
  | missingValue (argument : Argument)
  | unneededValue (value : String) (argument : Argument)
  | invalidFormat (value : String) (cause : UnknownFormat)
  | repeated (argument : Argument)
  deriving DecidableEq, Repr

namespace UsageError

open Text.Terminal (emphasized)

/-- The text of the error. What it names stands out, so nothing in the name of an argument can reach
beyond the name; the cause of an invalid format stands as it is. -/
def message : UsageError → String
  | unexpected argument => "unexpected argument '" ++ emphasized argument ++ "' found"
  | missingValue argument =>
    "a value is required for '" ++ emphasized argument.display ++ "' but none was supplied"
  | unneededValue value argument =>
    "unexpected value '" ++ emphasized value ++ "' for '" ++ emphasized argument.display
      ++ "' found; no more were expected"
  | invalidFormat value cause =>
    "invalid value '" ++ emphasized value ++ "' for '" ++ emphasized Argument.format.display
      ++ "': " ++ cause.message
  | repeated argument =>
    "the argument '" ++ emphasized argument.display ++ "' cannot be used multiple times"

/-- What is printed about the error, without colors. -/
def report (e : UsageError) : String :=
  Text.Terminal.plain
    (emphasized "error:" ++ " " ++ e.message
      ++ "\n\nFor more information, try '" ++ emphasized "--help" ++ "'.\n")

end UsageError

/-- What the command line sets. -/
structure Flags where
  file : Option Path := none
  format : Option OutputFormat := none
  root : Option Path := none
  config : Option Path := none
  failOnError : Bool := false
  noSummary : Bool := false
  deriving DecidableEq, Repr

/-- Why no flags come out of the arguments. -/
inductive Halt
  /-- Help was asked for. -/
  | help
  | usage (error : UsageError)
  deriving DecidableEq, Repr

namespace Flags

/-- Sets an option to a path that may not be empty, unless it is set already. -/
def path (argument : Argument) (old : Option Path) (value : Option String) :
    Except Halt (Option Path) :=
  match old, value with
  | _, none => throw (.usage (.missingValue argument))
  | some _, some _ => throw (.usage (.repeated argument))
  | none, some value =>
    if value.isEmpty then throw (.usage (.missingValue argument)) else return some (.ofText value)

/-- Sets the format, unless it is set already. -/
def formatOf (old : Option OutputFormat) (value : Option String) :
    Except Halt (Option OutputFormat) :=
  match old, value with
  | _, none => throw (.usage (.missingValue .format))
  | some _, some _ => throw (.usage (.repeated .format))
  | none, some value =>
    match OutputFormat.ofUser value with
    | .ok format => return some format
    | .error cause => throw (.usage (.invalidFormat value cause))

/-- Sets a flag, unless it is set already. -/
def flag (argument : Argument) (old : Bool) : Except Halt Bool :=
  if old then throw (.usage (.repeated argument)) else return true

/-- Sets an argument. -/
def set (f : Flags) (argument : Argument) (value : Option String) : Except Halt Flags := do
  match argument with
  | .file => return { f with file := ← path .file f.file value }
  | .format => return { f with format := ← formatOf f.format value }
  | .root => return { f with root := ← path .root f.root value }
  | .config => return { f with config := ← path .config f.config value }
  | .failOnError => return { f with failOnError := ← flag .failOnError f.failOnError }
  | .noSummary => return { f with noSummary := ← flag .noSummary f.noSummary }
  | .help => throw .help

/-! ## Reading arguments -/

/-- The state between two arguments. -/
structure Reading where
  flags : Flags := {}
  /-- The argument that is to be set next, and its value if it has come already. -/
  pending : Option (Argument × Option String) := none
  /-- Whether all arguments from here on are files. -/
  onlyFiles : Bool := false
  deriving DecidableEq, Repr

namespace Reading

/-- Sets the pending argument. -/
def settle (r : Reading) : Except Halt Reading :=
  match r.pending with
  | none => return r
  | some (argument, value) =>
    return { r with flags := ← r.flags.set argument value, pending := none }

/-- Whether the file was given. -/
def hasFile (r : Reading) : Bool :=
  r.flags.file.isSome || r.pending.any fun (argument, _) => argument == .file

/-- Takes the file. -/
def takeFile (r : Reading) (text : String) : Except Halt Reading := do
  if r.hasFile then throw (.usage (.unexpected text))
  return { ← r.settle with pending := some (.file, some text) }

/-- The name and the value of a long argument, which is given without its hyphens. -/
def splitLong (cs : List Char) : String × Option String :=
  match Text.splitFirst '=' 2 cs with
  | [name, value] => (String.ofList name, some (String.ofList value))
  | _ => (String.ofList cs, none)

/-- Takes a long argument, which is given without its hyphens. -/
def takeLong (r : Reading) (cs : List Char) : Except Halt Reading := do
  let (name, value) := splitLong cs
  match Argument.ofLongName? name with
  | none => throw (.usage (.unexpected ("--" ++ name)))
  | some argument =>
    if argument.takesValue then
      let r ← r.settle
      match value with
      | some value => return { r with flags := ← r.flags.set argument (some value) }
      | none => return { r with pending := some (argument, none) }
    else
      match value with
      | some value => throw (.usage (.unneededValue value argument))
      | none =>
        let r ← r.settle
        return { r with flags := ← r.flags.set argument none }

/-- Takes a short argument, of which only the first letter counts. -/
def takeShort (r : Reading) (letter : Char) : Except Halt Reading := do
  if letter = 'h' then
    let r ← r.settle
    return { r with flags := ← r.flags.set .help none }
  else throw (.usage (.unexpected (String.ofList ['-', letter])))

/-- Takes the next argument. A hyphen alone is a value. -/
def take (r : Reading) (text : String) : Except Halt Reading :=
  if r.onlyFiles then r.takeFile text
  else
    match text.toList with
    | ['-', '-'] => return { r with onlyFiles := true }
    | '-' :: '-' :: cs => r.takeLong cs
    | '-' :: letter :: _ => r.takeShort letter
    | _ =>
      match r.pending with
      | some (argument, none) => return { r with pending := some (argument, some text) }
      | _ => r.takeFile text

end Reading

/-- What the arguments set. -/
def ofArguments (arguments : List String) : Except Halt Flags := do
  return (← (← arguments.foldlM Reading.take {}).settle).flags

end Flags

end BuildDiagnostics.Command
