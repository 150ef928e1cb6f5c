import BuildDiagnostics.Log.Event
import BuildDiagnostics.Log.Pattern
import BuildDiagnostics.Text.Offset
import BuildDiagnostics.Text.Split

/-!
# Log filters

A filter is a list of directives with commas between them. A directive names a level, and may limit
itself to a target, to a span of work and to events with a field. Of the directives that concern an
event the most specific one decides; the program has no spans, so a directive on a span concerns
none.
-/

namespace BuildDiagnostics.Log

/-- How verbose a log is: nothing at all, or everything up to a level. -/
inductive Threshold
  | off
  | upTo (level : Level)
  deriving DecidableEq, Repr

namespace Threshold

/-- Whether events of a level are shown. -/
def shows : Threshold → Level → Bool
  | off, _ => false
  | upTo limit, level => level.verbosity ≤ limit.verbosity

/-- The threshold with a number from 0 for none to 5 for everything. -/
def ofNumber? : Nat → Option Threshold
  | 0 => some off
  | 1 => some (upTo .error)
  | 2 => some (upTo .warn)
  | 3 => some (upTo .info)
  | 4 => some (upTo .debug)
  | 5 => some (upTo .trace)
  | _ => none

/-- The threshold with a word in lower case. -/
def ofWord? : String → Option Threshold
  | "off" => some off
  | "error" => some (upTo .error)
  | "warn" => some (upTo .warn)
  | "info" => some (upTo .info)
  | "debug" => some (upTo .debug)
  | "trace" => some (upTo .trace)
  | _ => none

/-- The threshold that a number, or a word in any case, stands for. -/
def ofText? (cs : List Char) : Option Threshold :=
  match (Text.Decimal.read? cs).bind ofNumber? with
  | some threshold => some threshold
  | none => ofWord? (String.ofList (cs.map Char.toLower))

end Threshold

/-- What a directive demands of a field: that it is there, and maybe that it has a value. -/
structure FieldPattern where
  name : String
  value : Option String
  deriving DecidableEq, Repr

/-- One directive of a filter. -/
structure Directive where
  threshold : Threshold := .upTo .trace
  target : Option String := none
  span : Option String := none
  field : Option FieldPattern := none
  deriving DecidableEq, Repr

namespace Directive

/-! ## Reading a directive -/

/-- Where in a directive the reader stands. Positions are byte offsets. -/
inductive Place
  | start
  /-- In a word that began at the given position and is a level or a target. -/
  | word (start : Nat)
  /-- In the name of a span that began at the given position. -/
  | span (start : Nat)
  /-- In a field that began at the given position. -/
  | field (start : Nat)
  /-- After the field of a span. -/
  | afterField
  /-- After a span. -/
  | afterSpan
  /-- In a level that began at the given position. -/
  | level (start : Nat)
  deriving DecidableEq, Repr

/-- Whether a character may begin a level or a target. -/
def mayBegin (c : Char) : Bool :=
  Text.isLetterOrNumeral c || c == '-' || c == ':' || c == '_'

/-- The text between two positions. -/
def between (cs : List Char) (start stop : Nat) : List Char :=
  Text.takeBytes (stop - start) (Text.dropBytes start cs)

/-- The demand on a field that a text makes. A value has to be a number or a pattern. -/
def fieldPattern? (cs : List Char) : Option FieldPattern :=
  match Text.splitOn '=' cs with
  | name :: value :: _ =>
    if isNumber value || Pattern.isValid value then
      some { name := String.ofList name, value := some (String.ofList value) }
    else none
  | _ => if cs.isEmpty then none else some { name := String.ofList cs, value := none }

/-- Takes the character at a position. Texts between positions are cut from `cs`. -/
def step (cs : List Char) (state : Directive × Place) (indexed : Nat × Char) :
    Option (Directive × Place) :=
  let (d, place) := state
  let (position, c) := indexed
  let text (start : Nat) := String.ofList (between cs start position)
  match place with
  | .start =>
    if c = '[' then some (d, .span (position + 1))
    else if mayBegin c then some (d, .word position)
    else none
  | .word start =>
    if c = '=' then some ({ d with target := some (text start) }, .level (position + 1))
    else if c = '[' then some ({ d with target := some (text start) }, .span (position + 1))
    else some (d, place)
  | .span start =>
    if c = ']' then some ({ d with span := some (text start) }, .afterSpan)
    else if c = '\x7b' then
      let span := if text start = "" then none else some (text start)
      some ({ d with span }, .field (position + 1))
    else some (d, place)
  | .field start =>
    if c = '\x7d' then
      (fieldPattern? (between cs start position)).map fun field =>
        ({ d with field := some field }, .afterField)
    else some (d, place)
  | .afterField => if c = ']' then some (d, .afterSpan) else none
  | .afterSpan => if c = '=' then some (d, .level (position + 1)) else none
  | .level _ => some (d, place)

/-- The directive at the end of its text. -/
def finish? (cs : List Char) : Directive × Place → Option Directive
  | (d, .word start) =>
    let word := Text.dropBytes start cs
    match Threshold.ofText? word with
    | some threshold => some { d with threshold }
    | none => some { d with target := some (String.ofList word) }
  | (d, .level start) =>
    let level := Text.dropBytes start cs
    if level.isEmpty then some d
    else (Threshold.ofText? level).map fun threshold => { d with threshold }
  | (d, .afterSpan) => some d
  | _ => none

/-- The directive that a text stands for. Its characters are looked at without the blanks around the
text, and positions found so are positions in the text itself; a directive with a level after `=`
therefore allows no blank before it. -/
def ofText? (cs : List Char) : Option Directive := do
  finish? cs (← (Text.withOffsets 0 (Text.trim cs)).foldlM (step cs) ({}, .start))

/-! ## Applying directives -/

/-- Whether the directive concerns an event. One on a span, or on the value of a field, concerns
none. -/
def concerns (d : Directive) (event : Event) : Bool :=
  d.span.isNone
    && d.target.all (fun target => target.toList.isPrefixOf event.target.name.toList)
    && d.field.all fun field => field.value.isNone && event.fieldNames.contains field.name

/-- How specific a directive is: by the length of its target, then by its field. -/
def specificity (d : Directive) : Nat × String :=
  (2 * d.target.elim 0 (·.length + 1) + if d.field.isSome then 1 else 0,
    d.field.elim "" FieldPattern.name)

/-- Whether `d` counts when both it and an earlier directive concern an event. -/
def overrides (d earlier : Directive) : Bool :=
  let a := d.specificity
  let b := earlier.specificity
  a.1 > b.1 || (a.1 == b.1 && b.2 ≤ a.2)

end Directive

/-- Directives in the order in which they were given. -/
structure Filter where
  directives : List Directive
  deriving DecidableEq, Repr

namespace Filter

/-- The filter that a text stands for. Empty directives are left out; one that cannot be read spoils
the whole filter. -/
def ofText? (text : String) : Option Filter := do
  let parts := (Text.splitOn ',' text.toList).filter (· ≠ [])
  return { directives := ← parts.mapM Directive.ofText? }

/-- The directive that decides on an event. -/
def deciding? (f : Filter) (event : Event) : Option Directive :=
  (f.directives.filter (·.concerns event)).foldl
    (fun
      | none, d => some d
      | some best, d => if d.overrides best then some d else some best) none

/-- Whether an event is shown. -/
def shows (f : Filter) (event : Event) : Bool :=
  match f.deciding? event with
  | some d => d.threshold.shows event.level
  | none => false

/-- The filter that shows warnings and errors only. -/
def warnings : Filter where
  directives := [{ threshold := .upTo .warn }]

/-- The filter of a program: that of its environment if there is one and it can be read, else the
given one, else warnings and errors only. -/
def choose (environment given : Option String) : Filter :=
  match environment.bind ofText? with
  | some filter => filter
  | none => (given.bind ofText?).getD warnings

end Filter

end BuildDiagnostics.Log
