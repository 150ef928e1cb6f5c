import BuildDiagnostics.Toml.Datetime
import BuildDiagnostics.Toml.Number

/-!
# TOML values

Values and tables, and how definitions build up a table. What a later definition may do to a table
depends on how the table came to be, so each remembers that: `[a.b]` may fill an implied table once,
a dotted key may extend implied tables and tables that dotted keys made, and nothing extends an
inline table.
-/

namespace BuildDiagnostics.Toml

/-- How a table came to be. -/
inductive Origin
  /-- Written in braces. -/
  | inline
  /-- Opened by a header of its own. -/
  | header
  /-- Named on the way to another header. -/
  | implied
  /-- Named on the way to a dotted key. -/
  | dotted
  deriving DecidableEq, Repr

/-- A value without parts. -/
inductive Scalar
  | string (s : String)
  | number (literal : NumberLiteral)
  | boolean (b : Bool)
  | datetime (d : Datetime)
  deriving DecidableEq, Repr

/-- A value. -/
inductive Value
  | scalar (s : Scalar)
  /-- A list of values; `appendable` says that headers in double brackets append to it. -/
  | array (appendable : Bool) (items : List Value)
  | table (origin : Origin) (entries : List (String × Value))

/-- Keys with their values; no key occurs twice. -/
abbrev Table := List (String × Value)

namespace Table

/-- The value of a key. -/
def get? (t : Table) (key : String) : Option Value :=
  t.lookup key

/-- Puts what `f` makes of a key's value in its place. -/
def alter (key : String) (f : Option Value → Except Error Value) : Table → Except Error Table
  | [] => return [(key, ← f none)]
  | (k, v) :: rest =>
    if k = key then return (k, ← f (some v)) :: rest
    else return (k, v) :: (← alter key f rest)

/-- Changes the last table of an appendable array. -/
def alterLast (key : String) (f : Table → Except Error Table) (items : List Value) :
    Except Error Value :=
  match items.getLast? with
  | some (.table origin entries) =>
    return .array true (items.dropLast ++ [.table origin (← f entries)])
  | _ => throw (.conflict key)

/-- Follows one step of a header's path: to a table, which is implied when there is none yet, or to
the last table of an appendable array. -/
def descend (key : String) (f : Table → Except Error Table) : Option Value → Except Error Value
  | none => return .table .implied (← f [])
  | some (.array true items) => alterLast key f items
  | some (.table .inline _) => throw (.conflict key)
  | some (.table origin entries) => return .table origin (← f entries)
  | some _ => throw (.conflict key)

/-- Opens the table of a header in single brackets. -/
def openTable : List String → Table → Except Error Table
  | [] => fun _ => throw .malformed
  | [key] => alter key fun
    | none => return .table .header []
    | some (.table .implied entries) => return .table .header entries
    | some _ => throw (.conflict key)
  | key :: path => alter key (descend key (openTable path))

/-- Appends a table for a header in double brackets. -/
def openElement : List String → Table → Except Error Table
  | [] => fun _ => throw .malformed
  | [key] => alter key fun
    | none => return .array true [.table .header []]
    | some (.array true items) => return .array true (items ++ [.table .header []])
    | some _ => throw (.conflict key)
  | key :: path => alter key (descend key (openElement path))

/-- Adds a value under a dotted key. Its path makes tables and leads through tables that come from
dotted keys; a table implied by a header counts as coming from dotted keys from then on. Through an
appendable array it leads to the last table, which cannot hold the value itself. -/
def insert (value : Value) : List String → Table → Except Error Table
  | [] => fun _ => throw .malformed
  | [key] => alter key fun
    | none => return value
    | some _ => throw (.conflict key)
  | key :: path => alter key fun
    | none => return .table .dotted (← insert value path [])
    | some (.table .dotted entries) | some (.table .implied entries) =>
      return .table .dotted (← insert value path entries)
    | some (.array true items) =>
      if path.length = 1 then throw (.conflict key)
      else alterLast key (insert value path) items
    | some _ => throw (.conflict key)

/-- Changes the table that the last header opened. -/
def within (f : Table → Except Error Table) : List String → Table → Except Error Table
  | [] => f
  | key :: path => alter key (descend key (within f path))

end Table

end BuildDiagnostics.Toml
