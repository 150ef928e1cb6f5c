import BuildDiagnostics.Block.Header
import BuildDiagnostics.Diagnostic

/-!
# Blocks

A block is one report in compiler output: a header and the lines of context after it. The third line
of a block underlines the place in question, so its length, blanks around it aside, is the width of
the diagnostic. `Block.build` depends on nothing but the header and that line.
-/

namespace BuildDiagnostics

/-- One report in compiler output. -/
structure Block where
  /-- The number of the header's line in the output, from 1. -/
  lineNumber : Nat
  header : String
  /-- The lines after the header. -/
  context : Array String := #[]
  deriving DecidableEq, Repr

namespace Block

/-- The block with one more line of context. -/
def addLine (block : Block) (line : String) : Block :=
  { block with context := block.context.push line }

/-- All lines of the block, the header first. -/
def lines (block : Block) : List String :=
  block.header :: block.context.toList

/-- The third line of the block, if it has three. -/
def annotation? (block : Block) : Option String :=
  block.context[1]?

/-- Reads a position, blanks around it aside. It counts from 1 in the header and from 0 afterwards;
a 0 in the header, as pseudo-sources have it, stays 0. -/
def readPosition (field : PositionField) (raw : String) : Except BlockError UInt32 :=
  match Text.Decimal.readUInt32? (Text.trim raw.toList) with
  | some value => .ok (if value = 0 then 0 else value - 1)
  | none => .error (.notAnInteger field raw)

/-- How many characters an annotation spans, blanks around it aside. -/
def annotationWidth (line : String) : Nat :=
  (Text.trim line.toList).length

/-- How many columns the block's diagnostic covers: none without an annotation. -/
def width (block : Block) : Nat :=
  (block.annotation?.map annotationWidth).getD 0

/-- The diagnostic of a block. A wrong line is reported before a wrong column. -/
def build (block : Block) : Except BlockError Diagnostic := do
  let header ← Header.ofLine block.header
  let line ← readPosition .line header.line
  let startCol ← readPosition .column header.column
  return .ofWidth ⟨header.path⟩ (.ofToken header.severity) header.message line startCol block.width

end Block

end BuildDiagnostics
