import BuildDiagnostics.Text.Blank

/-!
# Locations

Where a diagnostic was reported, as the compiler wrote it. Most locations are file paths; some are
pseudo-sources of the compiler, such as `<unknown>`. Which of the two a location is follows from its
text alone, without a look at the file system.
-/

namespace BuildDiagnostics

/-- The source a diagnostic was reported against, verbatim. -/
structure Location where
  raw : String
  deriving DecidableEq, Repr, Hashable, Inhabited

namespace Location

/-- Whether `cs` stands in angle brackets. A lone `<` does not. -/
def isBracketed (cs : List Char) : Bool :=
  cs.head? == some '<' && cs.getLast? == some '>'

/-- The location as a file path: its text without the blanks around it, unless that is empty, holds
a control character or stands in angle brackets. -/
def filePath? (location : Location) : Option String :=
  let text := Text.trim location.raw.toList
  if text.isEmpty || text.any Text.isControl || isBracketed text then none
  else some (String.ofList text)

/-- Whether the location is a file path. -/
def isFile (location : Location) : Bool :=
  location.filePath?.isSome

end Location

end BuildDiagnostics
