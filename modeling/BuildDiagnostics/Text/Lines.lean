import BuildDiagnostics.Text.Split

/-!
# Lines of a text

A line ends with a line feed, which may have one carriage return directly before it. The text after
the last line feed is a line too when it is not empty, and keeps a carriage return at its end.
-/

namespace BuildDiagnostics.Text

/-- The line without the one carriage return that may stand at its end. -/
def dropReturn (line : List Char) : List Char :=
  if line.getLast? = some '\r' then line.dropLast else line

/-- The lines of a list of characters. -/
def linesOf (cs : List Char) : List (List Char) :=
  let pieces := splitOn '\n' cs
  pieces.dropLast.map dropReturn ++ (pieces.getLast?.filter (· ≠ [])).toList

/-- The lines of a text, without their ends. -/
def lines (text : String) : List String :=
  (linesOf text.toList).map String.ofList

/-- After a line feed the lines start afresh. -/
theorem linesOf_append_cons (cs ds : List Char) :
    linesOf (cs ++ '\n' :: ds) = linesOf (cs ++ ['\n']) ++ linesOf ds := by
  obtain ⟨piece, pieces, e⟩ := List.exists_cons_of_ne_nil (splitOn_ne_nil '\n' ds)
  simp [linesOf, splitOn_append_cons, e, List.getLast?_append, List.getLast?_cons,
    List.dropLast_append_of_ne_nil]

end BuildDiagnostics.Text
