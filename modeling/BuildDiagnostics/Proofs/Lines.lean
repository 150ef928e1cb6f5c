import BuildDiagnostics.Text.Lines

/-!
# Lines that were written one by one

No line of a text holds a line feed (`feed_not_mem_of_mem_lines`). Conversely, a line without line
feeds is read back whichever way its end is written (`lines_append_lineEnd`), as long as it does not
end with a carriage return: that one would be taken for a part of the line's end. So lines that are
each written with a line feed after it are the lines of the text that results (`lines_join`).
-/

namespace BuildDiagnostics.Text

theorem not_mem_of_mem_splitOn {α : Type} [DecidableEq α] {sep : α} {xs piece : List α}
    (h : piece ∈ splitOn sep xs) : sep ∉ piece := by
  induction xs generalizing piece with
  | nil =>
    rw [splitOn_nil, List.mem_singleton] at h
    rw [h]
    exact List.not_mem_nil
  | cons x xs ih =>
    rw [splitOn_cons] at h
    split at h
    · rcases List.mem_cons.1 h with rfl | h
      · exact List.not_mem_nil
      · exact ih h
    · next hx =>
      obtain ⟨first, pieces, e⟩ := List.exists_cons_of_ne_nil (splitOn_ne_nil sep xs)
      rw [e] at h ih
      rcases List.mem_cons.1 h with rfl | h
      · intro hmem
        rcases List.mem_cons.1 hmem with hsep | hmem
        · exact hx hsep.symm
        · exact ih (List.mem_cons_self ..) hmem
      · exact ih (List.mem_cons_of_mem _ h)

theorem mem_of_mem_dropReturn {line : List Char} {c : Char} (h : c ∈ dropReturn line) :
    c ∈ line := by
  unfold dropReturn at h
  split at h
  · exact List.dropLast_subset _ h
  · exact h

theorem dropReturn_of_getLast? {line : List Char} (h : line.getLast? ≠ some '\r') :
    dropReturn line = line :=
  if_neg h

theorem dropReturn_append_return (line : List Char) : dropReturn (line ++ ['\r']) = line := by
  simp [dropReturn]

theorem feed_not_mem_of_mem_lines {line text : String} (h : line ∈ lines text) :
    '\n' ∉ line.toList := by
  obtain ⟨cs, hcs, rfl⟩ := List.mem_map.1 h
  rw [String.toList_ofList]
  rcases List.mem_append.1 hcs with hcs | hcs
  · obtain ⟨piece, hpiece, rfl⟩ := List.mem_map.1 hcs
    intro hfeed
    exact not_mem_of_mem_splitOn (List.dropLast_subset _ hpiece) (mem_of_mem_dropReturn hfeed)
  · rw [Option.mem_toList, Option.filter_eq_some_iff] at hcs
    exact not_mem_of_mem_splitOn (List.mem_of_getLast? hcs.1)

/-! ## Pieces -/

section Pieces

variable {α : Type} [DecidableEq α] (sep : α)

theorem length_splitOn (xs : List α) : (splitOn sep xs).length = xs.count sep + 1 := by
  induction xs with
  | nil => rfl
  | cons x xs ih =>
    rw [splitOn_cons]
    by_cases h : x = sep
    · rw [if_pos h, List.length_cons, ih, h, List.count_cons_self]
    · rw [if_neg h, List.length_modifyHead, ih, List.count_cons_of_ne h]

/-- Only the last piece goes on when more is appended. -/
theorem splitOn_append (xs ys : List α) :
    splitOn sep (xs ++ ys) =
      (splitOn sep xs).dropLast ++ splitOn sep ((splitOn sep xs).getLast?.getD [] ++ ys) := by
  induction xs with
  | nil => rfl
  | cons x xs ih =>
    obtain ⟨first, rest, e⟩ := List.exists_cons_of_ne_nil (splitOn_ne_nil sep xs)
    rw [e] at ih
    rw [List.cons_append, splitOn_cons, splitOn_cons, ih, e]
    by_cases hx : x = sep
    · rw [if_pos hx, if_pos hx, List.dropLast_cons_cons, List.getLast?_cons_cons]
      rfl
    · rw [if_neg hx, if_neg hx]
      cases rest with
      | nil =>
        show (splitOn sep (first ++ ys)).modifyHead (x :: ·) = splitOn sep (x :: (first ++ ys))
        rw [splitOn_cons, if_neg hx]
      | cons second rest => rfl

/-- The pieces of `xs` between separators. Where a separator ends `xs`, no piece comes after it. -/
def piecesOf (xs : List α) : List (List α) :=
  if (splitOn sep xs).getLast? = some [] then (splitOn sep xs).dropLast else splitOn sep xs

theorem piecesOf_of_not_mem {sep : α} {xs : List α} (h : sep ∉ xs) :
    piecesOf sep xs = if xs.isEmpty then [] else [xs] := by
  rw [piecesOf, splitOn_of_not_mem h]
  cases xs <;> simp

theorem piecesOf_append (xs ys : List α) :
    piecesOf sep (xs ++ ys) =
      (splitOn sep xs).dropLast ++ piecesOf sep ((splitOn sep xs).getLast?.getD [] ++ ys) := by
  have hne := splitOn_ne_nil sep ((splitOn sep xs).getLast?.getD [] ++ ys)
  rw [piecesOf, piecesOf, splitOn_append, List.getLast?_append, List.getLast?_eq_some_getLast hne,
    Option.some_or, List.dropLast_append_of_ne_nil hne]
  split <;> rfl

theorem not_mem_getLast?_splitOn (xs : List α) : sep ∉ (splitOn sep xs).getLast?.getD [] := by
  cases e : (splitOn sep xs).getLast? with
  | none => exact List.not_mem_nil
  | some piece => exact not_mem_of_mem_splitOn (List.mem_of_getLast? e)

end Pieces

/-! ## Writing lines and reading them -/

/-- The first line of a text ends at the first line feed. -/
theorem linesOf_append_feed {line : List Char} (h : '\n' ∉ line) (rest : List Char) :
    linesOf (line ++ '\n' :: rest) = dropReturn line :: linesOf rest := by
  have hfirst : linesOf (line ++ ['\n']) = [dropReturn line] := by
    rw [linesOf, splitOn_append_cons, splitOn_of_not_mem h, splitOn_nil]
    rfl
  rw [linesOf_append_cons, hfirst]
  rfl

/-- How the end of a line is written. -/
inductive LineEnd
  | feed
  | returnFeed
  deriving DecidableEq, Repr

/-- The characters of the end of a line. -/
def LineEnd.text : LineEnd → String
  | feed => "\n"
  | returnFeed => "\r\n"

/-- The first line of a text, when its end is written in either way. -/
theorem lines_append_lineEnd {line : String} (hfeed : '\n' ∉ line.toList)
    (hreturn : line.toList.getLast? ≠ some '\r') (lineEnd : LineEnd) (rest : String) :
    lines (line ++ lineEnd.text ++ rest) = line :: lines rest := by
  have hfirst :
      linesOf (line ++ lineEnd.text ++ rest).toList = line.toList :: linesOf rest.toList := by
    cases lineEnd with
    | feed =>
      have htext : (line ++ LineEnd.feed.text ++ rest).toList =
          line.toList ++ '\n' :: rest.toList := by
        simp [LineEnd.text]
      rw [htext, linesOf_append_feed hfeed, dropReturn_of_getLast? hreturn]
    | returnFeed =>
      have htext : (line ++ LineEnd.returnFeed.text ++ rest).toList =
          (line.toList ++ ['\r']) ++ '\n' :: rest.toList := by
        simp [LineEnd.text]
      have hfeed' : '\n' ∉ line.toList ++ ['\r'] := by simp [hfeed]
      rw [htext, linesOf_append_feed hfeed', dropReturn_append_return]
  rw [lines, hfirst, List.map_cons, String.ofList_toList, lines]

/-- **Lines that were written one by one read back.** -/
theorem lines_join {ls : List String} (hfeed : ∀ l ∈ ls, '\n' ∉ l.toList)
    (hreturn : ∀ l ∈ ls, l.toList.getLast? ≠ some '\r') :
    lines (String.join (ls.map (· ++ "\n"))) = ls := by
  induction ls with
  | nil => rfl
  | cons l ls ih =>
    have hfirst := lines_append_lineEnd (hfeed l (List.mem_cons_self ..))
      (hreturn l (List.mem_cons_self ..)) .feed (String.join (ls.map (· ++ "\n")))
    have hls := ih (fun l' hl' => hfeed l' (List.mem_cons_of_mem _ hl'))
      (fun l' hl' => hreturn l' (List.mem_cons_of_mem _ hl'))
    rw [List.map_cons, String.join_cons]
    exact hfirst.trans (congrArg (l :: ·) hls)

end BuildDiagnostics.Text
