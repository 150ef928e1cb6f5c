/-!
# Splitting at a separator

`splitOn` cuts a list at every separator; `splitFirst` cuts it at the first few only and leaves the
rest in the last piece. Both answer the pieces in order, empty ones included. `splitOn_append_cons`
says that a separator is a clean cut: the two sides are split independently of each other.
-/

namespace BuildDiagnostics.Text

variable {α : Type} [DecidableEq α]

/-- The pieces of `xs` between separators: one more than there are separators. -/
def splitOn (sep : α) (xs : List α) : List (List α) :=
  xs.foldr (fun x pieces => if x = sep then [] :: pieces else pieces.modifyHead (x :: ·)) [[]]

/-- The first pieces of `xs`, at most `n` of them: the last one keeps the separators in it. -/
def splitFirst (sep : α) : Nat → List α → List (List α)
  | 0, _ => []
  | 1, xs => [xs]
  | n + 2, xs =>
    match xs.dropWhile (· ≠ sep) with
    | [] => [xs]
    | _ :: rest => xs.takeWhile (· ≠ sep) :: splitFirst sep (n + 1) rest

@[simp] theorem splitOn_nil (sep : α) : splitOn sep [] = [[]] := rfl

theorem splitOn_cons (sep x : α) (xs : List α) :
    splitOn sep (x :: xs) =
      if x = sep then [] :: splitOn sep xs else (splitOn sep xs).modifyHead (x :: ·) := rfl

@[simp] theorem splitOn_cons_self (sep : α) (xs : List α) :
    splitOn sep (sep :: xs) = [] :: splitOn sep xs := by
  simp [splitOn_cons]

/-- There is always a first piece. -/
theorem splitOn_ne_nil (sep : α) (xs : List α) : splitOn sep xs ≠ [] := by
  induction xs with
  | nil => simp
  | cons x xs ih => by_cases h : x = sep <;> simp [splitOn_cons, h, ih]

/-- A separator is a clean cut between the pieces on its two sides. -/
theorem splitOn_append_cons (sep : α) (xs ys : List α) :
    splitOn sep (xs ++ sep :: ys) = splitOn sep xs ++ splitOn sep ys := by
  induction xs with
  | nil => simp
  | cons x xs ih =>
    by_cases h : x = sep
    · simp [h, ih]
    · obtain ⟨piece, pieces, e⟩ := List.exists_cons_of_ne_nil (splitOn_ne_nil sep xs)
      simp [splitOn_cons, h, ih, e]

/-- Text without the separator is one piece. -/
theorem splitOn_of_not_mem {sep : α} {xs : List α} (h : sep ∉ xs) : splitOn sep xs = [xs] := by
  induction xs with
  | nil => rfl
  | cons x xs ih =>
    simp only [List.mem_cons, not_or] at h
    simp [splitOn_cons, Ne.symm h.1, ih h.2]

end BuildDiagnostics.Text
