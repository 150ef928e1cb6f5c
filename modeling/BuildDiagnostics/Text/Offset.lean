/-!
# Byte offsets

A place in a text can be told by the number of bytes that the text before it takes in UTF-8.
`dropBytes` and `takeBytes` cut a text at such a place; a place inside a character counts as the one
after it. `dropBytes_size_append` and `takeBytes_size_append` say that a cut at the size of a front
part gives exactly the two parts.
-/

namespace BuildDiagnostics.Text

/-- How many bytes a text takes. -/
def size : List Char → Nat
  | [] => 0
  | c :: cs => c.utf8Size + size cs

/-- The text after its first `n` bytes. -/
def dropBytes : Nat → List Char → List Char
  | 0, cs => cs
  | _ + 1, [] => []
  | n + 1, c :: cs => dropBytes (n + 1 - c.utf8Size) cs

/-- The first `n` bytes of the text. -/
def takeBytes : Nat → List Char → List Char
  | 0, _ => []
  | _ + 1, [] => []
  | n + 1, c :: cs => c :: takeBytes (n + 1 - c.utf8Size) cs

/-- The characters of a text, each with the place where it begins; the first begins at `start`. -/
def withOffsets (start : Nat) : List Char → List (Nat × Char)
  | [] => []
  | c :: cs => (start, c) :: withOffsets (start + c.utf8Size) cs

@[simp] theorem size_cons (c : Char) (cs : List Char) : size (c :: cs) = c.utf8Size + size cs := rfl

/-- What is dropped from a text with one more character in front. -/
theorem dropBytes_add_utf8Size (c : Char) (n : Nat) (cs : List Char) :
    dropBytes (c.utf8Size + n) (c :: cs) = dropBytes n cs := by
  obtain ⟨m, h⟩ := Nat.exists_eq_add_of_lt c.utf8Size_pos
  rw [h, show 0 + m + 1 + n = m + n + 1 by omega, dropBytes, h]
  exact congrArg (dropBytes · cs) (by omega)

/-- What is taken from a text with one more character in front. -/
theorem takeBytes_add_utf8Size (c : Char) (n : Nat) (cs : List Char) :
    takeBytes (c.utf8Size + n) (c :: cs) = c :: takeBytes n cs := by
  obtain ⟨m, h⟩ := Nat.exists_eq_add_of_lt c.utf8Size_pos
  rw [h, show 0 + m + 1 + n = m + n + 1 by omega, takeBytes, h]
  exact congrArg (c :: takeBytes · cs) (by omega)

theorem dropBytes_size_append (front rest : List Char) :
    dropBytes (size front) (front ++ rest) = rest := by
  induction front with
  | nil => cases rest <;> rfl
  | cons c cs ih => rw [size_cons, List.cons_append, dropBytes_add_utf8Size, ih]

theorem takeBytes_size_append (front rest : List Char) :
    takeBytes (size front) (front ++ rest) = front := by
  induction front with
  | nil => cases rest <;> rfl
  | cons c cs ih => rw [size_cons, List.cons_append, takeBytes_add_utf8Size, ih]

end BuildDiagnostics.Text
