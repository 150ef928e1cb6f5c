import BuildDiagnostics.Path
import Mathlib.Data.List.Induction
import Mathlib.Logic.Relation

/-!
# Resolving `.` and `..`

`Reduces` says what may be left out of the steps from the root: a `.`, a name with the `..` after it,
and a `..` at the root itself. However these are left out, what remains when only names are left is the
same, and it is what `Path.resolve` computes on its stack (`resolvesTo_iff`). Joining two paths is
putting their steps one after the other (`components_join`), so a joined path resolves as its steps do
(`resolvesTo_stepsFrom_iff`).
-/

namespace BuildDiagnostics.Path

/-- Leaving out a step that leads nowhere, or two that cancel. -/
inductive Reduces : List Component → List Component → Prop
  | here (front rest : List Component) : Reduces (front ++ .here :: rest) (front ++ rest)
  | back (front : List Component) (bytes : List UInt8) (rest : List Component) :
    Reduces (front ++ .name bytes :: .up :: rest) (front ++ rest)
  | root (rest : List Component) : Reduces (.up :: rest) rest

/-- The names that steps from the root lead along, once nothing can be left out. -/
def ResolvesTo (steps : List Component) (names : List (List UInt8)) : Prop :=
  Relation.ReflTransGen Reduces steps (names.map .name)

/-! ## Reductions and the stack -/

theorem Reduces.foldl_step {a b : List Component} (h : Reduces a b) :
    a.foldl Resolved.step [] = b.foldl Resolved.step [] := by
  cases h with
  | here front rest => rw [List.foldl_append, List.foldl_append, List.foldl_cons, Resolved.step]
  | back front bytes rest =>
    rw [List.foldl_append, List.foldl_append, List.foldl_cons, List.foldl_cons, Resolved.step,
      Resolved.step, List.dropLast_concat]
  | root rest => rfl

theorem Reduces.append {a b : List Component} (h : Reduces a b) (rest : List Component) :
    Reduces (a ++ rest) (b ++ rest) := by
  cases h with
  | here front middle => simpa using Reduces.here front (middle ++ rest)
  | back front bytes middle => simpa using Reduces.back front bytes (middle ++ rest)
  | root => exact .root (b ++ rest)

theorem reflTransGen_append {a b : List Component} (h : Relation.ReflTransGen Reduces a b)
    (rest : List Component) : Relation.ReflTransGen Reduces (a ++ rest) (b ++ rest) := by
  induction h with
  | refl => exact .refl
  | tail _ hstep ih => exact ih.tail (hstep.append rest)

theorem foldl_step_map_name (front names : List (List UInt8)) :
    (names.map Component.name).foldl Resolved.step front = front ++ names := by
  induction names generalizing front with
  | nil => simp
  | cons name names ih => simp [Resolved.step, ih]

/-- The stack is one way of reducing. -/
theorem resolvesTo_foldl (steps : List Component) :
    ResolvesTo steps (steps.foldl Resolved.step []) := by
  induction steps using List.reverseRecOn with
  | nil => exact .refl
  | append_singleton steps step ih =>
    -- the steps before the last one are down to names, which is where the stack stands
    have hfront := reflTransGen_append ih [step]
    rw [List.foldl_append, List.foldl_cons, List.foldl_nil]
    generalize steps.foldl Resolved.step [] = names at hfront
    cases step with
    | here =>
      refine hfront.tail ?_
      simpa [Resolved.step] using Reduces.here (names.map .name) []
    | name bytes =>
      rw [ResolvesTo, Resolved.step, List.map_append]
      exact hfront
    | up =>
      rcases List.eq_nil_or_concat names with rfl | ⟨names, bytes, rfl⟩
      · exact hfront.tail (.root [])
      · refine hfront.tail ?_
        simpa [Resolved.step] using Reduces.back (names.map .name) bytes []

theorem foldl_step_of_reflTransGen {a b : List Component}
    (h : Relation.ReflTransGen Reduces a b) :
    a.foldl Resolved.step [] = b.foldl Resolved.step [] := by
  induction h with
  | refl => rfl
  | tail _ hstep ih => exact ih.trans hstep.foldl_step

/-- **There is one outcome, and the stack finds it.** -/
theorem resolvesTo_iff {steps : List Component} {names : List (List UInt8)} :
    ResolvesTo steps names ↔ names = steps.foldl Resolved.step [] := by
  constructor
  · intro h
    rw [foldl_step_of_reflTransGen h, foldl_step_map_name, List.nil_append]
  · rintro rfl
    exact resolvesTo_foldl steps

/-! ## Joined paths -/

/-- The steps that lead to `path` when it is seen from `root`. -/
def stepsFrom (root path : Path) : List Component :=
  if path.isAbsolute then path.components else root.components ++ path.components

/-- A slash is a clean cut between the steps on its two sides. -/
theorem components_append_slash (front back : List UInt8) :
    components ⟨front ++ slash :: back⟩ = components ⟨front⟩ ++ components ⟨back⟩ := by
  rw [components, Text.splitOn_append_cons, List.filterMap_append]
  rfl

theorem components_join (root path : Path) : (root.join path).components = stepsFrom root path := by
  rw [join, stepsFrom]
  split
  · rfl
  · split
    · next hend =>
      rw [Bool.or_eq_true, beq_iff_eq, List.isEmpty_iff] at hend
      rcases hend with hempty | hslash
      · rw [hempty, components, components, hempty]
        rfl
      · obtain ⟨front, hfront⟩ := List.getLast?_eq_some_iff.1 hslash
        -- behind a slash at the end of the root there is no step
        have hroot : root.components = components ⟨front⟩ ++ components ⟨[]⟩ := by
          rw [← components_append_slash, ← hfront]
        rw [hroot, hfront, List.append_assoc, List.singleton_append, components_append_slash]
        exact congrArg (· ++ path.components) (List.append_nil _).symm
    · exact components_append_slash root.bytes path.bytes

theorem isAbsolute_join (root path : Path) :
    (root.join path).isAbsolute = (path.isAbsolute || root.isAbsolute) := by
  rw [join]
  cases hpath : path.isAbsolute with
  | true => rw [if_pos rfl, hpath, Bool.true_or]
  | false =>
    rw [if_neg Bool.false_ne_true, Bool.false_or]
    cases hroot : root.bytes with
    | nil =>
      -- nothing is put before the path, so it stays relative
      have hroot' : root.isAbsolute = false := by rw [isAbsolute, hroot]; rfl
      rw [if_pos (by rfl), List.nil_append, hroot', hpath]
    | cons b bs => split <;> simp [isAbsolute, hroot]

/-- A joined path resolves as the steps to it do. -/
theorem resolvesTo_stepsFrom_iff {root path : Path} {names : List (List UInt8)} :
    ResolvesTo (stepsFrom root path) names ↔ names = (root.join path).resolve.names := by
  rw [resolvesTo_iff, ← components_join]
  rfl

/-! ## Names -/

theorem Component.eq_of_ofPiece? {piece bytes : List UInt8}
    (h : ofPiece? piece = some (.name bytes)) : bytes = piece := by
  unfold ofPiece? at h
  split_ifs at h with hnil hdot hdots
  · cases h
  · cases h
  · exact (Component.name.inj (Option.some.inj h)).symm

theorem nil_not_mem_components (path : Path) : Component.name [] ∉ path.components := by
  intro h
  obtain ⟨piece, -, hpiece⟩ := List.mem_filterMap.1 h
  rw [← Component.eq_of_ofPiece? hpiece] at hpiece
  cases hpiece

theorem mem_foldl_step {bytes : List UInt8} {steps : List Component} {names : List (List UInt8)}
    (h : bytes ∈ steps.foldl Resolved.step names) : bytes ∈ names ∨ .name bytes ∈ steps := by
  induction steps generalizing names with
  | nil => exact .inl h
  | cons step steps ih =>
    rcases ih h with h | h
    · cases step with
      | here => exact .inl h
      | up => exact .inl (List.dropLast_subset _ h)
      | name other =>
        rcases List.mem_append.1 h with h | h
        · exact .inl h
        · rw [List.mem_singleton.1 h]
          exact .inr List.mem_cons_self
    · exact .inr (List.mem_cons_of_mem step h)

/-- No name of a resolved path is empty. -/
theorem nil_not_mem_resolve (path : Path) : [] ∉ path.resolve.names := by
  intro h
  rcases mem_foldl_step h with h | h
  · cases h
  · exact nil_not_mem_components path h

end BuildDiagnostics.Path
