import BuildDiagnostics.Diagnostic
import Std.Data.HashMap

/-!
# Diagnostics grouped by location

An ordered grouping: locations stand in the order in which they were first seen, and the diagnostics
of one location in the order in which they were pushed. An index from the text of a location to its
slot makes a push independent of the number of locations. The index is derived data: nothing is ever
read in its order, and `WF` says that it holds the locations of the groups, each under its slot.
-/

namespace BuildDiagnostics

/-- The diagnostics of one location, in the order in which they were pushed. -/
structure LocationGroup where
  location : Location
  items : Array Diagnostic
  deriving DecidableEq, Repr

/-- Diagnostics grouped by the location they were reported against. -/
structure DiagnosticsByLocation where
  /-- The groups, by first appearance of their location. -/
  groups : Array LocationGroup := #[]
  /-- The slot of a location's group, by the location's text. -/
  index : Std.HashMap String Nat := ∅
  deriving Inhabited

namespace DiagnosticsByLocation

/-- Adds a diagnostic to the group of its location, which is opened at the end if need be. -/
def push (m : DiagnosticsByLocation) (d : Diagnostic) : DiagnosticsByLocation :=
  match m.index[d.location.raw]? with
  | some slot =>
    { m with groups := m.groups.modify slot fun g => { g with items := g.items.push d } }
  | none =>
    { groups := m.groups.push { location := d.location, items := #[d] }
      index := m.index.insert d.location.raw m.groups.size }

/-- The grouping of a sequence of diagnostics. -/
def ofList (ds : List Diagnostic) : DiagnosticsByLocation :=
  ds.foldl push {}

/-- The diagnostics of a location, given by its text. -/
def get? (m : DiagnosticsByLocation) (raw : String) : Option (Array Diagnostic) :=
  m.index[raw]?.bind fun slot => m.groups[slot]?.map LocationGroup.items

/-- The locations, by first appearance. -/
def locations (m : DiagnosticsByLocation) : List Location :=
  m.groups.toList.map LocationGroup.location

/-- All diagnostics, group by group. -/
def diagnostics (m : DiagnosticsByLocation) : List Diagnostic :=
  m.groups.toList.flatMap fun g => g.items.toList

/-- How many locations there are. -/
def size (m : DiagnosticsByLocation) : Nat :=
  m.groups.size

/-- Whether there is no location. -/
def isEmpty (m : DiagnosticsByLocation) : Bool :=
  m.groups.isEmpty

/-- How many diagnostics there are at all locations together. -/
def totalCount (m : DiagnosticsByLocation) : Nat :=
  m.groups.toList.foldr (fun g n => g.items.size + n) 0

/-- Whether some diagnostic is an error. -/
def hasErrors (m : DiagnosticsByLocation) : Bool :=
  m.diagnostics.any fun d => d.severity.isError

/-- The grouping as a JSON object with a list of diagnostics under each location. -/
def toJson (m : DiagnosticsByLocation) : Json :=
  .object (m.groups.toList.map fun g =>
    (g.location.raw, .array (g.items.toList.map Diagnostic.toJson)))

/-- Two groupings are equal when they have the same groups in the same order and their indexes hold
the same slots. -/
instance : BEq DiagnosticsByLocation where
  beq a b :=
    a.groups == b.groups && a.index.size == b.index.size
      && a.index.all fun raw slot => b.index[raw]? == some slot

/-- The index of `m` holds exactly the locations of its groups, each under its slot. -/
structure WF (m : DiagnosticsByLocation) : Prop where
  index_iff : ∀ (raw : String) (slot : Nat),
    m.index[raw]? = some slot ↔ ∃ g, m.groups[slot]? = some g ∧ g.location.raw = raw

theorem WF.empty : WF {} where
  index_iff raw slot := by simp

/-- A push keeps the index right. -/
theorem WF.push {m : DiagnosticsByLocation} (h : m.WF) (d : Diagnostic) : (m.push d).WF where
  index_iff raw slot := by
    unfold DiagnosticsByLocation.push
    split
    · next found e =>
      rw [h.index_iff, Array.getElem?_modify]
      by_cases hs : found = slot
      · subst hs
        simp only [↓reduceIte, Option.map_eq_some_iff]
        constructor
        · rintro ⟨g, hg, hr⟩
          exact ⟨_, ⟨g, hg, rfl⟩, hr⟩
        · rintro ⟨_, ⟨g, hg, rfl⟩, hr⟩
          exact ⟨g, hg, hr⟩
      · simp [hs]
    · next e =>
      rw [Std.HashMap.getElem?_insert, Array.getElem?_push]
      by_cases hr : d.location.raw = raw
      · subst hr
        simp only [beq_self_eq_true, ↓reduceIte, Option.some.injEq]
        constructor
        · rintro rfl
          simp
        · rintro ⟨g, hg, hraw⟩
          by_cases hs : slot = m.groups.size
          · exact hs.symm
          · rw [if_neg hs] at hg
            have := (h.index_iff _ _).2 ⟨g, hg, hraw⟩
            rw [e] at this
            exact absurd this (by simp)
      · simp only [beq_iff_eq, hr, ↓reduceIte, h.index_iff]
        by_cases hs : slot = m.groups.size
        · subst hs
          simp [hr]
        · simp [hs]

/-- The total is the number of diagnostics. -/
theorem totalCount_eq_length (m : DiagnosticsByLocation) :
    m.totalCount = m.diagnostics.length := by
  unfold totalCount diagnostics
  induction m.groups.toList with
  | nil => rfl
  | cons g groups ih => simp [ih]

theorem ofList_append (xs ys : List Diagnostic) :
    ofList (xs ++ ys) = ys.foldl push (ofList xs) := by
  simp [ofList]

/-- Pushes in any number keep the index right. -/
theorem WF.foldl_push {m : DiagnosticsByLocation} (h : m.WF) (ds : List Diagnostic) :
    (ds.foldl DiagnosticsByLocation.push m).WF := by
  induction ds generalizing m with
  | nil => exact h
  | cons d ds ih => exact ih (h.push d)

theorem WF.ofList (ds : List Diagnostic) : (ofList ds).WF :=
  WF.empty.foldl_push ds

end DiagnosticsByLocation

end BuildDiagnostics
