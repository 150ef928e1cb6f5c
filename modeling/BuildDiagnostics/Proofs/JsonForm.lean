import BuildDiagnostics.Output
import BuildDiagnostics.Proofs.ByLocation
import BuildDiagnostics.Proofs.JsonReading
import Mathlib.Data.List.Nodup

/-!
# What the JSON form of diagnostics says

The JSON form is taken back step by step: a member by its key, a severity by its label, a diagnostic
from its six members (`Diagnostic.ofJson?_toJson`), the list of a location from an array, and the whole
grouping from the object over all locations (`ofJson?_toJson`). Together with the reading of JSON texts
this is a decoder of what is printed, in the compact and in the indented layout. `json_form_lossless`
states that it gives back the map, so different maps are printed differently, and what the object's
keys are.
-/

namespace BuildDiagnostics

/-! ## Reading values back -/

theorem mapM_map_of_read {α β : Type} {write : α → β} {read : β → Option α} {xs : List α}
    (h : ∀ x ∈ xs, read (write x) = some x) : (xs.map write).mapM read = some xs := by
  induction xs with
  | nil => rfl
  | cons x xs ih =>
    rw [List.map_cons, List.mapM_cons, h x List.mem_cons_self,
      ih fun y hy => h y (List.mem_cons_of_mem x hy)]
    rfl

namespace Json

def text? : Json → Option String
  | text s => some s
  | _ => none

def position? : Json → Option UInt32
  | number n => if n < UInt32.size then some (UInt32.ofNat n) else none
  | _ => none

def items? : Json → Option (List Json)
  | array items => some items
  | _ => none

def members? : Json → Option (List (String × Json))
  | object members => some members
  | _ => none

/-- The value of the first member with the given key. -/
def member? (key : String) (value : Json) : Option Json :=
  value.members?.bind (·.lookup key)

theorem position?_number (position : UInt32) :
    position? (.number position.toNat) = some position := by
  rw [position?, if_pos position.toNat_lt_size, UInt32.ofNat_toNat]

end Json

/-- The severity with the given label. -/
def Severity.ofLabel? : String → Option Severity
  | "error" => some error
  | "warning" => some warning
  | "info" => some info
  | _ => none

theorem Severity.ofLabel?_label (severity : Severity) :
    ofLabel? severity.label = some severity := by
  cases severity <;> rfl

/-- The diagnostic that an object describes, the order of its members aside. -/
def Diagnostic.ofJson? (value : Json) : Option Diagnostic := do
  let location ← (← value.member? "location").text?
  let severity ← Severity.ofLabel? (← (← value.member? "severity").text?)
  let message ← (← value.member? "message").text?
  let line ← (← value.member? "line").position?
  let startCol ← (← value.member? "start_col").position?
  let endCol ← (← value.member? "end_col").position?
  if h : startCol ≤ endCol then
    some { location := ⟨location⟩, severity, message, line, startCol, endCol, start_le_end := h }
  else none

theorem Diagnostic.ofJson?_toJson (d : Diagnostic) : ofJson? d.toJson = some d := by
  have hmembers : d.toJson.member? "location" = some (.text d.location.raw) ∧
      d.toJson.member? "severity" = some (.text d.severity.label) ∧
      d.toJson.member? "message" = some (.text d.message) ∧
      d.toJson.member? "line" = some (.number d.line.toNat) ∧
      d.toJson.member? "start_col" = some (.number d.startCol.toNat) ∧
      d.toJson.member? "end_col" = some (.number d.endCol.toNat) := by
    refine ⟨?_, ?_, ?_, ?_, ?_, ?_⟩ <;> rfl
  obtain ⟨hlocation, hseverity, hmessage, hline, hstart, hend⟩ := hmembers
  rw [ofJson?, hlocation, hseverity, hmessage, hline, hstart, hend]
  simp only [Option.bind_eq_bind, Option.bind_some, Json.text?, Severity.ofLabel?_label,
    Json.position?_number]
  rw [dif_pos d.start_le_end]

/-! ## The grouping -/

/-- The group that a member of the object over all locations describes. -/
def LocationGroup.ofMember? (member : String × Json) : Option LocationGroup := do
  let items ← (← member.2.items?).mapM Diagnostic.ofJson?
  return { location := ⟨member.1⟩, items := items.toArray }

theorem LocationGroup.ofMember?_toJson (g : LocationGroup) :
    ofMember? (g.location.raw, .array (g.items.toList.map Diagnostic.toJson)) = some g := by
  have hitems : (g.items.toList.map Diagnostic.toJson).mapM Diagnostic.ofJson? =
      some g.items.toList :=
    mapM_map_of_read fun d _ => d.ofJson?_toJson
  rw [ofMember?]
  simp only [Json.items?, Option.bind_eq_bind, Option.bind_some, hitems]
  rfl

namespace DiagnosticsByLocation

/-- The map that an object over locations describes. -/
def ofJson? (value : Json) : Option DiagnosticsByLocation := do
  let groups ← (← value.members?).mapM LocationGroup.ofMember?
  return .ofList (groups.flatMap fun g => g.items.toList)

/-- The map that a JSON text describes. -/
def ofJsonText? (text : String) : Option DiagnosticsByLocation :=
  (Json.ofText? text).bind ofJson?

theorem ofJson?_toJson (ds : List Diagnostic) : ofJson? (ofList ds).toJson = some (ofList ds) := by
  have hgroups : ((ofList ds).groups.toList.map fun g => (g.location.raw,
      Json.array (g.items.toList.map Diagnostic.toJson))).mapM LocationGroup.ofMember? =
      some (ofList ds).groups.toList :=
    mapM_map_of_read fun g _ => g.ofMember?_toJson
  rw [ofJson?, toJson]
  simp only [Json.members?, Option.bind_eq_bind, Option.bind_some, hgroups]
  exact congrArg some (ofList_diagnostics ds)

/-- The members of the JSON form: for each location, by first occurrence, what was pushed at it. -/
def jsonMembers (ds : List Diagnostic) : List (String × Json) :=
  (ds.map Diagnostic.location).eraseDups.map fun location =>
    (location.raw, .array ((ds.filter fun d => d.location = location).map Diagnostic.toJson))

theorem toJson_ofList (ds : List Diagnostic) : (ofList ds).toJson = .object (jsonMembers ds) := by
  rw [toJson, groups_ofList, Grouping.groups, List.map_map, List.map_map]
  rfl

theorem nodup_map_fst_jsonMembers (ds : List Diagnostic) :
    ((jsonMembers ds).map Prod.fst).Nodup := by
  rw [jsonMembers, List.map_map]
  exact List.Nodup.map Location.raw_injective (Grouping.nodup_keys Diagnostic.location ds)

/-- **The JSON form loses nothing.** What is printed, compactly or indented, is read back as an object
without repeated keys: the locations in the order in which they first occur, each with its diagnostics
in the order in which they were pushed. From that the map itself is read back, so two maps that are
printed alike are the same. -/
theorem json_form_lossless (ds : List Diagnostic) :
    let m := ofList ds
    Json.ofText? m.toJson.compact = some (.object (jsonMembers ds)) ∧
      Json.ofText? (render .json m) = some (.object (jsonMembers ds)) ∧
      ((jsonMembers ds).map Prod.fst).Nodup ∧
      (jsonMembers ds).map Prod.fst = m.locations.map Location.raw ∧
      ofJsonText? m.toJson.compact = some m ∧
      ofJsonText? (render .json m) = some m ∧
      (∀ ds', m.toJson.compact = (ofList ds').toJson.compact ↔ m = ofList ds') ∧
      ∀ ds', render .json m = render .json (ofList ds') ↔ m = ofList ds' := by
  intro m
  have hcompact (ds : List Diagnostic) :
      ofJsonText? (ofList ds).toJson.compact = some (ofList ds) := by
    rw [ofJsonText?, Json.ofText?_compact, Option.bind_some, ofJson?_toJson]
  have hpretty (ds : List Diagnostic) :
      ofJsonText? (render .json (ofList ds)) = some (ofList ds) := by
    show ofJsonText? ((ofList ds).toJson.pretty ++ "\n") = _
    rw [ofJsonText?, Json.ofText?_pretty_feed, Option.bind_some, ofJson?_toJson]
  refine ⟨?_, ?_, nodup_map_fst_jsonMembers ds, ?_, hcompact ds, hpretty ds, fun ds' => ?_,
    fun ds' => ?_⟩
  · rw [Json.ofText?_compact, toJson_ofList]
  · rw [← toJson_ofList]
    exact Json.ofText?_pretty_feed _
  · rw [jsonMembers, List.map_map, locations_ofList]
    rfl
  · constructor
    · intro h
      have hread := hcompact ds
      rw [h, hcompact ds'] at hread
      exact (Option.some.inj hread).symm
    · intro h
      rw [h]
  · constructor
    · intro h
      have hread := hpretty ds
      rw [h, hpretty ds'] at hread
      exact (Option.some.inj hread).symm
    · intro h
      rw [h]

end DiagnosticsByLocation

end BuildDiagnostics
