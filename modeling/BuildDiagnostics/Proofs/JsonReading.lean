import BuildDiagnostics.Proofs.JsonTokens

/-!
# Reading JSON

A machine reads tokens one by one. It keeps the arrays and objects that are still open, each with what
it holds so far, and what has to come next. `foldlM_tokens` says that it reads the tokens of a value,
wherever the value stands, and ends up with that value and with what was open before. So what `print`
writes is read back by `ofText?`, in every layout that puts blanks only (`ofText?_print`).
-/

namespace BuildDiagnostics.Json

/-- An array or an object that is still open. -/
inductive Frame
  | array (items : List Json)
  /-- With the key whose value is being read. -/
  | object (members : List (String × Json)) (key : String)

/-- What a reader stands at. -/
inductive Phase
  /-- A value has to come. -/
  | value
  /-- A key has to come, in an object with the given members so far. -/
  | key (members : List (String × Json))
  | colon (members : List (String × Json)) (key : String)
  /-- A value has been read. -/
  | done (value : Json)

structure Reader where
  stack : List Frame := []
  phase : Phase := .value

namespace Reader

/-- Takes the next token. An array or object that is closed is a value that has been read. -/
def step (r : Reader) (token : Token) : Option Reader :=
  match r.phase, r.stack, token with
  | .value, stack, .number n => some { stack, phase := .done (.number n) }
  | .value, stack, .text s => some { stack, phase := .done (.text s) }
  | .value, stack, .openArray => some { stack := .array [] :: stack }
  | .value, .array [] :: stack, .closeArray => some { stack, phase := .done (.array []) }
  | .value, stack, .openObject => some { stack, phase := .key [] }
  | .key [], stack, .closeObject => some { stack, phase := .done (.object []) }
  | .key members, stack, .text key => some { stack, phase := .colon members key }
  | .colon members key, stack, .colon => some { stack := .object members key :: stack }
  | .done value, .array items :: stack, .comma => some { stack := .array (items ++ [value]) :: stack }
  | .done value, .array items :: stack, .closeArray =>
    some { stack, phase := .done (.array (items ++ [value])) }
  | .done value, .object members key :: stack, .comma =>
    some { stack, phase := .key (members ++ [(key, value)]) }
  | .done value, .object members key :: stack, .closeObject =>
    some { stack, phase := .done (.object (members ++ [(key, value)])) }
  | _, _, _ => none

/-- Items that are read one by one, with commas between them, are read as a whole. -/
theorem foldlM_intercalate {α : Type} {item : α → List Token} {closing : Token}
    (before : List α → Reader) (after : List α → α → Reader) (finish : List α → Reader)
    (hcomma : ∀ done x, (after done x).step .comma = some (before (done ++ [x])))
    (hclose : ∀ done x, (after done x).step closing = some (finish (done ++ [x])))
    {xs : List α} (hne : xs ≠ [])
    (hitem : ∀ x ∈ xs, ∀ done, (item x).foldlM step (before done) = some (after done x))
    (done : List α) :
    (List.intercalate [.comma] (xs.map item) ++ [closing]).foldlM step (before done) =
      some (finish (done ++ xs)) := by
  induction xs generalizing done with
  | nil => exact absurd rfl hne
  | cons x rest ih =>
    have hx := hitem x List.mem_cons_self done
    cases rest with
    | nil =>
      rw [List.map_singleton, List.intercalate_singleton, List.foldlM_append, hx]
      simp [hclose]
    | cons y rest =>
      have hrest := ih (by simp) (fun z hz => hitem z (List.mem_cons_of_mem x hz)) (done ++ [x])
      rw [List.map_cons, List.map_cons, List.intercalate_cons_cons, ← List.map_cons,
        List.append_assoc, List.append_assoc, List.foldlM_append, hx]
      simp only [Option.bind_eq_bind, Option.bind_some, List.cons_append, List.foldlM_cons, hcomma]
      simpa using hrest

/-- **The tokens of a value are read as that value**, whatever is open around it. -/
theorem foldlM_tokens (value : Json) :
    ∀ stack, value.tokens.foldlM step { stack } = some { stack, phase := .done value } := by
  induction value with
  | number n =>
    intro stack
    rw [tokens]
    rfl
  | text s =>
    intro stack
    rw [tokens]
    rfl
  | array items ih =>
    intro stack
    rw [tokens, List.cons_append, List.foldlM_cons]
    by_cases hne : items = []
    · rw [hne]
      rfl
    · exact foldlM_intercalate (fun done => { stack := .array done :: stack })
        (fun done value => { stack := .array done :: stack, phase := .done value })
        (fun done => { stack, phase := .done (.array done) })
        (fun _ _ => rfl) (fun _ _ => rfl) hne (fun value hvalue done => ih value hvalue _) []
  | object members ih =>
    intro stack
    rw [tokens, List.cons_append, List.foldlM_cons]
    by_cases hne : members = []
    · rw [hne]
      rfl
    · refine foldlM_intercalate (fun done => { stack, phase := .key done })
        (fun done member => { stack := .object done member.1 :: stack, phase := .done member.2 })
        (fun done => { stack, phase := .done (.object done) })
        (fun _ _ => rfl) (fun _ _ => rfl) hne (fun member hmember done => ?_) []
      have hkey : step { stack, phase := .key done } (.text member.1) =
          some { stack, phase := .colon done member.1 } := by
        cases done <;> rfl
      rw [List.foldlM_cons, hkey]
      exact ih member hmember _

end Reader

/-- The value that a text is, with blanks around it or without. -/
def ofText? (text : String) : Option Json :=
  match (tokens? text.toList).bind (·.foldlM Reader.step {}) with
  | some { stack := [], phase := .done value } => some value
  | _ => none

section Print

variable {layout : Layout} (hlayout : layout.Blank)
include hlayout

/-- **A printed value is read back.** -/
theorem ofText?_print (value : Json) {blanks : List Char} (h : ∀ c ∈ blanks, isBlank c = true) :
    ofText? (String.ofList (print layout 0 value ++ blanks)) = some value := by
  rw [ofText?, String.toList_ofList, tokens?_print hlayout value h, Option.bind_some,
    Reader.foldlM_tokens]

end Print

theorem ofText?_compact (value : Json) : ofText? value.compact = some value := by
  have hnone : ∀ c ∈ ([] : List Char), isBlank c = true := by rintro _ ⟨⟩
  have h := ofText?_print Layout.blank_compact value hnone
  rwa [List.append_nil] at h

theorem ofText?_pretty_feed (value : Json) : ofText? (value.pretty ++ "\n") = some value := by
  have hfeed : value.pretty ++ "\n" = String.ofList (print .indented 0 value ++ ['\n']) := by
    apply String.toList_inj.1
    simp [pretty]
  rw [hfeed]
  apply ofText?_print Layout.blank_indented
  intro c hc
  rw [List.mem_singleton.1 hc]
  rfl

end BuildDiagnostics.Json
