import BuildDiagnostics.Proofs.Snapshot
import Mathlib.Data.List.DropRight

/-!
# A store after any history

A store may be set, cleared and published to in any order. What it shows for a document is told by the
calls alone, as a sink that only notes them would have them: the items of the last set of the document
since the last clear, unless these are none (`get?_foldl_apply`). A publish begins with a clear, so
nothing that was set before it counts any more (`lastSet?_publishCalls`, `get?_publish_run`).
-/

namespace BuildDiagnostics

/-- What may be done to a sink. -/
inductive SinkOperation
  | clear
  | set (key : DocumentKey) (items : Array Diagnostic)
  | publish (write : FileUri.Writer) (result : DiagnosticsByLocation) (root : Path)

namespace SinkOperation

variable {σ : Type} (sink : Sink σ)

def apply (state : σ) : SinkOperation → σ
  | clear => sink.clear state
  | set key items => sink.set state key items
  | publish write result root => BuildDiagnostics.publish write sink state result root

/-- The state after some operations, one after the other. -/
def run (state : σ) (operations : List SinkOperation) : σ :=
  operations.foldl (apply sink) state

/-- The calls that an operation makes. -/
def calls : SinkOperation → List SinkCall
  | clear => [.clear]
  | set key items => [.set key items]
  | publish write result root => publishCalls write root result

theorem apply_eq_foldl (state : σ) (operation : SinkOperation) :
    operation.apply sink state = operation.calls.foldl (SinkCall.apply sink) state := by
  cases operation with
  | clear => rfl
  | set key items => rfl
  | publish write result root => exact publish_eq_foldl write root sink state result

theorem run_eq_foldl (state : σ) (operations : List SinkOperation) :
    run sink state operations =
      (operations.flatMap calls).foldl (SinkCall.apply sink) state := by
  induction operations generalizing state with
  | nil => rfl
  | cons operation rest ih =>
    have hcons : run sink state (operation :: rest) = run sink (operation.apply sink state) rest :=
      rfl
    rw [hcons, ih, apply_eq_foldl, List.flatMap_cons, List.foldl_append]

theorem run_recorder (operations : List SinkOperation) :
    (run .recorder #[] operations).toList = operations.flatMap calls := by
  rw [run_eq_foldl, foldl_apply_recorder]
  simp

end SinkOperation

/-! ## The last set of a document -/

/-- What a call sets the document to. -/
def SinkCall.itemsFor? (key : DocumentKey) : SinkCall → Option (Array Diagnostic)
  | clear => none
  | set key' items => if key' = key then some items else none

/-- The items of the last set of a document since the last clear. -/
def lastSet? (key : DocumentKey) (calls : List SinkCall) : Option (Array Diagnostic) :=
  ((calls.rtakeWhile (· ≠ .clear)).filterMap (SinkCall.itemsFor? key)).getLast?

section LastSet

variable (key : DocumentKey) (calls : List SinkCall)

theorem lastSet?_clear : lastSet? key (calls ++ [.clear]) = none := by
  rw [lastSet?, List.rtakeWhile_concat_neg _ _ _ (by simp)]
  rfl

theorem lastSet?_set (key' : DocumentKey) (items : Array Diagnostic) :
    lastSet? key (calls ++ [.set key' items]) =
      if key' = key then some items else lastSet? key calls := by
  rw [lastSet?, List.rtakeWhile_concat_pos _ _ _ (by simp), List.filterMap_append,
    List.filterMap_cons, SinkCall.itemsFor?]
  by_cases h : key' = key
  · rw [if_pos h, if_pos h]
    exact List.getLast?_concat
  · rw [if_neg h, if_neg h, List.filterMap_nil, List.append_nil]
    rfl

/-- After a clear and the sets of some documents, these and no others have been set. -/
theorem lastSet?_clear_sets (items : DocumentKey → Array Diagnostic) (keys : List DocumentKey) :
    lastSet? key (calls ++ .clear :: keys.map fun k => .set k (items k)) =
      if key ∈ keys then some (items key) else none := by
  induction keys using List.reverseRecOn with
  | nil => exact lastSet?_clear key calls
  | append_singleton keys k ih =>
    rw [List.map_append, List.map_singleton, ← List.cons_append, ← List.append_assoc, lastSet?_set, ih]
    by_cases hk : k = key
    · simp [hk]
    · simp [hk, Ne.symm hk]

theorem lastSet?_publishCalls (write : FileUri.Writer) (root : Path)
    (result : DiagnosticsByLocation) :
    lastSet? key (calls ++ publishCalls write root result) =
      if key ∈ documentKeys write root result then some (documentItems write root result key).toArray
      else none :=
  lastSet?_clear_sets key calls (fun k => (documentItems write root result k).toArray) _

end LastSet

theorem documentItems_eq_nil {write : FileUri.Writer} {root : Path}
    {result : DiagnosticsByLocation} {key : DocumentKey}
    (h : key ∉ documentKeys write root result) : documentItems write root result key = [] := by
  rw [documentKeys_eq_keys, ← Grouping.withKey_eq_nil_iff] at h
  have hwith : documentItems write root result key =
      (Grouping.withKey (LocationGroup.documentKey write root) key result.groups.toList).flatMap
        fun g => g.items.toList := rfl
  rw [hwith, h]
  rfl

namespace Store

/-- **What a store shows for a document** is what the document was last set to since the last clear,
unless that is nothing. -/
theorem get?_foldl_apply (calls : List SinkCall) (key : DocumentKey) :
    (calls.foldl (SinkCall.apply sink) {}).get? key =
      (lastSet? key calls).filter fun items => !items.isEmpty := by
  induction calls using List.reverseRecOn with
  | nil => exact get?_clear {} key
  | append_singleton calls call ih =>
    rw [List.foldl_append, List.foldl_cons, List.foldl_nil]
    cases call with
    | clear =>
      rw [lastSet?_clear]
      exact get?_clear (calls.foldl (SinkCall.apply sink) {}) key
    | set key' items =>
      have hset := get?_set (calls.foldl (SinkCall.apply sink) {}) key' items key
      refine hset.trans ?_
      rw [lastSet?_set]
      by_cases hk : key' = key
      · rw [if_pos hk, if_pos hk, Option.filter_some]
        cases items.isEmpty <;> rfl
      · rw [if_neg hk, if_neg hk]
        exact ih

theorem get?_run (operations : List SinkOperation) (key : DocumentKey) :
    (SinkOperation.run sink {} operations).get? key =
      (lastSet? key (operations.flatMap SinkOperation.calls)).filter fun items =>
        !items.isEmpty := by
  rw [SinkOperation.run_eq_foldl, get?_foldl_apply]

/-- No document is kept without diagnostics. -/
theorem get?_run_ne_empty (operations : List SinkOperation) (key : DocumentKey) :
    (SinkOperation.run sink {} operations).get? key ≠ some #[] := by
  intro h
  rw [get?_run, Option.filter_eq_some_iff] at h
  exact absurd h.2 (by decide)

/-- After a publish a store shows the published documents, whatever was done to it before. -/
theorem get?_publish_run (operations : List SinkOperation) (write : FileUri.Writer)
    (result : DiagnosticsByLocation) (root : Path) (key : DocumentKey) :
    ((SinkOperation.run sink {} operations).publish write result root).get? key =
      if documentItems write root result key = [] then none
      else some (documentItems write root result key).toArray := by
  have hrun : (SinkOperation.run sink {} operations).publish write result root =
      SinkOperation.run sink {} (operations ++ [.publish write result root]) := by
    rw [SinkOperation.run, SinkOperation.run, List.foldl_append]
    rfl
  rw [hrun, get?_run, List.flatMap_append, List.flatMap_singleton, SinkOperation.calls,
    lastSet?_publishCalls]
  by_cases hkey : key ∈ documentKeys write root result
  · rw [if_pos hkey, Option.filter_some]
    by_cases hnil : documentItems write root result key = []
    · simp [hnil]
    · simp [hnil]
  · rw [if_neg hkey, if_pos (documentItems_eq_nil hkey)]
    rfl

/-- **A store is the finite map of its last sets.** It holds no empty list, and a publish leaves behind
the published documents and nothing else, so neither what was done before nor a second publish of the
same result makes a difference. -/
theorem run_eq_lastSet? (operations : List SinkOperation) :
    let store := SinkOperation.run sink {} operations
    let noted := (SinkOperation.run .recorder #[] operations).toList
    (∀ key, store.get? key = (lastSet? key noted).filter fun items => !items.isEmpty) ∧
      (∀ key, store.get? key ≠ some #[]) ∧
      ∀ (write : FileUri.Writer) result root,
        let published := store.publish write result root
        let fresh := Store.publish write {} result root
        (∀ key, published.get? key =
          let items := documentItems write root result key
          if items = [] then none else some items.toArray) ∧
        (∀ key, published.get? key = fresh.get? key) ∧
        published.snapshot = fresh.snapshot ∧
        (∀ key, (published.publish write result root).get? key = published.get? key) ∧
        (published.publish write result root).snapshot = published.snapshot := by
  intro store noted
  have hget (key : DocumentKey) :
      store.get? key = (lastSet? key noted).filter fun items => !items.isEmpty := by
    rw [show noted = _ from SinkOperation.run_recorder operations]
    exact get?_run operations key
  refine ⟨hget, ?_, ?_⟩
  · intro key hempty
    rw [hget, Option.filter_eq_some_iff] at hempty
    exact absurd hempty.2 (by decide)
  · intro write result root published fresh
    have hpublished (key : DocumentKey) := get?_publish_run operations write result root key
    -- publishing into a new store and publishing again are runs as well
    have hfresh (key : DocumentKey) : published.get? key = fresh.get? key :=
      (hpublished key).trans (get?_publish_run [] write result root key).symm
    have htwice (key : DocumentKey) :
        (published.publish write result root).get? key = published.get? key := by
      have hagain :=
        get?_publish_run (operations ++ [.publish write result root]) write result root key
      rw [SinkOperation.run, List.foldl_append] at hagain
      exact hagain.trans (hpublished key).symm
    exact ⟨hpublished, hfresh, snapshot_eq_of_get? hfresh, htwice, snapshot_eq_of_get? htwice⟩

end Store

end BuildDiagnostics
