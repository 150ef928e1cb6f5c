import BuildDiagnostics.Proofs.Store

/-!
# A store's snapshot is a function of its content

Documents are ordered by whether they have errors and then by key, and no two documents of a store
share a key. So there is one way to put them in order, whatever order the hash map lists them in
(`ofDocuments_eq_of_perm`), and two stores that answer `get?` alike have the same snapshot
(`snapshot_eq_of_get?`).
-/

namespace BuildDiagnostics

namespace DocumentKey

theorem le_total (a b : DocumentKey) : (a.le b || b.le a) = true := by
  cases a <;> cases b <;> simp [le, String.le_total]

theorem le_trans {a b c : DocumentKey} (hab : a.le b = true) (hbc : b.le c = true) :
    a.le c = true := by
  cases a <;> cases b <;> cases c <;> simp only [le, decide_eq_true_eq, Bool.false_eq_true] at *
  · exact String.le_trans hab hbc
  · exact String.le_trans hab hbc

theorem le_antisymm {a b : DocumentKey} (hab : a.le b = true) (hba : b.le a = true) : a = b := by
  cases a <;> cases b <;> simp only [le, decide_eq_true_eq, Bool.false_eq_true] at hab hba
  · next a b =>
    have htext : a.text = b.text := String.le_antisymm hab hba
    rw [show a = b from by cases a; cases b; exact congrArg FileUri.mk htext]
  · exact congrArg verbatim (String.le_antisymm hab hba)

end DocumentKey

namespace Document

theorem le_total (a b : Document) : (a.le b || b.le a) = true := by
  unfold le
  by_cases h : a.hasErrors = b.hasErrors
  · rw [if_pos h, if_pos h.symm]
    exact DocumentKey.le_total a.key b.key
  · rw [if_neg h, if_neg (Ne.symm h)]
    cases ha : a.hasErrors
    · cases hb : b.hasErrors
      · exact absurd (ha.trans hb.symm) h
      · rfl
    · rfl

theorem le_trans {a b c : Document} (hab : a.le b = true) (hbc : b.le c = true) :
    a.le c = true := by
  unfold le at *
  cases ha : a.hasErrors <;> cases hb : b.hasErrors <;> cases hc : c.hasErrors <;>
    simp only [ha, hb, hc, ↓reduceIte, Bool.false_eq_true, Bool.true_eq_false] at *
  · exact DocumentKey.le_trans hab hbc
  · exact DocumentKey.le_trans hab hbc

theorem key_eq_of_le {a b : Document} (hab : a.le b = true) (hba : b.le a = true) :
    a.key = b.key := by
  unfold le at hab hba
  by_cases h : a.hasErrors = b.hasErrors
  · rw [if_pos h] at hab
    rw [if_pos h.symm] at hba
    exact DocumentKey.le_antisymm hab hba
  · rw [if_neg h] at hab
    rw [if_neg (Ne.symm h)] at hba
    exact absurd (hab.trans hba.symm) h

end Document

namespace Snapshot

theorem pairwise_le_ofDocuments (documents : List Document) :
    (ofDocuments documents).documents.Pairwise fun a b => a.le b = true :=
  List.pairwise_mergeSort (fun a b c => @Document.le_trans a b c) Document.le_total documents

theorem ofDocuments_eq_of_perm {xs ys : List Document}
    (hn : (xs.map Document.key).Nodup) (h : xs.Perm ys) : ofDocuments xs = ofDocuments ys := by
  have hperm : (xs.mergeSort Document.le).Perm (ys.mergeSort Document.le) :=
    (List.mergeSort_perm ..).trans (h.trans (List.mergeSort_perm ..).symm)
  refine congrArg Snapshot.mk
    (hperm.eq_of_pairwise ?_ (pairwise_le_ofDocuments xs) (pairwise_le_ofDocuments ys))
  intro a b ha hb hab hba
  have hax : a ∈ xs := List.mem_mergeSort.1 ha
  have hbx : b ∈ xs := h.mem_iff.2 (List.mem_mergeSort.1 hb)
  exact List.inj_on_of_nodup_map hn hax hbx (Document.key_eq_of_le hab hba)

end Snapshot

namespace Store

/-- Two stores that show the same for every document have the same snapshot. -/
theorem snapshot_eq_of_get? {s t : Store} (h : ∀ key, s.get? key = t.get? key) :
    s.snapshot = t.snapshot := by
  apply Snapshot.ofDocuments_eq_of_perm s.nodup_key_documentList
  refine documentList_perm t.nodup_documentList fun d => ?_
  rw [h]
  exact mem_documentList.symm

end Store

end BuildDiagnostics
