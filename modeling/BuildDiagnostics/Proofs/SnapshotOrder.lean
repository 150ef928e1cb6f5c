import BuildDiagnostics.Proofs.ByteOrder
import BuildDiagnostics.Proofs.StoreHistory
import Mathlib.Algebra.GroupWithZero.Nat
import Mathlib.Data.List.Sort

/-!
# The order of a snapshot

A hash map lists its entries in an order of its own, and a snapshot must not show it. Documents with
errors come first, then files before what is no file, and last the bytes of the key's text decide
(`Document.Before`). The sort compares with a reflexive order. Since no two documents of a store share a
key, what it leaves is strictly increasing (`Store.Lists.pairwise_before`), and there is just one strictly
increasing list of given documents. So a snapshot tells what is stored and nothing of how it came there
(`snapshot_canonical`), and its counts are those of the stored lists, of which none is empty.
-/

namespace BuildDiagnostics

open Text.Utf8 (encode encode_lt_encode_iff)

namespace DocumentKey

/-- Files come before what is no file, and within each kind the bytes of the text decide. -/
inductive Before : DocumentKey → DocumentKey → Prop
  | file {a b : FileUri} (h : encode a.text < encode b.text) : Before (file a) (file b)
  | kind (a : FileUri) (b : String) : Before (file a) (verbatim b)
  | verbatim {a b : String} (h : encode a < encode b) : Before (verbatim a) (verbatim b)

/-- The strict order is the other one turned around. -/
theorem before_iff {a b : DocumentKey} : a.Before b ↔ b.le a = false := by
  constructor
  · intro h
    cases h with
    | file h => exact decide_eq_false (String.not_le.2 (encode_lt_encode_iff.1 h))
    | kind a b => rfl
    | verbatim h => exact decide_eq_false (String.not_le.2 (encode_lt_encode_iff.1 h))
  · intro h
    cases a with
    | file a =>
      cases b with
      | file b => exact .file (encode_lt_encode_iff.2 (String.not_le.1 (of_decide_eq_false h)))
      | verbatim b => exact .kind a b
    | verbatim a =>
      cases b with
      | file b => cases h
      | verbatim b => exact .verbatim (encode_lt_encode_iff.2 (String.not_le.1 (of_decide_eq_false h)))

end DocumentKey

namespace Document

def HasError (d : Document) : Prop :=
  ∃ item ∈ d.items, item.severity = .error

theorem hasErrors_iff {d : Document} : d.hasErrors = true ↔ d.HasError := by
  rw [hasErrors, Array.any_eq_true']
  simp only [Severity.isError_iff]
  rfl

/-- Documents with errors come before those without, and among the others the keys decide. -/
inductive Before (a b : Document) : Prop
  | error (ha : a.HasError) (hb : ¬ b.HasError)
  | key (h : a.HasError ↔ b.HasError) (hkey : a.key.Before b.key)

theorem before_iff {a b : Document} : a.Before b ↔ b.le a = false := by
  unfold le
  have hsame : b.hasErrors = a.hasErrors ↔ (a.HasError ↔ b.HasError) := by
    rw [← hasErrors_iff, ← hasErrors_iff, ← Bool.eq_iff_iff, eq_comm]
  constructor
  · intro h
    cases h with
    | error ha hb =>
      rw [if_neg fun heq => hb ((hsame.1 heq).1 ha)]
      exact Bool.eq_false_iff.2 fun h => hb (hasErrors_iff.1 h)
    | key h hkey =>
      rw [if_pos (hsame.2 h)]
      exact DocumentKey.before_iff.1 hkey
  · intro h
    by_cases heq : b.hasErrors = a.hasErrors
    · rw [if_pos heq] at h
      exact .key (hsame.1 heq) (DocumentKey.before_iff.2 h)
    · rw [if_neg heq] at h
      have ha : a.hasErrors = true := by
        rw [h] at heq
        exact Bool.eq_true_of_not_eq_false (Ne.symm heq)
      refine .error (hasErrors_iff.1 ha) fun hb => ?_
      rw [hasErrors_iff.2 hb] at h
      cases h

theorem le_of_before {a b : Document} (h : a.Before b) : a.le b = true := by
  have htotal := le_total a b
  rw [before_iff.1 h, Bool.or_false] at htotal
  exact htotal

/-- Of two documents with different keys one comes first. -/
theorem before_of_le {a b : Document} (h : a.le b = true) (hkey : a.key ≠ b.key) : a.Before b :=
  before_iff.2 (Bool.eq_false_iff.2 fun hba => hkey (key_eq_of_le h hba))

instance : Std.Asymm Before where
  asymm a b hab hba := by
    have hle := le_of_before hba
    rw [before_iff.1 hab] at hle
    cases hle

end Document

/-! ## Listings of what is stored -/

namespace Store

/-- A list of the stored documents, in any order. -/
structure Lists (store : Store) (listing : List Document) : Prop where
  mem_iff (d : Document) : d ∈ listing ↔ store.get? d.key = some d.items
  nodup_key : (listing.map Document.key).Nodup

theorem lists_documentList (store : Store) : store.Lists store.documentList :=
  ⟨fun _ => mem_documentList, store.nodup_key_documentList⟩

namespace Lists

variable {store : Store} {listing : List Document}

theorem perm (h : store.Lists listing) : store.documentList.Perm listing :=
  documentList_perm h.nodup_key.of_map fun d => (h.mem_iff d).symm

/-- Sorting lists the same documents. -/
theorem ofDocuments (h : store.Lists listing) :
    store.Lists (Snapshot.ofDocuments listing).documents where
  mem_iff d := List.mem_mergeSort.trans (h.mem_iff d)
  nodup_key := ((List.mergeSort_perm ..).map Document.key).nodup_iff.2 h.nodup_key

theorem pairwise_before (h : store.Lists listing) :
    (Snapshot.ofDocuments listing).documents.Pairwise Document.Before := by
  have hkeys := List.pairwise_map.1 h.ofDocuments.nodup_key
  exact (Snapshot.pairwise_le_ofDocuments listing).imp₂ (fun _ _ => Document.before_of_le) hkeys

/-- There is only one way to list what is stored in order. -/
theorem eq_of_pairwise_before {others : List Document} (h : store.Lists listing)
    (hothers : store.Lists others) (hbefore : listing.Pairwise Document.Before)
    (hothersBefore : others.Pairwise Document.Before) : listing = others :=
  hbefore.eq_of_mem_iff hothersBefore fun d => (h.mem_iff d).trans (hothers.mem_iff d).symm

end Lists

theorem lists_documents_snapshot (store : Store) : store.Lists store.snapshot.documents :=
  store.lists_documentList.ofDocuments

theorem pairwise_before_snapshot (store : Store) :
    store.snapshot.documents.Pairwise Document.Before :=
  store.lists_documentList.pairwise_before

end Store

/-! ## Counts -/

namespace Snapshot

variable (s : Snapshot)

/-- Every diagnostic is counted under one severity. -/
theorem sum_counts : s.errorCount + s.warningCount + s.infoCount = s.totalCount := by
  rw [totalCount_eq_length]
  unfold errorCount warningCount infoCount count
  induction s.diagnostics with
  | nil => rfl
  | cons d rest ih =>
    simp only [List.countP_cons, List.length_cons, decide_eq_true_eq]
    cases d.severity <;> simp only [reduceCtorEq, if_true, if_false] <;> omega

theorem totalCount_eq_sum : s.totalCount = (s.documents.map fun d => d.items.size).sum := by
  unfold totalCount
  induction s.documents with
  | nil => rfl
  | cons d rest ih => rw [List.foldr_cons, List.map_cons, List.sum_cons, ih]

theorem status_eq_empty_iff : s.status = "" ↔ s.isEmpty = true := by
  unfold status
  constructor
  · intro h
    by_contra hempty
    rw [if_neg hempty] at h
    simp at h
  · exact fun h => if_pos h

end Snapshot

namespace Store

/-- **A snapshot tells what is stored and nothing else.** However the stored documents are listed and
whatever was done to store them, sorting gives one list of them, strictly increasing. Its counts add up to
the sizes of the stored lists, and it is empty just when these are. -/
theorem snapshot_canonical (operations : List SinkOperation) :
    let store := SinkOperation.run sink {} operations
    let snapshot := store.snapshot
    store.Lists snapshot.documents ∧
      snapshot.documents.Pairwise Document.Before ∧
      (∀ listing, store.Lists listing →
        Snapshot.ofDocuments listing = snapshot ∧
          snapshot.totalCount = (listing.map fun d => d.items.size).sum) ∧
      (∀ others,
        let otherStore := SinkOperation.run sink {} others
        (∀ key, otherStore.get? key = store.get? key) → otherStore.snapshot = snapshot) ∧
      snapshot.errorCount + snapshot.warningCount + snapshot.infoCount = snapshot.totalCount ∧
      (snapshot.isEmpty = true ↔ snapshot.totalCount = 0) ∧
      (snapshot.status = "" ↔ snapshot.diagnostics = []) := by
  intro store snapshot
  have hlists : store.Lists snapshot.documents := store.lists_documents_snapshot
  have hbefore : snapshot.documents.Pairwise Document.Before := store.pairwise_before_snapshot
  have hempty : snapshot.isEmpty = true ↔ snapshot.diagnostics = [] := by
    refine snapshot.isEmpty_iff fun d hd hitems => ?_
    have hget := (hlists.mem_iff d).1 hd
    rw [hitems] at hget
    exact get?_run_ne_empty operations d.key hget
  refine ⟨hlists, hbefore, ?_, ?_, snapshot.sum_counts, ?_, ?_⟩
  · intro listing hlisting
    have hsame := hlisting.ofDocuments.eq_of_pairwise_before hlists hlisting.pairwise_before hbefore
    refine ⟨congrArg Snapshot.mk hsame, ?_⟩
    have hperm := hlists.perm.symm.trans hlisting.perm
    rw [Snapshot.totalCount_eq_sum, (hperm.map _).sum_nat]
  · intro others otherStore hget
    exact snapshot_eq_of_get? hget
  · rw [hempty, Snapshot.totalCount_eq_length, List.length_eq_zero_iff]
  · rw [Snapshot.status_eq_empty_iff, hempty]

def sampleErrors : Document :=
  ⟨.verbatim "c", #[.ofWidth ⟨"c"⟩ .error "x" 0 0 0]⟩

def sampleWarnings : Document :=
  ⟨.verbatim "a", #[.ofWidth ⟨"a"⟩ .warning "y" 0 0 0]⟩

/-- Two histories that leave the same documents behind. -/
def sampleHistory : List SinkOperation :=
  [.set sampleWarnings.key sampleWarnings.items, .set sampleErrors.key sampleErrors.items]

def sampleReplay : List SinkOperation :=
  [.set (.verbatim "b") #[], .clear, .set sampleErrors.key sampleErrors.items,
    .set sampleWarnings.key sampleWarnings.items]

theorem snapshot_canonical_sampleReplay :
    let store := SinkOperation.run sink {} sampleHistory
    let replayed := SinkOperation.run sink {} sampleReplay
    (∀ key, replayed.get? key = store.get? key) ∧ replayed.snapshot = store.snapshot ∧
      store.Lists [sampleErrors, sampleWarnings] ∧
      store.snapshot.documents = [sampleErrors, sampleWarnings] ∧ store.snapshot.totalCount = 2 := by
  intro store replayed
  have hpair (a b : Document) (ha : a.items.isEmpty = false) (hb : b.items.isEmpty = false)
      (key : DocumentKey) : (set (set {} a.key a.items) b.key b.items).get? key =
        if b.key = key then some b.items else if a.key = key then some a.items else none := by
    have hempty : get? {} key = none := get?_clear {} key
    simp [get?_set, ha, hb, hempty]
  have hstore := hpair sampleWarnings sampleErrors rfl rfl
  have hget (key : DocumentKey) : replayed.get? key = store.get? key := by
    refine (hpair sampleErrors sampleWarnings rfl rfl key).trans (Eq.trans ?_ (hstore key).symm)
    split_ifs with hwarning herror <;> try rfl
    exact absurd (hwarning.trans herror.symm) (by decide)
  have hlists : store.Lists [sampleErrors, sampleWarnings] := by
    refine ⟨fun d => ?_, by decide⟩
    rw [show store.get? d.key = _ from hstore d.key]
    constructor
    · intro hd
      rcases List.mem_pair.1 hd with rfl | rfl
      · rfl
      · rfl
    · intro hd
      split_ifs at hd with herror hwarning
      · rw [show sampleErrors = d from congr (congrArg Document.mk herror) (Option.some.inj hd)]
        exact .head ..
      · rw [show sampleWarnings = d from congr (congrArg Document.mk hwarning) (Option.some.inj hd)]
        exact .tail _ (.head ..)
  obtain ⟨hsnapshot, hbefore, hlisting, hothers, -⟩ := snapshot_canonical sampleHistory
  have hsample : [sampleErrors, sampleWarnings].Pairwise Document.Before := by
    refine List.pairwise_pair.2 (.error ?_ ?_)
    · exact Document.hasErrors_iff.1 (by decide +kernel)
    · exact fun h => absurd (Document.hasErrors_iff.2 h) (by decide +kernel)
  refine ⟨hget, hothers sampleReplay hget, hlists, ?_, (hlisting _ hlists).2⟩
  exact hsnapshot.eq_of_pairwise_before hlists hbefore hsample

end Store

end BuildDiagnostics
