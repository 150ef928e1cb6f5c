import BuildDiagnostics.Document.Publish
import BuildDiagnostics.Proofs.ByLocation

/-!
# What publishing tells a sink

The loop of `Document.ofDiagnostics` merges each location into the document that has its key already.
`ofDiagnostics_eq_groups` says that the outcome is the grouping of the locations by document key,
whatever the keys are, so neither the root nor the writer of URIs matters here; that the keys are
distinct and nothing is lost follows from the laws of grouping. `publish_eq_calls` states the result as
the calls that a sink receives.
-/

namespace BuildDiagnostics

variable (write : FileUri.Writer) (root : Path)

/-- The document that a group belongs to. -/
def LocationGroup.documentKey (g : LocationGroup) : DocumentKey :=
  .ofLocation write g.location root

/-- The document with the given key and locations. -/
def Document.ofGroups (g : DocumentKey × List LocationGroup) : Document where
  key := g.1
  items := (g.2.flatMap fun g => g.items.toList).toArray

namespace Document

/-- Merging changes the document of the key, or opens one at the end. -/
theorem merge_eq {key : DocumentKey} {items : Array Diagnostic} {documents : List Document}
    (h : (documents.map Document.key).Nodup) :
    merge key items documents =
      if key ∈ documents.map Document.key then
        documents.map fun d => if d.key = key then { d with items := d.items ++ items } else d
      else documents ++ [⟨key, items⟩] := by
  induction documents with
  | nil => rfl
  | cons d rest ih =>
    rw [List.map_cons, List.nodup_cons] at h
    rw [merge]
    by_cases hd : d.key = key
    · have hkeep : ∀ e ∈ rest, (if e.key = key then { e with items := e.items ++ items } else e)
          = e := by
        intro e he
        have hne : e.key ≠ key := fun hek => h.1 (hd ▸ hek ▸ List.mem_map_of_mem he)
        rw [if_neg hne]
      rw [if_pos hd, if_pos (by simp [hd]), List.map_cons, if_pos hd, List.map_congr_left hkeep,
        List.map_id']
    · have hmem : key ∈ (d :: rest).map Document.key ↔ key ∈ rest.map Document.key := by
        rw [List.map_cons, List.mem_cons]
        exact ⟨fun hk => hk.resolve_left (Ne.symm hd), Or.inr⟩
      rw [if_neg hd, ih h.2]
      by_cases hk : key ∈ rest.map Document.key
      · rw [if_pos hk, if_pos (hmem.2 hk), List.map_cons, if_neg hd]
      · rw [if_neg hk, if_neg fun hk' => hk (hmem.1 hk')]
        rfl

theorem map_key_ofGroups (gs : List LocationGroup) :
    ((Grouping.groups (LocationGroup.documentKey write root) gs).map ofGroups).map Document.key =
      Grouping.keys (LocationGroup.documentKey write root) gs := by
  rw [List.map_map, ← Grouping.map_fst_groups]
  rfl

theorem foldl_merge (gs : List LocationGroup) :
    gs.foldl (fun documents g => merge (g.documentKey write root) g.items documents) [] =
      (Grouping.groups (LocationGroup.documentKey write root) gs).map ofGroups := by
  induction gs using List.reverseRecOn with
  | nil => rfl
  | append_singleton gs g ih =>
    have hkeys := map_key_ofGroups write root gs
    have hnodup := Grouping.nodup_keys (LocationGroup.documentKey write root) gs
    rw [← hkeys] at hnodup
    rw [List.foldl_append, List.foldl_cons, List.foldl_nil, ih, merge_eq hnodup, hkeys,
      Grouping.groups_append_singleton]
    by_cases hmem : g.documentKey write root ∈ Grouping.keys (LocationGroup.documentKey write root) gs
    · rw [if_pos hmem, if_pos hmem, List.map_map, List.map_map]
      refine List.map_congr_left fun e _ => ?_
      by_cases hk : e.1 = g.documentKey write root <;> simp [ofGroups, hk]
    · rw [if_neg hmem, if_neg hmem, List.map_append, List.map_singleton]
      simp [ofGroups]

/-- **The documents are the groups of the locations by document key.** -/
theorem ofDiagnostics_eq_groups (result : DiagnosticsByLocation) :
    ofDiagnostics write result root =
      (Grouping.groups (LocationGroup.documentKey write root) result.groups.toList).map ofGroups := by
  rw [ofDiagnostics, ← Array.foldl_toList]
  exact foldl_merge write root _

theorem flatMap_items_ofDiagnostics_perm (result : DiagnosticsByLocation) :
    ((ofDiagnostics write result root).flatMap fun d => d.items.toList).Perm
      result.diagnostics := by
  have h := Grouping.flatMap_snd_groups_perm (LocationGroup.documentKey write root) result.groups.toList
  have hitems := h.flatMap_right fun g => g.items.toList
  rw [List.flatMap_assoc] at hitems
  rw [ofDiagnostics_eq_groups, List.flatMap_map]
  exact hitems

theorem items_ne_empty {ds : List Diagnostic} {d : Document}
    (h : d ∈ ofDiagnostics write (.ofList ds) root) : d.items.isEmpty = false := by
  rw [ofDiagnostics_eq_groups] at h
  obtain ⟨g, hg, rfl⟩ := List.mem_map.1 h
  obtain ⟨k, hk, rfl⟩ := List.mem_map.1 hg
  obtain ⟨g, hg, hgk⟩ := (Grouping.mem_keys _).1 hk
  obtain ⟨d, hd⟩ := List.exists_mem_of_ne_nil _ (DiagnosticsByLocation.mem_groups_ofList hg).1
  have hmem : d ∈ (ofGroups (k, Grouping.withKey (LocationGroup.documentKey write root) k
      (DiagnosticsByLocation.ofList ds).groups.toList)).items := by
    rw [ofGroups, List.mem_toArray]
    exact List.mem_flatMap.2 ⟨g, List.mem_filter.2 ⟨hg, decide_eq_true hgk⟩, hd⟩
  exact Bool.eq_false_iff.2 fun he => by
    rw [Array.isEmpty_iff.1 he] at hmem
    exact absurd hmem (Array.not_mem_empty _)

end Document

/-! ## The calls -/

/-- What a call does to the state of a sink. -/
def SinkCall.apply {σ : Type} (sink : Sink σ) (state : σ) : SinkCall → σ
  | .clear => sink.clear state
  | .set key items => sink.set state key items

/-- The documents of the locations, each once, by first appearance. -/
def documentKeys (result : DiagnosticsByLocation) : List DocumentKey :=
  (result.locations.map fun location => .ofLocation write location root).eraseDups

/-- What is reported against a document: the diagnostics of its locations, one location after the
other. -/
def documentItems (result : DiagnosticsByLocation) (key : DocumentKey) : List Diagnostic :=
  (result.groups.toList.filter fun g => DocumentKey.ofLocation write g.location root = key).flatMap
    fun g => g.items.toList

/-- The calls of publishing: a clear, then one set for each document. -/
def publishCalls (result : DiagnosticsByLocation) : List SinkCall :=
  .clear :: (documentKeys write root result).map fun key =>
    .set key (documentItems write root result key).toArray

theorem documentKeys_eq_keys (result : DiagnosticsByLocation) :
    documentKeys write root result =
      Grouping.keys (LocationGroup.documentKey write root) result.groups.toList := by
  rw [documentKeys, DiagnosticsByLocation.locations, List.map_map]
  rfl

theorem ofDiagnostics_eq_map (result : DiagnosticsByLocation) :
    Document.ofDiagnostics write result root =
      (documentKeys write root result).map fun key =>
        ⟨key, (documentItems write root result key).toArray⟩ := by
  rw [Document.ofDiagnostics_eq_groups, Grouping.groups, List.map_map, documentKeys_eq_keys]
  rfl

theorem publish_eq_foldl {σ : Type} (sink : Sink σ) (state : σ) (result : DiagnosticsByLocation) :
    publish write sink state result root =
      (publishCalls write root result).foldl (SinkCall.apply sink) state := by
  rw [publish, ofDiagnostics_eq_map, publishCalls, List.foldl_cons, List.foldl_map, List.foldl_map]
  rfl

theorem foldl_apply_recorder (calls : List SinkCall) (noted : Array SinkCall) :
    calls.foldl (SinkCall.apply .recorder) noted = noted ++ calls.toArray := by
  induction calls generalizing noted with
  | nil => simp
  | cons call calls ih =>
    have hcall : SinkCall.apply .recorder noted call = noted.push call := by
      cases call <;> rfl
    rw [List.foldl_cons, hcall, ih]
    simp

theorem publish_recorder (result : DiagnosticsByLocation) :
    (publish write .recorder #[] result root).toList = publishCalls write root result := by
  rw [publish_eq_foldl, foldl_apply_recorder]
  simp

/-- **What any sink is told.** It is cleared once and then set once for each document, in the order in
which the locations first lead to it, to the diagnostics of all its locations. Each diagnostic is
told exactly once, under the document of its location. -/
theorem publish_eq_calls (ds : List Diagnostic) :
    let result := DiagnosticsByLocation.ofList ds
    (∀ (σ : Type) (sink : Sink σ) (state : σ),
        publish write sink state result root =
          (publishCalls write root result).foldl (SinkCall.apply sink) state) ∧
      (publish write .recorder #[] result root).toList = publishCalls write root result ∧
      result.locations = (ds.map Diagnostic.location).eraseDups ∧
      (documentKeys write root result).Nodup ∧
      (∀ key ∈ documentKeys write root result, documentItems write root result key ≠ []) ∧
      (∀ key, ∀ d ∈ documentItems write root result key, .ofLocation write d.location root = key) ∧
      ((documentKeys write root result).flatMap (documentItems write root result)).Perm
        result.diagnostics := by
  intro result
  have hdocuments := ofDiagnostics_eq_map write root result
  refine ⟨fun σ sink state => publish_eq_foldl write root sink state result, ?_,
    DiagnosticsByLocation.locations_ofList ds, ?_, ?_, ?_, ?_⟩
  · rw [publish_eq_foldl, foldl_apply_recorder]
    simp
  · rw [documentKeys_eq_keys]
    exact Grouping.nodup_keys ..
  · intro key hkey
    have hmem : ⟨key, (documentItems write root result key).toArray⟩ ∈
        Document.ofDiagnostics write result root := by
      rw [hdocuments]
      exact List.mem_map_of_mem hkey
    have hne := Document.items_ne_empty write root hmem
    rintro hnil
    rw [hnil] at hne
    cases hne
  · intro key d hd
    obtain ⟨g, hg, hdg⟩ := List.mem_flatMap.1 hd
    obtain ⟨hg, hkey⟩ := List.mem_filter.1 hg
    rw [(DiagnosticsByLocation.mem_groups_ofList hg).2 d hdg]
    exact of_decide_eq_true hkey
  · have hperm := Document.flatMap_items_ofDiagnostics_perm write root result
    rw [hdocuments, List.flatMap_map] at hperm
    exact hperm

end BuildDiagnostics
