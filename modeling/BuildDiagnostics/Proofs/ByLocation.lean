import BuildDiagnostics.Diagnostic.ByLocation
import BuildDiagnostics.Proofs.Grouping

/-!
# The grouping by location is the grouping of the pushed sequence

After pushing `ds`, the groups of the map are the groups of `ds` by location (`groups_ofList`), so
the hash index has no influence on what a reader of the map sees. `diagnostics` lists them group by
group: it is a permutation of `ds`, and grouping that list again changes nothing
(`diagnostics_ofList_map`), also when every diagnostic is rewritten at its location. The index holds
nothing that the groups do not say, so maps with equal groups are equal (`ofList_eq_of_groups_eq`).
-/

namespace BuildDiagnostics

theorem Location.raw_injective : Function.Injective Location.raw := by
  rintro ⟨a⟩ ⟨b⟩ h
  exact congrArg Location.mk h

/-- The group of a location and its diagnostics. -/
def LocationGroup.ofPair (g : Location × List Diagnostic) : LocationGroup where
  location := g.1
  items := g.2.toArray

namespace DiagnosticsByLocation

open LocationGroup (ofPair)

/-- Changing the only entry that satisfies `p` is changing all entries that do. -/
theorem modify_eq_map {α : Type} {p : α → Prop} [DecidablePred p] {f : α → α} {slot : Nat}
    {xs : List α} (h : ∀ i x, xs[i]? = some x → (p x ↔ i = slot)) :
    xs.modify slot f = xs.map fun x => if p x then f x else x := by
  apply List.ext_getElem?
  intro i
  rw [List.getElem?_modify, List.getElem?_map]
  cases e : xs[i]? with
  | none => simp
  | some x =>
    have hp := h i x e
    by_cases hs : i = slot
    · simp [hp.2 hs, hs]
    · have hx : ¬ p x := fun hx => hs (hp.1 hx)
      simp [hx, Ne.symm hs]

theorem WF.mem_locations_iff {m : DiagnosticsByLocation} (h : m.WF) {location : Location} :
    location ∈ m.locations ↔ ∃ slot, m.index[location.raw]? = some slot := by
  constructor
  · intro hmem
    obtain ⟨g, hg, rfl⟩ := List.mem_map.1 hmem
    obtain ⟨slot, hslot⟩ := Array.getElem?_of_mem (Array.mem_toList_iff.1 hg)
    exact ⟨slot, (h.index_iff _ _).2 ⟨g, hslot, rfl⟩⟩
  · rintro ⟨slot, hslot⟩
    obtain ⟨g, hg, hraw⟩ := (h.index_iff _ _).1 hslot
    have hmem := Array.mem_toList_iff.2 (Array.mem_of_getElem? hg)
    exact List.mem_map.2 ⟨g, hmem, Location.raw_injective hraw⟩

theorem WF.notMem_locations_iff {m : DiagnosticsByLocation} (h : m.WF) {location : Location} :
    location ∉ m.locations ↔ m.index[location.raw]? = none := by
  rw [h.mem_locations_iff, ← Option.isSome_iff_exists, Option.not_isSome_iff_eq_none]

/-- What a push does to the groups, whatever the index looks like inside. -/
theorem WF.toList_groups_push {m : DiagnosticsByLocation} (h : m.WF) (d : Diagnostic) :
    (m.push d).groups.toList =
      if d.location ∈ m.locations then
        m.groups.toList.map fun g =>
          if g.location = d.location then { g with items := g.items.push d } else g
      else m.groups.toList ++ [ofPair (d.location, [d])] := by
  unfold DiagnosticsByLocation.push
  split
  · next slot e =>
    obtain ⟨g, hg, hgd⟩ := (h.index_iff _ _).1 e
    rw [if_pos (h.mem_locations_iff.2 ⟨slot, e⟩), Array.toList_modify]
    -- the slot is that of the one group at the location
    refine modify_eq_map fun i g' hg' => ?_
    rw [Array.getElem?_toList] at hg'
    constructor
    · intro hloc
      have hi := (h.index_iff d.location.raw i).2 ⟨g', hg', congrArg Location.raw hloc⟩
      rw [e] at hi
      exact (Option.some.inj hi).symm
    · rintro rfl
      rw [hg] at hg'
      cases hg'
      exact Location.raw_injective hgd
  · next e =>
    rw [if_neg (h.notMem_locations_iff.2 e), Array.toList_push]
    rfl

/-- **The groups of the map are the groups of what was pushed.** -/
theorem groups_ofList (ds : List Diagnostic) :
    (ofList ds).groups.toList = (Grouping.groups Diagnostic.location ds).map ofPair := by
  induction ds using List.reverseRecOn with
  | nil => rfl
  | append_singleton ds d ih =>
    have hlocations : (ofList ds).locations = Grouping.keys Diagnostic.location ds := by
      rw [locations, ih, List.map_map, ← Grouping.map_fst_groups]
      rfl
    rw [ofList_append, List.foldl_cons, List.foldl_nil, (WF.ofList ds).toList_groups_push,
      hlocations, Grouping.groups_append_singleton, ih]
    split
    · rw [List.map_map, List.map_map]
      refine List.map_congr_left fun g _ => ?_
      by_cases e : g.1 = d.location <;> simp [ofPair, e]
    · rw [List.map_append, List.map_singleton]

theorem locations_ofList (ds : List Diagnostic) :
    (ofList ds).locations = Grouping.keys Diagnostic.location ds := by
  rw [locations, groups_ofList, List.map_map, ← Grouping.map_fst_groups]
  rfl

theorem diagnostics_ofList (ds : List Diagnostic) :
    (ofList ds).diagnostics = (Grouping.groups Diagnostic.location ds).flatMap Prod.snd := by
  rw [diagnostics, groups_ofList, List.flatMap_map]
  rfl

/-- The map holds what was pushed, each diagnostic as often as it was. -/
theorem diagnostics_ofList_perm (ds : List Diagnostic) : (ofList ds).diagnostics.Perm ds := by
  rw [diagnostics_ofList]
  exact Grouping.flatMap_snd_groups_perm ..

theorem mem_diagnostics_ofList {d : Diagnostic} {ds : List Diagnostic} :
    d ∈ (ofList ds).diagnostics ↔ d ∈ ds :=
  (diagnostics_ofList_perm ds).mem_iff

/-- A group has diagnostics, and all of them are at its location. -/
theorem mem_groups_ofList {g : LocationGroup} {ds : List Diagnostic}
    (h : g ∈ (ofList ds).groups.toList) :
    g.items.toList ≠ [] ∧ ∀ d ∈ g.items.toList, d.location = g.location := by
  rw [groups_ofList] at h
  obtain ⟨g', hg', rfl⟩ := List.mem_map.1 h
  obtain ⟨k, hk, rfl⟩ := List.mem_map.1 hg'
  obtain ⟨d, hd, hdk⟩ := (Grouping.mem_keys _).1 hk
  refine ⟨List.ne_nil_of_mem (a := d) ?_, fun d' hd' => ?_⟩
  · exact List.mem_filter.2 ⟨hd, decide_eq_true hdk⟩
  · exact of_decide_eq_true (List.mem_filter.1 hd').2

/-! ## Looking up a location -/

theorem get?_ofList (ds : List Diagnostic) (raw : String) :
    (ofList ds).get? raw =
      if ⟨raw⟩ ∈ Grouping.keys Diagnostic.location ds then
        some (Grouping.withKey Diagnostic.location ⟨raw⟩ ds).toArray
      else none := by
  rw [← locations_ofList, get?]
  cases e : (ofList ds).index[raw]? with
  | some slot =>
    obtain ⟨g, hg, hraw⟩ := ((WF.ofList ds).index_iff raw slot).1 e
    have hmem : g ∈ (ofList ds).groups.toList :=
      Array.mem_toList_iff.2 (Array.mem_of_getElem? hg)
    have hlocation : g.location = ⟨raw⟩ := by rw [← hraw]
    have hitems : g.items = (Grouping.withKey Diagnostic.location ⟨raw⟩ ds).toArray := by
      rw [groups_ofList] at hmem
      obtain ⟨g', hg', rfl⟩ := List.mem_map.1 hmem
      obtain ⟨k, -, rfl⟩ := List.mem_map.1 hg'
      have hk : k = ⟨raw⟩ := hlocation
      rw [hk]
      rfl
    have hin : ⟨raw⟩ ∈ (ofList ds).locations := List.mem_map.2 ⟨g, hmem, hlocation⟩
    rw [if_pos hin, ← hitems]
    show (ofList ds).groups[slot]?.map LocationGroup.items = some g.items
    rw [hg, Option.map_some]
  | none =>
    have hnot : ⟨raw⟩ ∉ (ofList ds).locations := (WF.ofList ds).notMem_locations_iff.2 e
    rw [if_neg hnot]
    rfl

/-- The list of a location, given by its text; empty for a location without diagnostics. -/
def itemsAt (m : DiagnosticsByLocation) (raw : String) : List Diagnostic :=
  ((m.get? raw).map Array.toList).getD []

theorem itemsAt_ofList (ds : List Diagnostic) (raw : String) :
    (ofList ds).itemsAt raw = Grouping.withKey Diagnostic.location ⟨raw⟩ ds := by
  rw [itemsAt, get?_ofList]
  split
  · rfl
  · next h => exact ((Grouping.withKey_eq_nil_iff _).2 h).symm

/-! ## Grouping again -/

/-- The diagnostics of a map, each rewritten at its location, are grouped as they stand. -/
theorem groups_map_diagnostics (ds : List Diagnostic) {f : Diagnostic → Diagnostic}
    (hf : ∀ d, (f d).location = d.location) :
    Grouping.groups Diagnostic.location ((ofList ds).diagnostics.map f) =
      (Grouping.groups Diagnostic.location ds).map fun g => (g.1, g.2.map f) := by
  have hflat : (ofList ds).diagnostics.map f =
      ((Grouping.groups Diagnostic.location ds).map fun g => (g.1, g.2.map f)).flatMap
        Prod.snd := by
    rw [diagnostics_ofList, List.map_flatMap, List.flatMap_map]
  rw [hflat]
  apply Grouping.groups_flatMap_snd
  · rw [List.map_map]
    exact Grouping.nodup_map_fst_groups ..
  · intro g hg
    obtain ⟨g', hg', rfl⟩ := List.mem_map.1 hg
    have hne := Grouping.ne_nil_of_mem_groups _ hg'
    exact fun h => hne (List.map_eq_nil_iff.1 h)
  · intro g hg d hd
    obtain ⟨g', hg', rfl⟩ := List.mem_map.1 hg
    obtain ⟨d', hd', rfl⟩ := List.mem_map.1 hd
    rw [hf]
    exact Grouping.key_eq_of_mem_groups _ hg' hd'

theorem diagnostics_ofList_map (ds : List Diagnostic) {f : Diagnostic → Diagnostic}
    (hf : ∀ d, (f d).location = d.location) :
    (ofList ((ofList ds).diagnostics.map f)).diagnostics = (ofList ds).diagnostics.map f := by
  rw [diagnostics_ofList, groups_map_diagnostics ds hf, diagnostics_ofList, List.map_flatMap,
    List.flatMap_map]

theorem locations_ofList_map (ds : List Diagnostic) {f : Diagnostic → Diagnostic}
    (hf : ∀ d, (f d).location = d.location) :
    (ofList ((ofList ds).diagnostics.map f)).locations = (ofList ds).locations := by
  rw [locations_ofList, locations_ofList, ← Grouping.map_fst_groups,
    groups_map_diagnostics ds hf, List.map_map, ← Grouping.map_fst_groups]
  rfl

/-! ## The groups determine the map -/

/-- The index over locations that stand in the given order. -/
def indexOf (locations : List Location) : Std.HashMap String Nat :=
  locations.zipIdx.foldl (fun index (location, slot) => index.insert location.raw slot) ∅

theorem indexOf_append_singleton (locations : List Location) (location : Location) :
    indexOf (locations ++ [location]) =
      (indexOf locations).insert location.raw locations.length := by
  rw [indexOf, List.zipIdx_append, List.foldl_append, Nat.zero_add]
  rfl

theorem WF.index_push {m : DiagnosticsByLocation} (h : m.WF) (d : Diagnostic) :
    (m.push d).index =
      if d.location ∈ m.locations then m.index
      else m.index.insert d.location.raw m.locations.length := by
  unfold DiagnosticsByLocation.push
  split
  · next slot e => rw [if_pos (h.mem_locations_iff.2 ⟨slot, e⟩)]
  · next e =>
    rw [if_neg (h.notMem_locations_iff.2 e), locations, List.length_map, Array.length_toList]

/-- The index holds the locations in their order, however the pushes came about. -/
theorem index_ofList (ds : List Diagnostic) :
    (ofList ds).index = indexOf (Grouping.keys Diagnostic.location ds) := by
  induction ds using List.reverseRecOn with
  | nil => rfl
  | append_singleton ds d ih =>
    rw [ofList_append, List.foldl_cons, List.foldl_nil, (WF.ofList ds).index_push,
      locations_ofList, Grouping.keys_append_singleton, ih]
    split
    · rfl
    · rw [indexOf_append_singleton]

theorem ofList_eq_of_groups_eq {xs ys : List Diagnostic}
    (h : Grouping.groups Diagnostic.location xs = Grouping.groups Diagnostic.location ys) :
    ofList xs = ofList ys := by
  have hgroups : (ofList xs).groups = (ofList ys).groups := by
    rw [← Array.toList_inj, groups_ofList, groups_ofList, h]
  have hindex : (ofList xs).index = (ofList ys).index := by
    rw [index_ofList, index_ofList, Grouping.keys_eq_of_groups_eq _ h]
  cases hx : ofList xs
  cases hy : ofList ys
  simp_all

/-- A map is the grouping of its own diagnostics. -/
theorem ofList_diagnostics (ds : List Diagnostic) : ofList (ofList ds).diagnostics = ofList ds := by
  apply ofList_eq_of_groups_eq
  rw [diagnostics_ofList, Grouping.groups_flatMap_snd_groups]

/-! ## What a reader of the map relies on -/

theorem hasErrors_iff {m : DiagnosticsByLocation} :
    m.hasErrors = true ↔ ∃ d ∈ m.diagnostics, d.severity = .error := by
  rw [hasErrors, List.any_eq_true]
  constructor
  · rintro ⟨d, hd, he⟩
    exact ⟨d, hd, Severity.isError_iff.1 he⟩
  · rintro ⟨d, hd, he⟩
    exact ⟨d, hd, Severity.isError_iff.2 he⟩

theorem WF.slot_lt {m : DiagnosticsByLocation} (h : m.WF) {raw : String} {slot : Nat}
    (hslot : m.index[raw]? = some slot) : slot < m.groups.size := by
  obtain ⟨g, hg, -⟩ := (h.index_iff raw slot).1 hslot
  obtain ⟨hlt, -⟩ := Array.getElem?_eq_some_iff.1 hg
  exact hlt

/-- **The map is the pushed sequence, grouped.** Its locations stand in the order in which they first
occur, the index holds the slot of each of them and nothing else, and every text finds what was pushed
at it, in order. -/
theorem ofList_grouped (ds : List Diagnostic) :
    let m := ofList ds
    (∀ location, location ∈ m.locations ↔ ∃ d ∈ ds, d.location = location) ∧
      m.locations.Nodup ∧
      (m.locations.Pairwise fun l l' =>
        (ds.map Diagnostic.location).idxOf l < (ds.map Diagnostic.location).idxOf l') ∧
      (∀ g ∈ m.groups, g.items ≠ #[] ∧ ∀ d ∈ g.items, d.location = g.location) ∧
      (∀ (raw : String) (slot : Nat), m.index[raw]? = some slot ↔
        ∃ g : LocationGroup, m.groups[slot]? = some g ∧ g.location.raw = raw) ∧
      (∀ (raw : String) (slot : Nat), m.index[raw]? = some slot → slot < m.groups.size) ∧
      (∀ raw, m.get? raw =
        let items := ds.filter fun d => d.location.raw = raw
        if items = [] then none else some items.toArray) ∧
      m.totalCount = ds.length ∧
      m.diagnostics.Perm ds ∧
      (m.hasErrors = true ↔ ∃ d ∈ ds, d.severity = .error) := by
  intro m
  have hlocations : m.locations = Grouping.keys Diagnostic.location ds := locations_ofList ds
  have hperm : m.diagnostics.Perm ds := diagnostics_ofList_perm ds
  have hwf : m.WF := WF.ofList ds
  refine ⟨?_, ?_, ?_, ?_, hwf.index_iff, fun raw slot h => hwf.slot_lt h, ?_, ?_, hperm, ?_⟩
  · intro location
    rw [hlocations]
    exact Grouping.mem_keys _
  · rw [hlocations]
    exact Grouping.nodup_keys _ ds
  · rw [hlocations]
    exact Grouping.pairwise_idxOf_keys _ ds
  · intro g hg
    obtain ⟨hne, hitems⟩ := mem_groups_ofList (Array.mem_toList_iff.2 hg)
    refine ⟨fun he => hne (by rw [he]), fun d hd => hitems d (Array.mem_toList_iff.2 hd)⟩
  · intro raw
    have hwith : Grouping.withKey Diagnostic.location ⟨raw⟩ ds =
        ds.filter fun d => d.location.raw = raw := by
      refine List.filter_congr fun d _ => ?_
      exact decide_eq_decide.2 ⟨fun h => by rw [h], fun h => by rw [← h]⟩
    dsimp only
    rw [get?_ofList, ← hwith]
    by_cases h : ⟨raw⟩ ∈ Grouping.keys Diagnostic.location ds
    · rw [if_pos h, if_neg fun hnil => (Grouping.withKey_eq_nil_iff _).1 hnil h]
    · rw [if_neg h, if_pos ((Grouping.withKey_eq_nil_iff _).2 h)]
  · rw [totalCount_eq_length, hperm.length_eq]
  · rw [hasErrors_iff]
    constructor
    · rintro ⟨d, hd, he⟩
      exact ⟨d, hperm.mem_iff.1 hd, he⟩
    · rintro ⟨d, hd, he⟩
      exact ⟨d, hperm.mem_iff.2 hd, he⟩

end DiagnosticsByLocation

end BuildDiagnostics
