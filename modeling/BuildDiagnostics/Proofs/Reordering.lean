import Mathlib.Logic.Relation
import BuildDiagnostics.Proofs.ByLocation

/-!
# Reports in another order

A grouping keeps of a list the order in which its keys first occur and the elements of each key
(`Grouping.groups_eq_iff`), and forgets the rest. So two neighbours with different keys may change
places unless both are the first of their keys (`Grouping.Swap`). No other changes go unseen: lists
with the same groups come from each other by such exchanges (`Grouping.groups_eq_iff_swaps`), as
every list comes to its groups, laid out one after the other.

For the grouping by location, the index has no say in the equality of two maps (`WF.beq_iff`), so
`ofList_beq_ofList_iff` carries this over to sequences of diagnostics.
-/

namespace BuildDiagnostics

open Relation (ReflTransGen)

namespace Grouping

variable {α κ : Type} {key : α → κ} {xs ys : List α}

/-! ## Exchanges of neighbours -/

/-- Two neighbours with different keys change places. One of the keys has occurred before them. -/
inductive Swap (key : α → κ) : List α → List α → Prop
  | adjacent (front back : List α) (x y : α) (hne : key x ≠ key y)
      (hseen : key x ∈ front.map key ∨ key y ∈ front.map key) :
      Swap key (front ++ x :: y :: back) (front ++ y :: x :: back)

theorem Swap.symm (h : Swap key xs ys) : Swap key ys xs := by
  obtain ⟨front, back, x, y, hne, hseen⟩ := h
  exact .adjacent front back y x hne.symm hseen.symm

instance : Std.Symm (Swap key) := ⟨fun _ _ h => h.symm⟩

theorem Swap.append_right (h : Swap key xs ys) (zs : List α) :
    Swap key (xs ++ zs) (ys ++ zs) := by
  obtain ⟨front, back, x, y, hne, hseen⟩ := h
  simpa using Swap.adjacent front (back ++ zs) x y hne hseen

theorem swaps_append_right (h : ReflTransGen (Swap key) xs ys) (zs : List α) :
    ReflTransGen (Swap key) (xs ++ zs) (ys ++ zs) :=
  ReflTransGen.lift (· ++ zs) (fun _ _ hs => hs.append_right zs) _ _ h

/-- An element whose key occurred before moves to the left past elements of other keys. -/
theorem swaps_move_left {front zs : List α} {x : α} (hx : key x ∈ front.map key)
    (hzs : ∀ z ∈ zs, key z ≠ key x) :
    ReflTransGen (Swap key) (front ++ zs ++ [x]) (front ++ x :: zs) := by
  induction zs generalizing front with
  | nil => rw [List.append_nil]
  | cons z zs ih =>
    have hz : key z ≠ key x := hzs z List.mem_cons_self
    have hseen : key x ∈ (front ++ [z]).map key := by
      rw [List.map_append]
      exact List.mem_append_left _ hx
    have hrest := ih hseen (fun z' hz' => hzs z' (List.mem_cons_of_mem z hz'))
    simp only [List.append_assoc, List.singleton_append] at hrest
    rw [List.append_assoc]
    exact hrest.tail (.adjacent front zs z x hz (.inr hx))

variable [DecidableEq κ]

/-! ## What the groups keep -/

theorem groups_eq_iff :
    groups key xs = groups key ys ↔
      keys key xs = keys key ys ∧ ∀ k, withKey key k xs = withKey key k ys := by
  constructor
  · intro h
    exact ⟨keys_eq_of_groups_eq key h, withKey_eq_of_groups_eq key h⟩
  · rintro ⟨hkeys, hwith⟩
    rw [groups, groups, hkeys]
    exact List.map_congr_left fun k _ => by rw [hwith]

/-- Keys stand in the order of their first elements. A key without elements is behind all others. -/
theorem idxOf_keys_lt_iff (xs : List α) (k k' : κ) :
    (keys key xs).idxOf k < (keys key xs).idxOf k' ↔
      (xs.map key).idxOf k < (xs.map key).idxOf k' := by
  induction xs using List.reverseRecOn with
  | nil => rfl
  | append_singleton xs x ih =>
    have hmem (k : κ) : k ∈ keys key xs ↔ k ∈ xs.map key := List.mem_eraseDups
    have hlt (k : κ) (hk : k ∈ xs.map key) := List.idxOf_lt_length_of_mem hk
    have hlt' (k : κ) (hk : k ∈ xs.map key) := List.idxOf_lt_length_of_mem ((hmem k).2 hk)
    rw [keys_append_singleton, List.map_append, List.map_singleton]
    by_cases hx : key x ∈ xs.map key
    · rw [if_pos ((hmem _).2 hx)]
      grind
    · rw [if_neg ((hmem _).not.2 hx)]
      grind

/-- Between lists with the same elements of each key, the keys keep their order when the first
element of no key moves past that of another one. -/
theorem keys_eq_iff_idxOf_lt (h : ∀ k, withKey key k xs = withKey key k ys) :
    keys key xs = keys key ys ↔
      ∀ k k', (xs.map key).idxOf k < (xs.map key).idxOf k' →
        (ys.map key).idxOf k < (ys.map key).idxOf k' := by
  constructor
  · intro hkeys k k' hlt
    rwa [← idxOf_keys_lt_iff, ← hkeys, idxOf_keys_lt_iff]
  · intro horder
    have hmem (k : κ) : k ∈ keys key xs ↔ k ∈ keys key ys := by
      rw [← not_iff_not, ← withKey_eq_nil_iff, h, withKey_eq_nil_iff]
    have hperm : (keys key xs).Perm (keys key ys) :=
      (List.perm_ext_iff_of_nodup (nodup_keys key xs) (nodup_keys key ys)).2 hmem
    have hxs := (pairwise_idxOf_keys key xs).imp fun {k k'} hlt => horder k k' hlt
    refine hperm.eq_of_pairwise (fun k k' _ _ hlt hgt => ?_) hxs (pairwise_idxOf_keys key ys)
    exact absurd hgt (Nat.lt_asymm hlt)

/-! ## What the groups forget -/

theorem keys_swap {front : List α} {x : α} (hx : key x ∈ keys key front) (y : α) :
    keys key (front ++ [x] ++ [y]) = keys key (front ++ [y] ++ [x]) := by
  rw [keys_append_singleton, keys_append_singleton, if_pos hx, keys_append_singleton,
    keys_append_singleton]
  split
  · rfl
  · rw [if_pos (List.mem_append_left _ hx)]

theorem Swap.groups_eq (h : Swap key xs ys) : groups key xs = groups key ys := by
  obtain ⟨front, back, x, y, hne, hseen⟩ := h
  have hsplit (x y : α) : front ++ x :: y :: back = (front ++ [x] ++ [y]) ++ back := by simp
  have hkeys : keys key (front ++ [x] ++ [y]) = keys key (front ++ [y] ++ [x]) := by
    rcases hseen with hx | hy
    · exact keys_swap (List.mem_eraseDups.2 hx) y
    · exact (keys_swap (List.mem_eraseDups.2 hy) x).symm
  have hwith (k : κ) :
      withKey key k (front ++ [x] ++ [y]) = withKey key k (front ++ [y] ++ [x]) := by
    by_cases hx : key x = k <;> by_cases hy : key y = k <;> simp_all [withKey]
  rw [hsplit, hsplit, groups_eq_iff, keys_append key (front ++ [x] ++ [y]), hkeys, ← keys_append]
  exact ⟨rfl, fun k => by rw [withKey_append, hwith, ← withKey_append]⟩

/-- An element at the end moves back into its group. -/
theorem swaps_into_group {gs : List (κ × List α)} (hn : (gs.map Prod.fst).Nodup)
    (hne : ∀ g ∈ gs, g.2 ≠ []) (hk : ∀ g ∈ gs, ∀ z ∈ g.2, key z = g.1) {x : α}
    (hx : key x ∈ gs.map Prod.fst) (front : List α) :
    ReflTransGen (Swap key) (front ++ gs.flatMap Prod.snd ++ [x])
      (front ++
        (gs.map fun g => if g.1 = key x then (g.1, g.2 ++ [x]) else g).flatMap Prod.snd) := by
  induction gs generalizing front with
  | nil => cases hx
  | cons g gs ih =>
    rw [List.map_cons, List.nodup_cons] at hn
    have hk' (g') (hg' : g' ∈ gs) := hk g' (List.mem_cons_of_mem g hg')
    rw [List.flatMap_cons, List.map_cons, List.flatMap_cons, ← List.append_assoc front]
    by_cases hg : g.1 = key x
    · have hother : ∀ g' ∈ gs, g'.1 ≠ key x := fun g' hg' e =>
        hn.1 (hg.trans e.symm ▸ List.mem_map_of_mem hg')
      have hrest : (gs.map fun g => if g.1 = key x then (g.1, g.2 ++ [x]) else g) = gs :=
        (List.map_congr_left fun g' hg' => if_neg (hother g' hg')).trans (List.map_id _)
      have hseen : key x ∈ (front ++ g.2).map key := by
        obtain ⟨z, hz⟩ := List.exists_mem_of_ne_nil _ (hne g List.mem_cons_self)
        rw [← hg, ← hk g List.mem_cons_self z hz]
        exact List.mem_map_of_mem (List.mem_append_right _ hz)
      have hpast : ∀ z ∈ gs.flatMap Prod.snd, key z ≠ key x := by
        intro z hz
        obtain ⟨g', hg', hz⟩ := List.mem_flatMap.1 hz
        rw [hk' g' hg' z hz]
        exact hother g' hg'
      rw [hrest, if_pos hg]
      simpa using swaps_move_left hseen hpast
    · have hx' : key x ∈ gs.map Prod.fst := (List.mem_cons.1 hx).resolve_left (Ne.symm hg)
      rw [if_neg hg, ← List.append_assoc front]
      exact ih hn.2 (fun g' hg' => hne g' (List.mem_cons_of_mem g hg')) hk' hx' (front ++ g.2)

/-- Every list comes to its groups, laid out one after the other. -/
theorem swaps_groups (xs : List α) :
    ReflTransGen (Swap key) xs ((groups key xs).flatMap Prod.snd) := by
  induction xs using List.reverseRecOn with
  | nil => exact .refl
  | append_singleton xs x ih =>
    refine (swaps_append_right ih [x]).trans ?_
    rw [groups_append_singleton]
    split
    · next hx =>
      rw [← map_fst_groups] at hx
      exact swaps_into_group (nodup_map_fst_groups key xs) (fun g hg => ne_nil_of_mem_groups key hg)
        (fun g hg z hz => key_eq_of_mem_groups key hg hz) hx []
    · rw [List.flatMap_append, List.flatMap_singleton]

/-- **Two lists have the same groups exactly when one comes from the other by exchanges.** -/
theorem groups_eq_iff_swaps : groups key xs = groups key ys ↔ ReflTransGen (Swap key) xs ys := by
  constructor
  · intro h
    have hback : ReflTransGen (Swap key) ((groups key ys).flatMap Prod.snd) ys :=
      symm_of (ReflTransGen (Swap key)) (swaps_groups ys)
    exact (swaps_groups xs).trans (h ▸ hback)
  · intro h
    induction h with
    | refl => rfl
    | tail _ hs ih => exact ih.trans hs.groups_eq

end Grouping

namespace DiagnosticsByLocation

/-- Derived equality compares the indexes too, which hold nothing that the groups do not say. -/
theorem WF.beq_iff {a b : DiagnosticsByLocation} (ha : a.WF) (hb : b.WF) :
    (a == b) = true ↔ a.groups = b.groups := by
  have hdef : (a == b) = (a.groups == b.groups && a.index.size == b.index.size
      && a.index.all fun raw slot => b.index[raw]? == some slot) := rfl
  rw [hdef, Bool.and_eq_true, Bool.and_eq_true, beq_iff_eq, beq_iff_eq]
  constructor
  · exact fun h => h.1.1
  · intro h
    have hindex (raw : String) : a.index[raw]? = b.index[raw]? :=
      Option.ext fun slot => by rw [ha.index_iff, hb.index_iff, h]
    refine ⟨⟨h, (Std.HashMap.Equiv.of_forall_getElem?_eq hindex).size_eq⟩, ?_⟩
    rw [Std.HashMap.all_eq_true_iff_forall_mem_getElem]
    intro raw hraw
    rw [← hindex, Std.HashMap.getElem?_eq_some_getElem hraw, beq_self_eq_true]

open LocationGroup (ofPair)

theorem ofPair_injective : Function.Injective ofPair := by
  rintro ⟨location, items⟩ ⟨location', items'⟩ h
  simpa [ofPair] using h

theorem beq_ofList_iff {xs ys : List Diagnostic} :
    (ofList xs == ofList ys) = true ↔
      Grouping.groups Diagnostic.location xs = Grouping.groups Diagnostic.location ys := by
  rw [(WF.ofList xs).beq_iff (WF.ofList ys), ← Array.toList_inj, groups_ofList, groups_ofList]
  exact (List.map_injective_iff.2 ofPair_injective).eq_iff

/-- **What a map keeps of the order of its diagnostics.** Two sequences give equal maps exactly when
their locations are first seen in the same order and each location has the same reports in the same
order; a map is the grouping of its own diagnostics. So among sequences that keep the order of each
location's reports, exactly those give the same map in which no location's first report moves past
that of another one. They come from each other by exchanges of neighbours. -/
theorem ofList_beq_ofList_iff (xs ys : List Diagnostic) :
    ((ofList xs == ofList ys) = true ↔
        (xs.map Diagnostic.location).eraseDups = (ys.map Diagnostic.location).eraseDups ∧
          ∀ location : Location,
            xs.filter (·.location = location) = ys.filter (·.location = location)) ∧
      ((ofList xs == ofList ys) = true ↔ ofList xs = ofList ys) ∧
      ofList (ofList xs).diagnostics = ofList xs ∧
      ((∀ location : Location,
          xs.filter (·.location = location) = ys.filter (·.location = location)) →
        ((ofList xs == ofList ys) = true ↔
          ∀ l l', (xs.map Diagnostic.location).idxOf l < (xs.map Diagnostic.location).idxOf l' →
            (ys.map Diagnostic.location).idxOf l < (ys.map Diagnostic.location).idxOf l')) ∧
      ((ofList xs == ofList ys) = true ↔
        ReflTransGen (Grouping.Swap Diagnostic.location) xs ys) := by
  have hiff : (ofList xs == ofList ys) = true ↔
      Grouping.keys Diagnostic.location xs = Grouping.keys Diagnostic.location ys ∧
        ∀ location, Grouping.withKey Diagnostic.location location xs =
          Grouping.withKey Diagnostic.location location ys :=
    beq_ofList_iff.trans Grouping.groups_eq_iff
  refine ⟨hiff, ⟨fun h => ofList_eq_of_groups_eq (beq_ofList_iff.1 h), ?_⟩, ofList_diagnostics xs,
    ?_, beq_ofList_iff.trans Grouping.groups_eq_iff_swaps⟩
  · intro h
    rw [(WF.ofList xs).beq_iff (WF.ofList ys), h]
  · intro hsame
    rw [hiff, ← Grouping.keys_eq_iff_idxOf_lt hsame]
    exact and_iff_left hsame

def sampleReport (raw message : String) : Diagnostic :=
  .ofWidth ⟨raw⟩ .error message 0 0 0

theorem ofList_beq_ofList_iff_sampleReport :
    let b₁ := sampleReport "b" "one"
    let a := sampleReport "a" "two"
    let b₂ := sampleReport "b" "three"
    (ofList [b₁, a, b₂] == ofList [b₁, b₂, a]) = true ∧
      (ofList [b₁, a, b₂] == ofList [a, b₁, b₂]) = false := by
  intro b₁ a b₂
  constructor
  · obtain ⟨-, -, -, -, hswaps⟩ := ofList_beq_ofList_iff [b₁, a, b₂] [b₁, b₂, a]
    exact hswaps.2 (.single (.adjacent [b₁] [] a b₂ (by decide) (.inr (by decide))))
  · obtain ⟨hiff, -⟩ := ofList_beq_ofList_iff [b₁, a, b₂] [a, b₁, b₂]
    rw [Bool.eq_false_iff]
    intro h
    have hlocations := (hiff.1 h).1
    revert hlocations
    decide

end DiagnosticsByLocation

end BuildDiagnostics
