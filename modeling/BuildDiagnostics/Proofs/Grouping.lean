import Mathlib.Data.List.Basic
import Mathlib.Data.List.Induction
import Mathlib.Data.List.TakeWhile

/-!
# Grouping a list by a key

`groups key xs` puts the elements of `xs` under their keys: the keys stand in the order in which they
first occur, the elements of one key in the order of the list. Two facts carry what is built on it.
One more element either joins the group of its key or opens a group at the end
(`groups_append_singleton`), which is what a find-or-append loop does; and groups laid out one after
the other are grouped into themselves again (`groups_flatMap_snd`). Laying them out gives the list back
exactly when no key is interrupted by another one (`flatMap_snd_groups_eq_iff`).
-/

namespace BuildDiagnostics.Grouping

variable {α κ : Type} [DecidableEq κ] (key : α → κ)

/-- The keys of a list, each once, by first occurrence. -/
def keys (xs : List α) : List κ :=
  (xs.map key).eraseDups

/-- The elements with the key `k`, in order. -/
def withKey (k : κ) (xs : List α) : List α :=
  xs.filter (key · = k)

/-- The keys of a list, each with the elements that have it. -/
def groups (xs : List α) : List (κ × List α) :=
  (keys key xs).map fun k => (k, withKey key k xs)

@[simp] theorem keys_nil : keys key [] = [] := rfl

theorem mem_keys {k : κ} {xs : List α} : k ∈ keys key xs ↔ ∃ x ∈ xs, key x = k := by
  rw [keys, List.mem_eraseDups, List.mem_map]

@[simp] theorem map_fst_groups (xs : List α) : (groups key xs).map Prod.fst = keys key xs := by
  simp [groups, Function.comp_def]

theorem withKey_eq_nil_iff {k : κ} {xs : List α} : withKey key k xs = [] ↔ k ∉ keys key xs := by
  rw [withKey, List.filter_eq_nil_iff, mem_keys]
  constructor
  · rintro h ⟨x, hx, e⟩
    exact h x hx (decide_eq_true e)
  · intro h x hx e
    exact h ⟨x, hx, of_decide_eq_true e⟩

/-! ## One more element -/

theorem keys_append_singleton (xs : List α) (x : α) :
    keys key (xs ++ [x]) =
      if key x ∈ keys key xs then keys key xs else keys key xs ++ [key x] := by
  rw [keys, List.map_append, List.eraseDups_append, List.map_singleton, List.removeAll]
  by_cases h : key x ∈ keys key xs
  · have hm : key x ∈ xs.map key := List.mem_eraseDups.1 h
    rw [if_pos h, List.filter_cons_of_neg (by simpa using hm)]
    exact List.append_nil _
  · have hm : key x ∉ xs.map key := fun hx => h (List.mem_eraseDups.2 hx)
    rw [if_neg h, List.filter_cons_of_pos (by simpa using hm)]
    rfl

theorem withKey_append (k : κ) (xs ys : List α) :
    withKey key k (xs ++ ys) = withKey key k xs ++ withKey key k ys :=
  List.filter_append ..

theorem nodup_keys (xs : List α) : (keys key xs).Nodup := by
  induction xs using List.reverseRecOn with
  | nil => exact List.nodup_nil
  | append_singleton xs x ih =>
    rw [keys_append_singleton]
    split
    · exact ih
    · next h =>
      refine List.nodup_append.2 ⟨ih, List.pairwise_singleton _ _, ?_⟩
      rintro k hk _ hx rfl
      exact h (List.mem_singleton.1 hx ▸ hk)

theorem nodup_map_fst_groups (xs : List α) : ((groups key xs).map Prod.fst).Nodup := by
  rw [map_fst_groups]
  exact nodup_keys key xs

/-- The keys stand in the order in which they first occur. -/
theorem pairwise_idxOf_keys (xs : List α) :
    (keys key xs).Pairwise fun k k' => (xs.map key).idxOf k < (xs.map key).idxOf k' := by
  induction xs using List.reverseRecOn with
  | nil => exact List.Pairwise.nil
  | append_singleton xs x ih =>
    have hold : ∀ k ∈ keys key xs, ((xs ++ [x]).map key).idxOf k = (xs.map key).idxOf k := by
      intro k hk
      obtain ⟨y, hy, rfl⟩ := (mem_keys key).1 hk
      rw [List.map_append, List.idxOf_append_of_mem (List.mem_map_of_mem hy)]
    have hxs : (keys key xs).Pairwise fun k k' =>
        ((xs ++ [x]).map key).idxOf k < ((xs ++ [x]).map key).idxOf k' := by
      refine ih.imp_of_mem fun {k k'} hk hk' hlt => ?_
      rw [hold k hk, hold k' hk']
      exact hlt
    rw [keys_append_singleton]
    split
    · exact hxs
    · next hx =>
      refine List.pairwise_append.2 ⟨hxs, List.pairwise_singleton _ _, ?_⟩
      intro k hk k' hk'
      obtain ⟨y, hy, hyk⟩ := (mem_keys key).1 hk
      have hnew : key x ∉ xs.map key := fun hmem => hx (List.mem_eraseDups.2 hmem)
      have hlt : (xs.map key).idxOf k < (xs.map key).length :=
        List.idxOf_lt_length_of_mem (hyk ▸ List.mem_map_of_mem hy)
      rw [List.mem_singleton.1 hk', hold k hk, List.map_append, List.idxOf_append_of_notMem hnew]
      omega

/-- A new element joins the group of its key, or opens one at the end. -/
theorem groups_append_singleton (xs : List α) (x : α) :
    groups key (xs ++ [x]) =
      if key x ∈ keys key xs then
        (groups key xs).map fun g => if g.1 = key x then (g.1, g.2 ++ [x]) else g
      else groups key xs ++ [(key x, [x])] := by
  have hg (k : κ) : withKey key k (xs ++ [x]) =
      if k = key x then withKey key k xs ++ [x] else withKey key k xs := by
    rw [withKey_append]
    split
    · next h => simp [withKey, h]
    · next h => simp [withKey, Ne.symm h]
  rw [groups, keys_append_singleton]
  split
  · rw [groups, List.map_map]
    refine List.map_congr_left fun k _ => ?_
    rw [hg]
    simp only [Function.comp_apply]
    split <;> rfl
  · next h =>
    rw [List.map_append, List.map_singleton, groups]
    congr 1
    · refine List.map_congr_left fun k hk => ?_
      have hk' : k ≠ key x := fun e => h (e ▸ hk)
      rw [hg, if_neg hk']
    · rw [hg, if_pos rfl, (withKey_eq_nil_iff key).2 h, List.nil_append]

/-! ## Nothing is lost -/

/-- The elements with one of some distinct keys are, up to order, those of each key in turn. -/
theorem flatMap_withKey_perm {ks : List κ} (hks : ks.Nodup) (xs : List α) :
    (ks.flatMap fun k => withKey key k xs).Perm (xs.filter (key · ∈ ks)) := by
  induction ks with
  | nil => simp
  | cons k ks ih =>
    obtain ⟨hk, hks⟩ := List.nodup_cons.1 hks
    have hwith : (xs.filter (key · ∈ k :: ks)).filter (key · = k) = withKey key k xs := by
      rw [List.filter_filter]
      refine List.filter_congr fun x _ => ?_
      by_cases e : key x = k <;> simp [e]
    have hrest : (xs.filter (key · ∈ k :: ks)).filter (fun x => !decide (key x = k)) =
        xs.filter (key · ∈ ks) := by
      rw [List.filter_filter]
      refine List.filter_congr fun x _ => ?_
      by_cases e : key x = k
      · simp [e, hk]
      · simp [e]
    have hsplit := List.filter_append_perm (key · = k) (xs.filter (key · ∈ k :: ks))
    rw [hwith, hrest] at hsplit
    rw [List.flatMap_cons]
    exact ((ih hks).append_left _).trans hsplit

/-- The groups hold the elements of the list, each as often as the list does. -/
theorem flatMap_snd_groups_perm (xs : List α) : ((groups key xs).flatMap Prod.snd).Perm xs := by
  have hall : xs.filter (key · ∈ keys key xs) = xs :=
    List.filter_eq_self.2 fun x hx => decide_eq_true ((mem_keys key).2 ⟨x, hx, rfl⟩)
  have h := flatMap_withKey_perm key (nodup_keys key xs) xs
  rw [hall] at h
  rw [groups, List.flatMap_map]
  exact h

/-! ## Grouping what is grouped -/

theorem keys_append (xs ys : List α) :
    keys key (xs ++ ys) = keys key xs ++ (keys key ys).filter (· ∉ keys key xs) := by
  induction ys using List.reverseRecOn with
  | nil => simp
  | append_singleton ys y ih =>
    rw [← List.append_assoc, keys_append_singleton, ih, keys_append_singleton]
    by_cases hx : key y ∈ keys key xs
    · by_cases hy : key y ∈ keys key ys <;> simp [hx, hy]
    · by_cases hy : key y ∈ keys key ys <;> simp [hx, hy]

theorem groups_append_of_disjoint {xs ys : List α} (h : ∀ k ∈ keys key xs, k ∉ keys key ys) :
    groups key (xs ++ ys) = groups key xs ++ groups key ys := by
  have hkeys : (keys key ys).filter (· ∉ keys key xs) = keys key ys :=
    List.filter_eq_self.2 fun k hk => decide_eq_true fun hx => h k hx hk
  rw [groups, keys_append, hkeys, List.map_append]
  congr 1
  · refine List.map_congr_left fun k hk => ?_
    rw [withKey_append, (withKey_eq_nil_iff key).2 (h k hk), List.append_nil]
  · refine List.map_congr_left fun k hk => ?_
    rw [withKey_append, (withKey_eq_nil_iff key).2 fun hx => h k hx hk, List.nil_append]

theorem groups_of_forall_key {k : κ} {xs : List α} (hne : xs ≠ []) (hk : ∀ x ∈ xs, key x = k) :
    groups key xs = [(k, xs)] := by
  obtain ⟨x, rest, rfl⟩ := List.exists_cons_of_ne_nil hne
  have hx : key x = k := hk x List.mem_cons_self
  have hrest : (rest.map key).filter (fun k' => !k' == k) = [] := by
    refine List.filter_eq_nil_iff.2 fun k' hk' => ?_
    obtain ⟨y, hy, rfl⟩ := List.mem_map.1 hk'
    simp [hk y (List.mem_cons_of_mem x hy)]
  have hkeys : keys key (x :: rest) = [k] := by
    rw [keys, List.map_cons, List.eraseDups_cons, hx, hrest, List.eraseDups_nil]
  have hall : withKey key k (x :: rest) = x :: rest :=
    List.filter_eq_self.2 fun y hy => decide_eq_true (hk y hy)
  rw [groups, hkeys, List.map_singleton, hall]

/-- Groups with distinct keys, laid out one after the other, are grouped into themselves. -/
theorem groups_flatMap_snd {gs : List (κ × List α)} (hn : (gs.map Prod.fst).Nodup)
    (hne : ∀ g ∈ gs, g.2 ≠ []) (hk : ∀ g ∈ gs, ∀ x ∈ g.2, key x = g.1) :
    groups key (gs.flatMap Prod.snd) = gs := by
  induction gs with
  | nil => rfl
  | cons g gs ih =>
    rw [List.map_cons, List.nodup_cons] at hn
    have hg := groups_of_forall_key key (hne g List.mem_cons_self) (hk g List.mem_cons_self)
    have hrest := ih hn.2 (fun g' h => hne g' (List.mem_cons_of_mem g h))
      (fun g' h => hk g' (List.mem_cons_of_mem g h))
    have hdisjoint : ∀ k ∈ keys key g.2, k ∉ keys key (gs.flatMap Prod.snd) := by
      rw [← map_fst_groups, ← map_fst_groups, hg, hrest]
      rintro k hmem hgs
      exact hn.1 (List.mem_singleton.1 hmem ▸ hgs)
    rw [List.flatMap_cons, groups_append_of_disjoint key hdisjoint, hg, hrest]
    rfl

theorem key_eq_of_mem_groups {xs : List α} {g : κ × List α} (hg : g ∈ groups key xs) {x : α}
    (hx : x ∈ g.2) : key x = g.1 := by
  obtain ⟨k, -, rfl⟩ := List.mem_map.1 hg
  exact of_decide_eq_true (List.mem_filter.1 hx).2

theorem ne_nil_of_mem_groups {xs : List α} {g : κ × List α} (hg : g ∈ groups key xs) :
    g.2 ≠ [] := by
  obtain ⟨k, hk, rfl⟩ := List.mem_map.1 hg
  intro hnil
  exact (withKey_eq_nil_iff key).1 hnil hk

theorem groups_flatMap_snd_groups (xs : List α) :
    groups key ((groups key xs).flatMap Prod.snd) = groups key xs := by
  apply groups_flatMap_snd
  · exact nodup_map_fst_groups key xs
  · intro g hg
    exact ne_nil_of_mem_groups key hg
  · intro g hg x hx
    exact key_eq_of_mem_groups key hg hx

theorem keys_eq_of_groups_eq {xs ys : List α} (h : groups key xs = groups key ys) :
    keys key xs = keys key ys := by
  rw [← map_fst_groups, h, map_fst_groups]

/-- The groups say of each key which elements have it, and in which order. -/
theorem withKey_eq_of_groups_eq {xs ys : List α} (h : groups key xs = groups key ys) (k : κ) :
    withKey key k xs = withKey key k ys := by
  have hkeys : keys key xs = keys key ys := keys_eq_of_groups_eq key h
  by_cases hk : k ∈ keys key xs
  · rw [groups, groups, ← hkeys, List.map_inj_left] at h
    exact congrArg Prod.snd (h k hk)
  · rw [(withKey_eq_nil_iff key).2 hk, (withKey_eq_nil_iff key).2 (hkeys ▸ hk)]

/-! ## Some of the keys -/

theorem keys_filter (p : κ → Bool) (xs : List α) :
    keys key (xs.filter fun x => p (key x)) = (keys key xs).filter p := by
  induction xs using List.reverseRecOn with
  | nil => rfl
  | append_singleton xs x ih =>
    rw [List.filter_append, keys_append_singleton, List.filter_singleton]
    cases hp : p (key x) with
    | false =>
      have hnone : [key x].filter p = [] := by simp [hp]
      rw [cond_false, List.append_nil, ih]
      split
      · rfl
      · rw [List.filter_append, hnone, List.append_nil]
    | true =>
      have hsome : [key x].filter p = [key x] := by simp [hp]
      have hmem : key x ∈ (keys key xs).filter p ↔ key x ∈ keys key xs := by simp [hp]
      rw [cond_true, keys_append_singleton, ih]
      by_cases hx : key x ∈ keys key xs
      · rw [if_pos (hmem.2 hx), if_pos hx]
      · rw [if_neg fun h => hx (hmem.1 h), if_neg hx, List.filter_append, hsome]

/-- Leaving out keys and grouping may be done in either order. -/
theorem groups_filter (p : κ → Bool) (xs : List α) :
    groups key (xs.filter fun x => p (key x)) = (groups key xs).filter fun g => p g.1 := by
  rw [groups, keys_filter, groups, List.filter_map]
  refine List.map_congr_left fun k hk => ?_
  have hp : p k = true := (List.mem_filter.1 hk).2
  have hwith : withKey key k (xs.filter fun x => p (key x)) = withKey key k xs := by
    rw [withKey, List.filter_filter]
    refine List.filter_congr fun x _ => ?_
    by_cases hx : key x = k
    · simp [hx, hp]
    · simp [hx]
  rw [hwith]

/-! ## Lists that are grouped already -/

/-- No element stands between two of one key without having that key too. -/
def Uninterrupted (xs : List α) : Prop :=
  ∀ x y z, [x, y, z].Sublist xs → key x = key z → key y = key x

variable {key}

omit [DecidableEq κ] in
theorem Uninterrupted.append {k : κ} {xs ys : List α} (hxs : ∀ x ∈ xs, key x = k)
    (hys : ∀ y ∈ ys, key y ≠ k) (h : Uninterrupted key ys) : Uninterrupted key (xs ++ ys) := by
  intro x y z hsub hxz
  obtain ⟨front, back, hsplit, hfront, hback⟩ := List.sublist_append_iff.1 hsub
  cases front with
  | nil =>
    rw [List.nil_append] at hsplit
    exact h x y z (hsplit ▸ hback) hxz
  | cons x' front =>
    rw [List.cons_append, List.cons.injEq] at hsplit
    obtain ⟨rfl, hsplit⟩ := hsplit
    have hx : key x = k := hxs x (hfront.subset List.mem_cons_self)
    -- the third element has the key too, so nothing of the sublist lies in `ys`
    rcases List.eq_nil_or_concat back with rfl | ⟨init, last, rfl⟩
    · rw [List.append_nil] at hsplit
      rw [hx]
      exact hxs y (hfront.subset (hsplit ▸ by simp))
    · have hlast : z = last := by
        have := congrArg List.getLast? hsplit
        simpa using this
      have hz : z ∈ ys := hback.subset (by simp [hlast])
      exact absurd (hxz ▸ hx) (hys z hz)

omit [DecidableEq κ] in
theorem uninterrupted_flatMap_snd {gs : List (κ × List α)} (hn : (gs.map Prod.fst).Nodup)
    (hk : ∀ g ∈ gs, ∀ x ∈ g.2, key x = g.1) : Uninterrupted key (gs.flatMap Prod.snd) := by
  induction gs with
  | nil =>
    intro x y z hsub
    cases hsub
  | cons g gs ih =>
    rw [List.map_cons, List.nodup_cons] at hn
    have hrest (g') (hg' : g' ∈ gs) := hk g' (List.mem_cons_of_mem g hg')
    rw [List.flatMap_cons]
    refine Uninterrupted.append (hk g List.mem_cons_self) (fun y hy hyg => ?_) (ih hn.2 hrest)
    obtain ⟨g', hg', hy⟩ := List.mem_flatMap.1 hy
    have hfst : g'.1 = g.1 := by rw [← hrest g' hg' y hy, hyg]
    exact hn.1 (hfst ▸ List.mem_map_of_mem hg')

/-- Where nothing stands between, the elements of the first key come first, and no others have it. -/
theorem Uninterrupted.exists_append {x : α} {rest : List α} (h : Uninterrupted key (x :: rest)) :
    ∃ xs ys, x :: rest = xs ++ ys ∧ xs ≠ [] ∧ (∀ x' ∈ xs, key x' = key x) ∧
      ∀ y ∈ ys, key y ≠ key x := by
  let p : α → Bool := fun x' => key x' = key x
  refine ⟨x :: rest.takeWhile p, rest.dropWhile p, ?_, List.cons_ne_nil _ _, ?_, ?_⟩
  · rw [List.cons_append, List.takeWhile_append_dropWhile]
  · intro x' hx'
    rcases List.mem_cons.1 hx' with rfl | hx'
    · rfl
    · have hp : p x' = true := List.mem_takeWhile_imp hx'
      exact of_decide_eq_true hp
  · intro z hz hzx
    obtain ⟨y, more, hmore⟩ := List.exists_cons_of_ne_nil (List.ne_nil_of_mem hz)
    have hy : key y ≠ key x := by
      have hhead := List.head?_dropWhile_not p rest
      rw [hmore] at hhead
      exact of_decide_eq_false hhead
    have hmem : z ∈ more := by
      rw [hmore] at hz
      rcases List.mem_cons.1 hz with rfl | hz
      · exact absurd hzx hy
      · exact hz
    have hsub : [x, y, z].Sublist (x :: rest) := by
      refine List.Sublist.cons_cons x (List.Sublist.trans ?_ (List.dropWhile_sublist p))
      rw [hmore]
      exact (List.singleton_sublist.2 hmem).cons_cons y
    exact hy (h x y z hsub hzx.symm)

omit [DecidableEq κ] in
theorem Uninterrupted.sublist {xs ys : List α} (h : Uninterrupted key ys) (hsub : xs.Sublist ys) :
    Uninterrupted key xs :=
  fun x y z hxyz => h x y z (hxyz.trans hsub)

theorem flatMap_snd_groups_of_uninterrupted : ∀ {xs : List α}, Uninterrupted key xs →
    (groups key xs).flatMap Prod.snd = xs
  | [], _ => rfl
  | x :: rest, h => by
    obtain ⟨xs, ys, hsplit, hne, hxs, hys⟩ := h.exists_append
    have hlt : ys.length < (x :: rest).length := by
      have := List.length_pos_iff.2 hne
      rw [hsplit, List.length_append]
      omega
    have hrest := flatMap_snd_groups_of_uninterrupted
      (h.sublist (hsplit ▸ List.sublist_append_right xs ys))
    have hdisjoint : ∀ k ∈ keys key xs, k ∉ keys key ys := by
      intro k hk hk'
      obtain ⟨x', hx', rfl⟩ := (mem_keys key).1 hk
      obtain ⟨y, hy, hyk⟩ := (mem_keys key).1 hk'
      exact hys y hy (hyk.trans (hxs x' hx'))
    rw [hsplit, groups_append_of_disjoint key hdisjoint, groups_of_forall_key key hne hxs,
      List.flatMap_append, hrest]
    simp
termination_by xs => xs.length
decreasing_by exact hlt

/-- **Grouping keeps a list as it is exactly when the list is grouped already.** -/
theorem flatMap_snd_groups_eq_iff {xs : List α} :
    (groups key xs).flatMap Prod.snd = xs ↔ Uninterrupted key xs := by
  refine ⟨fun h => ?_, flatMap_snd_groups_of_uninterrupted⟩
  rw [← h]
  apply uninterrupted_flatMap_snd
  · exact nodup_map_fst_groups key xs
  · intro g hg x hx
    exact key_eq_of_mem_groups key hg hx

end BuildDiagnostics.Grouping
