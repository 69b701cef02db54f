import Mathlib.Data.Finset.Dedup
import Mathlib.Data.Finset.Empty
import Mathlib.Data.Finset.Lattice.Basic
import Mathlib.Data.List.Pairwise
import Mathlib.Data.List.Perm.Subperm
import Mathlib.Order.Defs.PartialOrder

/-!
# Greedy Grouping in Bands

Items are taken in turn as anchors. An anchor that is in no group yet takes the items of
its band that are in none either, and makes them a group if they are at least two.

A group does not change when items are added, exactly as long as nobody else is grouped with
one of its items: `mem_groups_iff_unmixed`.
-/

namespace SuperTrading.Logic

variable {α ι : Type*} [DecidableEq ι]

/-- The items in groups, by their keys, and the groups. -/
structure Grouping (ι α : Type*) where
  used : Finset ι
  groups : List (List α) := []

namespace Grouping

def add (key : α → ι) (s : Grouping ι α) (group : List α) : Grouping ι α :=
  { used := s.used ∪ (group.map key).toFinset, groups := s.groups ++ [group] }

/-- The items of the anchor's band that are in no group. -/
def free (key : α → ι) (near : α → α → Bool) (items : List α) (s : Grouping ι α) (anchor : α) :
    List α :=
  items.filter fun x => decide (key x ∉ s.used) && near anchor x

/-- One anchor. -/
def place (key : α → ι) (near : α → α → Bool) (items : List α) (s : Grouping ι α) (anchor : α) :
    Grouping ι α :=
  if key anchor ∈ s.used ∨ (s.free key near items anchor).length < 2 then s
  else s.add key (s.free key near items anchor)

end Grouping

/-- All items as anchors, in their order. -/
def groupInBands (key : α → ι) (near : α → α → Bool) (items : List α) : List (List α) :=
  (items.foldl (Grouping.place key near items) { used := ∅ }).groups

namespace Grouping

variable {key : α → ι} {near : α → α → Bool} {items : List α} {s : Grouping ι α} {anchor x : α}

/-! ## Section 1: One anchor -/

theorem mem_free : x ∈ s.free key near items anchor ↔
    x ∈ items ∧ key x ∉ s.used ∧ near anchor x = true := by
  simp [free]

theorem place_cases (key : α → ι) (near : α → α → Bool) (items : List α) (s : Grouping ι α)
    (anchor : α) :
    s.place key near items anchor = s ∨
      key anchor ∉ s.used ∧ 2 ≤ (s.free key near items anchor).length ∧
        s.place key near items anchor = s.add key (s.free key near items anchor) := by
  simp only [place]
  split
  · exact .inl rfl
  · next h =>
    rw [not_or] at h
    exact .inr ⟨h.1, Nat.le_of_not_lt h.2, rfl⟩

theorem mem_groups_place {group : List α} (h : group ∈ s.groups) :
    group ∈ (s.place key near items anchor).groups := by
  rcases s.place_cases key near items anchor with hsame | ⟨-, -, hadd⟩
  · rwa [hsame]
  · rw [hadd]
    exact List.mem_append_left _ h

/-- A group has items only. -/
theorem mem_of_mem_groups {group : List α} (h : group ∈ groupInBands key near items)
    (hx : x ∈ group) : x ∈ items := by
  have hloop : ∀ (anchors : List α) (s : Grouping ι α), (∀ g ∈ s.groups, ∀ y ∈ g, y ∈ items) →
      ∀ g ∈ (anchors.foldl (place key near items) s).groups, ∀ y ∈ g, y ∈ items := by
    intro anchors
    induction anchors with
    | nil => exact fun s hs => hs
    | cons anchor anchors ih =>
      intro s hs
      refine ih _ fun g hg y hy => ?_
      rcases s.place_cases key near items anchor with hsame | ⟨-, -, hadd⟩
      · exact hs g (hsame ▸ hg) y hy
      · rw [hadd, add, List.mem_append, List.mem_singleton] at hg
        rcases hg with hg | rfl
        · exact hs g hg y hy
        · exact (mem_free.mp hy).1
  exact hloop items { used := ∅ } (by simp) group h x hx

/-! ## Section 2: What a group is -/

/-- The groups are taken from the items, have at least two of them, lie in the band of one of
their own and share no key; the used keys are theirs. -/
structure WellGrouped (key : α → ι) (near : α → α → Bool) (items : List α) (s : Grouping ι α) :
    Prop where
  used : ∀ i, i ∈ s.used ↔ ∃ group ∈ s.groups, ∃ x ∈ group, key x = i
  sublist : ∀ group ∈ s.groups, group.Sublist items
  two : ∀ group ∈ s.groups, 2 ≤ group.length
  anchored : ∀ group ∈ s.groups, ∃ a ∈ group, ∀ b ∈ group, near a b = true
  apart : s.groups.Pairwise fun g g' => ∀ x ∈ g, ∀ y ∈ g', key x ≠ key y

theorem WellGrouped.place (hself : ∀ a x, near a x = true → near a a = true)
    (hanchor : anchor ∈ items) (h : WellGrouped key near items s) :
    WellGrouped key near items (s.place key near items anchor) := by
  rcases s.place_cases key near items anchor with hsame | ⟨hunused, hlength, hadd⟩
  · rwa [hsame]
  · rw [hadd]
    set group := s.free key near items anchor with hgroup
    have hfree : ∀ x ∈ group, key x ∉ s.used ∧ near anchor x = true := fun x hx =>
      (mem_free.mp hx).2
    -- A property of the groups so far and of the new one is one of all.
    have hnew : ∀ {P : List α → Prop}, (∀ g ∈ s.groups, P g) → P group →
        ∀ g ∈ s.groups ++ [group], P g := fun hold hlast g hg =>
      (List.mem_append.mp hg).elim (hold g) fun hg => List.mem_singleton.mp hg ▸ hlast
    constructor
    · intro i
      simp only [add, Finset.mem_union, List.mem_toFinset, List.mem_map, List.mem_append,
        List.mem_singleton, h.used, or_and_right, exists_or, exists_eq_left]
    · exact hnew h.sublist List.filter_sublist
    · exact hnew h.two hlength
    · obtain ⟨x, hx⟩ := List.exists_mem_of_length_pos (by omega : 0 < group.length)
      have hown : near anchor anchor = true := hself anchor x (hfree x hx).2
      exact hnew h.anchored
        ⟨anchor, mem_free.mpr ⟨hanchor, hunused, hown⟩, fun b hb => (hfree b hb).2⟩
    · apply List.pairwise_append.mpr
      refine ⟨h.apart, List.pairwise_singleton _ _, ?_⟩
      intro g hg g' hg' x hx y hy hxy
      rw [List.mem_singleton.mp hg'] at hy
      exact (hfree y hy).1 ((h.used _).mpr ⟨g, hg, x, hx, hxy⟩)

theorem WellGrouped.foldl (hself : ∀ a x, near a x = true → near a a = true) {anchors : List α}
    (hsub : ∀ a ∈ anchors, a ∈ items) (h : WellGrouped key near items s) :
    WellGrouped key near items (anchors.foldl (Grouping.place key near items) s) := by
  induction anchors generalizing s with
  | nil => exact h
  | cons anchor anchors ih =>
    obtain ⟨hanchor, hrest⟩ := List.forall_mem_cons.mp hsub
    exact ih hrest (h.place hself hanchor)

theorem wellGrouped_groupInBands (hself : ∀ a x, near a x = true → near a a = true) :
    WellGrouped key near items (items.foldl (Grouping.place key near items) { used := ∅ }) := by
  apply WellGrouped.foldl hself fun _ ha => ha
  constructor <;> simp

/-! No anchor that stays alone has another such item in its band. -/

theorem used_subset_place : s.used ⊆ (s.place key near items anchor).used := by
  rcases s.place_cases key near items anchor with hsame | ⟨-, -, hadd⟩
  · rw [hsame]
  · rw [hadd]
    exact Finset.subset_union_left

theorem used_subset_foldl {anchors : List α} :
    s.used ⊆ (anchors.foldl (Grouping.place key near items) s).used := by
  induction anchors generalizing s with
  | nil => exact Finset.Subset.refl _
  | cons anchor anchors ih => exact used_subset_place.trans ih

theorem used_of_near_place (hself : ∀ a x, near a x = true → near a a = true)
    (hanchor : anchor ∈ items) (hx : x ∈ items) (hne : x ≠ anchor) (hnear : near anchor x = true)
    (halone : key anchor ∉ (s.place key near items anchor).used) :
    key x ∈ (s.place key near items anchor).used := by
  by_contra hunused
  have hfree : key anchor ∉ s.used := fun h => halone (used_subset_place h)
  have hmem : anchor ∈ s.free key near items anchor :=
    mem_free.mpr ⟨hanchor, hfree, hself anchor x hnear⟩
  have hmem' : x ∈ s.free key near items anchor :=
    mem_free.mpr ⟨hx, fun h => hunused (used_subset_place h), hnear⟩
  -- Both are free, so the anchor makes them a group.
  have hpair : [anchor, x].Nodup := by simp [hne.symm]
  have hlength : 2 ≤ (s.free key near items anchor).length :=
    (hpair.subperm (by simp [hmem, hmem'])).length_le
  have hadd : s.place key near items anchor = s.add key (s.free key near items anchor) :=
    if_neg (not_or.mpr ⟨hfree, not_lt.mpr hlength⟩)
  apply halone
  rw [hadd]
  exact Finset.mem_union_right _ (List.mem_toFinset.mpr (List.mem_map_of_mem hmem))

theorem used_of_near_foldl (hself : ∀ a x, near a x = true → near a a = true)
    {anchors : List α} (hsub : ∀ a ∈ anchors, a ∈ items) (hanchor : anchor ∈ anchors)
    (hx : x ∈ items) (hne : x ≠ anchor) (hnear : near anchor x = true)
    (halone : key anchor ∉ (anchors.foldl (Grouping.place key near items) s).used) :
    key x ∈ (anchors.foldl (Grouping.place key near items) s).used := by
  induction anchors generalizing s with
  | nil => cases hanchor
  | cons first anchors ih =>
    obtain ⟨hfirst, hrest⟩ := List.forall_mem_cons.mp hsub
    rw [List.foldl_cons] at halone ⊢
    rcases List.mem_cons.mp hanchor with rfl | hlater
    · have hnow : key anchor ∉ (s.place key near items anchor).used := fun h =>
        halone (used_subset_foldl h)
      exact used_subset_foldl (used_of_near_place hself hfirst hx hne hnear hnow)
    · exact ih hrest hlater halone

/-! ## Section 3: Added items -/

theorem mem_groups_foldl {anchors group : List α} (h : group ∈ s.groups) :
    group ∈ (anchors.foldl (place key near items) s).groups := by
  induction anchors generalizing s with
  | nil => exact h
  | cons anchor anchors ih => exact ih (mem_groups_place h)

theorem mem_groups_of_split {anchors before after group : List α} {a : α}
    (hsplit : anchors = before ++ a :: after)
    (h : group ∈ ((before.foldl (place key near items) s).place key near items a).groups) :
    group ∈ (anchors.foldl (place key near items) s).groups := by
  rw [hsplit, List.foldl_append, List.foldl_cons]
  exact mem_groups_foldl h

/-- A group is what one of the anchors finds free at its turn. -/
theorem turn_of_mem_groups {anchors group : List α} (hnew : group ∉ s.groups)
    (h : group ∈ (anchors.foldl (place key near items) s).groups) :
    ∃ before a after, anchors = before ++ a :: after ∧
      key a ∉ (before.foldl (place key near items) s).used ∧
      2 ≤ ((before.foldl (place key near items) s).free key near items a).length ∧
      group = (before.foldl (place key near items) s).free key near items a := by
  induction anchors generalizing s with
  | nil => exact absurd h hnew
  | cons anchor anchors ih =>
    by_cases hnow : group ∈ (s.place key near items anchor).groups
    · rcases s.place_cases key near items anchor with hsame | ⟨hunused, hlength, hadd⟩
      · exact absurd (hsame ▸ hnow) hnew
      · rw [hadd, add, List.mem_append, List.mem_singleton] at hnow
        exact ⟨[], anchor, anchors, rfl, hunused, hlength, hnow.resolve_left hnew⟩
    · obtain ⟨before, a, after, rfl, hunused, hlength, hgroup⟩ := ih hnow h
      exact ⟨anchor :: before, a, after, rfl, hunused, hlength, hgroup⟩

/-- Two groups that share an item are the same. -/
theorem eq_of_mem_groups (hself : ∀ a x, near a x = true → near a a = true) {g g' : List α}
    (hg : g ∈ groupInBands key near items) (hg' : g' ∈ groupInBands key near items) (hx : x ∈ g)
    (hx' : x ∈ g') : g = g' := by
  by_contra hne
  have hwell : WellGrouped key near items
      (items.foldl (Grouping.place key near items) { used := ∅ }) :=
    wellGrouped_groupInBands hself
  have happart := hwell.apart
  have hsymm : Std.Symm fun g g' : List α => ∀ x ∈ g, ∀ y ∈ g', key x ≠ key y :=
    ⟨fun g g' h x hx y hy hxy => h y hy x hx hxy.symm⟩
  exact happart.forall hg hg' hne x hx x hx' rfl

section Added

variable {keep : α → Bool} {group : List α}

/-- Before its anchor's turn nobody takes from a group of the kept items, if no group of all items
holds some of it and something else. -/
theorem unused_of_unmixed (hself : ∀ a x, near a x = true → near a a = true)
    (hnodup : (items.map key).Nodup) {before : List α} {a : α}
    (hbefore : ∀ y ∈ before, y ∈ items)
    (hgroup : group = ((before.filter keep).foldl (place key near (items.filter keep))
      { used := ∅ }).free key near (items.filter keep) a)
    (hunmixed : ∀ g ∈ (before.foldl (place key near items) { used := ∅ }).groups,
      ∀ z ∈ g, z ∈ group → ∀ x ∈ g, x ∈ group) :
    ∀ z ∈ group, key z ∉ (before.foldl (place key near items) { used := ∅ }).used := by
  intro z hz hused
  have hfree : ∀ x ∈ group, x ∈ items.filter keep ∧ key x ∉ ((before.filter keep).foldl
      (place key near (items.filter keep)) { used := ∅ }).used := by
    intro x hx
    rw [hgroup] at hx
    exact ⟨(mem_free.mp hx).1, (mem_free.mp hx).2.1⟩
  have hitems : ∀ x ∈ group, x ∈ items := fun x hx => (List.mem_filter.mp (hfree x hx).1).1
  have hstart : WellGrouped key near items { used := ∅ } := by constructor <;> simp
  have hgrouped := hstart.foldl hself hbefore
  -- Suppose one of the group is taken: then a whole group of all items lies in it.
  obtain ⟨g, hg, z', hz', hkey⟩ := (hgrouped.used (key z)).mp hused
  have hzz : z' = z := List.inj_on_of_nodup_map hnodup ((hgrouped.sublist g hg).subset hz')
    (hitems z hz) hkey
  have hwithin : ∀ x ∈ g, x ∈ group := hunmixed g hg z' hz' (hzz ▸ hz)
  -- The first to take something made a pair of the group's own, free for it in both runs.
  obtain ⟨l, y, r, hsplit, hunused, hlength, hfound⟩ := turn_of_mem_groups (by simp) hg
  have hy : y ∈ before := by
    rw [hsplit]
    simp
  obtain ⟨b, hb⟩ := List.exists_mem_of_length_pos (Nat.lt_of_lt_of_le Nat.two_pos hlength)
  have hyself : near y y = true := hself y b (mem_free.mp hb).2.2
  have hygroup : y ∈ group := hwithin y (hfound ▸ mem_free.mpr ⟨hbefore y hy, hunused, hyself⟩)
  have hdistinct : g.Nodup := (List.Nodup.of_map key hnodup).sublist (hgrouped.sublist g hg)
  obtain ⟨x, hx, hne⟩ : ∃ x ∈ g, x ≠ y := by
    by_contra hall
    push Not at hall
    have hsub : g ⊆ [y] := fun x hx => by simp [hall x hx]
    have hle := (hdistinct.subperm hsub).length_le
    rw [← hfound] at hlength
    simp only [List.length_singleton] at hle
    omega
  -- Such a pair is found by the anchor of the run over the kept items, too.
  have hnear : near y x = true := (mem_free.mp (hfound ▸ hx)).2.2
  have hkept : y ∈ before.filter keep :=
    List.mem_filter.mpr ⟨hy, (List.mem_filter.mp (hfree y hygroup).1).2⟩
  have htaken := used_of_near_foldl hself
    (fun c hc => List.mem_filter.mpr ⟨hbefore c (List.mem_filter.mp hc).1,
      (List.mem_filter.mp hc).2⟩)
    hkept (hfree x (hwithin x hx)).1 hne hnear (hfree y hygroup).2
  exact (hfree x (hwithin x hx)).2 htaken

/-- An anchor that finds the whole group free among all items finds nothing else, and makes it. -/
theorem mem_groups_of_unused (hnodup : (items.map key).Nodup) {before after : List α} {a : α}
    {s : Grouping ι α} (hall : items = before ++ a :: after) (ha : a ∈ group)
    (hlength : 2 ≤ group.length) (hgroup : group = s.free key near (items.filter keep) a)
    (hunused : ∀ z ∈ group, key z ∉ (before.foldl (place key near items) { used := ∅ }).used)
    (hunmixed : ∀ g ∈ groupInBands key near items, ∀ z ∈ g, z ∈ group → ∀ x ∈ g, x ∈ group) :
    group ∈ groupInBands key near items := by
  set t := before.foldl (place key near items) { used := ∅ } with ht
  -- What was free among the kept items is free among all of them.
  have hwhole : ∀ x, x ∈ group → x ∈ t.free key near items a := by
    intro x hx
    have hfound := hx
    rw [hgroup] at hfound
    obtain ⟨hkept, -, hnear⟩ := mem_free.mp hfound
    exact mem_free.mpr ⟨(List.mem_filter.mp hkept).1, hunused x hx, hnear⟩
  have hdistinct : group.Nodup := by
    rw [hgroup]
    exact ((List.Nodup.of_map key hnodup).filter _).filter _
  -- So the anchor forms a group here too.
  have hadd : t.place key near items a = t.add key (t.free key near items a) :=
    if_neg (not_or.mpr ⟨hunused a ha,
      not_lt.mpr (hlength.trans (hdistinct.subperm hwhole).length_le)⟩)
  have hformed : t.free key near items a ∈ groupInBands key near items := by
    apply mem_groups_of_split hall
    rw [← ht, hadd]
    exact List.mem_append_right _ List.mem_cons_self
  -- Nothing mixed is formed, so the new group has no more in it.
  have hnothing := hunmixed _ hformed a (hwhole a ha) ha
  have hsame : group = t.free key near items a := by
    rw [hgroup, free, free, List.filter_filter]
    refine List.filter_congr fun x hx => ?_
    have hiff : x ∈ group ↔ x ∈ t.free key near items a := ⟨hwhole x, hnothing x⟩
    rw [hgroup] at hiff
    rw [Bool.eq_iff_iff]
    simpa [free, hx, and_comm] using hiff
  rw [hsame]
  exact hformed

/-- A group of the kept items is a group of all items exactly if no group of all items holds some
of it and something else. -/
theorem mem_groups_iff_unmixed (hself : ∀ a x, near a x = true → near a a = true)
    (hnodup : (items.map key).Nodup) (h : group ∈ groupInBands key near (items.filter keep)) :
    group ∈ groupInBands key near items ↔
      ∀ g ∈ groupInBands key near items, ∀ z ∈ g, z ∈ group → ∀ x ∈ g, x ∈ group := by
  constructor
  · intro hall g hg z hz hzgroup x hx
    rw [← eq_of_mem_groups hself hg hall hz hzgroup]
    exact hx
  · intro hunmixed
    obtain ⟨l, a, r, hsplit, hunused, hlength, hfound⟩ := turn_of_mem_groups (by simp) h
    obtain ⟨l', rest, hitems, hl, hrest⟩ := List.filter_eq_append_iff.mp hsplit
    obtain ⟨skipped, r', rfl, hskipped, ha, -⟩ := List.filter_eq_cons_iff.mp hrest
    -- The items before the anchor, those that are not kept included.
    have hbefore : (l' ++ skipped).filter keep = l := by
      rw [List.filter_append, hl, List.filter_eq_nil_iff.mpr hskipped, List.append_nil]
    have hall : items = (l' ++ skipped) ++ a :: r' := by rw [hitems, List.append_assoc]
    have hearlier : ∀ y ∈ l' ++ skipped, y ∈ items := fun y hy => by
      rw [hall]
      exact List.mem_append_left _ hy
    obtain ⟨b, hb⟩ := List.exists_mem_of_length_pos (Nat.lt_of_lt_of_le Nat.two_pos hlength)
    have hagroup : a ∈ group := by
      rw [hfound]
      refine mem_free.mpr ⟨List.mem_filter.mpr ⟨?_, ha⟩, hunused, hself a b (mem_free.mp hb).2.2⟩
      rw [hall]
      exact List.mem_append_right _ List.mem_cons_self
    have hfresh := unused_of_unmixed hself hnodup hearlier (hbefore ▸ hfound)
      fun g hg => hunmixed g (mem_groups_of_split hall (mem_groups_place hg))
    exact mem_groups_of_unused hnodup hall hagroup (hfound ▸ hlength) hfound hfresh hunmixed

end Added

end Grouping

end SuperTrading.Logic
