import Mathlib.Data.List.Nodup

/-! # Grouping by a key

Items collected into groups in the order in which keys first occur. A group
holds exactly the items with its key, in their order, and no key has two
groups. -/
namespace Groups
set_option autoImplicit false

universe u v
variable {κ : Type u} {α : Type v} [DecidableEq κ]

/-- Appends an item to the group of its key. -/
def insert (key : κ) (item : α) : List (κ × List α) → List (κ × List α)
  | [] => [(key, [item])]
  | (other, items) :: rest =>
    if other = key then (other, items ++ [item]) :: rest
    else (other, items) :: insert key item rest

theorem mem_keys_insert {key other : κ} {item : α} {groups : List (κ × List α)} :
    other ∈ (insert key item groups).map Prod.fst ↔
      other = key ∨ other ∈ groups.map Prod.fst := by
  induction groups with
  | nil => simp [insert]
  | cons head rest ih =>
    obtain ⟨first, items⟩ := head
    rw [insert]
    by_cases hkey : first = key
    · rw [if_pos hkey]
      simp only [List.map_cons, List.mem_cons, hkey, or_self_left]
    · rw [if_neg hkey]
      simp only [List.map_cons, List.mem_cons, ih]
      exact or_left_comm

theorem nodup_keys_insert {key : κ} {item : α} {groups : List (κ × List α)}
    (h : (groups.map Prod.fst).Nodup) : ((insert key item groups).map Prod.fst).Nodup := by
  induction groups with
  | nil => simp [insert]
  | cons head rest ih =>
    obtain ⟨first, items⟩ := head
    rw [List.map_cons, List.nodup_cons] at h
    rw [insert]
    by_cases hkey : first = key
    · rw [if_pos hkey, List.map_cons, List.nodup_cons]
      exact h
    · rw [if_neg hkey, List.map_cons, List.nodup_cons, mem_keys_insert]
      refine ⟨?_, ih h.2⟩
      intro hmem
      rcases hmem with hsame | hrest
      · exact hkey hsame
      · exact h.1 hrest

/-- The items of a key among the groups. -/
def itemsOf (key : κ) (groups : List (κ × List α)) : List α :=
  (groups.filter fun group => group.1 = key).flatMap Prod.snd

theorem itemsOf_insert (key other : κ) (item : α) {groups : List (κ × List α)}
    (h : (groups.map Prod.fst).Nodup) :
    itemsOf other (insert key item groups) =
      if other = key then itemsOf other groups ++ [item] else itemsOf other groups := by
  induction groups with
  | nil =>
    by_cases hother : other = key
    · simp [insert, itemsOf, hother]
    · have hkey : ¬ key = other := fun hsame => hother hsame.symm
      simp [insert, itemsOf, hother, hkey]
  | cons head rest ih =>
    obtain ⟨first, items⟩ := head
    rw [List.map_cons, List.nodup_cons] at h
    rw [insert]
    by_cases hkey : first = key
    · rw [if_pos hkey]
      by_cases hother : other = key
      · have habsent : rest.filter (fun group => group.1 = key) = [] := by
          rw [List.filter_eq_nil_iff]
          intro group hgroup hsame
          rw [decide_eq_true_eq] at hsame
          have hmem : group.1 ∈ rest.map Prod.fst := List.mem_map_of_mem hgroup
          rw [hsame, ← hkey] at hmem
          exact h.1 hmem
        simp [itemsOf, hkey, hother, habsent]
      · have hfirst : ¬ first = other := fun hsame => hother (hsame.symm.trans hkey)
        simp [itemsOf, hother, hfirst]
    · rw [if_neg hkey]
      have hrest := ih h.2
      unfold itemsOf at hrest ⊢
      rw [List.filter_cons, List.filter_cons]
      by_cases hfirst : first = other
      · have hother : ¬ other = key := fun hsame => hkey (hfirst.trans hsame)
        rw [if_neg hother] at hrest ⊢
        simp [hfirst, hrest]
      · by_cases hother : other = key
        · rw [if_pos hother] at hrest ⊢
          simpa [hfirst] using hrest
        · rw [if_neg hother] at hrest ⊢
          simpa [hfirst] using hrest

/-- Groups that hold exactly the given items by their keys. -/
structure Holds (key : α → κ) (items : List α) (groups : List (κ × List α)) : Prop where
  distinct : (groups.map Prod.fst).Nodup
  exact : ∀ other, itemsOf other groups = items.filter fun item => key item = other
  nonempty : ∀ group ∈ groups, group.2 ≠ []

theorem holds_nil (key : α → κ) : Holds key [] [] where
  distinct := List.nodup_nil
  exact _ := rfl
  nonempty := by simp

theorem mem_snd_insert {key : κ} {item : α} {groups : List (κ × List α)}
    (h : ∀ group ∈ groups, group.2 ≠ []) : ∀ group ∈ insert key item groups, group.2 ≠ [] := by
  induction groups with
  | nil => simp [insert]
  | cons head rest ih =>
    obtain ⟨first, items⟩ := head
    rw [List.forall_mem_cons] at h
    rw [insert]
    by_cases hkey : first = key
    · rw [if_pos hkey, List.forall_mem_cons]
      exact ⟨by simp, h.2⟩
    · rw [if_neg hkey, List.forall_mem_cons]
      exact ⟨h.1, ih h.2⟩

theorem Holds.insert {key : α → κ} {items : List α} {groups : List (κ × List α)}
    (h : Holds key items groups) (item : α) :
    Holds key (items ++ [item]) (insert (key item) item groups) where
  distinct := nodup_keys_insert h.distinct
  exact other := by
    rw [itemsOf_insert _ _ _ h.distinct, h.exact, List.filter_append]
    by_cases hother : other = key item
    · simp [hother]
    · have hkey : ¬ key item = other := fun hsame => hother hsame.symm
      simp [hother, hkey]
  nonempty := mem_snd_insert h.nonempty

theorem itemsOf_mem {groups : List (κ × List α)} (h : (groups.map Prod.fst).Nodup)
    {group : κ × List α} (hmem : group ∈ groups) : itemsOf group.1 groups = group.2 := by
  induction groups with
  | nil => cases hmem
  | cons head rest ih =>
    rw [List.map_cons, List.nodup_cons] at h
    unfold itemsOf at ih ⊢
    rcases List.mem_cons.mp hmem with rfl | hrest
    · have habsent : rest.filter (fun other => other.1 = group.1) = [] := by
        rw [List.filter_eq_nil_iff]
        intro other hother hsame
        rw [decide_eq_true_eq] at hsame
        exact h.1 (hsame ▸ List.mem_map_of_mem hother)
      simp [habsent]
    · have hhead : ¬ head.1 = group.1 := fun hsame =>
        h.1 (hsame ▸ List.mem_map_of_mem hrest)
      simpa [hhead] using ih h.2 hrest

/-- A group holds the items with its key. -/
theorem Holds.group_eq {key : α → κ} {items : List α} {groups : List (κ × List α)}
    (h : Holds key items groups) {group : κ × List α} (hmem : group ∈ groups) :
    group.2 = items.filter fun item => key item = group.1 := by
  rw [← h.exact, itemsOf_mem h.distinct hmem]

/-- The keys of the groups are the keys of the items. -/
theorem Holds.mem_keys {key : α → κ} {items : List α} {groups : List (κ × List α)}
    (h : Holds key items groups) {other : κ} :
    other ∈ groups.map Prod.fst ↔ ∃ item ∈ items, key item = other := by
  constructor
  · intro hmem
    obtain ⟨group, hgroup, rfl⟩ := List.mem_map.mp hmem
    obtain ⟨item, hitem⟩ := List.exists_mem_of_ne_nil _ (h.nonempty group hgroup)
    rw [h.group_eq hgroup, List.mem_filter, decide_eq_true_eq] at hitem
    exact ⟨item, hitem⟩
  · rintro ⟨item, hitem, rfl⟩
    have hheld : item ∈ itemsOf (key item) groups := by
      rw [h.exact]
      simp [hitem]
    obtain ⟨group, hgroup, -⟩ := List.mem_flatMap.mp hheld
    rw [List.mem_filter, decide_eq_true_eq] at hgroup
    exact List.mem_map.mpr ⟨group, hgroup⟩

end Groups
