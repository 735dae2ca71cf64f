import Mathlib.Data.List.Forall2

/-! # Lists related item by item

Choosing a partner for every item of a list, and the partners of its members. -/
namespace Related
set_option autoImplicit false

universe u v
variable {α : Type u} {β : Type v} {relation : α → β → Prop} {lefts : List α} {rights : List β}

theorem choose (h : ∀ left ∈ lefts, ∃ right, relation left right) :
    ∃ rights, List.Forall₂ relation lefts rights := by
  induction lefts with
  | nil => exact ⟨[], .nil⟩
  | cons left rest ih =>
    rw [List.forall_mem_cons] at h
    obtain ⟨right, hright⟩ := h.1
    obtain ⟨rights, hrights⟩ := ih h.2
    exact ⟨right :: rights, .cons hright hrights⟩

theorem exists_right (h : List.Forall₂ relation lefts rights) :
    ∀ left ∈ lefts, ∃ right ∈ rights, relation left right := by
  induction h with
  | nil => simp
  | cons hfirst _ ih =>
    rw [List.forall_mem_cons]
    refine ⟨⟨_, List.mem_cons_self, hfirst⟩, ?_⟩
    intro left hleft
    obtain ⟨right, hright, hrelated⟩ := ih left hleft
    exact ⟨right, List.mem_cons_of_mem _ hright, hrelated⟩

/-- What holds of every left item holds of the left of every related pair. -/
theorem of_left {holds : α → Prop} (h : List.Forall₂ relation lefts rights)
    (hleft : ∀ left ∈ lefts, holds left) :
    List.Forall₂ (fun left right => holds left ∧ relation left right) lefts rights := by
  induction h with
  | nil => exact .nil
  | cons hfirst _ ih =>
    rw [List.forall_mem_cons] at hleft
    exact .cons ⟨hleft.1, hfirst⟩ (ih hleft.2)

/-- Lists related in two ways are related in both at once. -/
theorem of_pairs {other : α → β → Prop} (h : List.Forall₂ relation lefts rights)
    (hother : List.Forall₂ other lefts rights) :
    List.Forall₂ (fun left right => relation left right ∧ other left right) lefts rights := by
  induction h with
  | nil => exact .nil
  | cons hfirst _ ih =>
    rw [List.forall₂_cons] at hother
    exact .cons ⟨hfirst, hother.1⟩ (ih hother.2)

theorem of_mem (h : List.Forall₂ relation lefts rights) :
    List.Forall₂ (fun left right => left ∈ lefts ∧ right ∈ rights ∧ relation left right) lefts rights :=
  of_left (of_left h.flip fun _ hright => hright).flip fun _ hleft => hleft

theorem exists_left (h : List.Forall₂ relation lefts rights) :
    ∀ right ∈ rights, ∃ left ∈ lefts, relation left right :=
  exists_right h.flip

/-- Related options are both empty or hold related values. -/
theorem rel_cases {left : Option α} {right : Option β} (h : Option.Rel relation left right) :
    (left = none ∧ right = none) ∨
      ∃ first other, left = some first ∧ right = some other ∧ relation first other := by
  cases h with
  | none => exact Or.inl ⟨rfl, rfl⟩
  | some hrelated => exact Or.inr ⟨_, _, rfl, rfl, hrelated⟩

theorem eq_of_rel {left right : Option α} (h : Option.Rel Eq left right) : left = right := by
  rcases rel_cases h with ⟨hleft, hright⟩ | ⟨first, other, hleft, hright, rfl⟩
  · rw [hleft, hright]
  · rw [hleft, hright]

theorem rel_of_eq {left right : Option α} (h : left = right) : Option.Rel Eq left right := by
  cases h
  cases left with
  | none => exact .none
  | some value => exact .some rfl

/-! ## Lists that cannot be told apart -/

section Alike
universe w
variable {γ : Type w}

theorem filterMap_eq {first : α → Option γ} {other : β → Option γ}
    (h : List.Forall₂ relation lefts rights)
    (hitem : ∀ left right, relation left right → first left = other right) :
    lefts.filterMap first = rights.filterMap other := by
  induction h with
  | nil => rfl
  | cons hfirst _ ih => rw [List.filterMap_cons, List.filterMap_cons, hitem _ _ hfirst, ih]

theorem map_eq {first : α → γ} {other : β → γ} (h : List.Forall₂ relation lefts rights)
    (hitem : ∀ left right, relation left right → first left = other right) :
    lefts.map first = rights.map other := by
  induction h with
  | nil => rfl
  | cons hfirst _ ih => rw [List.map_cons, List.map_cons, hitem _ _ hfirst, ih]

theorem flatMap_eq {first : α → List γ} {other : β → List γ} (h : List.Forall₂ relation lefts rights)
    (hitem : ∀ left right, relation left right → first left = other right) :
    lefts.flatMap first = rights.flatMap other := by
  induction h with
  | nil => rfl
  | cons hfirst _ ih => rw [List.flatMap_cons, List.flatMap_cons, hitem _ _ hfirst, ih]

/-- Related lists are related in numbered form, with the same numbers. -/
theorem zipIdx (h : List.Forall₂ relation lefts rights) (start : Nat) :
    List.Forall₂ (fun left right => relation left.1 right.1 ∧ left.2 = right.2)
      (lefts.zipIdx start) (rights.zipIdx start) := by
  induction h generalizing start with
  | nil => exact .nil
  | cons hfirst _ ih =>
    rw [List.zipIdx_cons, List.zipIdx_cons]
    exact .cons ⟨hfirst, rfl⟩ (ih (start + 1))

/-- Searches that agree on related items find related items. -/
theorem find?_related {accepts : α → Bool} {admits : β → Bool}
    (h : List.Forall₂ relation lefts rights)
    (hitem : ∀ left right, relation left right → accepts left = admits right) :
    Option.Rel relation (lefts.find? accepts) (rights.find? admits) := by
  induction h with
  | nil => exact .none
  | @cons left right _ _ hfirst _ ih =>
    rw [List.find?_cons, List.find?_cons, hitem _ _ hfirst]
    cases admits right with
    | true => exact .some hfirst
    | false => exact ih

/-- Selections that are related item by item select related lists. -/
theorem filterMap_related {items : List γ} {first : γ → Option α} {other : γ → Option β}
    (h : ∀ item ∈ items, Option.Rel relation (first item) (other item)) :
    List.Forall₂ relation (items.filterMap first) (items.filterMap other) := by
  induction items with
  | nil => exact .nil
  | cons item rest ih =>
    rw [List.forall_mem_cons] at h
    rw [List.filterMap_cons, List.filterMap_cons]
    rcases rel_cases h.1 with ⟨hfirst, hother⟩ | ⟨left, right, hfirst, hother, hrelated⟩
    · rw [hfirst, hother]
      exact ih h.2
    · rw [hfirst, hother]
      exact .cons hrelated (ih h.2)

end Alike

/-- Related items that contribute lists of one length contribute the same list when each pair does. -/
theorem flatMap_eq_iff {γ : Type*} {first : α → List γ} {other : β → List γ}
    (h : List.Forall₂ relation lefts rights)
    (hlength : ∀ left right, relation left right → (first left).length = (other right).length) :
    lefts.flatMap first = rights.flatMap other ↔
      List.Forall₂ (fun left right => first left = other right) lefts rights := by
  induction h with
  | nil => exact iff_of_true rfl .nil
  | cons hfirst _ ih =>
    rw [List.flatMap_cons, List.flatMap_cons, List.forall₂_cons, ← ih]
    constructor
    · intro hboth
      exact List.append_inj hboth (hlength _ _ hfirst)
    · rintro ⟨hhead, hrest⟩
      rw [hhead, hrest]

/-! ## Items that contribute at most one entry -/

section Contributions
universe w
variable {γ : Type w} {items : List α} {entries : α → List β} {chosen : α → Bool}
  {change : β → γ} {target : α → γ}

/-- Chosen items contribute one entry each, the others none. -/
theorem map_flatMap_chosen (hnone : ∀ item ∈ items, chosen item = false → entries item = [])
    (hone : ∀ item ∈ items, chosen item = true →
      ∃ entry, entries item = [entry] ∧ change entry = target item) :
    (items.flatMap entries).map change = (items.filter chosen).map target := by
  induction items with
  | nil => rfl
  | cons item rest ih =>
    rw [List.forall_mem_cons] at hnone hone
    have hrest := ih hnone.2 hone.2
    cases hchosen : chosen item with
    | false =>
      rw [List.flatMap_cons, hnone.1 hchosen, List.nil_append, hrest, List.filter_cons_of_neg (by simp [hchosen])]
    | true =>
      obtain ⟨entry, hentry, htarget⟩ := hone.1 hchosen
      rw [List.flatMap_cons, hentry, List.map_append, hrest, List.filter_cons_of_pos hchosen,
        List.map_cons, List.map_cons, htarget]
      rfl

theorem map_flatMap_single (hone : ∀ item ∈ items, ∃ entry, entries item = [entry] ∧ change entry = target item) :
    (items.flatMap entries).map change = items.map target := by
  have hall : (items.flatMap entries).map change = (items.filter fun _ => true).map target :=
    map_flatMap_chosen (by simp) fun item hitem _ => hone item hitem
  rwa [List.filter_true] at hall

/-- Names that all resolve are resolved in order. -/
theorem map_filterMap_resolved {items : List α} {name : α → Option β} {resolve : β → Option γ}
    (h : ∀ item ∈ items, ∀ found, name item = some found → ∃ result, resolve found = some result) :
    (items.filterMap fun item => (name item).bind resolve).map some =
      (items.filterMap name).map resolve := by
  induction items with
  | nil => rfl
  | cons item rest ih =>
    rw [List.forall_mem_cons] at h
    have hrest := ih h.2
    cases hname : name item with
    | none =>
      rw [List.filterMap_cons_none hname, List.filterMap_cons_none (by simp [hname]), hrest]
    | some found =>
      obtain ⟨result, hresult⟩ := h.1 found hname
      rw [List.filterMap_cons_some hname, List.filterMap_cons_some (b := result) (by simp [hname, hresult]),
        List.map_cons, List.map_cons, hrest, hresult]

end Contributions
end Related
