import Mathlib.Algebra.GroupWithZero.Nat
import Mathlib.Data.List.Nodup
import Mathlib.Data.List.Pairwise
import Mathlib.Logic.Relation

/-! # Walks with an explicit stack

A walk takes the first item off a stack and puts the items it leads to in its place.
It ends, comes by exactly the items that can be reached, and comes by each of them
once when every item is labelled with the path that leads to it. -/
set_option autoImplicit false

namespace StackWalk
variable {α : Type}

/-- The items the walk comes by, in at most as many steps as the fuel says. -/
def walk (leads : α → List α) : Nat → List α → List α → Option (List α)
  | 0, _, _ => none
  | _ + 1, [], visited => some visited
  | fuel + 1, item :: stack, visited => walk leads fuel (leads item ++ stack) (visited ++ [item])

def Leads (leads : α → List α) (source target : α) : Prop := target ∈ leads source

variable {leads : α → List α} {stack visited found : List α} {fuel : Nat}

/-- A walk ends when every item costs more than the items it leads to. -/
theorem walk_ends (cost : α → Nat) (hcost : ∀ item, ((leads item).map cost).sum < cost item)
    (hfuel : (stack.map cost).sum < fuel) : ∃ found, walk leads fuel stack visited = some found := by
  induction fuel generalizing stack visited with
  | zero => omega
  | succ fuel ih =>
    cases stack with
    | nil => exact ⟨visited, rfl⟩
    | cons item stack =>
      have hitem := hcost item
      rw [List.map_cons, List.sum_cons] at hfuel
      refine ih ?_
      rw [List.map_append, List.sum_append]
      omega

/-! ## Which items -/

/-- The items that can be reached from the ones on a stack. -/
def Within (leads : α → List α) (stack : List α) (item : α) : Prop :=
  ∃ first ∈ stack, Relation.ReflTransGen (Leads leads) first item

theorem within_step (item other : α) :
    Within leads (item :: stack) other ↔ other = item ∨ Within leads (leads item ++ stack) other := by
  constructor
  · rintro ⟨first, hfirst, hreach⟩
    rcases List.mem_cons.mp hfirst with rfl | hrest
    · rcases Relation.ReflTransGen.cases_head hreach with hsame | ⟨next, hnext, hreach⟩
      · exact Or.inl hsame.symm
      · exact Or.inr ⟨next, List.mem_append_left _ hnext, hreach⟩
    · exact Or.inr ⟨first, List.mem_append_right _ hrest, hreach⟩
  · rintro (rfl | ⟨first, hfirst, hreach⟩)
    · exact ⟨other, List.mem_cons_self, Relation.ReflTransGen.refl⟩
    · rcases List.mem_append.mp hfirst with hlead | hrest
      · exact ⟨item, List.mem_cons_self, Relation.ReflTransGen.head hlead hreach⟩
      · exact ⟨first, List.mem_cons_of_mem item hrest, hreach⟩

/-- A walk comes by the items that can be reached, and by no others. -/
theorem mem_walk (h : walk leads fuel stack visited = some found) (item : α) :
    item ∈ found ↔ item ∈ visited ∨ Within leads stack item := by
  induction fuel generalizing stack visited with
  | zero => cases h
  | succ fuel ih =>
    cases stack with
    | nil =>
      have hsame : visited = found := Option.some.inj h
      have hnone : ¬ Within leads [] item := by
        rintro ⟨first, hfirst, -⟩
        exact List.not_mem_nil hfirst
      rw [hsame]
      exact ⟨Or.inl, fun hitem => hitem.resolve_right hnone⟩
    | cons first stack =>
      rw [ih h, within_step, List.mem_append, List.mem_singleton, or_assoc]

/-! ## How often -/

section Labelled
variable (site : α → List Nat)

/-- Each item leads to items one index further down, at indices of their own. -/
structure Labelled (leads : α → List α) : Prop where
  below : ∀ item, ∀ child ∈ leads item, ∃ index, site child = site item ++ [index]
  distinct : ∀ item, ((leads item).map site).Nodup

/-- Neither item lies below the other. -/
def Apart (left right : α) : Prop := ¬ site left <+: site right ∧ ¬ site right <+: site left

/-- The items on the stack lie apart, and no item the walk came by lies below them. -/
structure Fresh (stack visited : List α) : Prop where
  apart : stack.Pairwise (Apart site)
  unseen : ∀ item ∈ stack, ∀ seen ∈ visited, ¬ site item <+: site seen
  once : (visited.map site).Nodup

variable {site}

theorem apart_children (h : Labelled site leads) (item : α) : (leads item).Pairwise (Apart site) := by
  have hdistinct := List.pairwise_map.mp (h.distinct item)
  refine List.Pairwise.imp_of_mem ?_ hdistinct
  intro left right hleft hright hne
  obtain ⟨i, hi⟩ := h.below item left hleft
  obtain ⟨j, hj⟩ := h.below item right hright
  have hlength : (site left).length = (site right).length := by rw [hi, hj]; simp
  exact ⟨fun hbelow => hne (hbelow.eq_of_length hlength),
    fun hbelow => hne (hbelow.eq_of_length hlength.symm).symm⟩

theorem Apart.child {left right child : α} {index : Nat} (h : Apart site left right)
    (hchild : site child = site left ++ [index]) : Apart site child right := by
  constructor
  · intro hbelow
    rw [hchild] at hbelow
    exact h.1 ((List.prefix_append _ _).trans hbelow)
  · intro hbelow
    rw [hchild, List.prefix_concat_iff] at hbelow
    rcases hbelow with hsame | hbelow
    · exact h.1 (hsame ▸ List.prefix_append _ _)
    · exact h.2 hbelow

theorem Fresh.step {item : α} (hlabelled : Labelled site leads) (h : Fresh site (item :: stack) visited) :
    Fresh site (leads item ++ stack) (visited ++ [item]) := by
  obtain ⟨hitem, hstack⟩ := List.pairwise_cons.mp h.apart
  constructor
  · rw [List.pairwise_append]
    refine ⟨apart_children hlabelled item, hstack, ?_⟩
    intro child hchild other hother
    obtain ⟨index, hindex⟩ := hlabelled.below item child hchild
    exact (hitem other hother).child hindex
  · intro first hfirst seen hseen
    rcases List.mem_append.mp hfirst with hchild | hrest
    · obtain ⟨index, hindex⟩ := hlabelled.below item first hchild
      rw [hindex]
      rcases List.mem_append.mp hseen with hseen | hself
      · intro hbelow
        exact h.unseen item List.mem_cons_self seen hseen ((List.prefix_append _ _).trans hbelow)
      · rw [List.mem_singleton.mp hself]
        intro hbelow
        have hlength := hbelow.length_le
        rw [List.length_append, List.length_singleton] at hlength
        omega
    · rcases List.mem_append.mp hseen with hseen | hself
      · exact h.unseen first (List.mem_cons_of_mem item hrest) seen hseen
      · rw [List.mem_singleton.mp hself]
        exact (hitem first hrest).2
  · rw [List.map_append, List.nodup_append]
    refine ⟨h.once, List.nodup_singleton _, ?_⟩
    intro path hpath other hother hsame
    obtain ⟨seen, hseen, rfl⟩ := List.mem_map.mp hpath
    rw [List.map_cons, List.map_nil, List.mem_singleton] at hother
    have hseensite : site seen = site item := hsame.trans hother
    exact h.unseen item List.mem_cons_self seen hseen (hseensite ▸ List.prefix_rfl)

/-- A walk comes by every item once. -/
theorem nodup_walk (hlabelled : Labelled site leads) (hfresh : Fresh site stack visited)
    (h : walk leads fuel stack visited = some found) : (found.map site).Nodup := by
  induction fuel generalizing stack visited with
  | zero => cases h
  | succ fuel ih =>
    cases stack with
    | nil => exact Option.some.inj h ▸ hfresh.once
    | cons item stack => exact ih (hfresh.step hlabelled) h

theorem fresh_start (item : α) : Fresh site [item] [] where
  apart := List.pairwise_singleton _ _
  unseen := fun _ _ _ hseen => absurd hseen List.not_mem_nil
  once := List.nodup_nil

end Labelled
end StackWalk
