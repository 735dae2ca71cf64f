import Mathlib.Data.List.Nodup

/-! # Growing lists of named entries

Facts about a list that grows by one entry at its end: keys stay distinct when
the new key is absent, and a property of every entry extends to the new one. -/
namespace Naming
set_option autoImplicit false

universe u v
variable {α : Type u} {κ : Type v} {key : α → κ} {entries : List α} {entry : α}

/-- An entry with an absent key keeps the keys distinct. -/
theorem nodup_append (hunique : (entries.map key).Nodup) (habsent : key entry ∉ entries.map key) :
    ((entries ++ [entry]).map key).Nodup := by
  rw [List.map_append, List.nodup_append]
  refine ⟨hunique, List.nodup_singleton _, ?_⟩
  intro left hleft right hright hsame
  have hkey : right = key entry := by simpa using hright
  exact habsent (hkey ▸ hsame ▸ hleft)

theorem forall_append {property : α → Prop} (hentries : ∀ x ∈ entries, property x)
    (hentry : property entry) : ∀ x ∈ entries ++ [entry], property x := by
  intro x hx
  rcases List.mem_append.mp hx with hx | hx
  · exact hentries x hx
  · exact List.mem_singleton.mp hx ▸ hentry

/-- A relation that holds between all earlier entries and the new one stays pairwise. -/
theorem pairwise_append {relation : α → α → Prop} (hentries : entries.Pairwise relation)
    (hentry : ∀ x ∈ entries, relation x entry) : (entries ++ [entry]).Pairwise relation := by
  rw [List.pairwise_append]
  refine ⟨hentries, List.pairwise_singleton _ _, ?_⟩
  intro left hleft right hright
  exact List.mem_singleton.mp hright ▸ hentry left hleft

theorem subset_append : entries.map key ⊆ (entries ++ [entry]).map key := by
  rw [List.map_append]
  exact List.subset_append_left _ _

/-- The key of an entry is not among the keys before it. -/
theorem fresh_of_prefix {before : List α} (hunique : (entries.map key).Nodup) (hbegins : before ++ [entry] <+: entries) :
    key entry ∉ before.map key := by
  have hnodup := (hbegins.sublist.map key).nodup hunique
  rw [List.map_append] at hnodup
  intro hmem
  exact List.disjoint_of_nodup_append hnodup hmem (List.mem_singleton_self _)

end Naming
