import Mathlib.Data.List.Induction
import Mathlib.Data.List.Nodup

/-! # Keys that several entries claim

A table that entries are written to in order: an entry claims some keys, and the
last entry that claims a key owns it. Entries that are looked up by a key of
their own are found exactly when no later entry claims that key. -/
namespace LastWins
set_option autoImplicit false

universe u v
variable {α : Type u} {κ : Type v} {claims : α → κ → Bool} {entries : List α} {entry : α} {key : κ}

/-- The last entry that claims a key. -/
def owner (claims : α → κ → Bool) (entries : List α) (key : κ) : Option α :=
  entries.reverse.find? fun entry => claims entry key

@[simp] theorem owner_nil : owner claims [] key = none := rfl

theorem owner_append_singleton :
    owner claims (entries ++ [entry]) key =
      if claims entry key then some entry else owner claims entries key := by
  unfold owner
  rw [List.reverse_append, List.reverse_singleton, List.singleton_append, List.find?_cons]
  cases claims entry key <;> rfl

/-- The entry claims the key and nothing after it does. -/
theorem owner_eq_some_iff :
    owner claims entries key = some entry ↔ claims entry key = true ∧
      ∃ before after, entries = before ++ entry :: after ∧ ∀ later ∈ after, claims later key = false := by
  unfold owner
  rw [List.find?_eq_some_iff_append]
  constructor
  · rintro ⟨hclaims, after, before, hsplit, hafter⟩
    refine ⟨hclaims, before.reverse, after.reverse, ?_, ?_⟩
    · have hreversed := congrArg List.reverse hsplit
      rw [List.reverse_reverse, List.reverse_append, List.reverse_cons] at hreversed
      simpa using hreversed
    · intro later hlater
      simpa using hafter later (List.mem_reverse.mp hlater)
  · rintro ⟨hclaims, before, after, hsplit, hafter⟩
    refine ⟨hclaims, after.reverse, before.reverse, ?_, ?_⟩
    · rw [hsplit, List.reverse_append, List.reverse_cons]
      simp
    · intro later hlater
      rw [hafter later (List.mem_reverse.mp hlater)]
      rfl

theorem claims_of_owner (h : owner claims entries key = some entry) : claims entry key = true :=
  (owner_eq_some_iff.mp h).1

theorem mem_of_owner (h : owner claims entries key = some entry) : entry ∈ entries := by
  obtain ⟨-, before, after, hsplit, -⟩ := owner_eq_some_iff.mp h
  rw [hsplit]
  exact List.mem_append_right before List.mem_cons_self

section Marked
variable {own : α → κ} {selected : α → Prop} {marked : κ → Prop}

/-- If the owners of marked keys are the selected entries, every selected entry owns its own key:
an entry that owned it instead would do so for an earlier entry, which owns that key itself. -/
theorem owns_of_marked (hnodup : entries.Nodup)
    (hclaims : ∀ entry ∈ entries, claims entry (own entry) = true)
    (hmarked : ∀ key, marked key → ∃ entry ∈ entries, selected entry ∧ own entry = key)
    (howners : ∀ entry ∈ entries, selected entry →
      ∃ key, marked key ∧ owner claims entries key = some entry) :
    ∀ entry ∈ entries, selected entry → owner claims entries (own entry) = some entry := by
  have hleadinges : ∀ done rest : List α, entries = done ++ rest → ∀ entry ∈ done, selected entry →
      owner claims entries (own entry) = some entry := by
    intro done
    induction done using List.reverseRecOn with
    | nil =>
      intro _ _ entry hentry
      cases hentry
    | append_singleton done last ih =>
      intro rest hsplit
      rw [List.append_assoc, List.singleton_append] at hsplit
      have hearlier := ih (last :: rest) hsplit
      intro entry hentry hselected
      rcases List.mem_append.mp hentry with hdone | hlast
      · exact hearlier entry hdone hselected
      rw [List.mem_singleton] at hlast
      subst hlast
      have hmem : entry ∈ entries := by
        rw [hsplit]
        exact List.mem_append_right done List.mem_cons_self
      obtain ⟨key, hkey, howner⟩ := howners entry hmem hselected
      obtain ⟨other, hother, hotherSelected, hown⟩ := hmarked key hkey
      obtain ⟨-, before, after, hplace, hafter⟩ := owner_eq_some_iff.mp howner
      -- the entry whose own key this is claims it, so it does not come after the owner
      have hnotAfter : other ∉ after := by
        intro hlater
        have hclaimed := hclaims other hother
        rw [hown, hafter other hlater] at hclaimed
        cases hclaimed
      have hbefore : before = done := by
        have hsame : done ++ entry :: rest = before ++ entry :: after := hsplit.symm.trans hplace
        have hunique := hnodup
        rw [hsplit, List.nodup_middle, List.nodup_cons, List.mem_append, not_or] at hunique
        exact ((List.append_cons_inj_of_notMem hunique.1.1 hunique.1.2).mp hsame).1.symm
      rw [hplace, List.mem_append, List.mem_cons] at hother
      rcases hother with hother | rfl | hother
      · have hitself := hearlier other (hbefore ▸ hother) hotherSelected
        rw [hown, howner] at hitself
        cases hitself
        rw [hown]
        exact howner
      · rw [hown]
        exact howner
      · exact absurd hother hnotAfter
  intro entry hentry
  exact hleadinges entries [] (List.append_nil entries).symm entry hentry

/-- The owners of the marked keys are the selected entries exactly when every selected entry owns its
own key, as long as a marked key is the own key of a selected entry and the own keys that such
entries own are marked. -/
theorem owners_iff (hnodup : entries.Nodup)
    (hclaims : ∀ entry ∈ entries, claims entry (own entry) = true)
    (hmarked : ∀ key, marked key → ∃ entry ∈ entries, selected entry ∧ own entry = key)
    (howned : ∀ entry, owner claims entries (own entry) = some entry → selected entry →
      marked (own entry)) :
    (∀ entry, (∃ key, marked key ∧ owner claims entries key = some entry) ↔
        entry ∈ entries ∧ selected entry) ↔
      ∀ entry ∈ entries, selected entry → owner claims entries (own entry) = some entry := by
  constructor
  · intro h
    exact owns_of_marked hnodup hclaims hmarked
      fun entry hentry hselected => (h entry).mpr ⟨hentry, hselected⟩
  · intro h entry
    constructor
    · rintro ⟨key, hkey, howner⟩
      obtain ⟨other, hother, hselected, hown⟩ := hmarked key hkey
      have hitself := h other hother hselected
      rw [hown, howner] at hitself
      cases hitself
      exact ⟨hother, hselected⟩
    · rintro ⟨hentry, hselected⟩
      have howner := h entry hentry hselected
      exact ⟨own entry, howned entry howner hselected, howner⟩

end Marked
end LastWins
