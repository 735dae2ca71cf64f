import Mathlib.Data.List.Nodup

/-! # Association lists of named entries

Lists of key-value pairs that are filled from a list of entries, newest first.
A lookup answers as a search of the entries does, as long as their keys differ. -/
namespace Lookup
set_option autoImplicit false

universe u v
variable {α : Type u} {β : Type v} {key : α → String} {value : α → β} {entries : List α}
  {entry : α} {pairs : List (String × β)}

/-- The pairs answer every name with the value of the entry of that name. -/
def Answers (key : α → String) (value : α → β) (entries : List α) (pairs : List (String × β)) :
    Prop :=
  ∀ name, pairs.lookup name = (entries.find? fun entry => key entry = name).map value

/-- Every entry's key is among the pairs. -/
def Claims (key : α → String) (entries : List α) (pairs : List (String × β)) : Prop :=
  ∀ name, pairs.lookup name = none → name ∉ entries.map key

theorem answers_nil : Answers key value [] [] := fun _ => rfl

theorem claims_nil : Claims key [] ([] : List (String × β)) := fun _ _ => List.not_mem_nil

theorem lookup_cons (name first : String) (result : β) (pairs : List (String × β)) :
    ((first, result) :: pairs).lookup name = if name = first then some result else pairs.lookup name := by
  rw [List.lookup_cons]
  by_cases hname : name = first
  · simp [hname]
  · have hsame : (name == first) = false := beq_eq_false_iff_ne.mpr hname
    rw [hsame, if_neg hname]

/-- A new entry under a fresh key is answered, and the earlier answers stay. -/
theorem Answers.cons (h : Answers key value entries pairs) (hfresh : key entry ∉ entries.map key) :
    Answers key value (entries ++ [entry]) ((key entry, value entry) :: pairs) := by
  intro name
  rw [lookup_cons, List.find?_append]
  by_cases hname : name = key entry
  · have habsent : entries.find? (fun other => key other = name) = none := by
      rw [List.find?_eq_none]
      intro other hother hsame
      rw [decide_eq_true_eq] at hsame
      rw [← hname, ← hsame] at hfresh
      exact hfresh (List.mem_map_of_mem hother)
    rw [if_pos hname, habsent]
    simp [hname]
  · have hother : ¬ key entry = name := fun hsame => hname hsame.symm
    rw [if_neg hname, h name]
    simp [hother]

theorem Claims.cons (h : Claims key entries pairs) (result : β) :
    Claims key (entries ++ [entry]) ((key entry, result) :: pairs) := by
  intro name habsent
  rw [lookup_cons] at habsent
  by_cases hname : name = key entry
  · rw [if_pos hname] at habsent
    cases habsent
  · rw [if_neg hname] at habsent
    rw [List.map_append, List.mem_append, not_or]
    exact ⟨h name habsent, by simpa using hname⟩

/-- Among entries with distinct keys, a search for an entry's key finds that entry. -/
theorem find?_key (hunique : (entries.map key).Nodup) (hmem : entry ∈ entries) :
    entries.find? (fun other => key other = key entry) = some entry := by
  induction entries with
  | nil => cases hmem
  | cons first rest ih =>
    rw [List.map_cons, List.nodup_cons] at hunique
    rcases List.mem_cons.mp hmem with rfl | hrest
    · exact List.find?_cons_of_pos (by simp)
    · have hdiffers : ¬ key first = key entry := by
        intro hsame
        rw [hsame] at hunique
        exact hunique.1 (List.mem_map_of_mem hrest)
      rw [List.find?_cons_of_neg (by simpa using hdiffers)]
      exact ih hunique.2 hrest

/-! ## Pairs of a key -/

section
variable {κ : Type u} [DecidableEq κ] {list : List (κ × β)} {name : κ} {result : β}

theorem mem_of_lookup (h : list.lookup name = some result) : (name, result) ∈ list := by
  obtain ⟨before, after, hsplit, -⟩ := List.lookup_eq_some_iff.mp h
  rw [hsplit]
  exact List.mem_append_right before List.mem_cons_self

theorem lookup_of_unique (hmem : (name, result) ∈ list) (hunique : ∀ other, (name, other) ∈ list → other = result) :
    list.lookup name = some result := by
  have hsome : (list.lookup name).isSome = true := List.lookup_isSome_iff.mpr ⟨_, hmem, beq_self_eq_true _⟩
  obtain ⟨other, hother⟩ := Option.isSome_iff_exists.mp hsome
  rw [hother, hunique other (mem_of_lookup hother)]

end

end Lookup
