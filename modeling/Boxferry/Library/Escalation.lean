import Mathlib.Data.Finset.Basic

/-! # Collecting until something escalates

Every item of a list adds a set, or escalates the whole list. What a list collects depends on
its members only, and it grows with them. -/
namespace Escalation
set_option autoImplicit false

universe u v
variable {ι : Type u} {α : Type v} [DecidableEq α] {step : ι → Option (Finset α)}

def collect (step : ι → Option (Finset α)) : List ι → Option (Finset α)
  | [] => some ∅
  | item :: items =>
    match step item, collect step items with
    | some found, some others => some (found ∪ others)
    | _, _ => none

theorem collect_cons {item : ι} {items : List ι} {result : Finset α} :
    collect step (item :: items) = some result ↔
      ∃ found others, step item = some found ∧ collect step items = some others ∧ found ∪ others = result := by
  cases hitem : step item with
  | none =>
    rw [collect, hitem]
    exact ⟨fun h => (nomatch h), fun ⟨_, _, h, _⟩ => (nomatch h)⟩
  | some found =>
    cases hitems : collect step items with
    | none =>
      rw [collect, hitem, hitems]
      exact ⟨fun h => (nomatch h), fun ⟨_, _, _, h, _⟩ => (nomatch h)⟩
    | some others =>
      rw [collect, hitem, hitems]
      constructor
      · intro h
        exact ⟨found, others, rfl, rfl, Option.some.inj h⟩
      · rintro ⟨left, right, hleft, hright, hunion⟩
        show some (found ∪ others) = some result
        rw [Option.some.inj hleft, Option.some.inj hright, hunion]

/-- A list that is not escalated collects what its items add, and nothing else. -/
theorem collect_spec {items : List ι} {result : Finset α} (h : collect step items = some result) :
    (∀ item ∈ items, ∃ found, step item = some found ∧ found ⊆ result) ∧
      ∀ value ∈ result, ∃ item ∈ items, ∃ found, step item = some found ∧ value ∈ found := by
  induction items generalizing result with
  | nil =>
    have hempty : (∅ : Finset α) = result := Option.some.inj h
    rw [← hempty]
    exact ⟨fun item hitem => (nomatch hitem), fun value hvalue => absurd hvalue (Finset.notMem_empty value)⟩
  | cons first rest ih =>
    obtain ⟨found, others, hfirst, hrest, rfl⟩ := collect_cons.mp h
    obtain ⟨hincluded, horigin⟩ := ih hrest
    constructor
    · intro item hitem
      cases List.mem_cons.mp hitem with
      | inl hsame =>
        rw [hsame]
        exact ⟨found, hfirst, Finset.subset_union_left⟩
      | inr hmem =>
        obtain ⟨other, hother, hsubset⟩ := hincluded item hmem
        exact ⟨other, hother, hsubset.trans Finset.subset_union_right⟩
    · intro value hvalue
      cases Finset.mem_union.mp hvalue with
      | inl hleft => exact ⟨first, List.mem_cons_self, found, hfirst, hleft⟩
      | inr hright =>
        obtain ⟨item, hitem, other, hother, hmem⟩ := horigin value hright
        exact ⟨item, List.mem_cons_of_mem first hitem, other, hother, hmem⟩

theorem collect_of_forall {items : List ι} (h : ∀ item ∈ items, ∃ found, step item = some found) :
    ∃ result, collect step items = some result := by
  induction items with
  | nil => exact ⟨∅, rfl⟩
  | cons first rest ih =>
    obtain ⟨found, hfound⟩ := h first List.mem_cons_self
    obtain ⟨others, hothers⟩ := ih fun item hitem => h item (List.mem_cons_of_mem first hitem)
    exact ⟨found ∪ others, collect_cons.mpr ⟨found, others, hfound, hothers, rfl⟩⟩

/-- Fewer items collect less, when the others do not escalate. -/
theorem collect_mono {items others : List ι} {larger : Finset α} (hsubset : items ⊆ others)
    (h : collect step others = some larger) : ∃ result, collect step items = some result ∧ result ⊆ larger := by
  have hadded := (collect_spec h).1
  obtain ⟨result, hresult⟩ := collect_of_forall fun item hitem =>
    let ⟨found, hfound, _⟩ := hadded item (hsubset hitem)
    ⟨found, hfound⟩
  refine ⟨result, hresult, fun value hvalue => ?_⟩
  obtain ⟨item, hitem, found, hfound, hmem⟩ := (collect_spec hresult).2 value hvalue
  obtain ⟨other, hother, hincluded⟩ := hadded item (hsubset hitem)
  have hsame : found = other := Option.some.inj (hfound.symm.trans hother)
  exact hincluded (hsame ▸ hmem)

end Escalation
