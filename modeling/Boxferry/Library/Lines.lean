import Mathlib.Data.List.Basic

/-! # Delimited reads

The first occurrence of a delimiter inside a bounded search window. -/
namespace Lines
set_option autoImplicit false

universe u
variable {α : Type u} [BEq α] [LawfulBEq α] {delimiter : α} {input : List α} {maximum last : Nat}

/-- A delimiter found in the first `maximum` items ends the item run before it. -/
theorem idxOf_take_eq_some :
    (input.take maximum).idxOf? delimiter = some last ↔
      last < maximum ∧ delimiter ∉ input.take last ∧
        input.drop last = delimiter :: input.drop (last + 1) := by
  unfold List.idxOf?
  rw [List.findIdx?_eq_some_iff_getElem]
  constructor
  · rintro ⟨hlast, hfound, hbefore⟩
    rw [List.length_take] at hlast
    have hinside : last < input.length := by omega
    rw [List.getElem_take, beq_iff_eq] at hfound
    refine ⟨by omega, ?_, ?_⟩
    · intro hmem
      obtain ⟨j, hj, hitem⟩ := List.mem_iff_getElem.mp hmem
      rw [List.length_take] at hj
      apply hbefore j (by omega)
      rw [List.getElem_take] at hitem ⊢
      rw [hitem, beq_self_eq_true]
    · rw [List.drop_eq_getElem_cons hinside, hfound]
  · rintro ⟨hlast, hfree, hdrop⟩
    have hinside : last < input.length := by
      rcases Nat.lt_or_ge last input.length with hinside | houtside
      · exact hinside
      · rw [List.drop_eq_nil_iff.mpr houtside] at hdrop
        cases hdrop
    rw [List.drop_eq_getElem_cons hinside] at hdrop
    refine ⟨by rw [List.length_take]; omega, ?_, ?_⟩
    · rw [List.getElem_take, (List.cons.inj hdrop).1, beq_self_eq_true]
    · intro j hj hitem
      apply hfree
      rw [List.getElem_take, beq_iff_eq] at hitem
      rw [← hitem, List.mem_iff_getElem]
      exact ⟨j, by rw [List.length_take]; omega, by rw [List.getElem_take]⟩

end Lines
