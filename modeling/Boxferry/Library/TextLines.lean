import Mathlib.Data.List.Basic
import Mathlib.Data.List.Infix

/-! # Lines of a text

A text cut after each letter that ends a line, with the line ends kept. -/
namespace TextLines
set_option autoImplicit false

universe u
variable {α : Type u} (ends : α → List α → Bool)

/-- The lines of a text. A letter may need what follows it to end a line. -/
def lines : List α → List (List α)
  | [] => []
  | letter :: rest =>
    match lines rest with
    | [] => [[letter]]
    | line :: others => if ends letter rest then [letter] :: line :: others else (letter :: line) :: others

theorem lines_cons (letter : α) (rest : List α) :
    lines ends (letter :: rest) = [[letter]] ∧ rest = [] ∨ ∃ line others, lines ends rest = line :: others ∧
      lines ends (letter :: rest) =
        if ends letter rest then [letter] :: line :: others else (letter :: line) :: others := by
  cases rest with
  | nil => exact Or.inl ⟨rfl, rfl⟩
  | cons next more =>
    right
    cases h : lines ends (next :: more) with
    | nil =>
      exfalso
      rw [lines] at h
      split at h
      · cases h
      · split at h <;> cases h
    | cons line others =>
      refine ⟨line, others, rfl, ?_⟩
      rw [lines, h]

/-- No letter is lost. -/
theorem flatten_lines (text : List α) : (lines ends text).flatten = text := by
  induction text with
  | nil => rfl
  | cons letter rest ih =>
    obtain ⟨h, rfl⟩ | ⟨line, others, hrest, h⟩ := lines_cons ends letter rest
    · rw [h]
      rfl
    · rw [hrest, List.flatten_cons] at ih
      rw [h]
      split
      · rw [List.flatten_cons, List.flatten_cons, ih, List.singleton_append]
      · rw [List.flatten_cons, List.cons_append, ih]

end TextLines
