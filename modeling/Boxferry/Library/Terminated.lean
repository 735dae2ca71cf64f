import Mathlib.Data.List.Basic

/-! # Terminated fields

Fields that are written one after the other, each with a mark at its end. A text
that is empty or ends with the mark is read back as exactly one list of fields. -/
namespace Terminated
set_option autoImplicit false

universe u
variable {α : Type u} [BEq α] [LawfulBEq α] {mark : α} {data field : List α} {written : List (List α)}

/-- The fields, each with the mark after it. -/
def join (mark : α) (written : List (List α)) : List α := written.flatMap fun field => field ++ [mark]

/-- What stands before each mark. -/
def fields (mark : α) (data : List α) : List (List α) := (data.splitOn mark).dropLast

/-- The text is empty or its last item is the mark. -/
def Ended (mark : α) (data : List α) : Prop := data = [] ∨ data.getLast? = some mark

omit [BEq α] [LawfulBEq α] in
@[simp] theorem join_nil : join mark ([] : List (List α)) = [] := rfl

omit [BEq α] [LawfulBEq α] in
theorem join_cons : join mark (field :: written) = field ++ mark :: join mark written := by
  unfold join
  rw [List.flatMap_cons, List.append_assoc, List.singleton_append]

omit [BEq α] [LawfulBEq α] in
omit [BEq α] [LawfulBEq α] in
theorem join_eq_intercalate (h : written ≠ []) : join mark written = [mark].intercalate written ++ [mark] := by
  induction written with
  | nil => exact absurd rfl h
  | cons field rest ih =>
    cases rest with
    | nil => rw [join_cons, join_nil, List.intercalate_singleton]
    | cons next rest =>
      rw [join_cons, ih (List.cons_ne_nil next rest), List.intercalate_cons_cons]
      simp only [List.append_assoc, List.cons_append, List.nil_append]

omit [BEq α] [LawfulBEq α] in
theorem ended_join : Ended mark (join mark written) := by
  induction written with
  | nil => exact Or.inl rfl
  | cons field written ih =>
    right
    rw [join_cons, List.getLast?_append_cons]
    rcases ih with hnil | hlast
    · rw [hnil]
      rfl
    · rw [List.getLast?_cons, hlast]
      rfl

theorem splitOn_join (h : ∀ field ∈ written, mark ∉ field) :
    (join mark written).splitOn mark = written ++ [[]] := by
  induction written with
  | nil => exact List.splitOn_nil mark
  | cons field written ih =>
    obtain ⟨hfield, hrest⟩ := List.forall_mem_cons.mp h
    rw [join_cons, List.splitOn_append_cons_self_of_not_mem hfield, ih hrest]
    rfl

/-- Fields without the mark are read back. -/
theorem fields_join (h : ∀ field ∈ written, mark ∉ field) : fields mark (join mark written) = written := by
  unfold fields
  rw [splitOn_join h]
  exact List.dropLast_concat

/-- An ended text is its fields, each with the mark after it. -/
theorem join_fields (h : Ended mark data) : join mark (fields mark data) = data := by
  rcases h with rfl | hlast
  · unfold fields
    rw [List.splitOn_nil]
    rfl
  · obtain ⟨before, rfl⟩ := List.getLast?_eq_some_iff.mp hlast
    have hsplit : fields mark (before ++ [mark]) = before.splitOn mark := by
      unfold fields
      rw [List.splitOn_append_cons_self, List.splitOn_nil, List.dropLast_concat]
    rw [hsplit]
    rw [join_eq_intercalate (List.splitOn_ne_nil mark before), List.intercalate_splitOn]

end Terminated
