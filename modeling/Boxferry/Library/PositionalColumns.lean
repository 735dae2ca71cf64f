import Mathlib.Data.List.ReduceOption

/-! # Columns read by position

A column of optional values is written without its gaps and read back by position: the first value is given
to the first row and so on. The column comes back exactly when no value follows a gap. -/
namespace PositionalColumns
set_option autoImplicit false

universe u
variable {α : Type u}

/-- The values given to the first rows, one each. -/
def positions (count : Nat) (values : List α) : List (Option α) := (List.range count).map fun row => values[row]?

/-- No value follows a gap. -/
def Leading (column : List (Option α)) : Prop := column.Pairwise fun before after => after.isSome → before.isSome

theorem positions_succ (count : Nat) (values : List α) :
    positions (count + 1) values = values.head? :: positions count values.tail := by
  unfold positions
  rw [List.range_succ_eq_map, List.map_cons, List.map_map, ← List.head?_eq_getElem?]
  congr 1
  apply List.map_congr_left
  intro row _
  show values[row + 1]? = values.tail[row]?
  rw [List.getElem?_tail]

theorem positions_nil (count : Nat) : positions count ([] : List α) = List.replicate count none := by
  induction count with
  | zero => rfl
  | succ count ih =>
    rw [positions_succ, List.tail_nil, ih]
    rfl

theorem leading_gap {column : List (Option α)} : Leading (none :: column) ↔ column.reduceOption = [] := by
  unfold Leading
  rw [List.pairwise_cons, List.reduceOption_eq_nil_iff]
  constructor
  · rintro ⟨hgap, -⟩
    refine ⟨column.length, List.eq_replicate_iff.mpr ⟨rfl, fun value hvalue => ?_⟩⟩
    cases value with
    | none => rfl
    | some value => exact absurd (hgap _ hvalue rfl) Bool.false_ne_true
  · rintro ⟨count, rfl⟩
    constructor
    · intro value hvalue hsome
      rw [List.eq_of_mem_replicate hvalue] at hsome
      exact hsome
    · exact List.pairwise_replicate.mpr (Or.inr id)

/-- A column without its gaps is read back by position exactly when no value follows a gap. -/
theorem positions_reduceOption_iff {column : List (Option α)} :
    positions column.length column.reduceOption = column ↔ Leading column := by
  induction column with
  | nil => exact iff_of_true rfl List.Pairwise.nil
  | cons value rest ih =>
    rw [List.length_cons, positions_succ]
    cases value with
    | none =>
      rw [List.reduceOption_cons_of_none, leading_gap]
      constructor
      · intro h
        exact List.head?_eq_none_iff.mp (List.cons_eq_cons.mp h).1
      · intro hempty
        obtain ⟨count, hrest⟩ := (List.reduceOption_eq_nil_iff rest).mp hempty
        rw [hempty, List.tail_nil, positions_nil, hrest, List.length_replicate]
        rfl
    | some value =>
      rw [List.reduceOption_cons_of_some, List.head?_cons, List.tail_cons, List.cons_eq_cons]
      show _ ↔ List.Pairwise _ (some value :: rest)
      rw [List.pairwise_cons]
      exact and_congr (iff_of_true rfl fun _ _ _ => rfl) ih

end PositionalColumns
