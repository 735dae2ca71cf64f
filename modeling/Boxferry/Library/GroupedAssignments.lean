import Mathlib.Data.List.Nodup
import Mathlib.Logic.Function.Basic

/-! # Grouped assignments

Assignments in groups, where an empty group clears everything before it and a later assignment of a key
overrides an earlier one. A key can be erased from all groups, as long as a group that this empties is
dropped and does not turn into a marker. -/
namespace GroupedAssignments
set_option autoImplicit false

universe u v
variable {κ : Type u} {ν : Type v} [DecidableEq κ]

/-! ## Evaluation -/

def assign (entries : List (κ × ν)) (env : κ → Option ν) : κ → Option ν :=
  entries.foldl (fun env entry => Function.update env entry.1 (some entry.2)) env

def applyGroup (env : κ → Option ν) : List (κ × ν) → κ → Option ν
  | [] => fun _ => none
  | entry :: rest => assign (entry :: rest) env

def evaluate (groups : List (List (κ × ν))) : κ → Option ν := groups.foldl applyGroup fun _ => none

theorem evaluate_concat (groups : List (List (κ × ν))) (group : List (κ × ν)) :
    evaluate (groups ++ [group]) = applyGroup (evaluate groups) group := by
  unfold evaluate
  rw [List.foldl_append]
  rfl

theorem assign_concat (entries : List (κ × ν)) (key : κ) (value : ν) (env : κ → Option ν) :
    assign (entries ++ [(key, value)]) env = Function.update (assign entries env) key (some value) := by
  unfold assign
  rw [List.foldl_append]
  rfl

/-! ## Erasing a key -/

def without (key : κ) (entries : List (κ × ν)) : List (κ × ν) := entries.filter fun entry => entry.1 ≠ key

/-- A marker stays, and a group that loses its last entry goes. -/
def eraseFrom (key : κ) (group : List (κ × ν)) : Option (List (κ × ν)) :=
  if !group.isEmpty && (without key group).isEmpty then none else some (without key group)

def erase (key : κ) (groups : List (List (κ × ν))) : List (List (κ × ν)) := groups.filterMap (eraseFrom key)

theorem eraseFrom_emptied {key : κ} {group : List (κ × ν)} (hgroup : group ≠ []) (hleft : without key group = []) :
    eraseFrom key group = none := by
  unfold eraseFrom
  simp [hgroup, hleft]

theorem eraseFrom_kept {key : κ} {group : List (κ × ν)} (hleft : without key group ≠ []) :
    eraseFrom key group = some (without key group) := by
  unfold eraseFrom
  simp [hleft]

theorem erase_cons (key : κ) (group : List (κ × ν)) (rest : List (List (κ × ν))) :
    erase key (group :: rest) = (eraseFrom key group).toList ++ erase key rest := by
  unfold erase
  rw [List.filterMap_cons]
  cases eraseFrom key group <;> rfl

theorem assign_without (key : κ) (entries : List (κ × ν)) (env : κ → Option ν) :
    assign (without key entries) (Function.update env key none) =
      Function.update (assign entries env) key none := by
  induction entries generalizing env with
  | nil => rfl
  | cons entry rest ih =>
    unfold without
    by_cases hkey : entry.1 = key
    · rw [List.filter_cons_of_neg (by simpa using hkey)]
      show assign (without key rest) (Function.update env key none) =
        Function.update (assign rest (Function.update env entry.1 (some entry.2))) key none
      rw [← ih, hkey, Function.update_idem]
    · rw [List.filter_cons_of_pos (by simpa using hkey)]
      show assign (without key rest) (Function.update (Function.update env key none) entry.1 (some entry.2)) =
        Function.update (assign rest (Function.update env entry.1 (some entry.2))) key none
      rw [Function.update_comm (Ne.symm hkey), ih]

theorem applyGroup_of_nonempty {env : κ → Option ν} {group : List (κ × ν)} (h : group ≠ []) :
    applyGroup env group = assign group env := by
  cases group with
  | nil => exact absurd rfl h
  | cons entry rest => rfl

/-- Erasing a key from the groups erases it from the environment. -/
theorem evaluate_erase (key : κ) (groups : List (List (κ × ν))) :
    evaluate (erase key groups) = Function.update (evaluate groups) key none := by
  have hfold : ∀ env : κ → Option ν, (erase key groups).foldl applyGroup (Function.update env key none) =
      Function.update (groups.foldl applyGroup env) key none := by
    induction groups with
    | nil => exact fun _ => rfl
    | cons group rest ih =>
      intro env
      rw [erase_cons, List.foldl_append, List.foldl_cons]
      by_cases hmarker : group = []
      · subst hmarker
        have hclear : (fun _ => none : κ → Option ν) = Function.update (fun _ => none) key none :=
          (Function.update_eq_self key _).symm
        show (erase key rest).foldl applyGroup (fun _ => none) =
          Function.update (rest.foldl applyGroup fun _ => none) key none
        rw [← ih, ← hclear]
      · rw [applyGroup_of_nonempty hmarker, ← ih, ← assign_without]
        by_cases hleft : without key group = []
        · rw [eraseFrom_emptied hmarker hleft, hleft]
          rfl
        · rw [eraseFrom_kept hleft]
          show (erase key rest).foldl applyGroup (applyGroup _ (without key group)) = _
          rw [applyGroup_of_nonempty hleft]
  have hstart := hfold fun _ => none
  rwa [Function.update_eq_self_iff.mpr rfl] at hstart

/-! ## Keys -/

def keys (groups : List (List (κ × ν))) : List κ := groups.flatten.map Prod.fst

theorem keys_without (key : κ) (entries : List (κ × ν)) :
    (without key entries).map Prod.fst = (entries.map Prod.fst).filter (· ≠ key) := by
  unfold without
  rw [List.filter_map]
  rfl

theorem keys_erase (key : κ) (groups : List (List (κ × ν))) :
    keys (erase key groups) = (keys groups).filter (· ≠ key) := by
  induction groups with
  | nil => rfl
  | cons group rest ih =>
    unfold keys at ih ⊢
    rw [erase_cons, List.flatten_append, List.flatten_cons, List.map_append, List.map_append, List.filter_append,
      ih]
    congr 1
    rw [← keys_without]
    by_cases hleft : without key group = []
    · by_cases hmarker : group = []
      · subst hmarker
        rfl
      · rw [eraseFrom_emptied hmarker hleft, hleft]
        rfl
    · rw [eraseFrom_kept hleft]
      simp

end GroupedAssignments
