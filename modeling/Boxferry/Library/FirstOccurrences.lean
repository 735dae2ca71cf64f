import Mathlib.Data.List.Dedup
import Mathlib.Data.List.Induction

/-! # First occurrences

Lists that are extended by what they do not contain yet, and groups of such lists under keys. A run of
extensions keeps the first occurrence of every item, and a run of groups keeps for every key the first
occurrence of each of its items. -/
namespace FirstOccurrences
set_option autoImplicit false

universe u v w
variable {α : Type u} {κ : Type v} {ε : Type w} [DecidableEq α] [DecidableEq κ]

/-- Appends the items that are not there yet. -/
def extend (known more : List α) : List α :=
  more.foldl (fun known item => if item ∈ known then known else known ++ [item]) known

theorem eraseDups_concat (items : List α) (last : α) :
    (items ++ [last]).eraseDups =
      if last ∈ items.eraseDups then items.eraseDups else items.eraseDups ++ [last] := by
  rw [List.eraseDups_append]
  by_cases hmem : last ∈ items
  · simp [List.removeAll, hmem]
  · simp [List.removeAll, hmem, List.eraseDups_cons]

theorem extend_eraseDups (items more : List α) :
    extend items.eraseDups more = (items ++ more).eraseDups := by
  induction more generalizing items with
  | nil =>
    rw [List.append_nil]
    rfl
  | cons first more ih =>
    have hstep : extend items.eraseDups (first :: more) = extend (items ++ [first]).eraseDups more := by
      rw [eraseDups_concat]
      rfl
    rw [hstep, ih, List.append_assoc, List.singleton_append]

theorem nodup_eraseDups (items : List α) : items.eraseDups.Nodup := by
  induction items using List.reverseRecOn with
  | nil => simp
  | append_singleton items last ih =>
    rw [eraseDups_concat]
    split
    · exact ih
    · next hnew =>
      rw [← List.concat_eq_append]
      exact List.Nodup.concat hnew ih

/-- The first element of every key that is not known yet. -/
def distinctBy (key : α → κ) : List κ → List α → List α
  | _, [] => []
  | known, item :: rest =>
    if key item ∈ known then distinctBy key known rest else item :: distinctBy key (key item :: known) rest

section Distinct
variable {key : α → κ} {known : List κ} {items : List α}

omit [DecidableEq α]

theorem distinctBy_sublist : (distinctBy key known items).Sublist items := by
  induction items generalizing known with
  | nil => exact List.Sublist.slnil
  | cons item rest ih =>
    rw [distinctBy]
    split
    · exact ih.cons item
    · exact ih.cons_cons item

theorem distinctBy_nodup :
    ((distinctBy key known items).map key).Nodup ∧ ∀ item ∈ distinctBy key known items, key item ∉ known := by
  induction items generalizing known with
  | nil => exact ⟨List.nodup_nil, fun _ h => absurd h List.not_mem_nil⟩
  | cons item rest ih =>
    rw [distinctBy]
    split
    · exact ih
    · next hnew =>
      obtain ⟨hnodup, hothers⟩ := @ih (key item :: known)
      rw [List.map_cons, List.nodup_cons, List.forall_mem_cons]
      refine ⟨⟨?_, hnodup⟩, hnew, ?_⟩
      · intro hmem
        obtain ⟨other, hother, hsame⟩ := List.mem_map.mp hmem
        exact hothers other hother (by simp [hsame])
      · intro other hother hmem
        exact hothers other hother (List.mem_cons_of_mem _ hmem)

theorem distinctBy_eq_self (h : (items.map key).Nodup) (hnew : ∀ item ∈ items, key item ∉ known) :
    distinctBy key known items = items := by
  induction items generalizing known with
  | nil => rfl
  | cons item rest ih =>
    rw [List.map_cons, List.nodup_cons] at h
    rw [List.forall_mem_cons] at hnew
    rw [distinctBy, if_neg hnew.1, ih h.2]
    intro other hother hmem
    cases List.mem_cons.mp hmem with
    | inl hsame => exact h.1 (List.mem_map.mpr ⟨other, hother, hsame⟩)
    | inr hknown => exact hnew.2 other hother hknown

end Distinct

/-! ## Groups -/

/-- Extends the group of a key, which comes last when it is new. -/
def collect (key : κ) (items : List α) : List (κ × List α) → List (κ × List α)
  | [] => [(key, extend [] items)]
  | (other, known) :: rest =>
    if other = key then (other, extend known items) :: rest else (other, known) :: collect key items rest

theorem collect_new {key : κ} {items : List α} {groups : List (κ × List α)}
    (h : key ∉ groups.map Prod.fst) : collect key items groups = groups ++ [(key, extend [] items)] := by
  induction groups with
  | nil => rfl
  | cons group rest ih =>
    obtain ⟨other, known⟩ := group
    rw [List.map_cons, List.mem_cons, not_or] at h
    rw [collect, if_neg fun hsame => h.1 hsame.symm, ih h.2, List.cons_append]

theorem collect_known {key : κ} {items : List α} {keys : List κ} {known : κ → List α} (hkeys : keys.Nodup)
    (h : key ∈ keys) :
    collect key items (keys.map fun other => (other, known other)) =
      keys.map fun other => (other, if other = key then extend (known other) items else known other) := by
  induction keys with
  | nil => cases h
  | cons other rest ih =>
    obtain ⟨hnew, hrest⟩ := List.nodup_cons.mp hkeys
    rw [List.map_cons, List.map_cons, collect]
    by_cases hsame : other = key
    · rw [if_pos hsame, if_pos hsame]
      congr 1
      apply List.map_congr_left
      intro third hthird
      rw [if_neg]
      rintro rfl
      exact hnew (hsame ▸ hthird)
    · rw [if_neg hsame, if_neg hsame, ih hrest (List.mem_of_ne_of_mem (fun heq => hsame heq.symm) h)]

/-- The groups of a run: each key at its first occurrence, with the first occurrences of its items. -/
theorem foldl_collect (key : ε → κ) (items : ε → List α) (events : List ε) :
    events.foldl (fun groups event => collect (key event) (items event) groups) [] =
      (events.map key).eraseDups.map fun group =>
        (group, ((events.filter fun event => key event = group).flatMap items).eraseDups) := by
  induction events using List.reverseRecOn with
  | nil => rfl
  | append_singleton events last ih =>
    have hgroup : ∀ group, (((events ++ [last]).filter fun event => key event = group).flatMap items).eraseDups =
        if group = key last then
          extend ((events.filter fun event => key event = group).flatMap items).eraseDups (items last)
        else ((events.filter fun event => key event = group).flatMap items).eraseDups := by
      intro group
      rw [List.filter_append, List.flatMap_append]
      by_cases hlast : group = key last
      · rw [if_pos hlast, extend_eraseDups]
        simp [hlast]
      · rw [if_neg hlast]
        simp [Ne.symm hlast]
    rw [List.foldl_append, ih, List.foldl_cons, List.foldl_nil, List.map_append, List.map_singleton,
      eraseDups_concat]
    by_cases hknown : key last ∈ (events.map key).eraseDups
    · rw [if_pos hknown, collect_known (nodup_eraseDups _) hknown]
      exact List.map_congr_left fun group _ => by rw [hgroup]
    · rw [if_neg hknown, collect_new (by simpa [List.map_map] using hknown), List.map_append,
        List.map_singleton, hgroup, if_pos rfl]
      congr 1
      · apply List.map_congr_left
        intro group hmem
        rw [hgroup, if_neg]
        rintro rfl
        exact hknown hmem
      · have hnone : (events.filter fun event => key event = key last) = [] := by
          rw [List.filter_eq_nil_iff]
          intro event hevent hsame
          apply hknown
          rw [List.mem_eraseDups, ← of_decide_eq_true hsame]
          exact List.mem_map_of_mem hevent
        rw [hnone]
        rfl

end FirstOccurrences
