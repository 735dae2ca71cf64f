import Mathlib

/-! # Stable sorts by a key

A list sorted by a key, where elements of one key keep their order. Such a list is determined by its
classes, so sorting by a second key and back changes nothing. -/
namespace StableSort
set_option autoImplicit false

universe u v w
variable {α : Type u} {κ : Type v} {ι : Type w} [LinearOrder κ] [LinearOrder ι] {key : α → κ} {values : List α}

def keyLe (key : α → κ) (left right : α) : Bool := key left ≤ key right

theorem keyLe_trans (key : α → κ) (first second third : α) (h : keyLe key first second) (hnext : keyLe key second third) :
    keyLe key first third :=
  decide_eq_true (le_trans (of_decide_eq_true h) (of_decide_eq_true hnext))

theorem keyLe_total (key : α → κ) (left right : α) : keyLe key left right || keyLe key right left := by
  unfold keyLe
  rw [Bool.or_eq_true, decide_eq_true_eq, decide_eq_true_eq]
  exact le_total (key left) (key right)

def sortBy (key : α → κ) (values : List α) : List α := values.mergeSort (keyLe key)

/-- No element comes before one of a smaller key. -/
def Sorted (key : α → κ) (values : List α) : Prop := values.Pairwise fun left right => key left ≤ key right

theorem sortBy_perm : (sortBy key values).Perm values := List.mergeSort_perm values _

@[simp] theorem mem_sortBy {value : α} : value ∈ sortBy key values ↔ value ∈ values := sortBy_perm.mem_iff

theorem sorted_sortBy : Sorted key (sortBy key values) :=
  (List.pairwise_mergeSort (keyLe_trans key) (keyLe_total key) values).imp of_decide_eq_true

theorem sortBy_eq_self (h : Sorted key values) : sortBy key values = values :=
  List.mergeSort_of_pairwise (h.imp decide_eq_true)

/-- The elements of one key. -/
def atKey (key : α → κ) (k : κ) (values : List α) : List α := values.filter fun value => key value = k

theorem mem_atKey {k : κ} {value : α} : value ∈ atKey key k values ↔ value ∈ values ∧ key value = k := by
  rw [atKey, List.mem_filter, decide_eq_true_eq]

/-- Elements of one key keep their order. -/
theorem atKey_sortBy (k : κ) : atKey key k (sortBy key values) = atKey key k values := by
  have hequal : ∀ value ∈ atKey key k values, key value = k := fun value hvalue => (mem_atKey.mp hvalue).2
  have hsorted : (atKey key k values).Pairwise fun left right => keyLe key left right = true := by
    rw [List.pairwise_iff_forall_sublist]
    intro left right hsub
    have hleft := hequal left (hsub.subset (by simp))
    have hright := hequal right (hsub.subset (by simp))
    exact decide_eq_true (le_of_eq (hleft.trans hright.symm))
  have hsub : (atKey key k values).Sublist (sortBy key values) :=
    List.sublist_mergeSort (keyLe_trans key) (keyLe_total key) hsorted List.filter_sublist
  have hclass : (atKey key k values).Sublist (atKey key k (sortBy key values)) := by
    have hfiltered := hsub.filter fun value => decide (key value = k)
    simp only [atKey, List.filter_filter, Bool.and_self] at hfiltered
    exact hfiltered
  have hlength : (atKey key k (sortBy key values)).length = (atKey key k values).length :=
    (sortBy_perm.filter _).length_eq
  exact (hclass.eq_of_length hlength.symm).symm

theorem mem_of_classes {others : List α} (hclasses : ∀ k, atKey key k values = atKey key k others) {value : α}
    (h : value ∈ values) : value ∈ others := by
  have hmem : value ∈ atKey key (key value) values := mem_atKey.mpr ⟨h, rfl⟩
  rw [hclasses] at hmem
  exact (mem_atKey.mp hmem).1

/-- The head of a sorted list has the least key. -/
theorem Sorted.head_le {first value : α} {rest : List α} (h : Sorted key (first :: rest)) (hvalue : value ∈ first :: rest) :
    key first ≤ key value := by
  cases List.mem_cons.mp hvalue with
  | inl hsame => rw [hsame]
  | inr hmem => exact (List.pairwise_cons.mp h).1 value hmem

/-- Sorted lists with the same elements, in the same order, of every key are the same. -/
theorem Sorted.ext {others : List α} (h : Sorted key values) (hothers : Sorted key others)
    (hclasses : ∀ k, atKey key k values = atKey key k others) : values = others := by
  induction values generalizing others with
  | nil =>
    cases others with
    | nil => rfl
    | cons other others => cases mem_of_classes (fun k => (hclasses k).symm) List.mem_cons_self
  | cons value values ih =>
    have hvalue : value ∈ others := mem_of_classes hclasses List.mem_cons_self
    cases others with
    | nil => cases hvalue
    | cons other others =>
      have hother : other ∈ value :: values := mem_of_classes (fun k => (hclasses k).symm) List.mem_cons_self
      have hkey : key other = key value := le_antisymm (hothers.head_le hvalue) (h.head_le hother)
      have hhead := hclasses (key value)
      unfold atKey at hhead
      rw [List.filter_cons_of_pos (by simp), List.filter_cons_of_pos (by simp [hkey])] at hhead
      obtain ⟨rfl, htail⟩ := List.cons.inj hhead
      have hclasses' : ∀ k, atKey key k values = atKey key k others := by
        intro k
        by_cases hk : key value = k
        · rw [← hk]
          exact htail
        · have hall := hclasses k
          unfold atKey at hall
          rwa [List.filter_cons_of_neg (by simpa using hk), List.filter_cons_of_neg (by simpa using hk)] at hall
      rw [ih (List.pairwise_cons.mp h).2 (List.pairwise_cons.mp hothers).2 hclasses']

theorem Sorted.filter (h : Sorted key values) (p : α → Bool) : Sorted key (values.filter p) :=
  List.Pairwise.filter p h

theorem filter_sortBy (p : α → Bool) : (sortBy key values).filter p = sortBy key (values.filter p) := by
  refine (sorted_sortBy.filter p).ext sorted_sortBy fun k => ?_
  rw [atKey_sortBy]
  have hswap : ∀ some : List α, atKey key k (some.filter p) = (atKey key k some).filter p := by
    intro some
    unfold atKey
    rw [List.filter_filter, List.filter_filter]
    simp only [Bool.and_comm]
  rw [hswap, hswap, atKey_sortBy]

/-- Once a list is sorted by a key and then by another, doing both again changes nothing. -/
theorem sortBy_settled {other : α → ι} :
    sortBy other (sortBy key (sortBy other (sortBy key values))) = sortBy other (sortBy key values) := by
  apply sorted_sortBy.ext sorted_sortBy
  intro k
  rw [atKey_sortBy]
  unfold atKey
  rw [filter_sortBy]
  have hclass := @atKey_sortBy _ _ _ other (sortBy key values) k
  unfold atKey at hclass
  rw [hclass, ← filter_sortBy, sortBy_eq_self sorted_sortBy]

/-- A list with an element sorts to one whose head has a key no greater. -/
theorem head_sortBy {value : α} (h : value ∈ values) :
    ∃ first rest, sortBy key values = first :: rest ∧ key first ≤ key value := by
  have hsorted := @sorted_sortBy _ _ _ key values
  rw [← @mem_sortBy _ _ _ key] at h
  cases hsort : sortBy key values with
  | nil =>
    rw [hsort] at h
    cases h
  | cons first rest =>
    rw [hsort] at h hsorted
    exact ⟨first, rest, rfl, hsorted.head_le h⟩

end StableSort
