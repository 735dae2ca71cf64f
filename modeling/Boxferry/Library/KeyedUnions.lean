import Mathlib.Data.List.AList

/-! # Unions of keyed tables

Entries of a second table are written into a first one, one after the other. Where the key
is there already, a rule picks what is kept, or refuses. Key by key the result depends on
nothing but what the two tables hold there. -/
namespace KeyedUnions
set_option autoImplicit false

universe u v w
variable {κ : Type u} {β : Type v} {ε : Type w} [DecidableEq κ]

/-- What two tables give for one key. -/
def combine (pick : β → β → Option β) : Option β → Option β → Option β
  | none, incoming => incoming
  | some old, none => some old
  | some old, some incoming => pick old incoming

@[simp] theorem combine_none_left (pick : β → β → Option β) (incoming : Option β) :
    combine pick none incoming = incoming := rfl

@[simp] theorem combine_none_right (pick : β → β → Option β) (old : Option β) :
    combine pick old none = old := by
  cases old <;> rfl

/-- The entry agrees with what the table holds under its key. -/
def Agrees (pick : β → β → Option β) (table : AList fun _ : κ => β) (key : κ) (value : β) : Prop :=
  ∀ old, table.lookup key = some old → pick old value ≠ none

/-- One entry is written by the rule, and no other key changes. -/
structure Follows (pick : β → β → Option β)
    (step : (AList fun _ : κ => β) → (Sigma fun _ : κ => β) → Except ε (AList fun _ : κ => β)) : Prop where
  refuses : ∀ {table key value}, ¬ Agrees pick table key value → ∃ refusal, step table ⟨key, value⟩ = .error refusal
  accepts : ∀ {table key value}, Agrees pick table key value → ∃ last, step table ⟨key, value⟩ = .ok last ∧
    last.lookup key = combine pick (table.lookup key) (some value) ∧
    ∀ other, other ≠ key → last.lookup other = table.lookup other

variable {pick : β → β → Option β} {table last : AList fun _ : κ => β} {entries : List (Sigma fun _ : κ => β)}
  {step : (AList fun _ : κ => β) → (Sigma fun _ : κ => β) → Except ε (AList fun _ : κ => β)}

/-- Entries of distinct keys are all written exactly when each agrees with the table. -/
theorem Follows.exists_foldlM (h : Follows pick step) (hkeys : entries.NodupKeys) :
    (∃ last, entries.foldlM step table = .ok last) ↔ ∀ entry ∈ entries, Agrees pick table entry.1 entry.2 := by
  induction entries generalizing table with
  | nil => exact ⟨fun _ entry hentry => absurd hentry List.not_mem_nil, fun _ => ⟨table, rfl⟩⟩
  | cons entry entries ih =>
    obtain ⟨hfresh, hrest⟩ := List.nodupKeys_cons.mp hkeys
    rw [List.foldlM_cons, List.forall_mem_cons]
    by_cases hagrees : Agrees pick table entry.1 entry.2
    · obtain ⟨middle, hstep, -, hothers⟩ := h.accepts hagrees
      have hsame : ∀ other ∈ entries, Agrees pick middle other.1 other.2 ↔ Agrees pick table other.1 other.2 := by
        intro other hother
        have hne : other.1 ≠ entry.1 := by
          intro hequal
          exact hfresh (hequal ▸ List.mem_map_of_mem hother)
        unfold Agrees
        rw [hothers other.1 hne]
      rw [hstep]
      show (∃ last, entries.foldlM step middle = .ok last) ↔ _
      rw [ih hrest]
      constructor
      · intro hall
        exact ⟨hagrees, fun other hother => (hsame other hother).mp (hall other hother)⟩
      · intro ⟨_, hall⟩ other hother
        exact (hsame other hother).mpr (hall other hother)
    · obtain ⟨refusal, hstep⟩ := h.refuses hagrees
      rw [hstep]
      constructor
      · intro ⟨last, hlast⟩
        cases hlast
      · intro ⟨hthis, _⟩
        exact absurd hthis hagrees

theorem Follows.lookup_foldlM (h : Follows pick step) (hkeys : entries.NodupKeys)
    (hlast : entries.foldlM step table = .ok last) (key : κ) :
    last.lookup key = combine pick (table.lookup key) (entries.dlookup key) := by
  have hall := (h.exists_foldlM hkeys).mp ⟨last, hlast⟩
  induction entries generalizing table with
  | nil =>
    obtain rfl := Except.ok.inj hlast
    rw [List.dlookup_nil, combine_none_right]
  | cons entry entries ih =>
    obtain ⟨hfresh, hrest⟩ := List.nodupKeys_cons.mp hkeys
    obtain ⟨middle, hstep, hwritten, hothers⟩ := h.accepts (List.forall_mem_cons.mp hall).1
    rw [List.foldlM_cons, hstep] at hlast
    have hnext : entries.foldlM step middle = .ok last := hlast
    rw [ih hrest hnext ((h.exists_foldlM hrest).mp ⟨last, hnext⟩)]
    by_cases hsame : key = entry.1
    · subst hsame
      rw [hwritten, List.dlookup_eq_none.mpr hfresh, combine_none_right, List.dlookup_cons_eq]
    · rw [hothers key hsame, List.dlookup_cons_ne _ _ hsame]

/-! ## Whole tables -/

variable {source : AList fun _ : κ => β}

theorem Follows.exists_union (h : Follows pick step) :
    (∃ last, source.entries.reverse.foldlM step table = .ok last) ↔
      ∀ key value, source.lookup key = some value → Agrees pick table key value := by
  have hkeys : source.entries.reverse.NodupKeys :=
    (List.perm_nodupKeys source.entries.reverse_perm).mpr source.nodupKeys
  rw [h.exists_foldlM hkeys]
  constructor
  · intro hall key value hvalue
    exact hall ⟨key, value⟩ (List.mem_reverse.mpr (AList.mem_lookup_iff.mp hvalue))
  · intro hall entry hentry
    exact hall entry.1 entry.2 (AList.mem_lookup_iff.mpr (List.mem_reverse.mp hentry))

theorem Follows.lookup_union (h : Follows pick step)
    (hlast : source.entries.reverse.foldlM step table = .ok last) (key : κ) :
    last.lookup key = combine pick (table.lookup key) (source.lookup key) := by
  have hkeys : source.entries.reverse.NodupKeys :=
    (List.perm_nodupKeys source.entries.reverse_perm).mpr source.nodupKeys
  rw [h.lookup_foldlM hkeys hlast key]
  congr 1
  exact List.perm_dlookup key hkeys source.entries.reverse_perm

end KeyedUnions
