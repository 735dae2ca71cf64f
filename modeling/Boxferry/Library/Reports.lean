import Mathlib.Control.Monad.Writer
import Mathlib.Data.List.Forall2

/-! # Reported steps

Computations that only ever append to a report. What a sequence of steps
reports is read off its parts: a step's entries are never removed by a later
step, and every entry of a run was written by one of its steps. -/
set_option autoImplicit false

universe u

/-- A computation with a value and the entries it appended to the report. -/
abbrev Reports (ω : Type u) (α : Type u) : Type u := Writer (List ω) α

namespace Reports
variable {ω α β : Type u}

def value (steps : Reports ω α) : α := steps.run.1

def log (steps : Reports ω α) : List ω := steps.run.2

/-- Appends one entry. -/
def report (entry : ω) : Reports ω PUnit := tell [entry]

/-- Runs a report only when a condition holds. -/
def onlyIf (condition : Bool) (steps : Reports ω PUnit) : Reports ω PUnit :=
  if condition then steps else pure ⟨⟩

@[simp] theorem onlyIf_true (steps : Reports ω PUnit) : onlyIf true steps = steps := rfl
@[simp] theorem onlyIf_false (steps : Reports ω PUnit) : onlyIf false steps = pure ⟨⟩ := rfl
@[simp] theorem value_pure (result : α) : value (pure result : Reports ω α) = result := rfl
@[simp] theorem log_pure (result : α) : log (pure result : Reports ω α) = [] := rfl
@[simp] theorem value_report (entry : ω) : value (report entry) = ⟨⟩ := rfl
@[simp] theorem log_report (entry : ω) : log (report entry) = [entry] := rfl

@[simp] theorem value_bind (first : Reports ω α) (next : α → Reports ω β) :
    value (first >>= next) = value (next (value first)) := rfl

@[simp] theorem log_bind (first : Reports ω α) (next : α → Reports ω β) :
    log (first >>= next) = log first ++ log (next (value first)) := rfl

@[simp] theorem value_map (change : α → β) (steps : Reports ω α) :
    value (change <$> steps) = change (value steps) := rfl

@[simp] theorem log_map (change : α → β) (steps : Reports ω α) :
    log (change <$> steps) = log steps := rfl

theorem pure_bind (result : α) (next : α → Reports ω β) :
    ((pure result : Reports ω α) >>= next) = next result := rfl

theorem bind_assoc {γ : Type u} (first : Reports ω α) (next : α → Reports ω β) (last : β → Reports ω γ) :
    (first >>= next) >>= last = first >>= fun result => next result >>= last :=
  Prod.ext rfl (List.append_assoc _ _ _)

theorem mem_log_bind {first : Reports ω α} {next : α → Reports ω β} {entry : ω} :
    entry ∈ log (first >>= next) ↔ entry ∈ log first ∨ entry ∈ log (next (value first)) := by
  rw [log_bind, List.mem_append]

/-! ## Loops -/

section Loops
variable {ι : Type u} {step : α → ι → Reports ω α}

@[simp] theorem foldlM_nil (start : α) :
    ([] : List ι).foldlM step start = pure start := rfl

@[simp] theorem foldlM_cons (start : α) (item : ι) (items : List ι) :
    (item :: items).foldlM step start = step start item >>= items.foldlM step := rfl

@[simp] theorem log_forM_report (entry : ι → ω) (items : List ι) :
    log (items.forM fun item => report (entry item)) = items.map entry := by
  induction items with
  | nil => rfl
  | cons head rest ih =>
    show entry head :: log (rest.forM fun item => report (entry item)) = _
    rw [ih, List.map_cons]

/-- A loop over independent steps reports what its steps report, in order. -/
theorem log_forM (step : ι → Reports ω PUnit) (items : List ι) :
    log (items.forM step) = items.flatMap fun item => log (step item) := by
  induction items with
  | nil => rfl
  | cons head rest ih =>
    show log (step head) ++ log (rest.forM step) = _
    rw [ih, List.flatMap_cons]

/-- A relation between the items done, the state and the report that every step keeps, as long as
its report is good, holds after a loop with a good report. -/
theorem foldlM_induction {good : ω → Prop} {motive : List ι → α → List ω → Prop} {items : List ι}
    {start : α} (hgood : ∀ entry ∈ log (items.foldlM step start), good entry)
    (hstart : motive [] start [])
    (hstep : ∀ done item state entries, done ++ [item] <+: items → motive done state entries →
      (∀ entry ∈ log (step state item), good entry) →
        motive (done ++ [item]) (value (step state item)) (entries ++ log (step state item))) :
    motive items (value (items.foldlM step start)) (log (items.foldlM step start)) := by
  have hgeneral : ∀ (rest done : List ι) (state : α) (entries : List ω), done ++ rest = items →
      motive done state entries → (∀ entry ∈ log (rest.foldlM step state), good entry) →
        motive items (value (rest.foldlM step state)) (entries ++ log (rest.foldlM step state)) := by
    intro rest
    induction rest with
    | nil =>
      intro done state entries hdone hstate _
      rw [List.append_nil] at hdone
      rw [← hdone, foldlM_nil, log_pure, List.append_nil]
      exact hstate
    | cons item rest ih =>
      intro done state entries hdone hstate hrest
      have hsplit : (done ++ [item]) ++ rest = items := by
        rw [← hdone, List.append_assoc]
        rfl
      rw [foldlM_cons] at hrest
      rw [foldlM_cons, value_bind, log_bind, ← List.append_assoc]
      apply ih (done ++ [item]) _ _ hsplit
      · apply hstep done item state entries ⟨rest, hsplit⟩ hstate
        exact fun entry hentry => hrest entry (mem_log_bind.mpr (Or.inl hentry))
      · exact fun entry hentry => hrest entry (mem_log_bind.mpr (Or.inr hentry))
  exact hgeneral items [] start [] rfl hstart hgood

/-- Whatever one item reports from every state is in the report of the loop. -/
theorem mem_log_foldlM {entry : ω} {item : ι} {items : List ι} (hitem : item ∈ items)
    (hstep : ∀ state, entry ∈ log (step state item)) (start : α) :
    entry ∈ log (items.foldlM step start) := by
  induction items generalizing start with
  | nil => cases hitem
  | cons head rest ih =>
    rw [foldlM_cons, mem_log_bind]
    rcases List.mem_cons.mp hitem with rfl | hrest
    · exact Or.inl (hstep start)
    · exact Or.inr (ih hrest _)

/-- What an item reports from the state it is done in is in the report of the loop. -/
theorem exists_log_subset_foldlM {item : ι} {items : List ι} (hitem : item ∈ items) (start : α) :
    ∃ state, log (step state item) ⊆ log (items.foldlM step start) := by
  induction items generalizing start with
  | nil => cases hitem
  | cons head rest ih =>
    rw [foldlM_cons, log_bind]
    rcases List.mem_cons.mp hitem with rfl | hrest
    · exact ⟨start, List.subset_append_left _ _⟩
    · obtain ⟨state, hstate⟩ := ih hrest (step start head).value
      exact ⟨state, fun entry hentry => List.mem_append_right _ (hstate hentry)⟩

/-- An item that always reports something with a property leaves such an entry in the loop. -/
theorem exists_mem_log_foldlM {accepts : ω → Prop} {item : ι} {items : List ι}
    (hitem : item ∈ items) (hstep : ∀ state, ∃ entry ∈ log (step state item), accepts entry)
    (start : α) : ∃ entry ∈ log (items.foldlM step start), accepts entry := by
  induction items generalizing start with
  | nil => cases hitem
  | cons head rest ih =>
    simp only [foldlM_cons, mem_log_bind]
    rcases List.mem_cons.mp hitem with rfl | hrest
    · obtain ⟨entry, hmem, haccepts⟩ := hstep start
      exact ⟨entry, Or.inl hmem, haccepts⟩
    · obtain ⟨entry, hmem, haccepts⟩ := ih hrest (step start head).value
      exact ⟨entry, Or.inr hmem, haccepts⟩

/-- Every entry of a loop was reported by one of its items. -/
theorem of_mem_log_foldlM {entry : ω} {items : List ι} {start : α}
    (h : entry ∈ log (items.foldlM step start)) :
    ∃ item ∈ items, ∃ state, entry ∈ log (step state item) := by
  induction items generalizing start with
  | nil => cases h
  | cons head rest ih =>
    rw [foldlM_cons, mem_log_bind] at h
    rcases h with hhead | hrest
    · exact ⟨head, List.mem_cons_self, start, hhead⟩
    · obtain ⟨item, hitem, state, hstate⟩ := ih hrest
      exact ⟨item, List.mem_cons_of_mem _ hitem, state, hstate⟩

/-- A relation every step keeps between its states is kept by the loop. -/
theorem value_foldlM_invariant {motive : α → Prop} {items : List ι} {start : α}
    (hstart : motive start)
    (hstep : ∀ state, ∀ item ∈ items, motive state → motive (step state item).value) :
    motive (items.foldlM step start).value := by
  induction items generalizing start with
  | nil => exact hstart
  | cons head rest ih =>
    rw [foldlM_cons, value_bind]
    exact ih (hstep start head List.mem_cons_self hstart)
      fun state item hitem => hstep state item (List.mem_cons_of_mem _ hitem)

/-- A loop whose steps append to a view of the state what they gather appends to it what all items
gather, in order. -/
theorem value_foldlM_gather {β γ : Type u} {items : List ι} (view : α → γ)
    (append : γ → List β → γ) (gather : ι → List β) (hnil : ∀ state, append state [] = state)
    (happend : ∀ state first rest, append (append state first) rest = append state (first ++ rest))
    (hstep : ∀ state, ∀ item ∈ items,
      view (step state item).value = append (view state) (gather item)) (start : α) :
    view (items.foldlM step start).value = append (view start) (items.flatMap gather) := by
  induction items generalizing start with
  | nil => exact (hnil _).symm
  | cons head rest ih =>
    rw [foldlM_cons, value_bind, ih fun state item hitem => hstep state item (List.mem_cons_of_mem _ hitem),
      hstep start head List.mem_cons_self, happend, List.flatMap_cons]

/-- Loops over related items whose steps have equal values have equal values. -/
theorem value_foldlM_related {κ : Type u} {relation : ι → κ → Prop} {items : List ι}
    {others : List κ} {otherStep : α → κ → Reports ω α} (h : List.Forall₂ relation items others)
    (hstep : ∀ state item other, relation item other →
      (step state item).value = (otherStep state other).value) (start : α) :
    (items.foldlM step start).value = (others.foldlM otherStep start).value := by
  induction h generalizing start with
  | nil => rfl
  | cons hfirst _ ih =>
    rw [foldlM_cons, foldlM_cons, value_bind, value_bind, hstep _ _ _ hfirst, ih]

theorem foldlM_append (items others : List ι) (start : α) :
    (items ++ others).foldlM step start = items.foldlM step start >>= others.foldlM step := by
  induction items generalizing start with
  | nil => rfl
  | cons item rest ih =>
    rw [List.cons_append, foldlM_cons, foldlM_cons, funext ih]
    exact (bind_assoc _ _ _).symm

/-- A loop in a loop is a loop over the pairs. -/
theorem foldlM_flatMap {κ : Type u} {parts : ι → List κ} {inner : ι → α → κ → Reports ω α} (items : List ι)
    (start : α) :
    items.foldlM (fun state item => (parts item).foldlM (inner item) state) start =
      (items.flatMap fun item => (parts item).map fun part => (item, part)).foldlM
        (fun state pair => inner pair.1 state pair.2) start := by
  induction items generalizing start with
  | nil => rfl
  | cons item rest ih =>
    rw [List.flatMap_cons, foldlM_append, List.foldlM_map, foldlM_cons]
    exact congrArg _ (funext ih)

/-- When every item can only report under its own name, and something is reported under each name, every item
reported under its name in the state it was done in. -/
theorem value_foldlM_named {κ : Type u} (named : ω → κ → Prop) (name : ι → κ) {act : α → ι → α} {items : List ι}
    {start : α} (hunique : (items.map name).Nodup)
    (hown : ∀ state item, ∀ entry ∈ log (step state item), ∀ other, named entry other → other = name item)
    (hact : ∀ state item, ∀ entry ∈ log (step state item), named entry (name item) →
      (step state item).value = act state item)
    (hall : ∀ item ∈ items, ∃ entry ∈ log (items.foldlM step start), named entry (name item)) :
    (items.foldlM step start).value = items.foldl act start := by
  induction items generalizing start with
  | nil => rfl
  | cons item rest ih =>
    rw [List.map_cons, List.nodup_cons] at hunique
    have hfirst : (step start item).value = act start item := by
      obtain ⟨entry, hentry, hnamed⟩ := hall item List.mem_cons_self
      rw [foldlM_cons, mem_log_bind] at hentry
      rcases hentry with hentry | hentry
      · exact hact start item entry hentry hnamed
      · obtain ⟨other, hother, state, hlog⟩ := of_mem_log_foldlM hentry
        rw [hown state other entry hlog _ hnamed] at hunique
        exact absurd (List.mem_map_of_mem hother) hunique.1
    rw [foldlM_cons, value_bind, hfirst, List.foldl_cons]
    apply ih hunique.2
    intro other hother
    obtain ⟨entry, hentry, hnamed⟩ := hall other (List.mem_cons_of_mem _ hother)
    rw [foldlM_cons, mem_log_bind, hfirst] at hentry
    rcases hentry with hentry | hentry
    · rw [← hown start item entry hentry _ hnamed] at hunique
      exact absurd (List.mem_map_of_mem hother) hunique.1
    · exact ⟨entry, hentry, hnamed⟩

end Loops
end Reports
