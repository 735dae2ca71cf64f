import Mathlib.Data.List.Basic

/-! # Lexical path resolution

Steps that enter a name, stay, or leave the last name entered. What a path resolves to is read
from its end: a name stays unless a later leaving step takes it away. -/
namespace PathSteps
set_option autoImplicit false

universe u
variable {α : Type u} {start result : List α} {steps : List (Option (Option α))} {item : α}

/-- A step: `none` leaves, `some none` stays, `some (some name)` enters. -/
def step (names : List α) : Option (Option α) → Option (List α)
  | none => if names.isEmpty then none else some names.dropLast
  | some none => some names
  | some (some name) => some (names ++ [name])

def resolve (start : List α) (steps : List (Option (Option α))) : Option (List α) :=
  steps.foldlM step start

/-- The number of names that the steps take from what was there before, and the names they leave. -/
def kept : List (Option (Option α)) → Nat × List α
  | [] => (0, [])
  | none :: rest => ((kept rest).1 + 1, (kept rest).2)
  | some none :: rest => kept rest
  | some (some name) :: rest =>
    match kept rest with
    | (0, names) => (0, name :: names)
    | (taken + 1, names) => (taken, names)

theorem resolve_cons (first : Option (Option α)) :
    resolve start (first :: steps) = (step start first).bind fun names => resolve names steps := rfl

/-- A path resolves to the names before it that it does not take, and then to the names it leaves. -/
theorem resolve_eq (h : resolve start steps = some result) :
    result = start.take (start.length - (kept steps).1) ++ (kept steps).2 := by
  induction steps generalizing start with
  | nil =>
    have hsame : start = result := Option.some.inj h
    rw [← hsame]
    show start = start.take (start.length - 0) ++ []
    rw [Nat.sub_zero, List.take_length, List.append_nil]
  | cons first rest ih =>
    rw [resolve_cons] at h
    obtain ⟨names, hnames, hrest⟩ := Option.bind_eq_some_iff.mp h
    have hresult := ih hrest
    match first with
    | none =>
      by_cases hempty : start.isEmpty = true
      · rw [step, if_pos hempty] at hnames
        cases hnames
      · rw [step, if_neg hempty] at hnames
        have hdrop : start.dropLast = names := Option.some.inj hnames
        have hlength : names.length = start.length - 1 := by rw [← hdrop, List.length_dropLast]
        rw [hresult, hlength, ← hdrop, List.dropLast_eq_take, List.take_take]
        have hmin : min (start.length - 1 - (kept rest).1) (start.length - 1)
            = start.length - ((kept rest).1 + 1) := by omega
        rw [hmin]
        rfl
    | some none =>
      have hsame : start = names := Option.some.inj hnames
      rw [hresult, ← hsame]
      rfl
    | some (some name) =>
      have hentered : start ++ [name] = names := Option.some.inj hnames
      have hlength : names.length = start.length + 1 := by rw [← hentered, List.length_append]; rfl
      rw [hresult, hlength, ← hentered]
      cases hkept : kept rest with
      | mk taken others =>
        cases taken with
        | zero =>
          have hall : start.length + 1 - 0 = (start ++ [name]).length := by rw [List.length_append]; rfl
          have hhead : kept (some (some name) :: rest) = (0, name :: others) := by rw [kept, hkept]
          rw [hhead]
          dsimp only
          rw [hall, List.take_length, Nat.sub_zero, List.take_length, List.append_assoc]
          rfl
        | succ taken =>
          have hhead : kept (some (some name) :: rest) = (taken, others) := by rw [kept, hkept]
          have hfewer : start.length + 1 - (taken + 1) = start.length - taken := by omega
          rw [hhead]
          dsimp only
          rw [hfewer, List.take_append_of_le_length (Nat.sub_le _ _)]

theorem mem_resolve (h : resolve start steps = some result) (hitem : item ∈ result) :
    item ∈ start ∨ item ∈ (kept steps).2 := by
  rw [resolve_eq h, List.mem_append] at hitem
  exact hitem.imp_left List.mem_of_mem_take

theorem kept_mem_resolve (h : resolve start steps = some result) (hitem : item ∈ (kept steps).2) :
    item ∈ result := by
  rw [resolve_eq h, List.mem_append]
  exact Or.inr hitem

/-- The names left are among the names entered. -/
theorem mem_of_mem_kept (h : item ∈ (kept steps).2) : some (some item) ∈ steps := by
  induction steps with
  | nil => exact nomatch h
  | cons first rest ih =>
    match first with
    | none => exact List.mem_cons_of_mem _ (ih h)
    | some none => exact List.mem_cons_of_mem _ (ih h)
    | some (some name) =>
      rw [kept] at h
      cases hkept : kept rest with
      | mk taken others =>
        rw [hkept] at h ih
        cases taken with
        | zero =>
          cases List.mem_cons.mp h with
          | inl hname =>
            rw [hname]
            exact List.mem_cons_self
          | inr hother => exact List.mem_cons_of_mem _ (ih hother)
        | succ taken => exact List.mem_cons_of_mem _ (ih h)

/-! ## Climbing -/

/-- Resolving in two parts. -/
theorem resolve_append (others : List (Option (Option α))) :
    resolve start (steps ++ others) = (resolve start steps).bind fun names => resolve names others := by
  unfold resolve
  rw [List.foldlM_append]
  rfl

/-- Names that are only entered follow what was there. -/
theorem resolve_entered (names : List α) :
    resolve start (names.map fun name => some (some name)) = some (start ++ names) := by
  induction names generalizing start with
  | nil => rw [List.append_nil]; rfl
  | cons name names ih =>
    rw [List.map_cons, resolve_cons]
    show resolve (start ++ [name]) _ = _
    rw [ih, List.append_assoc]
    rfl

def leaves : Option (Option α) → Bool
  | none => true
  | _ => false

def enters : Option (Option α) → Bool
  | some (some _) => true
  | _ => false

/-- The steps leave more names than were there and were entered. -/
def Climbs (depth : Nat) (steps : List (Option (Option α))) : Prop :=
  depth + steps.countP enters < steps.countP leaves

theorem not_climbs_nil (depth : Nat) : ¬Climbs depth ([] : List (Option (Option α))) := by
  unfold Climbs
  rw [List.countP_nil, List.countP_nil]
  exact Nat.not_lt_zero _

/-- A path has no result exactly when a part of it from the start climbs above the names there. -/
theorem resolve_eq_none : resolve start steps = none ↔ ∃ part, part <+: steps ∧ Climbs start.length part := by
  induction steps generalizing start with
  | nil =>
    constructor
    · intro h
      exact nomatch h
    · intro ⟨part, hpart, hclimbs⟩
      rw [List.prefix_nil.mp hpart] at hclimbs
      exact absurd hclimbs (not_climbs_nil start.length)
  | cons first rest ih =>
    rw [resolve_cons]
    constructor
    · intro h
      match first with
      | none =>
        by_cases hempty : start = []
        · refine ⟨[none], List.cons_prefix_cons.mpr ⟨rfl, List.nil_prefix⟩, ?_⟩
          rw [hempty]
          exact Nat.zero_lt_one
        · have hstep : step start none = some start.dropLast := by
            rw [step, if_neg (by rwa [List.isEmpty_iff])]
          rw [hstep] at h
          obtain ⟨part, hpart, hclimbs⟩ := ih.mp h
          refine ⟨none :: part, List.cons_prefix_cons.mpr ⟨rfl, hpart⟩, ?_⟩
          have hpos : 0 < start.length := List.length_pos_iff.mpr hempty
          unfold Climbs at hclimbs ⊢
          rw [List.length_dropLast] at hclimbs
          simp only [List.countP_cons, enters, leaves]
          simp only [Bool.false_eq_true, if_false, if_true]
          omega
      | some none =>
        obtain ⟨part, hpart, hclimbs⟩ := ih.mp h
        refine ⟨some none :: part, List.cons_prefix_cons.mpr ⟨rfl, hpart⟩, ?_⟩
        unfold Climbs at hclimbs ⊢
        simpa [enters, leaves] using hclimbs
      | some (some name) =>
        obtain ⟨part, hpart, hclimbs⟩ := ih.mp h
        refine ⟨some (some name) :: part, List.cons_prefix_cons.mpr ⟨rfl, hpart⟩, ?_⟩
        unfold Climbs at hclimbs ⊢
        rw [List.length_append, List.length_singleton] at hclimbs
        simp only [List.countP_cons, enters, leaves]
        simp only [Bool.false_eq_true, if_false, if_true]
        omega
    · intro ⟨part, hpart, hclimbs⟩
      cases part with
      | nil => exact absurd hclimbs (not_climbs_nil start.length)
      | cons head part =>
        obtain ⟨hhead, htail⟩ := List.cons_prefix_cons.mp hpart
        clear hpart
        subst hhead
        unfold Climbs at hclimbs
        simp only [List.countP_cons] at hclimbs
        match head with
        | none =>
          by_cases hempty : start = []
          · rw [hempty]
            rfl
          · have hstep : step start none = some start.dropLast := by
              rw [step, if_neg (by rwa [List.isEmpty_iff])]
            rw [hstep]
            refine ih.mpr ⟨part, htail, ?_⟩
            have hpos : 0 < start.length := List.length_pos_iff.mpr hempty
            unfold Climbs
            rw [List.length_dropLast]
            simp only [enters, leaves, Bool.false_eq_true, if_false, if_true] at hclimbs
            omega
        | some none =>
          refine ih.mpr ⟨part, htail, ?_⟩
          unfold Climbs
          simpa [enters, leaves] using hclimbs
        | some (some name) =>
          refine ih.mpr ⟨part, htail, ?_⟩
          unfold Climbs
          rw [List.length_append, List.length_singleton]
          simp only [enters, leaves, Bool.false_eq_true, if_false, if_true] at hclimbs
          omega

end PathSteps
