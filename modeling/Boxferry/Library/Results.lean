import Mathlib.Data.List.Forall2

/-! # Successful results

Inversion of a sequence of fallible steps: a computation that succeeds went
through a successful result of each step. -/
namespace Results
set_option autoImplicit false

universe u v
variable {ε : Type u} {α β : Type v}

theorem bind_eq_ok {first : Except ε α} {next : α → Except ε β} {result : β} :
    (first >>= next) = .ok result ↔ ∃ value, first = .ok value ∧ next value = .ok result := by
  cases first with
  | error failure =>
    constructor
    · intro h
      cases h
    · rintro ⟨_, h, _⟩
      cases h
  | ok value =>
    constructor
    · intro h
      exact ⟨value, rfl, h⟩
    · rintro ⟨_, h, hnext⟩
      cases h
      exact hnext

/-- A guard that succeeded did not take its failing branch. -/
theorem guard_eq_ok {condition : Prop} [Decidable condition] {failure : ε} {rest : Except ε β}
    {result : β} :
    (if condition then .error failure else rest) = .ok result ↔
      ¬ condition ∧ rest = .ok result := by
  split
  · next h => simp [h]
  · next h => simp [h]

theorem accept_eq_ok {condition : Prop} [Decidable condition] {failure : ε} {value result : β} :
    (if condition then .ok value else .error failure) = (.ok result : Except ε β) ↔
      condition ∧ value = result := by
  split
  · next h => simp [h]
  · next h => simp [h]

theorem mapError_eq_ok {ε' : Type u} {convert : ε → ε'} {first : Except ε β} {result : β} :
    first.mapError convert = .ok result ↔ first = .ok result := by
  cases first with
  | error failure =>
    constructor
    · intro h
      cases h
    · intro h
      cases h
  | ok value => simp [Except.mapError]

/-- What every successful step keeps holds after a loop that succeeded. -/
theorem foldlM_invariant {ι : Type v} {step : α → ι → Except ε α} {items : List ι} {start result : α}
    {motive : α → Prop} (h : items.foldlM step start = .ok result) (hstart : motive start)
    (hstep : ∀ state item next, motive state → step state item = .ok next → motive next) : motive result := by
  induction items generalizing start with
  | nil =>
    cases h
    exact hstart
  | cons item rest ih =>
    rw [List.foldlM_cons] at h
    obtain ⟨next, hnext, h⟩ := bind_eq_ok.mp h
    exact ih h (hstep start item next hstart hnext)

/-- A traversal succeeds when it does so for every value. -/
theorem mapM_eq_ok {step : α → Except ε β} {values : List α} {results : List β} :
    values.mapM step = .ok results ↔ List.Forall₂ (fun value result => step value = .ok result) values results := by
  induction values generalizing results with
  | nil =>
    rw [List.mapM_nil, List.forall₂_nil_left_iff]
    constructor
    · intro h
      cases h
      rfl
    · rintro rfl
      rfl
  | cons value rest ih =>
    rw [List.mapM_cons, bind_eq_ok]
    constructor
    · rintro ⟨result, hresult, h⟩
      obtain ⟨others, hothers, h⟩ := bind_eq_ok.mp h
      cases h
      exact List.Forall₂.cons hresult (ih.mp hothers)
    · intro h
      cases h with
      | cons hresult hothers => exact ⟨_, hresult, bind_eq_ok.mpr ⟨_, ih.mpr hothers, rfl⟩⟩

/-- A result together with the evidence that the computation produced it. -/
def attach : (first : Except ε α) → Except ε {value : α // first = .ok value}
  | .ok value => .ok ⟨value, rfl⟩
  | .error failure => .error failure

theorem map_attach_eq_ok {first : Except ε α} {build : {value : α // first = .ok value} → β}
    {result : β} :
    (attach first).map build = .ok result ↔ ∃ value h, build ⟨value, h⟩ = result := by
  cases first with
  | error failure =>
    constructor
    · intro h
      cases h
    · rintro ⟨_, h, _⟩
      cases h
  | ok value =>
    constructor
    · intro h
      exact ⟨value, rfl, Except.ok.inj h⟩
    · rintro ⟨_, h, hbuild⟩
      cases h
      exact congrArg Except.ok hbuild

end Results
