import Boxferry.Library.Interruptible

/-! # Annotated steps

Steps that write something down beside the state they run on. What they write changes neither
how they end nor the state they end in. -/
namespace Annotated
open Interruptible
set_option autoImplicit false

universe u
variable {ε σ ω α β : Type u}

/-- Runs the step and writes nothing. -/
def plainly (step : Step ε σ α) : Step ε (σ × ω) α :=
  fun state => ((step state.1).1, (step state.1).2, state.2)

def write (change : ω → ω) : Step ε (σ × ω) PUnit := modify fun state => (state.1, change state.2)

theorem after_plainly (step : Step ε σ α) (state : σ × ω) :
    after (plainly step) state = (after step state.1, state.2) := rfl

/-- From every state, the step ends as the plain one does, and in the state that it ends in. -/
def Erases (noted : Step ε (σ × ω) α) (plain : Step ε σ α) : Prop :=
  ∀ state, result noted state = result plain state.1 ∧ (after noted state).1 = after plain state.1

variable {noted : Step ε (σ × ω) α} {plain : Step ε σ α}

theorem erases_plainly (step : Step ε σ α) : Erases (plainly step : Step ε (σ × ω) α) step :=
  fun _ => ⟨rfl, rfl⟩

theorem erases_pure (value : α) : Erases (pure value : Step ε (σ × ω) α) (pure value) := fun _ => ⟨rfl, rfl⟩

theorem erases_throw (failure : ε) : Erases (throw failure : Step ε (σ × ω) α) (throw failure) :=
  fun _ => ⟨rfl, rfl⟩

theorem Erases.write (h : Erases noted plain) (change : ω → ω) :
    Erases (Annotated.write change >>= fun _ => noted) plain :=
  fun state => h (state.1, change state.2)

theorem Erases.thenWrite {noted : Step ε (σ × ω) PUnit} {plain : Step ε σ PUnit} (h : Erases noted plain)
    (change : ω → ω) : Erases (noted >>= fun _ => Annotated.write change) plain := by
  intro state
  obtain ⟨hresult, hafter⟩ := h state
  rw [result_bind, after_bind, hresult, ← hafter]
  cases result plain state.1 with
  | ok value => exact ⟨rfl, rfl⟩
  | error failure => exact ⟨rfl, rfl⟩

theorem Erases.bind {next : α → Step ε (σ × ω) β} {other : α → Step ε σ β} (h : Erases noted plain)
    (hnext : ∀ value, Erases (next value) (other value)) : Erases (noted >>= next) (plain >>= other) := by
  intro state
  obtain ⟨hresult, hafter⟩ := h state
  rw [result_bind, result_bind, after_bind, after_bind, hresult, ← hafter]
  cases result plain state.1 with
  | ok value => exact hnext value (after noted state)
  | error failure => exact ⟨rfl, rfl⟩

theorem Erases.tryCatch {handle : ε → Step ε (σ × ω) α} {other : ε → Step ε σ α} (h : Erases noted plain)
    (hhandle : ∀ failure, Erases (handle failure) (other failure)) :
    Erases (tryCatch noted handle) (tryCatch plain other) := by
  intro state
  obtain ⟨hresult, hafter⟩ := h state
  rw [result_tryCatch, result_tryCatch, after_tryCatch, after_tryCatch, hresult, ← hafter]
  cases result plain state.1 with
  | ok value => exact ⟨rfl, rfl⟩
  | error failure => exact hhandle failure (after noted state)

theorem erases_get_bind {next : σ × ω → Step ε (σ × ω) β} {other : σ → Step ε σ β}
    (h : ∀ state, Erases (next state) (other state.1)) : Erases (get >>= next) (get >>= other) :=
  fun state => h state state

theorem erases_ite {condition : Prop} [Decidable condition] {another : Step ε (σ × ω) α} {others : Step ε σ α}
    (h : condition → Erases noted plain) (hother : ¬ condition → Erases another others) :
    Erases (if condition then noted else another) (if condition then plain else others) := by
  by_cases hcondition : condition
  · rw [if_pos hcondition, if_pos hcondition]
    exact h hcondition
  · rw [if_neg hcondition, if_neg hcondition]
    exact hother hcondition

end Annotated
