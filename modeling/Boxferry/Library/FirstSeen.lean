import Mathlib.Order.Basic
import Mathlib.Data.List.Induction

/-! # Ledgers of first observations

A ledger keeps, for each key, when the key was first observed. An observation at
some time adds entries with that time and changes no entry. Whatever a run of
observations has entered for a key, the call at that time entered it. -/
namespace FirstSeen
set_option autoImplicit false

universe u v w
variable {κ : Type u} {τ : Type v} {σ : Type w} {now : τ} {first second third : κ → Option τ}

/-- The second ledger has the entries of the first, and otherwise entries of the present time. -/
def Observes (now : τ) (first second : κ → Option τ) : Prop :=
  ∀ key, second key = first key ∨ first key = none ∧ second key = some now

theorem Observes.refl (now : τ) (first : κ → Option τ) : Observes now first first :=
  fun _ => Or.inl rfl

theorem Observes.trans (h : Observes now first second) (hnext : Observes now second third) :
    Observes now first third := by
  intro key
  rcases hnext key with hsame | ⟨hnone, hsome⟩
  · rw [hsame]
    exact h key
  · rcases h key with hold | ⟨-, hnow⟩
    · exact Or.inr ⟨hold.symm.trans hnone, hsome⟩
    · rw [hnone] at hnow
      cases hnow

/-- An entry survives every observation. -/
theorem Observes.kept (h : Observes now first second) {key : κ} {stamp : τ}
    (hentry : first key = some stamp) : second key = some stamp := by
  rcases h key with hsame | ⟨hnone, -⟩
  · exact hsame.trans hentry
  · rw [hentry] at hnone
    cases hnone

/-! ## Runs -/

section Runs

variable {call : Type u} (step : σ → call → σ) (time : call → τ) (view : σ → κ → Option τ)

/-- One of the calls, at the given time, enters the key. -/
def Recorded (start : σ) (calls : List call) (key : κ) (stamp : τ) : Prop :=
  ∃ before current after, calls = before ++ current :: after ∧ time current = stamp ∧
    view (before.foldl step start) key = none ∧
      view ((before ++ [current]).foldl step start) key = some stamp

variable {step time view} {start : σ} {calls : List call} {key : κ} {stamp : τ}

theorem Recorded.append (h : Recorded step time view start calls key stamp) (later : List call) :
    Recorded step time view start (calls ++ later) key stamp := by
  obtain ⟨before, current, after, hsplit, hrest⟩ := h
  refine ⟨before, current, after ++ later, ?_, hrest⟩
  rw [hsplit, List.append_assoc, List.cons_append]

/-- What a run from an empty ledger holds for a key, one of its calls entered at that time. -/
theorem recorded_of_entry (hempty : view start = fun _ => none)
    (hstep : ∀ before current after, calls = before ++ current :: after →
      Observes (time current) (view (before.foldl step start))
        (view (step (before.foldl step start) current)))
    (hentry : view (calls.foldl step start) key = some stamp) :
    Recorded step time view start calls key stamp := by
  induction calls using List.reverseRecOn with
  | nil =>
    rw [List.foldl_nil, hempty] at hentry
    cases hentry
  | append_singleton calls current ih =>
    have hleading : ∀ before middle after, calls = before ++ middle :: after →
        Observes (time middle) (view (before.foldl step start))
          (view (step (before.foldl step start) middle)) := by
      intro before middle after hsplit
      apply hstep before middle (after ++ [current])
      rw [hsplit, List.append_assoc, List.cons_append]
    have hfold : (calls ++ [current]).foldl step start = step (calls.foldl step start) current := by
      rw [List.foldl_append, List.foldl_cons, List.foldl_nil]
    rcases hstep calls current [] rfl key with hsame | ⟨hnone, hsome⟩
    · rw [hfold, hsame] at hentry
      exact (ih hleading hentry).append [current]
    · rw [hfold, hsome] at hentry
      cases hentry
      refine ⟨calls, current, [], rfl, rfl, hnone, ?_⟩
      rw [hfold]
      exact hsome

end Runs

end FirstSeen
