import Mathlib.Data.List.Induction

/-! # Runs of a store under fallible commands

A store accepts commands one at a time. A command either produces the next
state or is rejected, and a rejected command leaves the state it met. The run
rule reduces an invariant of every run to one obligation for each accepted
command. -/
namespace CommandRuns
set_option autoImplicit false

universe u v w
variable {σ : Type u} {ι : Type v} {ε : Type w}

/-- One attempted command. Rejection changes nothing. -/
def attempt (execute : ι → σ → Except ε σ) (state : σ) (command : ι) : σ :=
  match execute command state with
  | .ok next => next
  | .error _ => state

/-- The state reached after attempting every command in order. -/
def run (execute : ι → σ → Except ε σ) (state : σ) (commands : List ι) : σ :=
  commands.foldl (attempt execute) state

@[simp] theorem run_nil (execute : ι → σ → Except ε σ) (state : σ) :
    run execute state [] = state := rfl

@[simp] theorem run_cons (execute : ι → σ → Except ε σ) (state : σ) (command : ι)
    (commands : List ι) :
    run execute state (command :: commands) =
      run execute (attempt execute state command) commands := rfl

theorem run_append (execute : ι → σ → Except ε σ) (state : σ) (first second : List ι) :
    run execute state (first ++ second) = run execute (run execute state first) second :=
  List.foldl_append

/-- Every accepted command carries the invariant to its successor state. -/
def Preserves (execute : ι → σ → Except ε σ) (invariant : σ → Prop) : Prop :=
  ∀ command state next, invariant state → execute command state = .ok next → invariant next

theorem attempt_invariant {execute : ι → σ → Except ε σ} {invariant : σ → Prop}
    (hstep : Preserves execute invariant) {state : σ} (hstate : invariant state) (command : ι) :
    invariant (attempt execute state command) := by
  unfold attempt
  split
  · next next hnext => exact hstep command state next hstate hnext
  · exact hstate

/-- An invariant kept by every accepted command holds after every run. -/
theorem run_invariant {execute : ι → σ → Except ε σ} {invariant : σ → Prop}
    (hstep : Preserves execute invariant) {state : σ} (hstate : invariant state)
    (commands : List ι) : invariant (run execute state commands) := by
  induction commands generalizing state with
  | nil => exact hstate
  | cons command commands ih => exact ih (attempt_invariant hstep hstate command)

/-- Where every command is accepted in the state that the items before it have built, the whole run
builds the state of all items. -/
theorem run_appends {α : Type v} {execute : ι → σ → Except ε σ} {command : α → ι}
    (grown : List α → σ) {items : List α}
    (h : ∀ before item, before ++ [item] <+: items →
      execute (command item) (grown before) = .ok (grown (before ++ [item]))) :
    run execute (grown []) (items.map command) = grown items := by
  have hall : ∀ before, before <+: items → run execute (grown []) (before.map command) = grown before := by
    intro before
    induction before using List.reverseRecOn with
    | nil =>
      intro _
      rfl
    | append_singleton before item ih =>
      intro hbegins
      have hbefore := ih ((List.prefix_append before [item]).trans hbegins)
      rw [List.map_append, run_append, hbefore]
      show attempt execute (grown before) (command item) = grown (before ++ [item])
      rw [attempt, h before item hbegins]
  exact hall items List.prefix_rfl

end CommandRuns
