import Boxferry.Library.Reports

/-! # Fallible reported steps

Computations that append to a report and may stop with an error. A completed
computation is described by its result together with everything it reported. -/
set_option autoImplicit false

universe u

/-- A reported computation that may stop with an error. -/
abbrev Attempts (ω ε α : Type u) : Type u := ExceptT ε (Reports ω) α

namespace Attempts
variable {ω ε α β ι : Type u}

/-- The computation completes with a result and reports these entries. -/
def Yields (attempt : Attempts ω ε α) (result : α) (entries : List ω) : Prop :=
  Reports.value attempt.run = .ok result ∧ Reports.log attempt.run = entries

/-- Appends one entry. -/
def report (entry : ω) : Attempts ω ε PUnit := ExceptT.lift (Reports.report entry)

/-- Stops when a check fails. -/
def ensure (failure : Option ε) : Attempts ω ε PUnit :=
  match failure with
  | some error => throw error
  | none => pure ⟨⟩

@[simp] theorem yields_pure {value result : α} {entries : List ω} :
    Yields (pure value : Attempts ω ε α) result entries ↔ value = result ∧ entries = [] := by
  constructor
  · rintro ⟨hvalue, hlog⟩
    exact ⟨Except.ok.inj hvalue, hlog.symm⟩
  · rintro ⟨rfl, rfl⟩
    exact ⟨rfl, rfl⟩

@[simp] theorem yields_report {entry : ω} {result : PUnit} {entries : List ω} :
    Yields (report entry : Attempts ω ε PUnit) result entries ↔ entries = [entry] :=
  ⟨fun h => h.2.symm, fun h => ⟨rfl, h.symm⟩⟩

@[simp] theorem yields_throw {error : ε} {result : α} {entries : List ω} :
    Yields (throw error : Attempts ω ε α) result entries ↔ False := by
  constructor
  · rintro ⟨hvalue, -⟩
    cases hvalue
  · exact False.elim

theorem yields_ensure {failure : Option ε} {result : PUnit} {entries : List ω} :
    Yields (ensure failure : Attempts ω ε PUnit) result entries ↔ failure = none ∧ entries = [] := by
  cases failure with
  | none =>
    rw [ensure, yields_pure]
    simp
  | some error =>
    rw [ensure, yields_throw]
    simp

theorem yields_bind {first : Attempts ω ε α} {next : α → Attempts ω ε β} {result : β}
    {entries : List ω} : Yields (first >>= next) result entries ↔
      ∃ value before after, Yields first value before ∧ Yields (next value) result after ∧
        entries = before ++ after := by
  have hrun : (first >>= next).run = first.run >>= ExceptT.bindCont next := rfl
  unfold Yields
  rw [hrun, Reports.value_bind, Reports.log_bind]
  cases hvalue : Reports.value first.run with
  | ok value =>
    constructor
    · rintro ⟨hresult, hlog⟩
      exact ⟨value, _, _, ⟨rfl, rfl⟩, ⟨hresult, rfl⟩, hlog.symm⟩
    · rintro ⟨other, before, after, ⟨hother, rfl⟩, ⟨hresult, rfl⟩, rfl⟩
      cases hother
      exact ⟨hresult, rfl⟩
  | error error =>
    constructor
    · rintro ⟨hresult, -⟩
      cases hresult
    · rintro ⟨other, before, after, ⟨hother, -⟩, -⟩
      cases hother

theorem yields_report_bind {entry : ω} {next : PUnit → Attempts ω ε β} {result : β}
    {entries : List ω} : Yields (report entry >>= next) result entries ↔
      ∃ rest, Yields (next ⟨⟩) result rest ∧ entries = entry :: rest := by
  rw [yields_bind]
  constructor
  · rintro ⟨_, before, after, hfirst, hnext, rfl⟩
    rw [yields_report.mp hfirst]
    exact ⟨after, hnext, rfl⟩
  · rintro ⟨rest, hnext, rfl⟩
    exact ⟨⟨⟩, _, rest, yields_report.mpr rfl, hnext, rfl⟩

theorem yields_ensure_bind {failure : Option ε} {next : PUnit → Attempts ω ε β} {result : β}
    {entries : List ω} : Yields (ensure failure >>= next) result entries ↔
      failure = none ∧ Yields (next ⟨⟩) result entries := by
  rw [yields_bind]
  constructor
  · rintro ⟨_, before, after, hfirst, hnext, rfl⟩
    obtain ⟨hnone, rfl⟩ := yields_ensure.mp hfirst
    exact ⟨hnone, hnext⟩
  · rintro ⟨hnone, hnext⟩
    exact ⟨⟨⟩, [], entries, yields_ensure.mpr ⟨hnone, rfl⟩, hnext, rfl⟩

theorem yields_lift {steps : Reports ω α} {result : α} {entries : List ω} :
    Yields (ExceptT.lift steps : Attempts ω ε α) result entries ↔
      steps.value = result ∧ steps.log = entries := by
  constructor
  · rintro ⟨hvalue, hlog⟩
    exact ⟨Except.ok.inj hvalue, hlog⟩
  · rintro ⟨rfl, rfl⟩
    exact ⟨rfl, rfl⟩

/-- A relation between the items done, the state and the report, kept by every completed step,
holds after a completed loop. -/
theorem Yields.foldlM_induction {step : α → ι → Attempts ω ε α} {items : List ι} {start result : α}
    {entries : List ω} {motive : List ι → α → List ω → Prop}
    (h : Yields (items.foldlM step start) result entries) (hstart : motive [] start [])
    (hstep : ∀ done item state before next after, item ∈ items → motive done state before →
      Yields (step state item) next after → motive (done ++ [item]) next (before ++ after)) :
    motive items result entries := by
  have hgeneral : ∀ (rest done : List ι) (state : α) (before entries : List ω),
      rest ⊆ items → motive done state before →
      Yields (rest.foldlM step state) result entries →
        motive (done ++ rest) result (before ++ entries) := by
    intro rest
    induction rest with
    | nil =>
      intro done state before entries _ hdone hrest
      obtain ⟨rfl, rfl⟩ := yields_pure.mp hrest
      simpa using hdone
    | cons item rest ih =>
      intro done state before entries hsubset hdone hrest
      obtain ⟨next, first, others, hfirst, hothers, rfl⟩ := yields_bind.mp hrest
      have hitem : item ∈ items := hsubset List.mem_cons_self
      have hnext := ih (done ++ [item]) next (before ++ first) others
        (fun other hother => hsubset (List.mem_cons_of_mem _ hother))
        (hstep done item state before next first hitem hdone hfirst) hothers
      simpa [List.append_assoc] using hnext
  simpa using hgeneral items [] start [] entries (List.Subset.refl _) hstart h

end Attempts
