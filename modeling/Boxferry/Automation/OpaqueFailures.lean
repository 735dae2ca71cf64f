import Mathlib.Logic.Basic
import Boxferry.Automation.OpaqueRuns

/-! # The first failure of an opaque run

Whatever raises, and wherever: the first failure recorded is the one that the abort hook and the
caller see, and the hook is called at most once. -/
namespace Boxferry.Automation.Runner
open Unwinding
set_option autoImplicit false

/-! ## What was recorded -/

def Observed.failure? : Observed → Option (OpaqueReason × RunStatus)
  | .failure why state => some (why, state)
  | _ => none

def Observed.context? : Observed → Option OpaqueAbortContext
  | .aborted context => some context
  | _ => none

def Ledger.failures (ledger : Ledger) : List (OpaqueReason × RunStatus) := ledger.log.filterMap Observed.failure?

/-- The contexts that the abort hook was called with. -/
def Ledger.contexts (ledger : Ledger) : List OpaqueAbortContext := ledger.log.filterMap Observed.context?

structure Shows (context : OpaqueAbortContext) (first : OpaqueReason × RunStatus) : Prop where
  cause : context.cause = first.1.value
  status : context.status = first.2
  metricsReason : context.metrics.reason = first.1
  metricsStatus : context.metrics.status = first.2

/-- What holds of the recorded failures wherever a run stops. -/
structure Sound (ledger : Ledger) : Prop where
  once : ledger.contexts.length ≤ 1
  silent : ledger.notified = false → ledger.contexts = []
  first : ledger.firstFailure = ledger.failures.head?
  unsuccessful : ∀ first, ledger.firstFailure = some first → first.2 ≠ .success
  agrees : ∀ context ∈ ledger.contexts, ∃ first, ledger.firstFailure = some first ∧ Shows context first

/-- The reason and status are those of the first failure. -/
def Settled (ledger : Ledger) : Prop := ledger.firstFailure = some (ledger.reason, ledger.status)

/-- A notification has reached the hook, or found no context for it. -/
def Told (ledger : Ledger) : Prop :=
  ledger.notified = true → ledger.contexts ≠ [] ∨ .contextUnavailable ∈ ledger.log

variable {ledger : Ledger} {run : Invocation}

@[simp] theorem contexts_observe {entry : Observed} :
    (ledger.observe entry).contexts = ledger.contexts ++ entry.context?.toList := by
  unfold Ledger.contexts Ledger.observe
  rw [List.filterMap_append]
  cases h : entry.context? with
  | none => simp [h]
  | some context => simp [h]

@[simp] theorem failures_observe {entry : Observed} :
    (ledger.observe entry).failures = ledger.failures ++ entry.failure?.toList := by
  unfold Ledger.failures Ledger.observe
  rw [List.filterMap_append]
  cases h : entry.failure? with
  | none => simp [h]
  | some first => simp [h]

theorem Sound.of_same {other : Ledger} (h : Sound ledger) (hlog : other.log = ledger.log)
    (hfirst : other.firstFailure = ledger.firstFailure) (hnotified : other.notified = ledger.notified) :
    Sound other := by
  obtain ⟨honce, hsilent, hheld, hunsuccessful, hagrees⟩ := h
  unfold Ledger.contexts at honce hsilent hagrees
  unfold Ledger.failures at hheld
  rw [← hlog] at honce hsilent hheld hagrees
  rw [← hfirst] at hheld hunsuccessful
  rw [← hnotified] at hsilent
  refine ⟨honce, hsilent, hheld, hunsuccessful, fun context hcontext => ?_⟩
  rw [hfirst]
  exact hagrees context hcontext

theorem Told.of_same {other : Ledger} (h : Told ledger) (hlog : other.log = ledger.log)
    (hnotified : other.notified = ledger.notified) : Told other := by
  unfold Told Ledger.contexts
  rw [hlog, hnotified]
  exact h

theorem Sound.fail {why : OpaqueReason} {state : RunStatus} (h : Sound ledger)
    (hstate : (ledger.firstFailure.getD (why, state)).2 ≠ .success) :
    Sound ((ledger.fail why state).observe (.failure why state)) := by
  have hcontexts : ((ledger.fail why state).observe (.failure why state)).contexts = ledger.contexts := by
    rw [contexts_observe]
    exact List.append_nil _
  refine ⟨?_, ?_, ?_, ?_, ?_⟩
  · rw [hcontexts]
    exact h.once
  · rw [hcontexts]
    exact h.silent
  · rw [failures_observe]
    show some (ledger.firstFailure.getD (why, state)) = (ledger.failures ++ [(why, state)]).head?
    rw [h.first]
    cases ledger.failures with
    | nil => rfl
    | cons first rest => rfl
  · intro first hfirst
    rw [← Option.some.inj hfirst]
    exact hstate
  · intro context hcontext
    rw [hcontexts] at hcontext
    obtain ⟨first, hfirst, hshows⟩ := h.agrees context hcontext
    refine ⟨first, ?_, hshows⟩
    show some (ledger.firstFailure.getD (why, state)) = some first
    rw [hfirst]
    rfl

theorem Told.fail {why : OpaqueReason} {state : RunStatus} (h : Told ledger) :
    Told ((ledger.fail why state).observe (.failure why state)) := by
  intro hnotified
  rw [contexts_observe]
  cases h hnotified with
  | inl hcontexts => exact Or.inl (List.append_ne_nil_of_left_ne_nil hcontexts _)
  | inr hunavailable => exact Or.inr (List.mem_append_left _ hunavailable)

theorem Sound.notify (h : Sound ledger) : Sound { ledger with notified := true } :=
  ⟨h.once, fun hnotified => (nomatch hnotified), h.first, h.unsuccessful, h.agrees⟩

theorem Sound.unavailable (h : Sound ledger) : Sound (ledger.observe .contextUnavailable) := by
  have hcontexts : (ledger.observe .contextUnavailable).contexts = ledger.contexts := by
    rw [contexts_observe]
    exact List.append_nil _
  refine ⟨?_, ?_, ?_, h.unsuccessful, ?_⟩
  · rw [hcontexts]
    exact h.once
  · rw [hcontexts]
    exact h.silent
  · rw [failures_observe]
    show ledger.firstFailure = (ledger.failures ++ []).head?
    rw [List.append_nil]
    exact h.first
  · rw [hcontexts]
    exact h.agrees

theorem Sound.aborted {context : OpaqueAbortContext} {first : OpaqueReason × RunStatus} (h : Sound ledger)
    (hnone : ledger.contexts = []) (hnotified : ledger.notified = true) (hfirst : ledger.firstFailure = some first)
    (hshows : Shows context first) : Sound (ledger.observe (.aborted context)) := by
  have hcontexts : (ledger.observe (.aborted context)).contexts = [context] := by
    rw [contexts_observe, hnone]
    rfl
  refine ⟨?_, ?_, ?_, h.unsuccessful, ?_⟩
  · rw [hcontexts]
    exact Nat.le_refl 1
  · intro hfalse
    exact nomatch hfalse.symm.trans hnotified
  · rw [failures_observe]
    show ledger.firstFailure = (ledger.failures ++ []).head?
    rw [List.append_nil]
    exact h.first
  · intro other hother
    rw [hcontexts, List.mem_singleton] at hother
    rw [hother]
    exact ⟨first, hfirst, hshows⟩

/-! ## Calls that record nothing -/

variable {keeps : RunVars → Prop}

theorem stable_perform (operation : Operation) : Stable keeps (perform operation) := by
  refine stable_ask fun vars event last answer hkeeps hpick => ?_
  unfold performed at hpick
  split at hpick
  · split at hpick
    · cases hpick
      exact hkeeps
    · exact nomatch hpick
  · exact nomatch hpick

theorem stable_clocked : Stable keeps (ask clocked) := by
  refine stable_ask fun vars event last answer hkeeps hpick => ?_
  unfold clocked at hpick
  split at hpick
  · cases hpick
    exact hkeeps
  · exact nomatch hpick

theorem stable_selected : Stable keeps (ask selected) := by
  refine stable_ask fun vars event last answer hkeeps hpick => ?_
  unfold selected at hpick
  split at hpick
  · split at hpick
    · cases hpick
      exact hkeeps
    · exact nomatch hpick
  · cases hpick
    exact hkeeps
  · exact nomatch hpick

theorem stable_waited (h : ∀ vars code, keeps vars → keeps { vars with exited := vars.exited.or (some code) }) :
    Stable keeps (ask waited) := by
  refine stable_ask fun vars event last answer hkeeps hpick => ?_
  unfold waited at hpick
  split at hpick
  · cases hpick
    exact h vars _ hkeeps
  · cases hpick
    exact hkeeps
  · exact nomatch hpick

theorem stable_received {cap : Nat} {stream : Stream}
    (h : ∀ vars held total, keeps vars → keeps { vars with toHeld := held, total := total }) :
    Stable keeps (ask (received cap stream)) := by
  refine stable_ask fun vars event last answer hkeeps hpick => ?_
  unfold received at hpick
  split at hpick
  · dsimp only at hpick
    split at hpick
    · cases hpick
      exact h vars _ _ hkeeps
    · exact nomatch hpick
  · split at hpick
    · cases hpick
      exact hkeeps
    · exact nomatch hpick
  · exact nomatch hpick

theorem stable_metrics {why : OpaqueReason} {state : RunStatus} : Stable keeps (metrics run why state) :=
  (stable_perform .metrics).bind fun _ => stable_reads_bind fun _ => stable_ite stable_pure stable_raise

theorem stable_abortContext {abortStatus : Option RunStatus} : Stable keeps (abortContext run abortStatus) :=
  stable_reads_bind fun _ => stable_reads_bind fun _ => stable_metrics.bind fun _ =>
    stable_ite stable_pure stable_raise

theorem stable_killpg {signal : Signal}
    (h : ∀ vars, keeps vars → keeps { vars with signals := vars.signals ++ [signal] }) :
    Stable keeps (killpg signal) :=
  (stable_update h).bind fun _ => (stable_perform .signal).attempt fun _ => stable_ite stable_pure stable_raise

theorem stable_cleanup (hsignal : ∀ vars signal, keeps vars → keeps { vars with signals := vars.signals ++ [signal] })
    (hwait : ∀ vars code, keeps vars → keeps { vars with exited := vars.exited.or (some code) }) :
    Stable keeps cleanup := by
  refine (stable_killpg fun vars => hsignal vars .term).bind fun _ => Stable.ensure ?_ ?_
  · exact (stable_waited hwait).attempt fun _ => stable_ite stable_pure stable_raise
  · exact (stable_killpg fun vars => hsignal vars .kill).bind fun _ => stable_waited hwait

/-! ## Notification -/

def SoundVars (vars : RunVars) : Prop := Sound vars.toLedger

/-- The first failure stands, and the hook has been told of it if there is one. -/
structure Reported (run : Invocation) (first : OpaqueReason × RunStatus) (ledger : Ledger) : Prop where
  firstFailure : ledger.firstFailure = some first
  reason : ledger.reason = first.1
  status : ledger.status = first.2
  told : Told ledger
  notified : run.hasAbortHook = true → ledger.notified = true

theorem Reported.settled {first : OpaqueReason × RunStatus} (h : Reported run first ledger) : Settled ledger := by
  unfold Settled
  rw [h.firstFailure, h.reason, h.status]

theorem metrics_meets {why : OpaqueReason} {state : RunStatus} :
    Meets SoundVars (fun vars => vars.toLedger = ledger) (metrics run why state)
      (fun built vars => vars.toLedger = ledger ∧ built.reason = why ∧ built.status = state)
      fun _ vars => vars.toLedger = ledger := by
  refine Meets.bind (m := fun _ vars => vars.toLedger = ledger) ?_ fun _ => meets_reads_bind fun built => ?_
  · exact Stable.meets (f := RunVars.toLedger) (fun _ => stable_perform .metrics) Sound (· = ledger)
  · refine meets_ite (fun _ => meets_pure fun vars _ h => ⟨h.2, ?_⟩) fun _ => meets_raise fun vars _ h => h.2
    rw [← h.1]
    exact ⟨rfl, rfl⟩

theorem abortContext_meets {abortStatus : Option RunStatus} {first : OpaqueReason × RunStatus}
    (hreason : ledger.reason = first.1) (hstatus : ledger.status = first.2)
    (habort : abortStatus.getD first.2 = first.2) :
    Meets SoundVars (fun vars => vars.toLedger = ledger) (abortContext run abortStatus)
      (fun context vars => vars.toLedger = ledger ∧ Shows context first) fun _ vars => vars.toLedger = ledger := by
  refine meets_reads_bind fun reason => meets_reads_bind fun status => ?_
  refine Meets.of_start fun start _ hstart => ?_
  obtain ⟨hread, hwhy, hledger⟩ := hstart
  have hfirst : reason = first.1 := by rw [← hwhy, ← hreason, ← hledger]
  have hstate : status = first.2 := by rw [← hread, ← hstatus, ← hledger]
  rw [hfirst, hstate, habort]
  refine Meets.bind (metrics_meets.strengthen fun vars _ hvars => hvars ▸ hledger) fun built => ?_
  refine meets_ite (fun _ => meets_pure fun vars _ hvars => ⟨hvars.1, ?_⟩) fun _ => meets_raise fun vars _ hvars => hvars.1
  exact ⟨rfl, rfl, hvars.2.1, hvars.2.2⟩

theorem account_meets {change : Ledger → Ledger} {p q : Ledger → Prop} {failed : Raised → RunVars → Prop}
    (h : ∀ ledger, Sound ledger → p ledger → Sound (change ledger) ∧ q (change ledger)) :
    Meets SoundVars (fun vars => p vars.toLedger) (account change) (fun _ vars => q vars.toLedger) failed :=
  meets_update fun vars hsound hpre => h vars.toLedger hsound hpre

theorem fail_meets {why : OpaqueReason} {state : RunStatus} {p q : Ledger → Prop} {failed : Raised → RunVars → Prop}
    (h : ∀ ledger, Sound ledger → p ledger → (ledger.firstFailure.getD (why, state)).2 ≠ .success ∧
      q ((ledger.fail why state).observe (.failure why state))) :
    Meets SoundVars (fun vars => p vars.toLedger) (fail why state) (fun _ vars => q vars.toLedger) failed := by
  unfold fail
  refine account_meets fun ledger hsound hp => ?_
  obtain ⟨hstate, hq⟩ := h ledger hsound hp
  exact ⟨hsound.fail hstate, hq⟩

/-- A hook that has not been called yet is called with the first failure, or has no context. -/
structure Unheard (first : OpaqueReason × RunStatus) (ledger : Ledger) : Prop where
  firstFailure : ledger.firstFailure = some first
  reason : ledger.reason = first.1
  status : ledger.status = first.2
  notified : ledger.notified = true
  silent : ledger.contexts = []

theorem callHook_meets {abortStatus : Option RunStatus} {first : OpaqueReason × RunStatus}
    (habort : abortStatus.getD first.2 = first.2) :
    Meets SoundVars (fun vars => Unheard first vars.toLedger) (callHook run abortStatus)
      (fun _ vars => Reported run first vars.toLedger) fun _ vars => Reported run first vars.toLedger := by
  refine Meets.of_start fun start hsound hunheard => ?_
  refine Meets.bind (m := fun context vars => vars.toLedger = start.toLedger ∧ Shows context first)
    (Meets.attempt (m := fun _ vars => vars.toLedger = start.toLedger) ?_ fun failure => ?_) fun context => ?_
  · exact (abortContext_meets hunheard.reason hunheard.status habort).strengthen fun vars _ hvars => hvars ▸ rfl
  · refine Meets.bind (m := fun _ vars => Reported run first vars.toLedger)
      (account_meets (p := fun current => current = start.toLedger) fun current hcurrent hsame => ?_) fun _ => ?_
    · rw [hsame] at hcurrent ⊢
      refine ⟨hcurrent.unavailable, hunheard.firstFailure, hunheard.reason, hunheard.status, fun _ => ?_,
        fun _ => hunheard.notified⟩
      exact Or.inr (List.mem_append_right _ List.mem_cons_self)
    · exact meets_raise fun _ _ h => h
  · refine Meets.bind (m := fun _ vars => Reported run first vars.toLedger)
      (account_meets (p := fun current => current = start.toLedger ∧ Shows context first)
        fun current hcurrent hsame => ?_) fun _ => ?_
    · obtain ⟨hsame, hshows⟩ := hsame
      rw [hsame] at hcurrent ⊢
      refine ⟨hcurrent.aborted hunheard.silent hunheard.notified hunheard.firstFailure hshows,
        hunheard.firstFailure, hunheard.reason, hunheard.status, fun _ => Or.inl ?_, fun _ => hunheard.notified⟩
      rw [contexts_observe]
      exact List.append_ne_nil_of_right_ne_nil _ (List.cons_ne_nil context [])
    · exact Stable.meets (f := RunVars.toLedger) (fun _ => stable_perform .hook) Sound (Reported run first)

/-- The failure that a notification reports: the first one, or else the current one. -/
structure Reports (abortStatus : Option RunStatus) (first : OpaqueReason × RunStatus) (ledger : Ledger) : Prop where
  told : Told ledger
  held : ledger.firstFailure.getD (ledger.reason, abortStatus.getD ledger.status) = first
  unsuccessful : first.2 ≠ .success
  agrees : abortStatus.getD first.2 = first.2

theorem notify_meets {abortStatus : Option RunStatus} {first : OpaqueReason × RunStatus}
    {failed : Raised → RunVars → Prop} :
    Meets SoundVars (fun vars => Reports abortStatus first vars.toLedger) (notify run abortStatus)
      (fun _ vars => Reported run first vars.toLedger) failed := by
  refine meets_reads_bind fun reason => meets_reads_bind fun status => ?_
  refine Meets.of_start fun start hsound hstart => ?_
  obtain ⟨hstatus, hreason, hreports⟩ := hstart
  have hfirst : start.firstFailure.getD (reason, abortStatus.getD status) = first := by
    rw [← hreason, ← hstatus]
    exact hreports.held
  refine Meets.bind (m := fun _ vars => Settled vars.toLedger ∧ vars.firstFailure = some first ∧ Told vars.toLedger)
    ?_ fun _ => meets_reads_bind fun notified => ?_
  · refine (fail_meets (p := (· = start.toLedger))
      (q := fun current => Settled current ∧ current.firstFailure = some first ∧ Told current)
      fun current _ hsame => ?_).strengthen fun vars _ hvars => hvars ▸ rfl
    rw [hsame]
    refine ⟨?_, rfl, ?_, hreports.told.fail⟩
    · rw [hfirst]
      exact hreports.unsuccessful
    · show some (start.firstFailure.getD (reason, abortStatus.getD status)) = some first
      rw [hfirst]
  · refine meets_ite (fun hdone => meets_pure fun vars _ hvars => ?_) fun hdone => ?_
    · obtain ⟨hnotified, hsettled, hheld, htold⟩ := hvars
      have hpair : first = (vars.reason, vars.status) := Option.some.inj (hheld.symm.trans hsettled)
      refine ⟨hheld, by rw [hpair], by rw [hpair], htold, fun hhook => ?_⟩
      rw [hnotified]
      simpa [hhook] using hdone
    · rw [Bool.not_eq_true, Bool.or_eq_false_iff] at hdone
      refine Meets.bind (m := fun _ vars => Unheard first vars.toLedger) ?_ fun _ =>
        (callHook_meets hreports.agrees).attempt fun failure => ?_
      · refine meets_update fun vars hvars hheard => ?_
        obtain ⟨hnotified, hsettled, hheld, htold⟩ := hheard
        have hpair : first = (vars.reason, vars.status) := Option.some.inj (hheld.symm.trans hsettled)
        refine ⟨hvars.notify, hheld, by rw [hpair], by rw [hpair], rfl, ?_⟩
        exact hvars.silent (hnotified.trans hdone.1)
      · exact meets_update fun vars hvars hreported => ⟨hvars, hreported⟩

end Boxferry.Automation.Runner
