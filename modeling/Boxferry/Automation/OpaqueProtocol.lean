import Boxferry.Automation.OpaqueFailures

/-! # The failure protocol of opaque runs

What every finished run has done: told the hook, cleaned the process group, and answered with the
failure that it recorded first. -/
namespace Boxferry.Automation.Runner
open Unwinding
set_option autoImplicit false

variable {run : Invocation} {keeps : RunVars → Prop}

/-! ## What failures leave alone -/

theorem stable_account {change : Ledger → Ledger}
    (h : ∀ vars ledger, keeps vars → keeps { vars with toLedger := ledger }) : Stable keeps (account change) :=
  stable_update fun vars hvars => h vars _ hvars

theorem stable_fail {why : OpaqueReason} {state : RunStatus}
    (h : ∀ vars ledger, keeps vars → keeps { vars with toLedger := ledger }) : Stable keeps (fail why state) := by
  unfold fail
  exact stable_account h

theorem stable_notify {abortStatus : Option RunStatus}
    (h : ∀ vars ledger, keeps vars → keeps { vars with toLedger := ledger })
    (hhook : ∀ vars text, keeps vars → keeps { vars with hookFailure := text }) :
    Stable keeps (notify run abortStatus) := by
  refine stable_reads_bind fun _ => stable_reads_bind fun _ => (stable_account h).bind fun _ =>
    stable_reads_bind fun _ => stable_ite stable_pure ((stable_account h).bind fun _ => Stable.attempt ?_ fun _ => ?_)
  · refine (stable_abortContext.attempt fun _ => ?_).bind fun _ => ?_
    · exact (stable_account h).bind fun _ => stable_raise
    · exact (stable_account h).bind fun _ => stable_perform .hook
  · exact stable_update fun vars hvars => hhook vars _ hvars

theorem sound_cleanup : Stable SoundVars cleanup := stable_cleanup (fun _ _ h => h) fun _ _ h => h

/-! ## Reported failures -/

/-- No failure was recorded, or the current reason and status are those of the first one. -/
def Steady (ledger : Ledger) : Prop := ledger.firstFailure = none ∨ Settled ledger

theorem Settled.unsuccessful {ledger : Ledger} (hsound : Sound ledger) (h : Settled ledger) :
    ledger.status ≠ .success :=
  hsound.unsuccessful _ h

/-- A notification with nothing new reports the first failure, or the current one. -/
theorem notify_any {failed : Raised → RunVars → Prop} :
    Meets SoundVars (fun vars => Told vars.toLedger ∧ (vars.status ≠ .success ∨ Settled vars.toLedger))
      (notify run none) (fun _ vars => ∃ first, Reported run first vars.toLedger) failed := by
  refine Meets.of_start fun start hsound hstart => ?_
  obtain ⟨htold, hfailure⟩ := hstart
  have hstatus : start.status ≠ .success := hfailure.elim id fun hsettled => hsettled.unsuccessful hsound
  refine (@notify_meets run none (start.firstFailure.getD (start.reason, start.status)) failed).weaken ?_
    (fun _ _ _ hreported => ⟨_, hreported⟩) fun _ _ _ hfailed => hfailed
  intro vars _ hvars
  rw [hvars]
  refine ⟨htold, rfl, ?_, rfl⟩
  cases hfirst : start.firstFailure with
  | none => exact hstatus
  | some first => exact hsound.unsuccessful first hfirst

/-- Whatever is recorded, the first failure stands. -/
theorem fail_settles {why : OpaqueReason} {state : RunStatus} {failed : Raised → RunVars → Prop}
    (hstate : state ≠ .success) :
    Meets SoundVars (fun vars => Told vars.toLedger) (fail why state)
      (fun _ vars => Told vars.toLedger ∧ Settled vars.toLedger) failed := by
  refine fail_meets (q := fun ledger => Told ledger ∧ Settled ledger) fun ledger hsound htold => ?_
  refine ⟨?_, htold.fail, rfl⟩
  cases hfirst : ledger.firstFailure with
  | none => exact hstate
  | some first => exact hsound.unsuccessful first hfirst

theorem recorded_unsuccessful (failure : Raised) (otherwise : OpaqueReason) :
    (failure.recorded otherwise).2 ≠ .success := by
  unfold Raised.recorded
  split
  · exact fun h => nomatch h
  · exact fun h => nomatch h

theorem reportFailure_meets {failure : Raised} {failed : Raised → RunVars → Prop} :
    Meets SoundVars (fun vars => Told vars.toLedger) (reportFailure run failure)
      (fun _ vars => ∃ first, Reported run first vars.toLedger) failed :=
  (fail_settles (recorded_unsuccessful failure _)).bind fun _ =>
    notify_any.strengthen fun _ _ h => ⟨h.1, Or.inr h.2⟩

/-! ## The loop -/

/-- No failure was recorded by the loop, except an exit that it has cleaned up after. -/
def Looping (vars : RunVars) : Prop :=
  vars.process = true ∧ vars.pendingOpaqueRaise = false ∧ Told vars.toLedger ∧ vars.status ≠ .success ∧
    (vars.firstFailure = none ∨ vars.cleaned = true ∧ vars.firstFailure = some (.exitNonzero, .failed) ∧
      ∃ code, vars.exited = some code ∧ code ≠ 0)

/-- The loop has ended, successfully only when no failure was recorded. -/
def Stopped (vars : RunVars) : Prop :=
  vars.process = true ∧ vars.pendingOpaqueRaise = false ∧ Told vars.toLedger ∧
    (vars.status = .success → vars.firstFailure = none)

def ToldVars (vars : RunVars) : Prop := Told vars.toLedger

theorem Looping.told {vars : RunVars} (h : Looping vars) : ToldVars vars := h.2.2.1

theorem Looping.stopped {vars : RunVars} (h : Looping vars) : Stopped vars :=
  ⟨h.1, h.2.1, h.2.2.1, fun hsuccess => absurd hsuccess h.2.2.2.1⟩

/-- A part of the loop that keeps it going, and may raise. -/
theorem looping_of_stable {α : Type} {program : Program α} (hsound : Stable SoundVars program)
    (hlooping : Stable Looping program) :
    Meets SoundVars Looping program (fun _ => Looping) fun _ => ToldVars :=
  (hsound.triple hlooping).weaken (fun _ _ h => h) (fun _ _ _ h => h) fun _ _ _ h => h.told

theorem stable_runMonitor (h : ∀ vars, keeps vars → keeps { vars with phase := .monitor }) :
    Stable keeps (runMonitor run) :=
  stable_ite ((stable_update h).bind fun _ => stable_perform .monitor) stable_pure

theorem stable_readStream {stream : Stream}
    (h : ∀ vars held total, keeps vars → keeps { vars with toHeld := held, total := total }) :
    Stable keeps (readStream run stream) :=
  ((stable_received h).bind fun _ => stable_pure).attempt fun _ => stable_ite stable_pure stable_raise

theorem stable_drain {streams : List Stream}
    (hheld : ∀ vars held total, keeps vars → keeps { vars with toHeld := held, total := total })
    (hregistered : ∀ vars streams, keeps vars → keeps { vars with registered := streams }) :
    Stable keeps (drain run streams) := by
  induction streams with
  | nil => exact stable_pure
  | cons stream streams ih =>
    refine Stable.bind ((stable_readStream hheld).bind fun size => ?_) fun _ => stable_ite stable_pure ih
    split
    · exact stable_pure
    · refine (stable_perform .unregister).bind fun _ => Stable.bind ?_ fun _ => stable_pure
      exact stable_update fun vars hvars => hregistered vars _ hvars
    · exact stable_pure

theorem drain_meets {streams : List Stream} :
    Meets SoundVars Looping (drain run streams) (fun _ => Looping) fun _ => ToldVars :=
  looping_of_stable (stable_drain (fun _ _ _ h => h) fun _ _ h => h) (stable_drain (fun _ _ _ h => h) fun _ _ h => h)

theorem capture_meets :
    Meets SoundVars Looping (capture run) (Rounds Looping fun _ => Stopped) fun _ => ToldVars := by
  refine (looping_of_stable stable_clocked stable_clocked).bind fun elapsed => meets_ite (fun _ => ?_) fun _ => ?_
  · refine Meets.bind (m := fun _ => Stopped) (meets_update fun vars hsound h => ?_) fun _ =>
      meets_pure fun _ _ h => h
    exact ⟨hsound.of_same rfl rfl rfl, h.stopped⟩
  · refine (looping_of_stable stable_selected stable_selected).bind fun ready =>
      drain_meets.bind fun exceeded => meets_ite (fun _ => ?_) fun _ => meets_pure fun _ _ h => h
    refine Meets.bind (m := fun _ => Stopped) (meets_update fun vars hsound h => ?_) fun _ =>
      meets_pure fun _ _ h => h
    exact ⟨hsound.of_same rfl rfl rfl, h.1, h.2.1, h.told.of_same rfl rfl, fun hsuccess => nomatch hsuccess⟩

theorem polled_meets :
    Meets SoundVars Looping (ask polled) (fun code vars => Looping vars ∧ vars.exited = code) fun _ => ToldVars := by
  refine meets_ask fun vars event last answer hsound hlooping hpick => ?_
  unfold polled at hpick
  split at hpick
  · next code =>
    cases hpick
    obtain ⟨hprocess, hpending, htold, hstatus, hfailure⟩ := hlooping
    refine ⟨hsound, ⟨hprocess, hpending, htold, hstatus, ?_⟩, rfl⟩
    refine hfailure.imp id fun hfailed => ⟨hfailed.1, hfailed.2.1, ?_⟩
    obtain ⟨exit, hexit, hnonzero⟩ := hfailed.2.2
    refine ⟨exit, ?_, hnonzero⟩
    show vars.exited.or code = some exit
    rw [hexit]
    rfl
  · cases hpick
    exact ⟨hsound, hlooping.told⟩
  · exact nomatch hpick

/-! ## The exit of the command -/

/-- The exit has been seen, and recorded when the command failed. -/
def Exited (code : Int) (vars : RunVars) : Prop :=
  vars.process = true ∧ vars.pendingOpaqueRaise = false ∧ Told vars.toLedger ∧ vars.status ≠ .success ∧
    vars.exited = some code ∧
      (code = 0 ∧ vars.firstFailure = none ∨ code ≠ 0 ∧ vars.firstFailure = some (.exitNonzero, .failed))

theorem reportExit_meets {code : Int} {failed : Raised → RunVars → Prop} :
    Meets SoundVars (fun vars => Looping vars ∧ vars.exited = some code ∧ vars.cleaned = false)
      (reportExit run code) (fun _ => Exited code) failed := by
  have hnone : ∀ vars, Looping vars → vars.cleaned = false → vars.firstFailure = none := by
    intro vars hlooping hcleaned
    exact hlooping.2.2.2.2.resolve_right fun hfailed => nomatch hcleaned.symm.trans hfailed.1
  refine meets_ite (fun hcode => ?_) fun hcode => meets_pure fun vars _ h => ?_
  · let frame : RunVars → Prop := fun vars =>
      vars.process = true ∧ vars.pendingOpaqueRaise = false ∧ vars.exited = some code
    refine Meets.bind (m := fun _ vars => Reports (some .failed) (.exitNonzero, .failed) vars.toLedger ∧ frame vars)
      (meets_update fun vars hsound h => ?_) fun _ => ?_
    · obtain ⟨hlooping, hexited, hcleaned⟩ := h
      refine ⟨hsound.of_same rfl rfl rfl, ⟨hlooping.told.of_same rfl rfl, ?_, ?_, rfl⟩,
        hlooping.1, hlooping.2.1, hexited⟩
      · show vars.firstFailure.getD _ = _
        rw [hnone vars hlooping hcleaned]
        rfl
      · exact fun h => nomatch h
    · refine (notify_meets.and_stable (stable_notify (fun _ _ h => h) fun _ _ h => h)).weaken
        (fun _ _ h => h) (fun _ vars _ h => ?_) fun _ _ _ hfailed => hfailed.1
      obtain ⟨hreported, hprocess, hpending, hexited⟩ := h
      refine ⟨hprocess, hpending, hreported.told, ?_, hexited, Or.inr ⟨hcode, hreported.firstFailure⟩⟩
      rw [hreported.status]
      exact fun h => nomatch h
  · obtain ⟨⟨hprocess, hpending, htold, hstatus, hfailure⟩, hexited, hcleaned⟩ := h
    rw [not_not] at hcode
    have hfirst := hnone vars ⟨hprocess, hpending, htold, hstatus, hfailure⟩ hcleaned
    exact ⟨hprocess, hpending, htold, hstatus, hexited, Or.inl ⟨hcode, hfirst⟩⟩

theorem exited_cleanup {code : Int} : Stable (Exited code) cleanup := by
  refine stable_cleanup (fun _ _ h => h) fun vars other h => ?_
  obtain ⟨hprocess, hpending, htold, hstatus, hexited, hfailure⟩ := h
  refine ⟨hprocess, hpending, htold, hstatus, ?_, hfailure⟩
  show vars.exited.or (some other) = some code
  rw [hexited]
  rfl

theorem cleanEarly_meets {code : Int} :
    Meets SoundVars (Exited code) (cleanEarly run code) (fun _ vars => Looping vars ∧ vars.exited = some code)
      fun _ => ToldVars := by
  refine meets_ite (fun _ => ?_) fun hlate => meets_pure fun vars _ h => ?_
  · refine Meets.bind (m := fun _ => Exited code) (meets_update fun _ hsound h => ⟨hsound, h⟩) fun _ => ?_
    refine Meets.bind (m := fun _ => Exited code) ?_ fun _ => meets_update fun vars hsound h => ⟨hsound, ?_⟩
    · exact (sound_cleanup.triple exited_cleanup).weaken (fun _ _ h => h) (fun _ _ _ h => h) fun _ _ _ h => h.2.2.1
    · obtain ⟨hprocess, hpending, htold, hstatus, hexited, hfailure⟩ := h
      refine ⟨⟨hprocess, hpending, htold, hstatus, ?_⟩, hexited⟩
      exact hfailure.imp And.right fun hfailed => ⟨rfl, hfailed.2, code, hexited, hfailed.1⟩
  · obtain ⟨hprocess, hpending, htold, hstatus, hexited, hfailure⟩ := h
    rw [Bool.not_eq_true, Bool.or_eq_false_iff, decide_eq_false_iff_not, not_not] at hlate
    refine ⟨⟨hprocess, hpending, htold, hstatus, Or.inl ?_⟩, hexited⟩
    exact (hfailure.resolve_right fun hfailed => hfailed.1 hlate.2).2

theorem observeExit_meets {code : Option Int} :
    Meets SoundVars (fun vars => Looping vars ∧ vars.exited = code) (observeExit run code)
      (fun _ vars => Looping vars ∧ vars.exited = code) fun _ => ToldVars := by
  cases code with
  | none => exact meets_pure fun _ _ h => h
  | some code =>
    refine meets_reads_bind fun cleaned => ?_
    cases cleaned with
    | true => exact meets_pure fun _ _ h => h.2
    | false =>
      refine Meets.bind (m := fun _ => Exited code) ?_ fun _ => cleanEarly_meets
      exact reportExit_meets.strengthen fun vars _ h => ⟨h.2.1, h.2.2, h.1⟩

/-! ## The private parser -/

/-- The command has succeeded, and nothing has failed yet. -/
def Parsing (vars : RunVars) : Prop :=
  vars.process = true ∧ vars.pendingOpaqueRaise = false ∧ Told vars.toLedger ∧ vars.firstFailure = none

theorem stable_checkDeadline : Stable keeps (checkDeadline run) :=
  stable_clocked.bind fun _ => stable_ite stable_raise stable_pure

theorem stable_parse (h : ∀ vars privateBytes, keeps vars → keeps { vars with privateBytes := privateBytes, captured := [] }) :
    Stable keeps (parse run) :=
  stable_checkDeadline.bind fun _ => (stable_update fun vars hvars => h vars _ hvars).bind fun _ =>
    (stable_perform .parse).bind fun _ => stable_checkDeadline

theorem parsePrivate_meets {failed : Raised → RunVars → Prop} :
    Meets SoundVars Parsing (parsePrivate run) (fun _ => Stopped) failed := by
  refine Meets.ensure (m := fun _ => Stopped) (r := fun _ _ => False) (Meets.attempt (m := fun _ => Parsing) ?_
    fun failure => ?_) (fun _ => meets_update fun _ hsound h => ⟨hsound, h⟩) fun _ _ _ hfalse => hfalse.elim
  · have hparsing : Stable Parsing (parse run) := stable_parse fun _ _ h => h
    refine (Stable.triple (stable_parse fun _ _ h => h) hparsing).weaken (fun _ _ h => h) (fun _ _ _ h => ?_)
      fun _ _ _ h => h
    exact ⟨h.1, h.2.1, h.2.2.1, fun _ => h.2.2.2⟩
  · unfold parseFailed
    have hframe : Stable (fun vars : RunVars => vars.process = true ∧ vars.pendingOpaqueRaise = false)
        (fail (failure.recorded (parserReason failure)).1 (failure.recorded (parserReason failure)).2) :=
      stable_fail fun _ _ h => h
    refine ((fail_settles (recorded_unsuccessful failure _)).and_stable hframe).weaken
      (fun _ _ h => ⟨h.2.2.1, h.1, h.2.1⟩) (fun _ vars hsound h => ?_) fun _ _ _ hfailed => hfailed.1
    exact ⟨h.2.1, h.2.2, h.1.1, fun hsuccess => absurd hsuccess (h.1.2.unsuccessful hsound)⟩

theorem complete_meets {code : Int} {failed : Raised → RunVars → Prop} :
    Meets SoundVars (fun vars => Looping vars ∧ vars.exited = some code) (complete run code) (fun _ => Stopped)
      failed := by
  refine meets_ite (fun hcode => ?_) fun hcode => ?_
  · refine Meets.bind (m := fun _ => Parsing) (meets_update fun vars hsound h => ?_) fun _ => parsePrivate_meets
    obtain ⟨⟨hprocess, hpending, htold, -, hfailure⟩, hexited⟩ := h
    refine ⟨hsound.of_same rfl rfl rfl, hprocess, hpending, htold.of_same rfl rfl, ?_⟩
    refine hfailure.resolve_right fun hfailed => ?_
    obtain ⟨exit, hexit, hnonzero⟩ := hfailed.2.2
    rw [hexited] at hexit
    exact hnonzero (Option.some.inj hexit ▸ hcode)
  · refine meets_update fun vars hsound h => ⟨hsound.of_same rfl rfl rfl, h.1.1, h.1.2.1, ?_, ?_⟩
    · exact h.1.told.of_same rfl rfl
    · exact fun hsuccess => nomatch hsuccess

theorem round_meets :
    Meets SoundVars Looping (round run) (Rounds Looping fun _ => Stopped) fun _ => ToldVars := by
  refine (looping_of_stable (stable_runMonitor fun _ h => h) (stable_runMonitor fun _ h => h)).bind fun _ => ?_
  refine Meets.bind (m := fun _ => Looping) (meets_update fun _ hsound h => ⟨hsound, h⟩) fun _ => ?_
  refine polled_meets.bind fun code => ?_
  refine Meets.bind (m := fun _ vars => Looping vars ∧ vars.exited = code)
    (meets_update fun _ hsound h => ⟨hsound, h⟩) fun _ => ?_
  refine observeExit_meets.bind fun _ => meets_reads_bind fun registered => ?_
  split
  · exact (complete_meets.strengthen fun _ _ h => h.2).bind fun _ => meets_pure fun _ _ h => h
  · exact capture_meets.strengthen fun _ _ h => h.2.1

/-! ## Handlers -/

/-- Nothing was started and nothing was recorded. -/
def Fresh (vars : RunVars) : Prop :=
  vars.process = false ∧ vars.pendingOpaqueRaise = false ∧ Told vars.toLedger ∧ vars.status ≠ .success ∧
    vars.firstFailure = none

theorem spawned_meets : Meets SoundVars Fresh (ask spawned) (fun _ => Looping) fun _ => ToldVars := by
  refine meets_ask fun vars event last answer hsound hfresh hpick => ?_
  obtain ⟨-, hpending, htold, hstatus, hfirst⟩ := hfresh
  unfold spawned at hpick
  split at hpick
  · cases hpick
    exact ⟨hsound, rfl, hpending, htold, hstatus, Or.inl hfirst⟩
  · cases hpick
    exact ⟨hsound, htold⟩
  · exact nomatch hpick

theorem stable_registerStream {stream : Stream}
    (h : ∀ vars streams, keeps vars → keeps { vars with registered := streams }) :
    Stable keeps (registerStream stream) :=
  (stable_perform .register).bind fun _ => stable_update fun vars hvars => h vars _ hvars

theorem registerStream_meets {stream : Stream} :
    Meets SoundVars Looping (registerStream stream) (fun _ => Looping) fun _ => ToldVars :=
  looping_of_stable (stable_registerStream fun _ _ h => h) (stable_registerStream fun _ _ h => h)

theorem execute_meets {bound : Nat} :
    Meets SoundVars Fresh (execute run bound) (fun _ => Stopped) fun _ => ToldVars := by
  have hpipes : ∀ {keeps : RunVars → Prop}, Stable keeps checkPipes :=
    stable_reads_bind fun _ => stable_ite stable_pure stable_raise
  exact spawned_meets.bind fun _ => (looping_of_stable hpipes hpipes).bind fun _ =>
    registerStream_meets.bind fun _ => registerStream_meets.bind fun _ => Meets.iterate round_meets

/-- The loop has ended without a failure that is not recorded. -/
def Ended (vars : RunVars) : Prop := Stopped vars ∨ Told vars.toLedger ∧ Settled vars.toLedger

theorem handleFailure_meets {failure : Raised} {failed : Raised → RunVars → Prop} :
    Meets SoundVars ToldVars (handleFailure run failure)
      (fun _ vars => Told vars.toLedger ∧ Settled vars.toLedger) failed := by
  refine meets_ite (fun _ => ?_) fun _ => ?_
  · refine Meets.bind (m := fun _ => ToldVars) (meets_update fun _ hsound h => ⟨hsound, h⟩) fun _ => ?_
    exact fail_settles (by decide)
  · split
    · refine Meets.bind (m := fun _ => ToldVars)
        (meets_update fun _ hsound h => ⟨hsound.of_same rfl rfl rfl, h.of_same rfl rfl⟩) fun _ =>
        meets_reads_bind fun _ => (fail_settles (by decide)).strengthen fun _ _ h => h.2
    · refine Meets.bind (m := fun _ => ToldVars)
        (meets_update fun _ hsound h => ⟨hsound.of_same rfl rfl rfl, h.of_same rfl rfl⟩) fun _ =>
        meets_reads_bind fun _ => ((fail_settles (by decide)).strengthen fun _ _ h => h.2).bind fun _ =>
        meets_reads_bind fun process => meets_ite (fun _ => ?_) fun _ => meets_pure fun _ _ h => h.2
      refine notify_any.weaken (fun _ _ h => ⟨h.2.1, Or.inr h.2.2⟩) (fun _ _ _ h => ?_) fun _ _ _ h => h
      obtain ⟨first, hreported⟩ := h
      exact ⟨hreported.told, hreported.settled⟩

/-! ## Releasing the process -/

/-- The run has succeeded so far, or its first failure has been reported. -/
def Accounted (run : Invocation) (vars : RunVars) : Prop :=
  (Told vars.toLedger ∧ vars.firstFailure = none ∧ vars.status = .success ∧ vars.pendingOpaqueRaise = false) ∨
    ∃ first, Reported run first vars.toLedger

/-- There is a process, and its group has been signalled. -/
def Signalled (vars : RunVars) : Prop := vars.process = true ∧ .term ∈ vars.signals

theorem Accounted.told {vars : RunVars} (h : Accounted run vars) : Told vars.toLedger :=
  h.elim And.left fun ⟨_, hreported⟩ => hreported.told

theorem notifyUnsuccessful_meets {failed : Raised → RunVars → Prop} :
    Meets SoundVars Ended (notifyUnsuccessful run) (fun _ => Accounted run) failed := by
  refine meets_reads_bind fun status => meets_ite (fun hsuccess => ?_) fun hfailure => ?_
  · refine meets_pure fun vars hsound h => Or.inl ?_
    obtain ⟨hstatus, hended⟩ := h
    rw [hsuccess] at hstatus
    cases hended with
    | inl hstopped => exact ⟨hstopped.2.2.1, hstopped.2.2.2 hstatus, hstatus, hstopped.2.1⟩
    | inr hsettled => exact absurd hstatus (hsettled.2.unsuccessful hsound)
  · refine notify_any.weaken (fun vars _ h => ?_) (fun _ _ _ h => Or.inr h) fun _ _ _ h => h
    obtain ⟨hstatus, hended⟩ := h
    refine ⟨hended.elim (fun hstopped => hstopped.2.2.1) And.left, Or.inl ?_⟩
    rw [hstatus]
    exact hfailure

theorem stable_reportFailure {failure : Raised}
    (h : ∀ vars ledger, keeps vars → keeps { vars with toLedger := ledger })
    (hhook : ∀ vars text, keeps vars → keeps { vars with hookFailure := text }) :
    Stable keeps (reportFailure run failure) :=
  (stable_fail h).bind fun _ => stable_notify h hhook

theorem reportFailure_signalled {failure : Raised} {failed : Raised → RunVars → Prop} :
    Meets SoundVars (fun vars => ToldVars vars ∧ Signalled vars) (reportFailure run failure)
      (fun _ vars => Accounted run vars ∧ Signalled vars) failed :=
  (reportFailure_meets.and_stable (stable_reportFailure (fun _ _ h => h) fun _ _ h => h)).weaken
    (fun _ _ h => h) (fun _ _ _ h => ⟨Or.inr h.1, h.2⟩) fun _ _ _ h => h.1

theorem killpg_meets {signal : Signal} (h : Stable keeps (killpg signal)) :
    Meets SoundVars keeps (killpg signal) (fun _ vars => keeps vars ∧ signal ∈ vars.signals)
      fun _ vars => keeps vars ∧ signal ∈ vars.signals := by
  have hsent : Meets SoundVars (fun _ => True) (killpg signal) (fun _ vars => signal ∈ vars.signals)
      fun _ vars => signal ∈ vars.signals := by
    refine Meets.bind (m := fun _ vars => signal ∈ vars.signals)
      (meets_update fun _ hsound _ => ⟨hsound, List.mem_append_right _ List.mem_cons_self⟩) fun _ => ?_
    have hstable : ∀ {keeps : RunVars → Prop}, Stable keeps (attempt (perform .signal) passProcessLookup) :=
      (stable_perform .signal).attempt fun _ => stable_ite stable_pure stable_raise
    exact hstable.triple hstable
  exact (hsent.and_stable h).weaken (fun _ _ hvars => ⟨trivial, hvars⟩) (fun _ _ _ hvars => hvars.symm)
    fun _ _ _ hvars => hvars.symm

theorem cleanup_meets (hsignal : ∀ vars signal, keeps vars → keeps { vars with signals := vars.signals ++ [signal] })
    (hwait : ∀ vars code, keeps vars → keeps { vars with exited := vars.exited.or (some code) }) :
    Meets SoundVars keeps cleanup (fun _ vars => keeps vars ∧ .term ∈ vars.signals)
      fun _ vars => keeps vars ∧ .term ∈ vars.signals := by
  refine (killpg_meets (stable_killpg fun vars => hsignal vars .term)).bind fun _ => ?_
  have hrest : ∀ {others : RunVars → Prop},
      (∀ vars signal, others vars → others { vars with signals := vars.signals ++ [signal] }) →
      (∀ vars code, others vars → others { vars with exited := vars.exited.or (some code) }) →
      Stable others (ensure (attempt (ask waited) passTimeoutExpired) do
        killpg .kill
        ask waited) := by
    intro others hkill hothers
    refine Stable.ensure ((stable_waited hothers).attempt fun _ => stable_ite stable_pure stable_raise) ?_
    exact (stable_killpg fun vars => hkill vars .kill).bind fun _ => stable_waited hothers
  refine (hrest (fun _ _ h => h) fun _ _ h => h).triple (hrest (fun vars signal h => ?_) fun vars code h => ?_)
  · exact ⟨hsignal vars signal h.1, List.mem_append_left _ h.2⟩
  · exact ⟨hwait vars code h.1, h.2⟩

theorem closeStream_meets {stream : Stream} {failed : Raised → RunVars → Prop} :
    Meets SoundVars (fun vars => Accounted run vars ∧ Signalled vars) (closeStream run stream)
      (fun _ vars => Accounted run vars ∧ Signalled vars) failed := by
  refine meets_reads_bind fun streams => Meets.strengthen (meets_ite (fun _ => ?_) fun _ =>
    meets_pure fun _ _ h => h) fun _ _ h => h.2
  refine Meets.attempt ((stable_perform .close).triple (stable_perform .close)) fun failure => ?_
  refine Meets.bind (m := fun _ vars => ToldVars vars ∧ Signalled vars)
    (meets_update fun _ hsound h => ⟨hsound, h.1.told, h.2⟩) fun _ => reportFailure_signalled

/-- A process that was started is accounted for and signalled; without one a failure is recorded. -/
def Released (run : Invocation) (vars : RunVars) : Prop :=
  (vars.process = true → Accounted run vars ∧ .term ∈ vars.signals) ∧
    (vars.process = false → Told vars.toLedger ∧ Settled vars.toLedger)

theorem release_meets {failed : Raised → RunVars → Prop} :
    Meets SoundVars Ended (release run) (fun _ => Released run) failed := by
  refine meets_reads_bind fun process => ?_
  cases process with
  | false =>
    refine meets_pure fun vars _ h => ⟨fun htrue => ?_, fun _ => ?_⟩
    · exact nomatch htrue.symm.trans h.1
    · exact h.2.resolve_left fun hstopped => nomatch hstopped.1.symm.trans h.1
  | true =>
    refine Meets.bind (m := fun _ vars => Accounted run vars ∧ vars.process = true) ?_ fun _ => ?_
    · refine (notifyUnsuccessful_meets.and_stable ?_).weaken (fun _ _ h => h.symm) (fun _ _ _ h => h)
        fun _ _ _ h => h.1
      exact stable_reads_bind fun _ => stable_ite stable_pure (stable_notify (fun _ _ h => h) fun _ _ h => h)
    · refine Meets.ensure (m := fun _ vars => Accounted run vars ∧ Signalled vars) (r := fun _ _ => False)
        (Meets.attempt ((cleanup_meets (fun _ _ h => h) fun _ _ h => h).weaken (fun _ _ h => h)
          (fun _ _ _ h => ⟨h.1.1, h.1.2, h.2⟩) fun _ _ _ h => h) fun failure => ?_) (fun _ => ?_)
          fun _ _ _ hfalse => hfalse.elim
      · refine Meets.bind (m := fun _ vars => ToldVars vars ∧ Signalled vars)
          (meets_update fun _ hsound h => ⟨hsound, h.1.1.told, h.1.2, h.2⟩) fun _ => reportFailure_signalled
      · refine closeStream_meets.bind fun _ => closeStream_meets.bind fun _ =>
          meets_update fun vars hsound h => ⟨hsound, fun _ => ⟨h.1, h.2.2⟩, fun hfalse => ?_⟩
        exact nomatch hfalse.symm.trans h.2.1

theorem Released.told {vars : RunVars} (h : Released run vars) : Told vars.toLedger := by
  cases hprocess : vars.process with
  | true => exact (h.1 hprocess).1.told
  | false => exact (h.2 hprocess).1

theorem Released.steady {vars : RunVars} (h : Released run vars) : Steady vars.toLedger := by
  cases hprocess : vars.process with
  | true => exact (h.1 hprocess).1.imp (fun hnone => hnone.2.1) fun ⟨_, hreported⟩ => hreported.settled
  | false => exact Or.inr (h.2 hprocess).2

/-! ## The selector -/

def SignalledProcess (vars : RunVars) : Prop := vars.process = true → .term ∈ vars.signals

/-- The first failure is recorded, and a process has been signalled. -/
def Failing (vars : RunVars) : Prop :=
  Told vars.toLedger ∧ Settled vars.toLedger ∧ SignalledProcess vars

theorem withSelector_meets {bound : Nat} :
    Meets SoundVars Fresh (withSelector run bound) (fun _ => Released run)
      fun _ vars => ToldVars vars ∧ SignalledProcess vars := by
  refine Meets.bind (m := fun _ => Fresh) ?_ fun _ => ?_
  · refine ((stable_perform .selectorOpen).triple (stable_perform .selectorOpen)).weaken (fun _ _ h => h)
      (fun _ _ _ h => h) fun _ vars _ h => ⟨h.2.2.1, fun hprocess => ?_⟩
    exact nomatch hprocess.symm.trans h.1
  · refine Meets.ensure (m := fun _ => Released run) (r := fun _ _ => False) (Meets.ensure (m := fun _ => Ended)
      (r := fun _ _ => False) (Meets.attempt (m := fun _ => ToldVars) ?_ fun failure => ?_) (fun _ => release_meets)
      fun _ _ _ hfalse => hfalse.elim) (fun _ => ?_) fun _ _ _ hfalse => hfalse.elim
    · exact execute_meets.weaken (fun _ _ h => h) (fun _ _ _ h => Or.inl h) fun _ _ _ h => h
    · exact handleFailure_meets.weaken (fun _ _ h => h) (fun _ _ _ h => Or.inr h) fun _ _ _ h => h
    · exact ((stable_perform .selectorClose).triple (stable_perform .selectorClose)).weaken (fun _ _ h => h)
        (fun _ _ _ h => h) fun _ _ _ h => ⟨h.told, fun hprocess => (h.1 hprocess).2⟩

/-- After the selector: whether its exit has failed. -/
def Selected (run : Invocation) : Bool → RunVars → Prop
  | false => Released run
  | true => Failing

theorem fail_failing {why : OpaqueReason} {state : RunStatus} {failed : Raised → RunVars → Prop}
    (hstate : state ≠ .success) :
    Meets SoundVars (fun vars => ToldVars vars ∧ SignalledProcess vars) (fail why state) (fun _ => Failing) failed :=
  ((fail_settles hstate).and_stable (stable_fail fun _ _ h => h)).weaken (fun _ _ h => h)
    (fun _ _ _ h => ⟨h.1.1, h.1.2, h.2⟩) fun _ _ _ h => h.1

theorem notify_failing {failed : Raised → RunVars → Prop} :
    Meets SoundVars Failing (notify run none)
      (fun _ vars => (∃ first, Reported run first vars.toLedger) ∧ SignalledProcess vars) failed :=
  (notify_any.and_stable (stable_notify (fun _ _ h => h) fun _ _ h => h)).weaken
    (fun _ _ h => ⟨⟨h.1, Or.inr h.2.1⟩, h.2.2⟩) (fun _ _ _ h => h) fun _ _ _ h => h.1

theorem selector_meets {bound : Nat} {failed : Raised → RunVars → Prop} :
    Meets SoundVars Fresh (attempt (do withSelector run bound; pure false) selectorFailure) (Selected run) failed := by
  refine Meets.attempt (withSelector_meets.bind fun _ => meets_pure fun _ _ h => h) fun failure =>
    meets_reads_bind fun process => ?_
  exact ((fail_failing (recorded_unsuccessful failure _)).strengthen fun _ _ h => h.2).bind fun _ =>
    meets_pure fun _ _ h => h

theorem reportSelector_meets {selectorFailed : Bool} {failed : Raised → RunVars → Prop} :
    Meets SoundVars (Selected run selectorFailed) (reportSelector run selectorFailed) (fun _ => Released run)
      failed := by
  cases selectorFailed with
  | false => exact meets_pure fun _ _ h => h
  | true =>
    refine Meets.bind (m := fun _ => Failing) (meets_update fun _ hsound h => ⟨hsound, h⟩) fun _ =>
      meets_reads_bind fun process => ?_
    cases process with
    | false => exact meets_pure fun vars _ h =>
        ⟨fun htrue => (nomatch htrue.symm.trans h.1), fun _ => ⟨h.2.1, h.2.2.1⟩⟩
    | true =>
      refine (notify_failing.and_stable (stable_notify (fun _ _ h => h) fun _ _ h => h)).weaken
        (fun _ _ h => ⟨h.2, h.1⟩) (fun _ vars _ h => ?_) fun _ _ _ h => h.1
      obtain ⟨⟨hreported, hsignalled⟩, hprocess⟩ := h
      exact ⟨fun _ => ⟨Or.inr hreported, hsignalled hprocess⟩, fun hfalse => nomatch hfalse.symm.trans hprocess⟩

/-! ## The outcome -/

def Outcome.Carries (first : OpaqueReason × RunStatus) : Outcome → Prop
  | .returned result => result.status = first.2 ∧ result.diagnostic.cause = first.1.value ∧
      result.metrics.reason = first.1 ∧ result.metrics.status = first.2
  | .raised reason metrics => reason = first.1 ∧
      ∀ built, metrics = some built → built.reason = first.1 ∧ built.status = first.2

def Outcome.succeeded : Outcome → Bool
  | .returned result => result.status = .success
  | .raised _ _ => false

/-- The metrics that are kept agree with the reason and status. -/
def Measured (vars : RunVars) : Prop :=
  ∀ built, vars.safeMetrics = some built → built.reason = vars.reason ∧ built.status = vars.status

/-- The result is there, unless a failure is going to be raised. -/
def Built (vars : RunVars) : Prop :=
  Measured vars ∧ (vars.pendingOpaqueRaise = false → ∃ result, vars.result = some result ∧
    (Outcome.returned result).Carries (vars.reason, vars.status))

theorem buildResult_meets :
    Meets SoundVars (Released run) (buildResult run) (fun _ vars => Released run vars ∧ Built vars)
      fun _ => Released run := by
  refine meets_reads_bind fun reason => meets_reads_bind fun status => Meets.of_start fun start _ hstart => ?_
  obtain ⟨hstatus, hreason, hreleased⟩ := hstart
  let frame : RunVars → Prop := fun vars => Released run vars ∧ vars.reason = reason ∧ vars.status = status
  refine Meets.bind (m := fun built vars => frame vars ∧ built.reason = reason ∧ built.status = status) ?_
    fun built => ?_
  · refine ((@metrics_meets start.toLedger run reason status).and_stable stable_metrics).weaken
      (fun vars _ h => ?_) (fun built vars _ h => ⟨h.2, h.1.2⟩) fun _ _ _ h => h.2.1
    rw [h]
    exact ⟨rfl, hreleased, hreason, hstatus⟩
  · refine Meets.bind (m := fun _ vars => frame vars ∧ vars.safeMetrics = some built ∧ built.reason = reason ∧
      built.status = status) (meets_update fun _ hsound h => ⟨hsound, h.1, rfl, h.2⟩) fun _ => ?_
    refine meets_reads_bind fun pending => meets_ite (fun hpending => meets_pure fun vars _ h => ?_) fun _ => ?_
    · obtain ⟨hread, ⟨hvars, hwhy, hstate⟩, hsafe, hbuilt⟩ := h
      refine ⟨hvars, fun other hother => ?_, fun hfalse => ?_⟩
      · rw [← Option.some.inj (hsafe.symm.trans hother), hwhy, hstate]
        exact hbuilt
      · exact nomatch hfalse.symm.trans (hread.trans hpending)
    · let kept : RunVars → Prop := fun vars =>
        frame vars ∧ vars.safeMetrics = some built ∧ built.reason = reason ∧ built.status = status
      refine Meets.bind (m := fun _ => kept) ?_ fun duration => Meets.bind (m := fun _ => kept) ?_ fun _ => ?_
      · exact (stable_clocked.triple stable_clocked).weaken (fun _ _ h => h.2) (fun _ _ _ h => h) fun _ _ _ h => h.1.1
      · exact ((stable_perform .result).triple (stable_perform .result)).weaken (fun _ _ h => h) (fun _ _ _ h => h)
          fun _ _ _ h => h.1.1
      · refine meets_update fun vars hsound h => ?_
        obtain ⟨⟨hvars, hwhy, hstate⟩, hsafe, hbuilt⟩ := h
        refine ⟨hsound, hvars, fun other hother => ?_, fun _ => ⟨_, rfl, rfl, rfl, ?_, ?_⟩⟩
        · rw [← Option.some.inj (hsafe.symm.trans hother)]
          exact ⟨hbuilt.1.trans hwhy.symm, hbuilt.2.trans hstate.symm⟩
        · exact hbuilt.1.trans hwhy.symm
        · exact hbuilt.2.trans hstate.symm

/-- After the result was built, or failed to be. -/
def Concluding (run : Invocation) : Bool → RunVars → Prop
  | false, vars => Released run vars ∧ Built vars
  | true, vars => Failing vars

theorem Released.signalled {vars : RunVars} (h : Released run vars) : SignalledProcess vars :=
  fun hprocess => (h.1 hprocess).2

theorem concluding_meets {failed : Raised → RunVars → Prop} :
    Meets SoundVars (Released run) (attempt (do buildResult run; pure false) finalFailure) (Concluding run)
      failed := by
  refine Meets.attempt (buildResult_meets.bind fun _ => meets_pure fun _ _ h => h) fun failure => ?_
  refine ((fail_failing (recorded_unsuccessful failure _)).strengthen fun _ _ h => ⟨h.told, h.signalled⟩).bind
    fun _ => meets_pure fun _ _ h => h

theorem replaced_measured {vars : RunVars} {replaced : Option OpaqueMetrics} (h : vars.replaced = replaced) :
    Measured { vars with safeMetrics := replaced } := by
  intro built hbuilt
  have hsame : vars.replaced = some built := h.trans hbuilt
  obtain ⟨safe, -, hreplaced⟩ := Option.map_eq_some_iff.mp hsame
  rw [← hreplaced]
  exact ⟨rfl, rfl⟩

/-- Metrics that were built before the last failure are kept with its reason and status, or dropped. -/
theorem reuseMetrics_meets (hstable : ∀ vars safeMetrics, keeps vars → keeps { vars with safeMetrics := safeMetrics })
    {failed : Raised → RunVars → Prop} :
    Meets SoundVars keeps reuseMetrics (fun _ vars => keeps vars ∧ Measured vars) failed := by
  refine meets_reads_bind fun safeMetrics => meets_ite (fun _ => ?_) fun hnone => meets_pure fun vars _ h => ?_
  · refine Meets.attempt (m := fun _ => keeps) ?_ fun _ => meets_update fun vars hsound h => ?_
    · refine Meets.bind (m := fun _ => keeps) ?_ fun _ => meets_reads_bind fun replaced =>
        meets_ite (fun _ => meets_update fun vars hsound h => ?_) fun _ => meets_raise fun _ _ h => h.2
      · exact ((stable_perform .replace).triple (stable_perform .replace)).strengthen fun _ _ h => h.2
      · exact ⟨hsound, hstable vars replaced h.2, replaced_measured h.1⟩
    · exact ⟨hsound, hstable vars none h, fun _ hbuilt => nomatch hbuilt⟩
  · refine ⟨h.2, fun built hbuilt => ?_⟩
    rw [← h.1, hbuilt] at hnone
    exact absurd rfl hnone

/-- What a run that has finished owes: its outcome is that of the first failure, and it was reported. -/
structure Finished (run : Invocation) (outcome : Outcome) (vars : RunVars) : Prop where
  carries : outcome.Carries (vars.reason, vars.status)
  steady : Steady vars.toLedger
  reported : vars.process = true → outcome.succeeded = false → ∃ first, Reported run first vars.toLedger
  signalled : SignalledProcess vars

/-- Before the outcome: a final failure has been reported. -/
def Finishing (run : Invocation) : Bool → RunVars → Prop
  | false, vars => Released run vars ∧ Built vars
  | true, vars => ((∃ first, Reported run first vars.toLedger) ∧ SignalledProcess vars) ∧ Measured vars

theorem reportFinal_meets {finalFailed : Bool} {failed : Raised → RunVars → Prop} :
    Meets SoundVars (Concluding run finalFailed) (reportFinal run finalFailed) (fun _ => Finishing run finalFailed)
      failed := by
  cases finalFailed with
  | false => exact meets_pure fun _ _ h => h
  | true => exact notify_failing.bind fun _ => reuseMetrics_meets fun _ _ h => h

theorem finish_meets {finalFailed : Bool} :
    Meets SoundVars (Finishing run finalFailed) (finish finalFailed) (Finished run) fun _ _ => False := by
  refine meets_reads_bind fun pending => meets_ite (fun hraises => ?_) fun hreturns => ?_
  · refine meets_reads_bind fun reason => meets_reads_bind fun safeMetrics => meets_pure fun vars _ h => ?_
    obtain ⟨hsafe, hreason, hpending, hfinishing⟩ := h
    rw [← hsafe, ← hreason]
    cases finalFailed with
    | true =>
      obtain ⟨⟨⟨first, hreported⟩, hsignalled⟩, hmeasured⟩ := hfinishing
      exact ⟨⟨rfl, hmeasured⟩, Or.inr hreported.settled, fun _ _ => ⟨first, hreported⟩, hsignalled⟩
    | false =>
      obtain ⟨hreleased, hmeasured, -⟩ := hfinishing
      rw [Bool.or_false] at hraises
      refine ⟨⟨rfl, hmeasured⟩, hreleased.steady, fun hprocess _ => ?_, hreleased.signalled⟩
      exact (hreleased.1 hprocess).1.resolve_left fun hnone => nomatch (hnone.2.2.2.symm.trans hpending).trans hraises
  · rw [Bool.or_eq_true, not_or, Bool.not_eq_true, Bool.not_eq_true] at hreturns
    rw [hreturns.2]
    refine meets_reads_bind fun result => ?_
    split
    · next result =>
      refine meets_pure fun vars _ h => ?_
      obtain ⟨hresult, hpending, hreleased, -, hbuilt⟩ := h
      obtain ⟨found, hfound, hcarries⟩ := hbuilt (hpending.trans hreturns.1)
      have hsame : found = result := Option.some.inj (hfound.symm.trans hresult)
      rw [hsame] at hcarries
      refine ⟨hcarries, hreleased.steady, fun hprocess hfailed => ?_, hreleased.signalled⟩
      refine (hreleased.1 hprocess).1.resolve_left fun hnone => ?_
      have hstatus : result.status = .success := hcarries.1.trans hnone.2.2.1
      exact of_decide_eq_false hfailed hstatus
    · refine meets_raise fun vars _ h => ?_
      obtain ⟨hresult, hpending, -, -, hbuilt⟩ := h
      obtain ⟨found, hfound, -⟩ := hbuilt (hpending.trans hreturns.1)
      exact nomatch hfound.symm.trans hresult

/-- A run that finishes is accounted for, and nothing but its outcome leaves it. -/
theorem opaqueRun_meets {bound : Nat} :
    Meets SoundVars Fresh (opaqueRun run bound) (Finished run) fun _ _ => False := by
  refine selector_meets.bind fun selectorFailed => reportSelector_meets.bind fun _ => ?_
  refine Meets.bind (m := fun _ => Released run) (meets_update fun _ hsound h => ⟨hsound, h⟩) fun _ => ?_
  exact concluding_meets.bind fun finalFailed => reportFinal_meets.bind fun _ => finish_meets

end Boxferry.Automation.Runner
