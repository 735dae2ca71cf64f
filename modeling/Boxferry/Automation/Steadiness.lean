import Boxferry.Automation.Sessions

/-! # What leaves the cursor alone

The cursor of the scheduled scan is written by the loops only: no evaluation, proof, rerun or
recovery changes it. -/
namespace Boxferry.Automation.Eligibility
open Interruptible
set_option autoImplicit false

/-- The cursors stay. -/
structure Steady (first last : Session) : Prop where
  scanCursor : last.scanCursor = first.scanCursor
  evaluatedCursor : last.evaluatedCursor = first.evaluatedCursor

instance : Std.Refl Steady := ⟨fun _ => ⟨rfl, rfl⟩⟩

instance : IsTrans Session Steady where
  trans _ _ _ h hnext := ⟨hnext.scanCursor.trans h.scanCursor, hnext.evaluatedCursor.trans h.evaluatedCursor⟩

variable {α : Type} {api : Api} {services : ServiceApi} {sha256 : ByteArray → Vector UInt8 32} {actor : Actor}
  {context : ServiceContext}

theorem steady_ask (answer : Answer α) : Keeps Steady (ask answer) := fun _ => ⟨rfl, rfl⟩

theorem steady_modify {change : Session → Session} (h : ∀ session, Steady session (change session)) :
    Keeps Steady (modify change : Service Unit) := h

theorem steady_refuse (reason : String) (h : reason ≠ "") : Keeps Steady (refuse reason h : Service α) :=
  keeps_throw _

theorem steady_refuseWhen (condition : Prop) [Decidable condition] (reason : String) (h : reason ≠ "") :
    Keeps Steady (refuseWhen condition reason h) := by
  unfold refuseWhen
  split
  · exact steady_refuse reason h
  · exact keeps_pure ()

theorem steady_ite {condition : Prop} [Decidable condition] {step other : Service α} (h : Keeps Steady step)
    (hother : Keeps Steady other) : Keeps Steady (if condition then step else other) := by
  split
  · exact h
  · exact hother

theorem steady_discard {step : Service α} (h : Keeps Steady step) : Keeps Steady (discard step) :=
  h.bind fun _ => keeps_pure _

/-! ## Reservations -/

theorem steady_amend (key : String) (change : Reservation → Reservation) : Keeps Steady (amend key change) := by
  refine steady_modify fun session => ?_
  cases session.recoveries.lookup key with
  | none => exact Std.Refl.refl session
  | some reservation => exact ⟨rfl, rfl⟩

theorem steady_prepare (key : String) (bindings : Bindings) (protection : String) :
    Keeps Steady (prepare actor key bindings protection) := steady_modify fun _ => ⟨rfl, rfl⟩

theorem steady_post (effect : Post) : Keeps Steady (post api effect) :=
  Keeps.bind (steady_modify fun _ => ⟨rfl, rfl⟩) fun _ => steady_ask _

theorem steady_suspending (key : String) (reservation : Option Reservation) {body : Service α}
    (h : Keeps Steady body) : Keeps Steady (suspending key reservation body) := by
  refine h.tryCatch fun interrupt => ?_
  split
  · exact keeps_throw _
  · refine Keeps.bind ?_ fun _ => keeps_throw _
    cases reservation with
    | none => exact keeps_pure _
    | some reservation => exact steady_amend _ _

/-! ## Proofs -/

theorem steady_requireEffect (implementation : String) :
    Keeps Steady (requireEffect api actor context implementation) := by
  unfold requireEffect
  refine keeps_get_bind fun session => ?_
  split
  · refine (steady_ask _).bind fun current => (steady_ask _).bind fun checkpoint =>
      (keeps_lift _).bind fun unchanged => ?_
    split
    · exact Keeps.bind (steady_modify fun _ => ⟨rfl, rfl⟩) fun _ => steady_refuse _ _
    · exact keeps_pure _
  · exact steady_refuse _ _

theorem steady_originalRun (identifier : Nat) (candidate : Candidate) (implementation : Option String)
    (excluded : List String) :
    Keeps Steady (originalRun api actor identifier candidate implementation excluded) :=
  (steady_ask _).bind fun _ => (steady_refuseWhen _ _ _).bind fun _ => (steady_refuseWhen _ _ _).bind
    fun _ => (steady_refuseWhen _ _ _).bind fun _ => (steady_ask _).bind fun _ => keeps_pure _

theorem steady_retainedPr (number : Nat) : Keeps Steady (retainedPr api number) :=
  (steady_ask _).bind fun _ => keeps_pure _

theorem steady_retainedProof (number : Nat) : Keeps Steady (retainedProof api number) :=
  (steady_ask _).bind fun _ => keeps_pure _

theorem steady_proveEffect (identifier : Nat) (candidate : Candidate) (reservation : Reservation)
    (reader : Option String) (retained : Option RetainedBinding) :
    Keeps Steady (proveEffect api actor context identifier candidate reservation reader retained) := by
  unfold proveEffect
  cases retained with
  | none =>
    exact (steady_requireEffect _).bind fun _ => (steady_discard (steady_originalRun _ _ _ _)).bind
      fun _ => (steady_discard (steady_ask _)).bind fun _ => (steady_ask _).bind
      fun _ => steady_refuseWhen _ _ _
  | some binding =>
    exact (steady_retainedProof _).bind fun _ => (steady_refuseWhen _ _ _).bind
      fun _ => (steady_discard (steady_ask _)).bind fun _ => (steady_retainedPr _).bind
      fun _ => (steady_refuseWhen _ _ _).bind
      fun _ => (steady_discard (steady_originalRun _ _ _ _)).bind fun _ => (steady_ask _).bind
      fun _ => (steady_refuseWhen _ _ _).bind fun _ => steady_requireEffect _

theorem steady_historicalReport (historical : Candidate) :
    Keeps Steady (historicalReport api actor context historical) := by
  refine keeps_get_bind fun session => (steady_ask _).bind ?_
  rintro ⟨report, firstSeen⟩
  refine Keeps.bind (steady_modify fun _ => ⟨rfl, rfl⟩) fun _ => ?_
  exact (steady_ask _).bind fun _ => Keeps.bind (steady_modify fun _ => ⟨rfl, rfl⟩) fun _ => keeps_pure _

/-! ## Recoveries -/

theorem steady_consume (key : String) (identifier : Nat) (candidate : Candidate) (reservation : Reservation)
    (reader : Option String) (retained : Option RetainedBinding) :
    Keeps Steady (consume api actor context key identifier candidate reservation reader retained) := by
  refine (steady_proveEffect _ _ _ _ _).bind fun _ => Keeps.bind ?_ fun _ => (steady_amend _ _).bind fun _ =>
    (steady_post _).tryCatch fun interrupt => ?_
  · unfold proveLabelUnused
    split
    · exact steady_ask _
    · exact keeps_pure _
  · split
    · exact keeps_throw _
    · refine (steady_amend _ _).bind fun _ => ?_
      split
      · exact (steady_ask _).bind fun _ => steady_amend _ _
      · exact (steady_ask _).bind fun _ => steady_amend _ _

theorem steady_nativeHandoff (run : Run) (identifier : Nat) (candidate : Candidate) (report : Report)
    (key : String) (reservation : Option Reservation) :
    Keeps Steady (nativeHandoff api actor context run identifier candidate report key reservation) := by
  refine (steady_refuseWhen _ _ _).bind fun _ => (keeps_lift _).bind fun _ => (steady_refuseWhen _ _ _).bind
    fun _ => (steady_ask _).bind fun _ => (steady_ask _).bind fun _ => ?_
  cases reservation with
  | none => exact steady_prepare _ _ _
  | some reservation =>
    refine (steady_refuseWhen _ _ _).bind fun _ => ?_
    cases context.previous with
    | none => exact keeps_pure _
    | some previous =>
      refine keeps_get_bind fun _ => ?_
      split
      · exact keeps_pure _
      · exact (steady_ask _).bind fun _ => (steady_refuseWhen _ _ _).bind fun _ => steady_consume _ _ _ _ _ _

theorem steady_recoverOriginal (identifier : Nat) (candidate : Candidate) (report : Report) (key : String)
    (reservation : Option Reservation) :
    Keeps Steady (recoverOriginal api actor context identifier candidate report key reservation) := by
  refine (steady_originalRun _ _ _ _).bind fun run => (steady_ask _).bind fun _ => ?_
  split
  · exact steady_nativeHandoff _ _ _ _ _ _
  · refine (steady_ask _).bind fun hint => ?_
    split
    · exact keeps_pure _
    · refine (steady_ask _).bind ?_
      rintro ⟨handoff, reader⟩
      refine (steady_ask _).bind fun _ => (steady_historicalReport _).bind fun _ => (steady_ask _).bind fun _ =>
        (steady_refuseWhen _ _ _).bind fun _ => (keeps_lift _).bind fun _ => (steady_refuseWhen _ _ _).bind fun _ => ?_
      cases reservation with
      | none => exact steady_prepare _ _ _
      | some reservation =>
        exact (steady_refuseWhen _ _ _).bind fun _ => keeps_get_bind fun _ =>
          steady_ite (steady_consume _ _ _ _ _ _) (keeps_pure _)

theorem steady_alreadyRerun (identifier : Nat) : Keeps Steady (alreadyRerun context identifier) :=
  keeps_get_bind fun _ => keeps_pure _

theorem steady_recoverRun (identifier : Nat) (candidate : Candidate) (report : Report) :
    Keeps Steady (recoverRun api sha256 actor context identifier candidate report) := by
  refine keeps_get_bind fun _ => ?_
  split
  · exact keeps_pure _
  · refine (steady_alreadyRerun _).bind fun _ => ?_
    split
    · exact keeps_pure _
    · exact keeps_get_bind fun _ =>
        steady_ite (keeps_pure _) (steady_suspending _ _ (steady_recoverOriginal _ _ _ _ _))

theorem steady_recover (candidate : Candidate) (report : Report) :
    Keeps Steady (recover api sha256 actor context candidate report) := by
  unfold recover
  split
  · exact keeps_pure _
  · refine (steady_ask _).bind fun runs => (steady_refuseWhen _ _ _).bind fun _ => ?_
    split
    · exact keeps_pure _
    · split
      · exact steady_recoverRun _ _ _
      · exact steady_refuse _ _

theorem steady_recoverBound (identifier number : Nat) (observed : RetainedBinding) (key : String)
    (reservation : Option Reservation) :
    Keeps Steady (recoverBound api actor context identifier number observed key reservation) := by
  refine (steady_ask _).bind fun raw => ?_
  split
  · exact keeps_pure _
  · refine (steady_retainedProof _).bind fun _ => (steady_refuseWhen _ _ _).bind fun _ =>
      (steady_originalRun _ _ _ _).bind fun _ => (steady_ask _).bind fun _ => (steady_refuseWhen _ _ _).bind fun _ =>
      (keeps_lift _).bind fun _ => (steady_refuseWhen _ _ _).bind fun _ => (steady_ask _).bind fun _ =>
      (steady_refuseWhen _ _ _).bind fun _ => keeps_get_bind fun _ => (steady_ask _).bind ?_
    rintro ⟨report, firstSeen⟩
    refine Keeps.bind (steady_modify fun _ => ⟨rfl, rfl⟩) fun _ => (steady_retainedPr _).bind fun _ =>
      (steady_refuseWhen _ _ _).bind fun _ => (steady_ask _).bind fun _ =>
      Keeps.bind (steady_modify fun _ => ⟨rfl, rfl⟩) fun _ => ?_
    cases reservation with
    | none => exact steady_prepare _ _ _
    | some reservation =>
      refine keeps_get_bind fun _ => ?_
      split
      · exact steady_consume _ _ _ _ _ _
      · exact keeps_pure _

theorem steady_recoverRetained (number : Nat) (originalRunId : Option Nat) :
    Keeps Steady (recoverRetained api sha256 actor context number originalRunId) := by
  refine keeps_get_bind fun _ => ?_
  split
  · exact keeps_pure _
  · refine (steady_retainedPr _).bind fun observed => Keeps.bind ?_ fun identifier => ?_
    · unfold retainedRun
      split
      · exact keeps_pure _
      · exact (steady_ask _).bind fun _ => (steady_refuseWhen _ _ _).bind fun _ => keeps_pure _
    · split
      · exact keeps_pure _
      · exact steady_refuse _ _
      · exact keeps_get_bind fun _ => steady_ite (keeps_pure _) <| (steady_alreadyRerun _).bind fun _ =>
          steady_ite (keeps_pure _) (steady_suspending _ _ (steady_recoverBound _ _ _ _ _))

/-! ## Reruns -/

theorem steady_trustedWorkflow (candidate : Candidate) : Keeps Steady (trustedWorkflow api actor candidate) := by
  refine (steady_ask _).bind fun _ => (steady_ask _).bind fun _ => ?_
  split
  · split
    · exact keeps_pure _
    · exact steady_ask _
  · exact keeps_pure _

theorem steady_rerunReady (candidate : Candidate) : Keeps Steady (rerunReady api actor context candidate) := by
  refine keeps_get_bind fun _ => ?_
  split
  · exact keeps_pure _
  · refine (steady_ask _).bind fun runs => ?_
    split
    · exact keeps_pure _
    · refine (keeps_lift _).bind fun _ => ?_
      split
      · exact keeps_pure _
      · split
        · exact keeps_pure _
        · refine (steady_trustedWorkflow _).bind fun _ => ?_
          split
          · exact keeps_pure _
          · split
            · refine (steady_ask _).bind fun _ => ?_
              split
              · exact keeps_pure _
              · split
                · exact keeps_pure _
                · refine (steady_ask _).bind fun _ => ?_
                  split
                  · exact keeps_pure _
                  · exact Keeps.bind (steady_modify fun _ => ⟨rfl, rfl⟩) fun _ => steady_post _
            · exact keeps_throw _

theorem steady_rerunWhenReady (candidate : Candidate) (report : Report) :
    Keeps Steady (rerunWhenReady services actor context candidate report) := by
  refine keeps_get_bind fun _ => ?_
  split
  · exact (steady_requireEffect _).bind fun _ => steady_rerunReady _
  · exact keeps_pure _

end Boxferry.Automation.Eligibility
