import Boxferry.Automation.Service
import Boxferry.Library.Interruptible

/-! # How a session evolves

What each part of a service run can change. Proofs and evaluations leave the ledgers
alone; an ordinary rerun enters its run before the request; a recovery either
prepares a fresh reservation or uses up one that was prepared. -/
namespace Boxferry.Automation.Eligibility
open Interruptible
set_option autoImplicit false

/-! ## Quiet parts -/

/-- The ledgers and the requests stay, and no permission is gained. -/
structure Quiet (first last : Session) : Prop where
  ledger : last.ledger = first.ledger
  recoveries : last.recoveries = first.recoveries
  posts : last.posts = first.posts
  canEffect : last.canEffect = true → first.canEffect = true
  canPrepare : last.canPrepare = true → first.canPrepare = true
  fence : last.fence = first.fence ∨ last.fence = some changedFence

instance : Std.Refl Quiet := ⟨fun _ => ⟨rfl, rfl, rfl, id, id, Or.inl rfl⟩⟩

theorem Quiet.refl (session : Session) : Quiet session session := Std.Refl.refl session

theorem Quiet.trans {first middle last : Session} (h : Quiet first middle) (hnext : Quiet middle last) :
    Quiet first last := by
  refine ⟨hnext.ledger.trans h.ledger, hnext.recoveries.trans h.recoveries,
    hnext.posts.trans h.posts, fun heffect => h.canEffect (hnext.canEffect heffect),
    fun hprepare => h.canPrepare (hnext.canPrepare hprepare), ?_⟩
  rcases hnext.fence with hsame | hchanged
  · rw [hsame]
    exact h.fence
  · exact Or.inr hchanged

instance : IsTrans Session Quiet := ⟨fun _ _ _ h hnext => h.trans hnext⟩

variable {α β : Type} {api : ServiceApi} {sha256 : ByteArray → Vector UInt8 32} {actor : Actor}
  {context : ServiceContext} {start : Session}

@[simp] theorem leads_ask {answer : Answer α} {post : Except Interrupt α → Session → Prop} :
    Leads (ask answer) start post ↔
      post (answer start.tick) { start with tick := start.tick + 1 } := Iff.rfl

theorem keeps_ask (answer : Answer α) : Keeps Quiet (ask answer) :=
  fun _ => ⟨rfl, rfl, rfl, id, id, Or.inl rfl⟩

theorem answers_ask (answer : Answer α) :
    Answers (ask answer) fun session value => answer session.tick = .ok value :=
  fun _ _ h => h

theorem keeps_refuse (reason : String) (h : reason ≠ "") : Keeps Quiet (refuse reason h : Service α) :=
  keeps_throw _

theorem keeps_modify {change : Session → Session} (h : ∀ session, Quiet session (change session)) :
    Keeps Quiet (modify change : Service Unit) := h

theorem keeps_discard {step : Service α} (h : Keeps Quiet step) : Keeps Quiet (discard step) :=
  h.bind fun _ => keeps_pure _

theorem keeps_refuseWhen (condition : Prop) [Decidable condition] (reason : String) (h : reason ≠ "") :
    Keeps Quiet (refuseWhen condition reason h) := by
  unfold refuseWhen
  split
  · exact keeps_refuse reason h
  · exact keeps_pure ()

theorem answers_refuseWhen {condition : Prop} [Decidable condition] {reason : String} {h : reason ≠ ""} :
    Answers (refuseWhen condition reason h) fun _ _ => ¬ condition := by
  intro session value hvalue
  unfold refuseWhen at hvalue
  by_cases hcondition : condition
  · rw [if_pos hcondition] at hvalue
    exact nomatch hvalue
  · exact hcondition

theorem keeps_requireEffect (implementation : String) :
    Keeps Quiet (requireEffect api.toApi actor context implementation) := by
  unfold requireEffect
  refine keeps_get_bind fun session => ?_
  split
  · refine (keeps_ask _).bind fun current => (keeps_ask _).bind fun checkpoint =>
      (keeps_lift _).bind fun unchanged => ?_
    split
    · refine Keeps.bind ?_ fun _ => keeps_refuse _ _
      exact fun _ => ⟨rfl, rfl, rfl, fun h => (nomatch h), fun h => (nomatch h), Or.inr rfl⟩
    · exact keeps_pure _
  · exact keeps_refuse _ _

theorem keeps_originalRun (identifier : Nat) (candidate : Candidate) (implementation : Option String)
    (excluded : List String) :
    Keeps Quiet (originalRun api.toApi actor identifier candidate implementation excluded) :=
  (keeps_ask _).bind fun _ => (keeps_refuseWhen _ _ _).bind fun _ => (keeps_refuseWhen _ _ _).bind
    fun _ => (keeps_refuseWhen _ _ _).bind fun _ => (keeps_ask _).bind fun _ => keeps_pure _

theorem keeps_retainedPr (number : Nat) : Keeps Quiet (retainedPr api.toApi number) :=
  (keeps_ask _).bind fun _ => keeps_pure _

theorem keeps_retainedProof (number : Nat) : Keeps Quiet (retainedProof api.toApi number) :=
  (keeps_ask _).bind fun _ => keeps_pure _

theorem keeps_proveEffect (identifier : Nat) (candidate : Candidate) (reservation : Reservation)
    (reader : Option String) (retained : Option RetainedBinding) :
    Keeps Quiet (proveEffect api.toApi actor context identifier candidate reservation reader retained) := by
  unfold proveEffect
  cases retained with
  | none =>
    exact (keeps_requireEffect _).bind fun _ => (keeps_discard (keeps_originalRun _ _ _ _)).bind
      fun _ => (keeps_discard (keeps_ask _)).bind fun _ => (keeps_ask _).bind
      fun _ => keeps_refuseWhen _ _ _
  | some binding =>
    exact (keeps_retainedProof _).bind fun _ => (keeps_refuseWhen _ _ _).bind
      fun _ => (keeps_discard (keeps_ask _)).bind fun _ => (keeps_retainedPr _).bind
      fun _ => (keeps_refuseWhen _ _ _).bind
      fun _ => (keeps_discard (keeps_originalRun _ _ _ _)).bind fun _ => (keeps_ask _).bind
      fun _ => (keeps_refuseWhen _ _ _).bind fun _ => keeps_requireEffect _

theorem keeps_historicalReport (historical : Candidate) :
    Keeps Quiet (historicalReport api.toApi actor context historical) := by
  refine keeps_get_bind fun session => (keeps_ask _).bind ?_
  rintro ⟨report, firstSeen⟩
  refine Keeps.bind (keeps_modify fun _ => ?_) fun _ => ?_
  · exact ⟨rfl, rfl, rfl, id, id, Or.inl rfl⟩
  · refine (keeps_ask _).bind fun _ => Keeps.bind (keeps_modify fun _ => ?_) fun _ => keeps_pure _
    exact ⟨rfl, rfl, rfl, id, id, Or.inl rfl⟩

theorem keeps_alreadyRerun (identifier : Nat) : Keeps Quiet (alreadyRerun context identifier) :=
  keeps_get_bind fun _ => keeps_pure _

theorem keeps_retainedRun (observed : RetainedBinding) (originalRunId : Option Nat) :
    Keeps Quiet (retainedRun api.toApi actor observed originalRunId) := by
  unfold retainedRun
  split
  · exact keeps_pure _
  · exact (keeps_ask _).bind fun _ => (keeps_refuseWhen _ _ _).bind fun _ => keeps_pure _

theorem keeps_trustedWorkflow (candidate : Candidate) :
    Keeps Quiet (trustedWorkflow api.toApi actor candidate) := by
  refine (keeps_ask _).bind fun trusted => (keeps_ask _).bind fun proposed => ?_
  split
  · split
    · exact keeps_pure _
    · exact keeps_ask _
  · exact keeps_pure _

end Boxferry.Automation.Eligibility
