import Boxferry.Automation.Contexts
import Boxferry.Automation.Serving

/-! # Histories of service runs

The executions of the service one after the other, and what the API truthfully tells
each of them about the earlier ones of the same implementation. A run that was clean
and did not end so leaves a fence that no later run of the implementation is without. -/
namespace Boxferry.Automation.Eligibility
open Interruptible
set_option autoImplicit false

/-! ## Executions -/

structure Execution where
  actor : Actor
  api : ServiceApi
  event : Event
  /-- How the workflow run ended. -/
  conclusion : String
  /-- Whether the state that it wrote was uploaded as its artifact. -/
  uploaded : Bool

variable {sha256 : ByteArray → Vector UInt8 32}

def Execution.result (sha256 : ByteArray → Vector UInt8 32) (execution : Execution) : Result :=
  service execution.api sha256 execution.actor execution.event

def Execution.persisted (sha256 : ByteArray → Vector UInt8 32) (execution : Execution) : Option Payload :=
  if execution.uploaded then (execution.result sha256).written else none

theorem serviceFrom_context (api : ServiceApi) (actor : Actor) (event : Event) (context : ServiceContext) :
    (serviceFrom api sha256 actor event context).context = some context := by
  unfold serviceFrom
  split
  · rfl
  · split
    · rfl
    · split <;> rfl

theorem serviceFrom_session (api : ServiceApi) (actor : Actor) (event : Event) (context : ServiceContext) :
    (serviceFrom api sha256 actor event context).session
      = some (after (serve api sha256 actor context event) (Session.start context)) := by
  unfold serviceFrom after
  split
  · next hserve => rw [hserve]
  · next hserve =>
    rw [hserve]
    split
    · rfl
    · split <;> rfl

theorem serviceFrom_written {api : ServiceApi} {actor : Actor} {event : Event} {context : ServiceContext}
    {payload : Payload} (h : (serviceFrom api sha256 actor event context).written = some payload) :
    payload = (after (serve api sha256 actor context event) (Session.start context)).payload
      context actor := by
  unfold serviceFrom at h
  unfold after
  split at h
  · exact nomatch h
  · next hserve =>
    rw [hserve]
    split at h
    · exact nomatch h
    · next hvalid =>
      split at h
      · exact nomatch h
      · rw [← Option.some.inj h]
        exact (validateState_ok hvalid).1

/-- The context of a run is that of the state it restored. -/
theorem result_context {execution : Execution} {context : ServiceContext}
    (h : (execution.result sha256).context = some context) :
    (∃ previous, previousState execution.api.toContextApi execution.actor = .ok previous
        ∧ serviceContext execution.api.toContextApi execution.actor previous = .ok context)
      ∧ execution.result sha256
        = serviceFrom execution.api sha256 execution.actor execution.event context := by
  unfold Execution.result service at *
  split at h
  · exact nomatch h
  · next previous hprevious =>
    split at h
    · exact nomatch h
    · next found hfound =>
      rw [serviceFrom_context] at h
      rw [← Option.some.inj h]
      exact ⟨⟨previous, hprevious, hfound⟩, rfl⟩

/-- How the session of a run ends, and what it writes. -/
structure Ran (sha256 : ByteArray → Vector UInt8 32) (execution : Execution) (context : ServiceContext)
    (last : Session) : Prop where
  session : (execution.result sha256).session = some last
  steps : ∃ numbers, (ListsOnce execution.api → numbers.Nodup)
    ∧ Steps execution.api sha256 execution.actor context numbers (Session.start context) last
  written : ∀ payload, (execution.result sha256).written = some payload →
    payload = last.payload context execution.actor

theorem result_ran {execution : Execution} {context : ServiceContext}
    (h : (execution.result sha256).context = some context) :
    ∃ last, Ran sha256 execution context last := by
  obtain ⟨-, hresult⟩ := result_context h
  refine ⟨_, ?_, serve_steps execution.event (Session.start context), fun payload hpayload => ?_⟩
  · rw [hresult, serviceFrom_session]
  · rw [hresult] at hpayload
    exact serviceFrom_written hpayload

/-- A run that persisted a state had a context. -/
theorem persisted_ran {execution : Execution} {payload : Payload}
    (h : execution.persisted sha256 = some payload) :
    ∃ context last, (execution.result sha256).context = some context
      ∧ Ran sha256 execution context last ∧ payload = last.payload context execution.actor := by
  unfold Execution.persisted at h
  split at h
  · cases hcontext : (execution.result sha256).context with
    | none =>
      exfalso
      have hnone : (execution.result sha256).written = none := by
        unfold Execution.result service at hcontext ⊢
        split at hcontext
        · rfl
        · split at hcontext
          · rfl
          · rw [serviceFrom_context] at hcontext
            exact nomatch hcontext
      rw [hnone] at h
      exact nomatch h
    | some context =>
      obtain ⟨last, hran⟩ := result_ran hcontext
      exact ⟨context, last, rfl, hran, hran.written payload h⟩
  · exact nomatch h

/-- The fence that a run starts with is in the state that it writes. -/
theorem fenceOf_written {execution : Execution} {context : ServiceContext} {last : Session}
    {payload : Payload} (hcontext : (execution.result sha256).context = some context)
    (h : Ran sha256 execution context last) (hpayload : payload = last.payload context execution.actor)
    (hnone : fenceOf payload = none) : context.frontier.fence = none := by
  obtain ⟨⟨previous, -, hservice⟩, -⟩ := result_context hcontext
  obtain ⟨numbers, -, hsteps⟩ := h.steps
  have hfence : last.fence.filter (· ≠ "") = none := by
    rw [hpayload] at hnone
    exact hnone
  rcases hsteps.guards.fence with hsame | hchanged
  · have hstart : last.fence = context.frontier.fence := hsame
    rw [hstart] at hfence
    cases hreason : context.frontier.fence with
    | none => rfl
    | some reason =>
      rw [hreason] at hfence
      have hempty := Option.filter_eq_none_iff.mp hfence reason rfl
      have hsays := serviceContext_says hservice
      rw [hreason] at hsays
      simp only [ne_eq, decide_not, Bool.not_eq_true, Bool.not_eq_false', decide_eq_true_eq] at hempty
      rw [hempty] at hsays
      exact absurd rfl hsays
  · rw [hchanged] at hfence
    exact absurd hfence (by decide)

/-! ## Truthful histories -/

/-- How the API describes the run of an execution that has ended. -/
structure Describes (execution : Execution) (run : Run) : Prop where
  created : run.createdAt = some execution.actor.createdAt
  source : serviceRevision run = some execution.actor.implementation
  /-- A run with no later attempt is described as it ended. -/
  ended : run.attempt = some 1 → execution.actor.attempt = 1 ∧ run.status = some "completed"
    ∧ run.conclusion = some (some execution.conclusion)

/-- What the API tells one execution about the earlier ones of the same implementation. -/
structure Knows (sha256 : ByteArray → Vector UInt8 32) (earlier : List Execution)
    (execution : Execution) : Prop where
  /-- A listing holds every one of them that was created in its window. -/
  complete : ∀ past ∈ earlier, past.actor.implementation = execution.actor.implementation →
    ∀ lower listing entries, execution.api.listing lower = .ok listing → listing.runs = some entries →
      lower ≤ past.actor.createdAt → some past.actor.runId ∈ entries
  described : ∀ past ∈ earlier, past.actor.implementation = execution.actor.implementation →
    ∀ site run, execution.api.run site past.actor.runId = .ok run → Describes past run
  /-- The artifact of a successful run is what that run wrote. -/
  artifact : ∀ site id run payload, execution.api.run site id = .ok run →
    serviceRevision run = some execution.actor.implementation →
    run.conclusion = some (some "success") → execution.api.artifact site id = .ok payload →
    ∃ past ∈ earlier, past.actor.implementation = execution.actor.implementation
      ∧ past.actor.runId = id ∧ past.persisted sha256 = some payload

/-- The executions of the service, one at a time and in the order in which they ran. -/
structure Truthful (sha256 : ByteArray → Vector UInt8 32) (implementation : String) (floor : Moment)
    (history : List Execution) : Prop where
  /-- Each attempt of a run is executed once. -/
  distinct : (history.map fun execution => (execution.actor.runId, execution.actor.attempt)).Nodup
  /-- A run that executes is not skipped. -/
  executed : ∀ execution ∈ history, execution.conclusion ≠ "skipped"
  /-- The date of the implementation is immutable. -/
  dated : ∀ execution ∈ history, execution.actor.implementation = implementation →
    ∀ moment, effectFloor execution.api.toContextApi implementation = .ok moment → moment = floor
  knows : ∀ index execution, history[index]? = some execution →
    execution.actor.implementation = implementation → Knows sha256 (history.take index) execution

/-- An execution of the implementation at a place of the history. -/
structure Runs (history : List Execution) (implementation : String) (index : Nat)
    (execution : Execution) : Prop where
  at_index : history[index]? = some execution
  implementation : execution.actor.implementation = implementation

variable {implementation : String} {floor : Moment} {history : List Execution} {index other : Nat}
  {execution past : Execution} {context : ServiceContext}

theorem mem_take_of_lt (hpast : history[other]? = some past) (hlt : other < index) :
    past ∈ history.take index := by
  refine List.mem_of_getElem? (i := other) ?_
  rw [List.getElem?_take, if_pos hlt, hpast]

theorem exists_of_mem_take (h : past ∈ history.take index) :
    ∃ other, other < index ∧ history[other]? = some past := by
  obtain ⟨other, hother⟩ := List.getElem?_of_mem h
  rw [List.getElem?_take] at hother
  split at hother
  · next hlt => exact ⟨other, hlt, hother⟩
  · exact nomatch hother

/-- Two executions of the same attempt of the same run are one. -/
theorem Truthful.same_index (h : Truthful sha256 implementation floor history)
    (hexecution : history[index]? = some execution) (hpast : history[other]? = some past)
    (hid : past.actor.runId = execution.actor.runId)
    (hattempt : past.actor.attempt = execution.actor.attempt) : other = index := by
  refine (List.getElem?_inj ?_ h.distinct).mp ?_
  · rw [List.length_map]
    exact (List.getElem?_eq_some_iff.mp hpast).1
  · rw [List.getElem?_map, List.getElem?_map, hexecution, hpast, Option.map_some, Option.map_some, hid,
      hattempt]

/-- A verified checkpoint is the state that an earlier execution persisted. -/
theorem Truthful.origin (h : Truthful sha256 implementation floor history)
    (hexecution : Runs history implementation index execution) {moment : Moment} {checkpoint : Checkpoint}
    (hverified : Verified execution.api.toContextApi execution.actor moment checkpoint) :
    ∃ other past, other < index ∧ Runs history implementation other past
      ∧ past.actor.createdAt = checkpoint.created ∧ past.actor.runId = checkpoint.id
      ∧ past.persisted sha256 = some checkpoint.payload := by
  obtain ⟨site, hverifies, hrun⟩ := hverified
  have hknows := h.knows index execution hexecution.at_index hexecution.implementation
  obtain ⟨past, hmember, hsame, hid, hpersisted⟩ :=
    hknows.artifact site checkpoint.id checkpoint.run checkpoint.payload hrun hverifies.source
      hverifies.conclusion hverifies.artifact
  have hcreated := (hknows.described past hmember hsame site checkpoint.run (hid.symm ▸ hrun)).created
  rw [hverifies.created] at hcreated
  obtain ⟨other, hlt, hat⟩ := exists_of_mem_take hmember
  exact ⟨other, past, hlt, ⟨hat, hsame.trans hexecution.implementation⟩,
    (Option.some.inj hcreated).symm, hid, hpersisted⟩

end Boxferry.Automation.Eligibility
