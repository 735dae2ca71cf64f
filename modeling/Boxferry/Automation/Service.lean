import Boxferry.Automation.Recovery
import Mathlib.Data.List.Sort

/-! # One service run

A service run finds its candidates, evaluates each, reruns or recovers what is
ready, and persists its state. Policy failures still persist evidence. -/
namespace Boxferry.Automation.Eligibility
set_option autoImplicit false

/-- An open pull request of the listing: its number and its head. -/
abbrev Listed := Option Nat × Option String

/-- What a callback of a CI run, or the probe of a listed pull request, leads to. -/
inductive Found where
  | pull (candidate : Candidate)
  | queue (candidate : Candidate)
  | retained (originalRunId : Option Nat)
  | nothing

inductive Event where
  | schedule
  | workflowRun
  deriving DecidableEq

/-- The answers of the API while a run looks for its candidates. -/
structure ServiceApi extends Api where
  openPulls : Answer (List Listed)
  /-- The probe of one pull request for a retained original, and else its candidate. -/
  probe : Nat → Option String → Answer Found
  queueCandidate : Answer (Option Candidate)
  /-- The pull request of the source of a callback, with what it leads to. -/
  callback : Answer (Nat × Found)
  /-- Whether the run has used up its requests or its time. -/
  exhausted : Answer Bool
  /-- The length of a state's serialization. -/
  stateBytes : Payload → Nat

variable (api : ServiceApi) (sha256 : ByteArray → Vector UInt8 32) (actor : Actor)
  (context : ServiceContext)

/-- What a run has found: its candidates, and the retained originals with their runs. -/
structure Work where
  candidates : List Candidate := []
  retained : List (Nat × Option Nat) := []

/-- A candidate of a pull request carries its number. -/
def Work.add (work : Work) (number : Nat) : Found → Work
  | .pull candidate => { work with
      candidates := work.candidates ++ [{ candidate with number := number, scope := .pullRequest }] }
  | .queue candidate => { work with
      candidates := work.candidates ++ [{ candidate with scope := .mergeGroup }] }
  | .retained identifier => { work with retained := work.retained ++ [(number, identifier)] }
  | .nothing => work

def maxScheduledPulls : Nat := 20

/-- The listed pull requests by their numbers, those after the cursor first. -/
def selected (cursor : Nat) (pulls : List (Nat × Option String)) : List (Nat × Option String) :=
  let ordered := pulls.insertionSort fun first second => first.1 ≤ second.1
  ((ordered.filter fun pull => cursor < pull.1) ++ ordered.filter fun pull => pull.1 ≤ cursor).take
    maxScheduledPulls

/-- A refusal of one candidate does not stop the others. -/
def tolerating {α : Type} (missing : α) (body : Service α) : Service α :=
  tryCatch body fun interrupt => match interrupt with
    | .eligibility _ | .refused _ => return missing
    | interrupt => throw interrupt

/-- The probe of one listed pull request; a retained original has no run yet. -/
def probeListed (number : Nat) (head : Option String) : Service Found := do
  match ← ask (api.probe number head) with
  | .pull candidate => return .pull candidate
  | .retained _ => return .retained none
  | _ => return .nothing

def probeAll : List (Nat × Option String) → Work → Service Work
  | [], work => return work
  | (number, head) :: rest, work => do
    let found ← tolerating .nothing (probeListed api number head)
    probeAll rest (work.add number found)

def ineligibleWhen (condition : Prop) [Decidable condition] (reason : Text) : Service Unit :=
  if condition then throw (.eligibility reason) else return

/-- The next scan goes on after the last pull request that this one chose. -/
def moveCursor (chosen : List (Nat × Option String)) : Service Unit :=
  match chosen.getLast? with
  | none => return
  | some last => modify fun session => { session with scanCursor := last.1 }

/-- The queue's candidate comes last, unless it is there already. -/
def Work.enqueue (work : Work) : Option Candidate → Work
  | none => work
  | some candidate =>
    let queued : Candidate := { candidate with scope := .mergeGroup }
    if work.candidates.contains queued then work else work.add 0 (.queue queued)

/-- The listed pull requests that have a number. -/
def numbered (pulls : List Listed) : List (Nat × Option String) :=
  pulls.filterMap fun pull => match pull.1 with
    | some (number + 1) => some (number + 1, pull.2)
    | _ => none

def discover (event : Event) : Service Work := do
  match event with
  | .workflowRun => do
    let (number, found) ← ask api.callback
    return ({} : Work).add number found
  | .schedule => do
    let pulls ← ask api.openPulls
    ineligibleWhen (pulls.length ≥ 100) (text "open PR scan exceeds its supported bound")
    ineligibleWhen ((numbered pulls).length ≠ pulls.length)
      (text "open PR metadata has an invalid PR number")
    let chosen := selected (← get).scanCursor (numbered pulls)
    moveCursor chosen
    let work ← probeAll api chosen {}
    return work.enqueue (← ask api.queueCandidate)

/-! ## Candidates -/

/-- The previous run reported the same candidate as ready, and this one does. -/
def readyReceipt (candidate : Candidate) (report : Report) : Bool :=
  reportMatches (previousReport context candidate.head) candidate [.pass] && report.status = .pass

/-- A scheduled scan goes on after the last candidate that it evaluated. -/
def evaluatedWhen (condition : Prop) [Decidable condition] (number : Nat) : Service Unit :=
  if condition then
    modify fun session => { session with scanCursor := number, evaluatedCursor := some number }
  else return

/-- The report of a candidate, once it is still current and its status is posted. -/
def evaluateCandidate (event : Event) (candidate : Candidate) : Service (Option Report) := do
  let (report, firstSeen) ← ask (api.evaluate candidate (← get).firstSeen)
  modify fun session => { session with firstSeen := firstSeen }
  evaluatedWhen (event = .schedule ∧ candidate.scope = .pullRequest) candidate.number
  if ¬ (← ask (api.stillCurrent candidate)) then return none
  let receipt := match context.previous with
    | none => actor.runId
    | some previous => if readyReceipt context candidate report then previous.runId else actor.runId
  ask (api.reportStatus report receipt)
  modify fun session => { session with reports := session.reports.insert candidate.head report }
  return some report

/-- The ordinary rerun of a candidate that the previous run reported as ready. -/
def rerunWhenReady (candidate : Candidate) (report : Report) : Service Unit := do
  if readyReceipt context candidate report ∧ (← get).canEffect then
    requireEffect api.toApi actor context actor.implementation
    rerunReady api.toApi actor context candidate

/-- The recovery of a candidate that was not rerun; a refusal of it is no failure. -/
def recoverUnlessRerun (candidate : Candidate) (report : Report) : Service Unit := do
  if (← get).ledger.lookup candidate.head = none then
    tryCatch (recover api.toApi sha256 actor context candidate report) fun interrupt => match interrupt with
      | .refused _ => return
      | interrupt => throw interrupt

def actOn (candidate : Candidate) (report : Report) : Service Unit := do
  rerunWhenReady api actor context candidate report
  recoverUnlessRerun api sha256 actor context candidate report

def serveCandidate (event : Event) (candidate : Candidate) : Service Unit := do
  match ← evaluateCandidate api actor context event candidate with
  | none => return
  | some report => actOn api sha256 actor context candidate report

def serveRetained (event : Event) (number : Nat) (originalRunId : Option Nat) : Service Unit := do
  recoverRetained api.toApi sha256 actor context number originalRunId
  let reports := (← get).reports
  evaluatedWhen (event = .schedule ∧ reports.entries.any fun entry =>
    entry.2.pullRequest = number && entry.2.protectedQueueRequired) number

/-- An exhausted scheduled scan falls back to the last evaluated candidate. -/
def fallBack (event : Event) : Service Unit := do
  if event = .schedule then
    modify fun session => { session with
      scanCursor := session.evaluatedCursor.getD ((context.previous.map Payload.scanCursor).getD 0) }

/-- Serves the items one after the other; after a failure the run may be exhausted. -/
def serveAll {α : Type} (event : Event) (serve : α → Service Unit) : List α → Service Unit
  | [] => return
  | item :: rest => do
    if ← tolerating false (do serve item; return true) then serveAll event serve rest
    else if ← ask api.exhausted then fallBack context event
    else serveAll event serve rest

def serve (event : Event) : Service Unit := do
  let work ← discover api event
  serveAll api context event (serveCandidate api sha256 actor context event) work.candidates
  serveAll api context event
    (fun retained : Nat × Option Nat => serveRetained api sha256 actor context event retained.1 retained.2)
    work.retained

/-! ## The persisted state -/

def Session.start (context : ServiceContext) : Session where
  ledger := (context.previous.map Payload.reruns).getD ∅
  recoveries := (context.previous.map Payload.recoveries).getD ∅
  firstSeen := (context.previous.map Payload.firstSeen).getD ∅
  reports := ∅
  scanCursor := (context.previous.map Payload.scanCursor).getD 0
  canPrepare := context.canPrepare
  canEffect := context.canEffect
  fence := context.frontier.fence

def Session.payload (session : Session) (context : ServiceContext) (actor : Actor) : Payload where
  repository := actor.repository
  workflowPath := workflowPath
  runId := actor.runId
  runAttempt := some actor.attempt
  implementationRevision := actor.implementation
  observedAt := actor.now
  firstSeen := session.firstSeen
  reruns := session.ledger
  recoveries := session.recoveries
  frontier := some { context.frontier with fence := session.fence }
  scanCursor := session.scanCursor
  reports := session.reports

def maxStateBytes : Nat := 2 * 1024 * 1024

/-- What a run leaves: its context, the requests it delivered, and the state it wrote. -/
structure Result where
  context : Option ServiceContext
  session : Option Session
  written : Option Payload

def Result.posts (result : Result) : List Post := (result.session.map Session.posts).getD []

/-- What a run leaves once it has its context. -/
def serviceFrom (event : Event) (context : ServiceContext) : Result :=
  match serve api sha256 actor context event (Session.start context) with
  | (.error _, session) => ⟨some context, some session, none⟩
  | (.ok _, session) =>
    match validateState (session.payload context actor) actor.repository actor.runId
        actor.implementation actor.now with
    | .error _ => ⟨some context, some session, none⟩
    | .ok payload =>
      if api.stateBytes payload > maxStateBytes then ⟨some context, some session, none⟩
      else ⟨some context, some session, some payload⟩

/-- One service run, once it knows that it is the trusted caller. -/
def service (event : Event) : Result :=
  match previousState api.toContextApi actor with
  | .error _ => ⟨none, none, none⟩
  | .ok previous => match serviceContext api.toContextApi actor previous with
    | .error _ => ⟨none, none, none⟩
    | .ok context => serviceFrom api sha256 actor event context

end Boxferry.Automation.Eligibility
