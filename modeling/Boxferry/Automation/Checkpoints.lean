import Boxferry.Automation.ServiceState

/-! # Service checkpoints

A service run reads the history of its own workflow back to its last checkpoint.
From the runs it finds it chooses the newest authoritative state, merges the budgets
of all of them, and decides whether it may prepare and take effects. -/
namespace Boxferry.Automation.Eligibility
set_option autoImplicit false

/-! ## Readers -/

/-- A run listing; an entry without a positive identifier is none. -/
structure Listing where
  runs : Option (List (Option Nat))
  totalCount : Option Nat

structure Workflow where
  id : Option Nat
  path : Option String
  name : Option String

inductive Site where
  | restored
  | anchor
  | window
  deriving DecidableEq

/-- The answers of the API while a run gathers its context. -/
structure ContextApi where
  /-- The revision and the committer date of the canonical implementation commit. -/
  commit : Except Interrupt (Option String × Option Moment)
  run : Site → Nat → Except Interrupt Run
  /-- The runs created at the moment or later. -/
  listing : Moment → Except Interrupt Listing
  /-- The newest runs that succeeded, unless there is no such listing. -/
  successes : Except Interrupt (Option (List (Option Nat)))
  /-- Whether a revision is a reviewed ancestor of the implementation. -/
  sourceAncestor : String → Except Interrupt Bool
  /-- The unique live state artifact of a run. -/
  artifact : Site → Nat → Except Interrupt Payload
  /-- How a revision compares to the default branch. -/
  comparison : String → Except Interrupt (Option String)
  /-- The jobs of the first attempt of a run. -/
  jobs : Nat → Except Interrupt Jobs
  workflow : Except Interrupt Workflow
  /-- The job blocks of the caller at a revision. -/
  callerJobs : String → Except Interrupt (Option (List (String × String)))
  /-- The count of a run's artifacts, and whether the list of them is empty. -/
  artifacts : Nat → Except Interrupt (Option Nat × Bool)

/-- The service run that gathers its context, and what it serves. -/
structure Actor where
  repository : String
  implementation : String
  branch : String
  runId : Nat
  attempt : Nat
  createdAt : Moment
  now : Moment

/-! ## Runs of the service -/

/-- The immutable date of the implementation. -/
def effectFloor (api : ContextApi) (implementation : String) : Except Interrupt Moment := do
  let (sha, date) ← api.commit
  refusedWhen (sha ≠ some implementation)
    (text "canonical C has no independently readable immutable effect floor")
  utc date

def queuedStatuses : List String := ["queued", "waiting", "pending", "requested"]

def isQueued (status : Option String) : Bool := status.any queuedStatuses.contains

/-- A job of a first attempt that has not started. -/
def unstartedJob (runId : Nat) (job : Option Job) : Bool :=
  match job with
  | none => false
  | some job =>
    job.id.any (0 < ·) && job.runId = some runId && job.runAttempt = some 1 && job.startedStamp = .null
      && job.conclusion = some none && isQueued job.status

/-- Only a genuinely queued first attempt can use the no-start branch. -/
def unstartedService (api : ContextApi) (run : Run) : Except Interrupt Bool := do
  match run.id with
  | none => return false
  | some id =>
    if id = 0 ∨ run.attempt ≠ some 1 ∨ ¬ isQueued run.status ∨ run.conclusion ≠ some none then
      return false
    let listing ← api.jobs id
    match listing.jobs with
    | none => return false
    | some jobs =>
      return jobs.length ≤ 100 && listing.totalCount = some jobs.length && jobs.all (unstartedJob id)
        && ((jobs.map fun job => job.bind Job.id).dedup.length = jobs.length : Bool)

def skippedJob (run : Run) (runId : Nat) (head branch : String) (job : Job) : Bool :=
  job.id.any (0 < ·) && job.runId = some runId && job.runAttempt = some 1
    && job.name = some "Trusted dependency metadata" && job.workflowName = run.name
    && job.headSha = some head && job.headBranch = some branch && job.status = some "completed"
    && job.conclusion = some (some "skipped") && job.unstepped && job.unassigned

/-- Timestamps are there, each null or a string; one that cannot be read is an error. -/
def readableStamps : List Stamp → Except Interrupt Bool
  | [] => .ok true
  | .missing :: _ => .ok false
  | .unreadable :: _ => .error (.eligibility (text "persisted time is malformed"))
  | .null :: rest | .at _ :: rest => readableStamps rest

/-- The one job of the reviewed caller. -/
def expectedCaller (implementation : String) : List (String × String) :=
  [("eligibility",
    "  eligibility:\n    name: Trusted dependency metadata\n    if: >-\n"
      ++ "      github.event_name == 'schedule' || (github.event_name == 'workflow_run' && "
      ++ "(github.event.workflow_run.event == 'pull_request' || "
      ++ "github.event.workflow_run.event == 'merge_group'))\n"
      ++ "    permissions:\n      actions: write\n      checks: read\n      contents: read\n"
      ++ "      pull-requests: write\n      statuses: write\n"
      ++ "    uses: " ++ sharedWorkflowPath ++ "@" ++ implementation
      ++ " # automation-v1 interface v1\n"
      ++ "    with:\n      automation-sha: " ++ implementation ++ "\n")]

/-- The guarded outer call of a skipped run never dispatched. -/
def skippedService (api : ContextApi) (actor : Actor) (run : Run) : Except Interrupt Bool := do
  match run.id with
  | none => return false
  | some id =>
    if ¬ repositories.contains actor.repository ∨ id = 0 ∨ run.attempt ≠ some 1
        ∨ run.status ≠ some "completed" ∨ run.conclusion ≠ some (some "skipped")
        ∨ run.repository ≠ some actor.repository ∨ ¬ run.event.any allowedEvents.contains
        ∨ run.path ≠ some workflowPath ∨ run.headBranch ≠ some actor.branch
        ∨ run.name ≠ some "Dependency eligibility service"
        ∨ run.referencedWorkflows ≠
          some [⟨sharedWorkflowPath ++ "@" ++ actor.implementation, actor.implementation, true⟩] then
      return false
    let head ← revision run.headSha
    discard (revision (some actor.implementation))
    let workflow ← api.workflow
    if ¬ run.workflowId.any (0 < ·) ∨ workflow.id ≠ run.workflowId ∨ workflow.path ≠ some workflowPath
        ∨ workflow.name ≠ run.name then
      return false
    let comparison ← api.comparison head
    if comparison ≠ some "ahead" ∧ comparison ≠ some "identical" then return false
    if (← api.callerJobs head) ≠ some (expectedCaller actor.implementation) then return false
    let listing ← api.jobs id
    match listing.totalCount, listing.jobs with
    | some 1, some [some job] =>
      if ¬ skippedJob run id head actor.branch job then return false
      if ¬ (← readableStamps [run.createdStamp, run.updatedStamp, run.startedStamp, job.startedStamp,
          job.completedStamp]) then
        return false
      let (count, empty) ← api.artifacts id
      return count = some 0 && empty
    | _, _ => return false

def immutableServiceSource (run : Run) : Except Interrupt String :=
  match run.referencedWorkflows with
  | none => .error (.refused (text "service history immutable reference metadata is malformed"))
  | some references =>
    if references.length > 30 then
      .error (.refused (text "service history immutable reference metadata is malformed"))
    else match serviceRevision run with
      | none => .error (.refused (text "service history has unknown immutable implementation"))
      | some source => .ok source

/-- Whether a source is the implementation, or one whose observations it may take over. -/
def acceptedSource (api : ContextApi) (actor : Actor) (allowAncestorObservations : Bool)
    (source : String) : Except Interrupt Bool :=
  if source = actor.implementation then .ok true
  else if allowAncestorObservations then api.sourceAncestor source
  else .ok false

/-- A completed, successful run of an accepted source in trusted history. -/
def trustedRun (api : ContextApi) (actor : Actor) (allowAncestorObservations : Bool) (run : Run) :
    Except Interrupt Bool := do
  if run.repository ≠ some actor.repository ∨ ¬ run.event.any allowedEvents.contains
      ∨ run.path ≠ some workflowPath ∨ run.headBranch ≠ some actor.branch
      ∨ run.conclusion ≠ some (some "success") ∨ run.status ≠ some "completed" then
    return false
  match serviceRevision run with
  | none => return false
  | some source =>
    if ¬ (← acceptedSource api actor allowAncestorObservations source) then return false
    match run.headSha with
    | none => return false
    | some head =>
      if ¬ isRevision head then return false
      let comparison ← api.comparison head
      return comparison = some "ahead" || comparison = some "identical"

/-- A trusted run of this very implementation. -/
def trustedSource (api : ContextApi) (actor : Actor) (source : String) (run : Run) : Except Interrupt Bool :=
  if source = actor.implementation then trustedRun api actor false run else .ok false

/-! ## The previous state -/

/-- What another implementation's state hands on: its observations, and no authority. -/
def migrated (state : Payload) : Payload :=
  { state with reruns := ∅, recoveries := ∅, frontier := none, scanCursor := 0, reports := ∅ }

/-- The state of one successful run, where the run is trusted. -/
def restoreRun (api : ContextApi) (actor : Actor) (runId : Nat) : Except Interrupt (Option Payload) := do
  let run ← api.run .restored runId
  if ¬ (← trustedRun api actor true run) then return none
  match serviceRevision run with
  | none => return none
  | some source => do
    let artifact ← api.artifact .restored runId
    let state ← validateState artifact actor.repository runId source actor.now
    return some (if source = actor.implementation then state else migrated state)

/-- The first state that can be restored; an unusable one is passed over. -/
def restoreFirst (api : ContextApi) (actor : Actor) : List (Option Nat) → Except Interrupt (Option Payload)
  | [] => .ok none
  | none :: rest => restoreFirst api actor rest
  | some runId :: rest => match restoreRun api actor runId with
    | .ok (some state) => .ok (some state)
    | .ok none | .error (.eligibility _) => restoreFirst api actor rest
    | .error interrupt => .error interrupt

/-- Restores only this service's successful trusted runs; without one it observes anew. -/
def previousState (api : ContextApi) (actor : Actor) : Except Interrupt (Option Payload) := do
  match ← api.successes with
  | none => return none
  | some summaries => restoreFirst api actor (summaries.take 30)

/-! ## Checkpoints -/

/-- A run whose persisted state is bound to it. -/
structure Checkpoint where
  run : Run
  id : Nat
  created : Moment
  payload : Payload

/-- The frontier of a state is of this protocol, floor and creation. -/
def bindsFrontier (payload : Payload) (floor created : Moment) : Bool :=
  payload.frontier.any fun frontier =>
    frontier.protocol = 1 && frontier.floor = some floor && frontier.serviceCreatedAt = created

def checkpointPayload (api : ContextApi) (site : Site) (actor : Actor) (run : Run) (floor : Moment) :
    Except Interrupt Checkpoint := do
  let source ← immutableServiceSource run
  refusedWhen (¬ (← trustedSource api actor source run))
    (text "service history has no completed-success same-C checkpoint authority")
  match run.id, run.attempt with
  | some (id + 1), some (attempt + 1) => do
    let created ← utc run.createdAt
    let artifact ← api.artifact site (id + 1)
    let payload ← validateState artifact actor.repository (id + 1) actor.implementation actor.now
    refusedWhen (payload.runAttempt ≠ some (attempt + 1) ∨ ¬ bindsFrontier payload floor created
        ∨ created < floor)
      (text "checkpoint artifact does not bind its exact server attempt/floor")
    return ⟨run, id + 1, created, payload⟩
  | _, _ => throw (.refused (text "checkpoint run/attempt identity is malformed"))

def authoritative (payload : Payload) : Bool := payload.frontier.any Frontier.authority

/-- The fence of a state, where it says something. -/
def fenceOf (payload : Payload) : Option String :=
  payload.frontier.bind fun frontier => frontier.fence.filter (· ≠ "")

/-! ## Budgets -/

def mergeRerun (reruns : Reruns) (entry : Sigma fun _ : String => Nat) : Except Interrupt Reruns :=
  match reruns.lookup entry.1 with
  | none => .ok (reruns.insert entry.1 entry.2)
  | some identifier =>
    if identifier ≠ entry.2 then
      .error (.refused (text "same-C history has conflicting normal retry budgets"))
    else .ok (reruns.insert entry.1 entry.2)

def mergeRecovery (recoveries : Recoveries) (entry : Sigma fun _ : String => Reservation) :
    Except Interrupt Recoveries :=
  match recoveries.lookup entry.1 with
  | none => .ok (recoveries.insert entry.1 entry.2)
  | some existing =>
    if existing.bindings ≠ entry.2.bindings then
      .error (.refused (text "same-C history has conflicting original recovery bindings"))
    else if existing.phase ≠ .prepared then .ok recoveries
    else .ok (recoveries.insert entry.1 entry.2)

def mergeSeen (firstSeen : FirstSeen) (entry : Sigma fun _ : String => Moment) : FirstSeen :=
  match firstSeen.lookup entry.1 with
  | none => firstSeen.insert entry.1 entry.2
  | some earlier => if entry.2 < earlier then firstSeen.insert entry.1 entry.2 else firstSeen

def mergeBudget (result payload : Payload) : Except Interrupt Payload := do
  let reruns ← payload.reruns.entries.reverse.foldlM mergeRerun result.reruns
  let recoveries ← payload.recoveries.entries.reverse.foldlM mergeRecovery result.recoveries
  return { result with
    reruns := reruns
    recoveries := recoveries
    firstSeen := payload.firstSeen.entries.reverse.foldl mergeSeen result.firstSeen }

/-- The union of the budgets; the reports stay those of the selected state. -/
def mergeBudgets (selected : Payload) (evidence : List Payload) : Except Interrupt Payload :=
  evidence.foldlM mergeBudget selected

/-! ## The context of a run -/

/-- The entries of a listing that have a positive identifier. -/
def identities (entries : List (Option Nat)) : List Nat :=
  entries.filterMap fun entry => entry.filter (0 < ·)

/-- The complete history since a moment, each run read again by its identifier. -/
def historyRuns (api : ContextApi) (lower : Moment) : Except Interrupt (List Run) := do
  let listing ← api.listing lower
  match listing.runs with
  | none =>
    throw (.refused (text "service checkpoint history is incomplete; effect budget is suspended"))
  | some entries =>
    refusedWhen (entries.length > 100 ∨ listing.totalCount ≠ some entries.length)
      (text "service checkpoint history is incomplete; effect budget is suspended")
    refusedWhen ((identities entries).length ≠ entries.length ∨ ¬ (identities entries).Nodup)
      (text "service checkpoint history has ambiguous run identities")
    let runs ← (identities entries).mapM (api.run .window)
    refusedWhen (runs.map Run.id ≠ (identities entries).map some)
      (text "service history response changed an exact run identity")
    return runs

/-- What has been gathered so far; it stays when a later step is interrupted. -/
structure Gathered where
  floor : Option Moment := none
  fence : Option String := none
  pending : List (Nat × Nat) := []
  evidence : List Payload := []
  candidates : List Checkpoint := []
  checkpoint : Option Checkpoint := none
  selected : Option Payload

/-- The run that the previous state, or its predecessor, names as the last checkpoint. -/
def anchorId (actor : Actor) (previous : Option Payload) : Option Nat :=
  match previous with
  | none => none
  | some payload =>
    if payload.implementationRevision ≠ actor.implementation then none
    else match payload.frontier with
      | none => some payload.runId
      | some frontier => if frontier.authority then some payload.runId else frontier.predecessorRunId

def anchorOf (api : ContextApi) (actor : Actor) (previous : Option Payload) (floor : Moment) :
    Except Interrupt (Option Checkpoint) := do
  match anchorId actor previous with
  | none => return none
  | some identifier =>
    let anchor ← api.run .anchor identifier
    refusedWhen (anchor.id ≠ some identifier)
      (text "checkpoint predecessor response changed its exact run ID")
    let checkpoint ← checkpointPayload api .anchor actor anchor floor
    refusedWhen (¬ authoritative checkpoint.payload)
      (text "selected predecessor is not checkpoint authority")
    return some checkpoint

def uncertainFence : String :=
  "prior same-C service may have effected without terminal budget evidence"

/-- Takes one run of the history into account. -/
def scanRun (api : ContextApi) (actor : Actor) (floor lower : Moment) (run : Run)
    (gathered : Gathered) : Except Interrupt Gathered := do
  if run.id = some actor.runId ∧ run.attempt = some actor.attempt then return gathered
  refusedWhen (run.repository ≠ some actor.repository ∨ run.path ≠ some workflowPath
      ∨ run.headBranch ≠ some actor.branch)
    (text "service history has unsupported caller provenance")
  let source ← immutableServiceSource run
  if source ≠ actor.implementation then return gathered
  refusedWhen ((← utc run.createdAt) < lower)
    (text "service history escaped its exact checkpoint time window")
  if run.attempt ≠ some 1 then
    return { gathered with
      fence := some "prior same-C service attempts are ambiguous; effect budget is suspended" }
  if run.status ≠ some "completed" then
    if ← unstartedService api run then return gathered
    return { gathered with pending := gathered.pending ++ [(run.id.getD 0, 1)] }
  if run.conclusion ≠ some (some "success") then
    if ← unstartedService api run then return gathered
    if ← skippedService api actor run then return gathered
    return { gathered with fence := some uncertainFence }
  match checkpointPayload api .window actor run floor with
  | .error interrupt => match interrupt.reason? with
    | some reason => return { gathered with fence := some reason.value }
    | none => throw interrupt
  | .ok checkpoint =>
    let gathered := { gathered with evidence := gathered.evidence ++ [checkpoint.payload] }
    if authoritative checkpoint.payload then
      return { gathered with candidates := gathered.candidates ++ [checkpoint] }
    return gathered

def scanRuns (api : ContextApi) (actor : Actor) (floor lower : Moment) :
    List Run → Gathered → Gathered × Option Interrupt
  | [], gathered => (gathered, none)
  | run :: rest, gathered =>
    match scanRun api actor floor lower run gathered with
    | .error interrupt => (gathered, some interrupt)
    | .ok gathered => scanRuns api actor floor lower rest gathered

/-- Creation decides, and of two runs created at once the identifier. -/
def Checkpoint.after (first second : Checkpoint) : Bool :=
  second.created < first.created || (second.created = first.created && second.id < first.id)

def latest : List Checkpoint → Option Checkpoint
  | [] => none
  | first :: rest => match latest rest with
    | none => some first
    | some later => some (if later.after first then later else first)

/-- The last fence among the states. -/
def inherit (fence : Option String) (states : List Payload) : Option String :=
  states.foldl (fun fence state => (fenceOf state).or fence) fence

/-- Chooses the newest checkpoint, merges the budgets and inherits the fences. -/
def choose (previous : Option Payload) (gathered : Gathered) : Gathered × Option Interrupt :=
  let chosen := match latest gathered.candidates with
    | some checkpoint => { gathered with
        checkpoint := some checkpoint
        selected := some checkpoint.payload }
    | none => { gathered with selected := gathered.selected.or gathered.evidence.getLast? }
  let fence := inherit gathered.fence (gathered.evidence ++ previous.toList)
  match chosen.selected with
  | none => ({ chosen with fence := fence }, none)
  | some selected => match mergeBudgets selected chosen.evidence with
    | .error interrupt => (chosen, some interrupt)
    | .ok merged => ({ chosen with selected := some merged, fence := fence }, none)

def gather (api : ContextApi) (actor : Actor) (previous : Option Payload) :
    Gathered × Option Interrupt :=
  if actor.runId = 0 ∨ actor.attempt = 0 then
    ({ selected := previous },
      some (.refused (text "current service run/attempt identity is malformed")))
  else match effectFloor api actor.implementation with
    | .error interrupt => ({ selected := previous }, some interrupt)
    | .ok floor => match anchorOf api actor previous floor with
      | .error interrupt => ({ floor := some floor, selected := previous }, some interrupt)
      | .ok anchor =>
        let lower := (anchor.map Checkpoint.created).getD floor
        let gathered : Gathered := {
          floor := some floor
          evidence := anchor.toList.map Checkpoint.payload
          candidates := anchor.toList
          selected := previous }
        match historyRuns api lower with
        | .error interrupt => (gathered, some interrupt)
        | .ok window =>
          if lower ≤ actor.createdAt ∧ some actor.runId ∉ window.map Run.id then
            (gathered,
              some (.refused (text "service history omits the independently known current execution")))
          else match scanRuns api actor floor lower window gathered with
            | (found, some interrupt) => (found, some interrupt)
            | (found, none) => choose previous found

structure ServiceContext where
  previous : Option Payload
  frontier : Frontier
  createdAt : Moment
  runId : Nat
  attempt : Nat
  canPrepare : Bool
  canEffect : Bool
  checkpoint : Option Checkpoint

/-- The context of what a run has gathered, with the fence that it ends with. -/
def Gathered.context (gathered : Gathered) (actor : Actor) (fence : Option String) : ServiceContext :=
  let fence := if actor.attempt ≠ 1 then
      some "current service rerun has unresolved prior attempts; effect budget is suspended"
    else fence
  let ordered := gathered.candidates.all fun checkpoint =>
    checkpoint.created ≤ actor.createdAt && checkpoint.id < actor.runId
  let active := gathered.floor.any (· ≤ actor.createdAt)
  let authority := active && ordered && gathered.pending.isEmpty
  let clean := authority && fence = none && actor.attempt = 1
  { previous := gathered.selected
    frontier := {
      floor := gathered.floor
      serviceCreatedAt := actor.createdAt
      authority := authority
      fence := fence
      pending := gathered.pending
      predecessorRunId := gathered.checkpoint.map Checkpoint.id
      refusal :=
        if ¬ ordered then
          some "an independently verified newer checkpoint forbids this older execution"
        else if ¬ active then some "current service predates the immutable C effect floor"
        else none }
    createdAt := actor.createdAt
    runId := actor.runId
    attempt := actor.attempt
    canPrepare := clean
    canEffect := clean && gathered.checkpoint.isSome
    checkpoint := gathered.checkpoint }

/-- Any value error becomes the fence; another interruption ends the run. -/
def serviceContext (api : ContextApi) (actor : Actor) (previous : Option Payload) :
    Except Interrupt ServiceContext :=
  match gather api actor previous with
  | (gathered, none) => .ok (gathered.context actor gathered.fence)
  | (gathered, some interrupt) => match interrupt.reason? with
    | some reason => .ok (gathered.context actor (some reason.value))
    | none => .error interrupt

end Boxferry.Automation.Eligibility
