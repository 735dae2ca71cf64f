import Boxferry.Automation.Checkpoints

/-! # Reruns and recoveries

The three ways a service run asks for another attempt of an original CI run: the
ordinary rerun of an equal base, the recovery of an older base, and the recovery of
a retained original. Each keeps a ledger that is written before the request. -/
namespace Boxferry.Automation.Eligibility
set_option autoImplicit false

/-! ## Sessions -/

/-- A delivered request for an effect, with the reservation it consumes where it has one. -/
inductive Post where
  | label (number : Nat) (key : String)
  | rerun (identifier : Nat) (key : Option String)
  deriving DecidableEq

/-- What changes while a service run goes on. The two ledgers are those of the previous state. -/
structure Session where
  /-- How many answers the run has asked for. -/
  tick : Nat := 0
  ledger : Reruns
  recoveries : Recoveries
  firstSeen : FirstSeen
  reports : AList fun _ : String => Report
  scanCursor : Nat
  evaluatedCursor : Option Nat := none
  canPrepare : Bool
  canEffect : Bool
  fence : Option String
  posts : List Post := []

/-- A step of a service run; what it changed stays when it is interrupted. -/
abbrev Service (α : Type) := ExceptT Interrupt (StateM Session) α

/-- An answer may depend on when it is asked for. -/
abbrev Answer (α : Type) := Nat → Except Interrupt α

def ask {α : Type} (answer : Answer α) : Service α := do
  let tick := (← get).tick
  modify fun session => { session with tick := tick + 1 }
  liftM (answer tick)

structure Hint where
  candidateSha : String
  baseSha : String

structure RetainedBinding where
  historical : Candidate
  target : String
  identity : String
  excludedJobs : List String := []
  deriving DecidableEq

structure CiJob where
  name : String
  status : Option String
  conclusion : Option String

structure CiJobs where
  jobs : List CiJob
  totalCount : Option Nat

/-- The answers of the API while a run serves its candidates. -/
structure Api extends ContextApi where
  /-- The answer to a delivered request. -/
  posted : Answer Unit
  serviceRun : Nat → Answer Run
  ciRun : Nat → Answer Run
  /-- The newest CI runs of a head. -/
  ciRuns : String → Answer (List Run)
  ciJobs : Nat → Answer CiJobs
  /-- The rest of the checks of an original run: its attempt's jobs and its required check. -/
  originalJobs : Nat → Option String → List String → Answer Unit
  protection : Answer String
  stillCurrent : Candidate → Answer Bool
  candidateHint : Nat → Candidate → Answer Hint
  hintArtifact : Nat → Answer Bool
  /-- The historical graph's base and head, whether it is handed off, and the reader. -/
  graphProof : Candidate → Hint → Answer (Bool × String)
  nativeProof : Candidate → Answer (String × String)
  retainedPr : Nat → Answer RetainedBinding
  retainedProof : Nat → Answer RetainedBinding
  labelUnused : Nat → Answer Unit
  labels : Nat → Answer (List String)
  evaluate : Candidate → FirstSeen → Answer (Report × FirstSeen)
  reportStatus : Report → Nat → Answer Unit
  workflowFile : String → Answer (Option ByteArray)
  retryUpgrade : Candidate → Answer Bool

/-- The ledger's name for the retry budget of an original run. -/
def reservationKey (sha256 : ByteArray → Vector UInt8 32) (actor : Actor) (identifier : Nat)
    (sourceHead : String) : String :=
  hexdigest (sha256 (actor.repository ++ ":" ++ toString identifier ++ ":" ++ sourceHead ++ ":"
    ++ actor.implementation).toUTF8)

variable (api : Api) (sha256 : ByteArray → Vector UInt8 32) (actor : Actor) (context : ServiceContext)

def refuse {α : Type} (reason : String) (h : reason ≠ "" := by decide) : Service α :=
  throw (.refused ⟨reason, h⟩)

def refuseWhen (condition : Prop) [Decidable condition] (reason : String)
    (h : reason ≠ "" := by decide) : Service Unit :=
  if condition then refuse reason h else return

def post (effect : Post) : Service Unit := do
  modify fun session => { session with posts := session.posts ++ [effect] }
  ask api.posted

/-- Changes a reservation, as long as there is one. -/
def amend (key : String) (change : Reservation → Reservation) : Service Unit :=
  modify fun session => match session.recoveries.lookup key with
    | none => session
    | some reservation => { session with recoveries := session.recoveries.insert key (change reservation) }

def reserve (key : String) (reservation : Reservation) : Service Unit :=
  modify fun session => { session with recoveries := session.recoveries.insert key reservation }

def suspend (key : String) (reservation : Option Reservation) (reason : Text) : Service Unit :=
  match reservation with
  | none => return
  | some _ => amend key fun entry => { entry with phase := .suspended, reason := some reason.value }

/-- A value error suspends the reservation that was there, and refuses. -/
def suspending {α : Type} (key : String) (reservation : Option Reservation) (body : Service α) : Service α :=
  tryCatch body fun interrupt => match interrupt.reason? with
    | none => throw interrupt
    | some reason => do
      suspend key reservation reason
      throw (.refused reason)

/-! ## The effect fence -/

/-- The actor and its checkpoint are still what the context was made of. -/
def actorUnchanged (implementation : String) (current checkpoint : Run) (expected : Checkpoint) :
    Except Interrupt Bool := do
  if current.id ≠ some context.runId ∨ current.status ≠ some "in_progress"
      ∨ current.conclusion ≠ some none ∨ current.attempt ≠ some context.attempt ∨ context.attempt ≠ 1 then
    return false
  if (← utc current.createdAt) ≠ context.createdAt ∨ checkpoint.id ≠ some expected.id then return false
  if (← immutableServiceSource current) ≠ implementation ∨ current.path ≠ some workflowPath
      ∨ current.headBranch ≠ some actor.branch ∨ checkpoint.attempt ≠ expected.run.attempt then
    return false
  if ¬ (← trustedRun api.toContextApi { actor with implementation := implementation } false checkpoint) then
    return false
  if context.createdAt < (← utc checkpoint.createdAt) then return false
  return checkpoint.id.any (· < context.runId)

def changedFence : String := "effect-time actor/checkpoint changed; budget suspended"

/-- Fresh exact-attempt and monotonic checks immediately before either action path. -/
def requireEffect (implementation : String) : Service Unit := do
  match (← get).canEffect, context.checkpoint with
  | true, some expected => do
    let current ← ask (api.serviceRun context.runId)
    let checkpoint ← ask (api.serviceRun expected.id)
    if ¬ (← liftM (actorUnchanged api actor context implementation current checkpoint expected)) then
      modify fun session =>
        { session with fence := some changedFence, canEffect := false, canPrepare := false }
      refuse changedFence
  | _, _ => refuse "no completed clean same-C checkpoint authorizes this service effect"

/-! ## Consuming a reservation -/

def workflowFile (repository : String) : String :=
  if "/docker-lens".toList.isSuffixOf repository.toList then ".github/workflows/check.yml"
  else ".github/workflows/ci.yml"

/-- Only normal CI or Check, in this repository, at this exact revision. -/
def candidateRun (repository : String) (run : Run) (head : String) : Bool :=
  run.repository = some repository && run.headRepository = some repository
    && (run.event = some "pull_request" || run.event = some "merge_group")
    && run.name = some (if "/docker-lens".toList.isSuffixOf repository.toList then "Check" else "CI")
    && run.path = some (workflowFile repository) && run.headSha = some head

/-- The one linked pull request is the candidate's, with the source that it has. -/
def identifies (candidate : Candidate) : List LinkedPull → Bool
  | [pull] => pull.number = candidate.number && pull.headSha = some candidate.sourceHead
  | _ => false

/-- A failed first attempt of the candidate's own CI run. -/
def originalRun (identifier : Nat) (candidate : Candidate) (implementation : Option String)
    (excluded : List String) : Service Run := do
  let run ← ask (api.ciRun identifier)
  refuseWhen (run.repository = none ∨ run.headRepository = none)
    "original CI repository metadata is malformed"
  refuseWhen (run.id ≠ some identifier ∨ ¬ candidateRun actor.repository run candidate.sourceHead
      ∨ run.event ≠ some "pull_request" ∨ run.status ≠ some "completed"
      ∨ run.conclusion ≠ some (some "failure") ∨ run.attempt ≠ some 1)
    "original CI is changed, active, successful or already attempted"
  refuseWhen (¬ identifies candidate run.pullRequests)
    "original CI does not identify the unchanged owned source H"
  ask (api.originalJobs identifier implementation excluded)
  return run

/-- A binding proof is about the pull request that it was asked for. -/
def ofPull (number : Nat) (binding : RetainedBinding) : RetainedBinding :=
  { binding with historical := { binding.historical with number := number, scope := .pullRequest } }

def retainedPr (number : Nat) : Service RetainedBinding := do
  let binding ← ask (api.retainedPr number)
  return { ofPull number binding with excludedJobs := [] }

def retainedProof (number : Nat) : Service RetainedBinding := do
  let binding ← ask (api.retainedProof number)
  return ofPull number binding

/-- The proofs right before an effect on an ordinary or on a retained candidate. -/
def proveEffect (identifier : Nat) (candidate : Candidate) (reservation : Reservation)
    (reader : Option String) (retained : Option RetainedBinding) : Service Unit := do
  match retained with
  | none => do
    requireEffect api actor context reservation.bindings.authority
    discard (originalRun api actor identifier candidate reader [])
    discard (ask api.protection)
    refuseWhen (¬ (← ask (api.stillCurrent candidate)))
      "PR changed before consuming the prepared recovery"
  | some binding => do
    let fresh ← retainedProof api candidate.number
    refuseWhen (fresh ≠ binding ∨ reservation.bindings.originalIdentitySha256 ≠ some fresh.identity)
      "retained original changed before consuming prepared recovery"
    discard (ask api.protection)
    refuseWhen ((← retainedPr api candidate.number) ≠ { fresh with excludedJobs := [] })
      "retained source or target changed before the effect"
    discard (originalRun api actor identifier candidate reader fresh.excludedJobs)
    let hint ← ask (api.candidateHint identifier candidate)
    refuseWhen (hint.candidateSha ≠ candidate.head ∨ hint.baseSha ≠ candidate.base)
      "original hint changed before consuming prepared recovery"
    requireEffect api actor context reservation.bindings.authority

/-- The request of a reservation: the label of its pull request, or the rerun of its run. -/
def effectOf (number identifier : Nat) (key : String) (labels : Bool) : Post :=
  if labels then .label number key else .rerun identifier (some key)

def proveLabelUnused (number : Nat) (labels : Bool) : Service Unit :=
  if labels then ask (api.labelUnused number) else return

/-- Reconciliation only: a timeout never triggers another request. -/
def reconcile (key : String) (number identifier : Nat) (labels : Bool) : Service Unit := do
  amend key fun entry => { entry with phase := .uncertain }
  if labels then
    let observed ← ask (api.labels number)
    amend key fun entry => { entry with observedLabels := some (observed.take 100) }
  else
    let observed ← ask (api.ciRun identifier)
    amend key fun entry => { entry with observedAttempt := some observed.attempt }

/-- Consumes a prepared reservation: the attempt is written down before it is requested. -/
def consume (key : String) (identifier : Nat) (candidate : Candidate) (reservation : Reservation)
    (reader : Option String) (retained : Option RetainedBinding) : Service Unit := do
  proveEffect api actor context identifier candidate reservation reader retained
  proveLabelUnused api candidate.number reservation.bindings.kind.labels
  amend key fun entry => { entry with phase := .attempted, effectServiceRun := some actor.runId }
  tryCatch (post api (effectOf candidate.number identifier key reservation.bindings.kind.labels))
    fun interrupt => match interrupt.reason? with
      | none => throw interrupt
      | some _ => reconcile api key candidate.number identifier reservation.bindings.kind.labels

/-! ## Recoveries -/

/-- The reservation of a key, before anything was asked of it. -/
def prepare (key : String) (bindings : Bindings) (protection : String) : Service Unit :=
  reserve key {
    bindings := bindings
    phase := .prepared
    preparedAt := actor.now
    preparedServiceRun := actor.runId
    protection := protection }

def previousReport (head : String) : Option Report :=
  context.previous.bind fun previous => previous.reports.lookup head

def nativeHandoff (run : Run) (identifier : Nat) (candidate : Candidate) (report : Report)
    (key : String) (reservation : Option Reservation) : Service Unit := do
  refuseWhen (¬ reportMatches (some report) candidate [.pass])
    "native no-hint handoff requires a full current N/B eligibility pass"
  refuseWhen (context.createdAt < (← liftM (utc run.createdAt)))
    "earlier-created service cannot target a future original CI run"
  let proof ← ask (api.nativeProof candidate)
  let protection ← ask api.protection
  let bindings : Bindings := {
    kind := .nativeLegacyHandoff
    originalRunId := identifier
    originalAttempt := run.attempt.getD 0
    sourceHeadSha := candidate.sourceHead
    authority := actor.implementation
    mergeBaseSha := some proof.1
    transitionFingerprint := some proof.2 }
  match reservation with
  | none => prepare actor key bindings protection
  | some reservation => do
    refuseWhen (¬ bindings.keeps reservation.bindings)
      "native handoff transition changed; original budget is suspended"
    -- the prior reservation is the same one: the previous state shares its ledger
    match context.previous with
    | none => return
    | some previous =>
      if ¬ (← get).canEffect ∨ previous.implementationRevision ≠ actor.implementation
          ∨ reservation.phase ≠ .prepared
          ∨ ¬ reportMatches (previousReport context candidate.head) candidate [.pass] then
        return
      refuseWhen ((← ask (api.nativeProof candidate)) ≠ proof)
        "native transition drifted immediately before handoff"
      consume api actor context key identifier candidate reservation none none

/-- The historical candidate that a hint locates. -/
def historicalOf (candidate : Candidate) (hint : Hint) : Candidate :=
  { candidate with base := hint.baseSha, head := hint.candidateSha, scope := .pullRequest, title := "" }

/-- Evaluates a historical candidate; its receipt is the previous run's as soon as that one passed. -/
def historicalReport (historical : Candidate) : Service Report := do
  let (report, firstSeen) ← ask (api.evaluate historical (← get).firstSeen)
  modify fun session => { session with firstSeen := firstSeen }
  let report := { report with evidenceKind := some "independently-evaluated-historical-hint" }
  let receipt := match context.previous with
    | none => actor.runId
    | some previous =>
      if reportMatches (previousReport context historical.head) historical [.pass] then previous.runId
      else actor.runId
  ask (api.reportStatus report receipt)
  modify fun session => { session with reports := session.reports.insert historical.head report }
  return report

/-- The older-base recovery of one original run, once its key is free to be used. -/
def recoverOriginal (identifier : Nat) (candidate : Candidate) (report : Report) (key : String)
    (reservation : Option Reservation) : Service Unit := do
  let run ← originalRun api actor identifier candidate none []
  if ¬ (← ask (api.hintArtifact identifier)) then
    nativeHandoff api actor context run identifier candidate report key reservation
  else
    let hint ← ask (api.candidateHint identifier candidate)
    if hint.baseSha = candidate.base then return
    let (handoff, reader) ← ask (api.graphProof candidate hint)
    let kind : Kind := if handoff then .handoff else .retainedGraph
    let historical := historicalOf candidate hint
    let protection ← ask api.protection
    let old ← historicalReport api actor context historical
    refuseWhen (¬ (← ask (api.stillCurrent candidate)))
      "source/current candidate changed during historical evaluation"
    refuseWhen (context.createdAt < (← liftM (utc run.createdAt)))
      "earlier-created service cannot target a future original CI run"
    let bindings : Bindings := {
      kind := kind
      originalRunId := identifier
      originalAttempt := run.attempt.getD 0
      sourceHeadSha := candidate.sourceHead
      authority := actor.implementation
      hintedCandidateSha := some historical.head
      hintedBaseSha := some historical.base }
    match reservation with
    | none => prepare actor key bindings protection
    | some reservation => do
      refuseWhen (¬ bindings.keeps reservation.bindings)
        "prepared recovery binding changed; retry budget is suspended"
      -- a label requests a fresh graph; it does not approve either one
      let statuses := if kind = .retainedGraph then [Status.pass] else [.pass, .waiting]
      let ready := reportMatches (some old) historical statuses
        && reportMatches (some report) candidate statuses
        && reportMatches (previousReport context historical.head) historical statuses
        && reportMatches (previousReport context candidate.head) candidate statuses
      if ready ∧ (← get).canEffect then
        consume api actor context key identifier candidate reservation (some reader) none

/-- Whether the ordinary path already used an original run. -/
def alreadyRerun (identifier : Nat) : Service Bool := do
  let session ← get
  return context.previous.isSome && session.ledger.entries.any fun entry => entry.2 = identifier

def recoverRun (identifier : Nat) (candidate : Candidate) (report : Report) : Service Unit := do
  if ¬ (← get).canPrepare then return
  if ← alreadyRerun context identifier then return
  let key := reservationKey sha256 actor identifier candidate.sourceHead
  let reservation := (← get).recoveries.lookup key
  if reservation.any fun entry => entry.phase ≠ .prepared then return
  suspending key reservation
    (recoverOriginal api actor context identifier candidate report key reservation)

/-- Prepares, then consumes, one older-base recovery. -/
def recover (candidate : Candidate) (report : Report) : Service Unit := do
  if candidate.scope ≠ .pullRequest then return
  let runs ← ask (api.ciRuns candidate.sourceHead)
  refuseWhen (runs.length > 20) "candidate CI listing exceeds its supported recovery bound"
  match runs.find? fun run => candidateRun actor.repository run candidate.sourceHead
      && run.pullRequests.length = 1 && run.pullRequests.all fun pull => pull.number = candidate.number with
  | none => return
  | some run => match run.id with
    | some (id + 1) => recoverRun api sha256 actor context (id + 1) candidate report
    | _ => refuse "original CI identifier is malformed"

/-- The recovery of one retained original, once its key is free to be used. -/
def recoverBound (identifier number : Nat) (observed : RetainedBinding) (key : String)
    (reservation : Option Reservation) : Service Unit := do
  let raw ← ask (api.ciRun identifier)
  if raw.status ≠ some "completed" ∨ raw.conclusion = some (some "success") then return
  let historical := observed.historical
  let proof ← retainedProof api number
  refuseWhen ({ proof with excludedJobs := [] } ≠ observed)
    "retained original changed during discovery"
  let run ← originalRun api actor identifier historical (some actor.implementation) proof.excludedJobs
  let hint ← ask (api.candidateHint identifier historical)
  refuseWhen (hint.candidateSha ≠ historical.head ∨ hint.baseSha ≠ historical.base)
    "hint does not locate the observed stale original graph"
  refuseWhen (context.createdAt < (← liftM (utc run.createdAt)))
    "earlier-created service cannot target future original CI run"
  let protection ← ask api.protection
  let bindings : Bindings := {
    kind := .retainedOriginal
    originalRunId := identifier
    originalAttempt := run.attempt.getD 0
    sourceHeadSha := historical.sourceHead
    authority := actor.implementation
    hintedCandidateSha := some historical.head
    hintedBaseSha := some historical.base
    originalIdentitySha256 := some proof.identity }
  refuseWhen (reservation.any fun entry => ¬ bindings.keeps entry.bindings)
    "prepared retained-original bindings changed; budget suspended"
  let (report, firstSeen) ← ask (api.evaluate historical (← get).firstSeen)
  modify fun session => { session with firstSeen := firstSeen }
  refuseWhen ((← retainedPr api number) ≠ observed)
    "retained original changed during metadata evaluation"
  let report := { report with
    evidenceKind := some "independently-evaluated-historical-hint"
    protectedQueueRequired := true }
  let prior := previousReport context historical.head
  let receipt := match context.previous with
    | none => actor.runId
    | some previous => if reportMatches prior historical [.pass] then previous.runId else actor.runId
  ask (api.reportStatus report receipt)
  modify fun session => { session with reports := session.reports.insert historical.head report }
  match reservation with
  | none => prepare actor key bindings protection
  | some reservation =>
    if reportMatches (some report) historical [.pass] ∧ reportMatches prior historical [.pass]
        ∧ (← get).canEffect then
      consume api actor context key identifier historical reservation (some actor.implementation)
        (some proof)

/-- The original run that a callback named, or that is found at the retained head. -/
def retainedRun (observed : RetainedBinding) (originalRunId : Option Nat) : Service (Option Nat) := do
  match originalRunId with
  | some identifier => return some identifier
  | none => do
    let runs ← ask (api.ciRuns observed.historical.sourceHead)
    refuseWhen (runs.length > 20) "retained original CI discovery exceeds its bound"
    return (runs.find? fun run => candidateRun actor.repository run observed.historical.sourceHead).map
      fun run => run.id.getD 0

/-- Rechecks a retained original and retries its existing waiter. -/
def recoverRetained (number : Nat) (originalRunId : Option Nat) : Service Unit := do
  if ¬ (← get).canPrepare then return
  let observed ← retainedPr api number
  let identifier ← retainedRun api actor observed originalRunId
  match identifier with
  | none => return
  | some 0 => refuse "retained original run identifier is malformed"
  | some identifier => do
    let key := reservationKey sha256 actor identifier observed.historical.sourceHead
    let reservation := (← get).recoveries.lookup key
    if reservation.any fun entry => entry.phase ≠ .prepared then return
    if ← alreadyRerun context identifier then return
    suspending key reservation
      (recoverBound api actor context identifier number observed key reservation)

/-! ## Ordinary reruns -/

def ageNames : List String :=
  ["Lockfile release age", "Dependency eligibility", "lockfile-release-age",
    "Dependency eligibility / Dependency eligibility"]

/-- Nothing but an age check, and the gate that requires it, failed. -/
def ageOnlyFailure (jobs : List CiJob) : Bool :=
  jobs.all (fun job => job.status = some "completed"
      && (["success", "skipped", "failure"].map some).contains job.conclusion
      && (job.conclusion ≠ some "failure" || ageNames.contains job.name || job.name = "Required CI"))
    && jobs.any fun job => job.conclusion = some "failure" && ageNames.contains job.name

/-- A listed run that is bound to the candidate. -/
def boundRun (repository : String) (candidate : Candidate) (run : Run) : Bool :=
  let head := if candidate.scope = .mergeGroup then candidate.head else candidate.sourceHead
  candidateRun repository run head &&
    (candidate.scope ≠ .pullRequest || match run.pullRequests with
      | [pull] => pull.number = candidate.number && pull.headSha = some candidate.sourceHead
          && pull.baseSha = some candidate.base
      | _ => false)

/-- Whether the candidate's own workflow is the trusted one, or a reviewed upgrade of it. -/
def trustedWorkflow (candidate : Candidate) : Service Bool := do
  let trusted ← ask (api.workflowFile actor.branch)
  let proposed ← ask (api.workflowFile candidate.head)
  match trusted, proposed with
  | some trusted, some proposed =>
    if proposed.data = trusted.data then return true else ask (api.retryUpgrade candidate)
  | _, _ => return false

/-- After age eligibility changes, reruns once. -/
def rerunReady (candidate : Candidate) : Service Unit := do
  if (← get).ledger.lookup candidate.head ≠ none then return
  let head := if candidate.scope = .mergeGroup then candidate.head else candidate.sourceHead
  let runs ← ask (api.ciRuns head)
  match (runs.take 20).find? (boundRun actor.repository candidate) with
  | none => return
  | some run => do
    if context.createdAt < (← liftM (utc run.createdAt)) then return
    if run.status ≠ some "completed" ∨ run.conclusion ≠ some (some "failure") then return
    if ¬ (← trustedWorkflow api actor candidate) then return
    match run.id with
    | some (id + 1) => do
      let listing ← ask (api.ciJobs (id + 1))
      if listing.totalCount ≠ some listing.jobs.length ∨ listing.jobs.length > 100 then return
      if ¬ ageOnlyFailure listing.jobs then return
      if ¬ (← ask (api.stillCurrent candidate)) then return
      -- reserve the normal path's original run before a possibly ambiguous request
      modify fun session => { session with ledger := session.ledger.insert candidate.head (id + 1) }
      post api (.rerun (id + 1) none)
    | _ => throw (.eligibility (text "candidate CI run has an invalid identifier"))

end Boxferry.Automation.Eligibility
