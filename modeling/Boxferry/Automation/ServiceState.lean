import Boxferry.Automation.Evidence
import Boxferry.Library.Results

/-! # The state of the eligibility service

What interrupts a service run, what the API tells of workflow runs, and the state
that a run persists: observations, the two retry ledgers, and the frontier with the
effect fence. A persisted state is validated before it is used again. -/
namespace Boxferry.Automation.Eligibility
set_option autoImplicit false

/-- A text that says something. -/
structure Text where
  value : String
  nonempty : value ≠ ""

def text (value : String) (h : value ≠ "" := by decide) : Text := ⟨value, h⟩

/-- What interrupts a service run. The first three are the value errors that handlers name. -/
inductive Interrupt where
  | eligibility (reason : Text)
  | refused (reason : Text)
  | value (reason : Text)
  /-- The run ends here: another exception, a cancellation or a crash. -/
  | stopped

/-- `str(error)` of a value error. -/
def Interrupt.reason? : Interrupt → Option Text
  | eligibility reason | refused reason | value reason => some reason
  | stopped => none

def refusedWhen (condition : Prop) [Decidable condition] (reason : Text) : Except Interrupt Unit :=
  if condition then .error (.refused reason) else .ok ()

theorem refusedWhen_ok {condition : Prop} [Decidable condition] {reason : Text} {result : Unit}
    (h : refusedWhen condition reason = .ok result) : ¬ condition :=
  (Results.guard_eq_ok.mp h).1

/-- Microseconds since the start of the year one in UTC. -/
abbrev Moment := Nat

/-! ## What the API tells -/

structure Reference where
  path : String
  sha : String
  /-- It has no other key. -/
  bare : Bool := true
  deriving DecidableEq

structure LinkedPull where
  number : Nat
  headSha : Option String
  baseSha : Option String
  deriving DecidableEq

/-- A timestamp field: absent or not a string, null, a moment, or another string. -/
inductive Stamp where
  | missing
  | null
  | at (moment : Moment)
  | unreadable
  deriving DecidableEq

/-- A workflow run; a field that is absent or not of its type is none. -/
structure Run where
  id : Option Nat
  attempt : Option Nat
  status : Option String
  conclusion : Option (Option String)
  createdAt : Option Moment
  repository : Option String
  headRepository : Option String
  event : Option String
  name : Option String
  path : Option String
  headBranch : Option String
  headSha : Option String
  referencedWorkflows : Option (List Reference)
  workflowId : Option Nat
  pullRequests : List LinkedPull
  createdStamp : Stamp
  updatedStamp : Stamp
  startedStamp : Stamp

structure Job where
  id : Option Nat
  runId : Option Nat
  runAttempt : Option Nat
  name : Option String
  workflowName : Option String
  headSha : Option String
  headBranch : Option String
  status : Option String
  conclusion : Option (Option String)
  startedStamp : Stamp
  completedStamp : Stamp
  /-- The steps and the labels are empty lists. -/
  unstepped : Bool
  /-- Every runner field is there and null. -/
  unassigned : Bool

/-- A job listing; an entry that is not an object is none. -/
structure Jobs where
  jobs : Option (List (Option Job))
  totalCount : Option Nat

def workflowPath : String := ".github/workflows/dependency-eligibility.yml"
def sharedWorkflowPath : String :=
  "Strukturpiloten/boxferry/.github/workflows/shared-dependency-eligibility.yml"

def allowedEvents : List String := ["schedule", "workflow_run"]

/-- `[0-9a-f]{40}` -/
def isRevision (value : String) : Bool := value.toList.length = 40 && value.toList.all isLowerHex

def revision (value : Option String) : Except Interrupt String :=
  match value with
  | some value =>
    if isRevision value then .ok value
    else .error (.eligibility (text "authoritative metadata has an invalid commit revision"))
  | none => .error (.eligibility (text "authoritative metadata has an invalid commit revision"))

def utc (value : Option Moment) : Except Interrupt Moment :=
  match value with
  | some moment => .ok moment
  | none => .error (.eligibility (text "persisted time is malformed"))

/-- The one immutable source of the shared workflow that a run references. -/
def serviceRevision (run : Run) : Option String :=
  match run.referencedWorkflows with
  | none => none
  | some references =>
    let shared := references.filter fun reference =>
      (sharedWorkflowPath ++ "@").toList.isPrefixOf reference.path.toList
    let sources := shared.map fun reference =>
      String.ofList (reference.path.toList.drop (sharedWorkflowPath.length + 1))
    if (shared.zip sources).all fun pair => isRevision pair.2 && pair.1.sha = pair.2 then
      match sources.dedup with
      | [source] => some source
      | _ => none
    else none

/-! ## The persisted state -/

inductive Scope where
  | pullRequest
  | mergeGroup
  deriving DecidableEq

structure Candidate where
  base : String
  head : String
  number : Nat
  sourceHead : String
  actorLogin : String
  actorType : String
  scope : Scope
  title : String
  deriving DecidableEq

/-- The report of one evaluated candidate, with what binds it to the candidate. -/
structure Report where
  status : Status
  candidateSha : String
  baseSha : String
  sourceHeadSha : String
  pullRequest : Nat
  scope : Scope
  evidenceKind : Option String := none
  protectedQueueRequired : Bool := false

def Report.binds (report : Report) (candidate : Candidate) : Bool :=
  report.candidateSha = candidate.head && report.baseSha = candidate.base
    && report.sourceHeadSha = candidate.sourceHead && report.pullRequest = candidate.number
    && report.scope = candidate.scope

def reportMatches (report : Option Report) (candidate : Candidate) (statuses : List Status) : Bool :=
  match report with
  | none => false
  | some report => statuses.contains report.status && report.binds candidate

inductive Kind where
  | retainedGraph
  | handoff
  | nativeLegacyHandoff
  | retainedOriginal
  deriving DecidableEq

/-- A handoff asks for a label; the other kinds rerun the failed jobs. -/
def Kind.labels : Kind → Bool
  | handoff | nativeLegacyHandoff => true
  | retainedGraph | retainedOriginal => false

inductive Phase where
  | prepared
  | attempted
  | uncertain
  | suspended
  deriving DecidableEq

/-- What a reservation is bound to; a name that a kind does not use is none. -/
structure Bindings where
  kind : Kind
  originalRunId : Nat
  originalAttempt : Nat
  sourceHeadSha : String
  authority : String
  hintedCandidateSha : Option String := none
  hintedBaseSha : Option String := none
  mergeBaseSha : Option String := none
  transitionFingerprint : Option String := none
  originalIdentitySha256 : Option String := none
  deriving DecidableEq

/-- A reservation has each of the expected names. -/
def Bindings.keeps (expected actual : Bindings) : Bool :=
  let same := fun (expected actual : Option String) => expected = none || expected = actual
  expected.kind = actual.kind && expected.originalRunId = actual.originalRunId
    && expected.originalAttempt = actual.originalAttempt
    && expected.sourceHeadSha = actual.sourceHeadSha && expected.authority = actual.authority
    && same expected.hintedCandidateSha actual.hintedCandidateSha
    && same expected.hintedBaseSha actual.hintedBaseSha
    && same expected.mergeBaseSha actual.mergeBaseSha
    && same expected.transitionFingerprint actual.transitionFingerprint
    && same expected.originalIdentitySha256 actual.originalIdentitySha256

structure Reservation where
  bindings : Bindings
  phase : Phase
  preparedAt : Moment
  preparedServiceRun : Nat
  /-- The protection facts, as the text they are persisted by. -/
  protection : String
  effectServiceRun : Option Nat := none
  observedLabels : Option (List String) := none
  observedAttempt : Option (Option Nat) := none
  reason : Option String := none
  deriving DecidableEq

abbrev Reruns := AList fun _ : String => Nat
abbrev Recoveries := AList fun _ : String => Reservation
abbrev FirstSeen := AList fun _ : String => Moment

structure Frontier where
  protocol : Nat := 1
  floor : Option Moment
  serviceCreatedAt : Moment
  authority : Bool
  fence : Option String
  pending : List (Nat × Nat)
  predecessorRunId : Option Nat
  refusal : Option String := none

structure Payload where
  schema : Nat := 1
  repository : String
  workflowPath : String
  runId : Nat
  runAttempt : Option Nat
  implementationRevision : String
  observedAt : Moment
  schemaVersion : Nat := 1
  firstSeen : FirstSeen
  reruns : Reruns
  recoveries : Recoveries
  frontier : Option Frontier
  scanCursor : Nat := 0
  reports : AList fun _ : String => Report

def malformedWhen (condition : Bool) (reason : Text) : Except Interrupt Unit :=
  if condition then .error (.eligibility reason) else .ok ()

def validFrontier (frontier : Frontier) : Except Interrupt Unit := do
  malformedWhen (frontier.protocol ≠ 1 || (frontier.fence.getD "").length > 2000
      || frontier.pending.length > 100) (text "trusted recovery frontier is malformed")
  malformedWhen (frontier.floor = none && frontier.authority)
    (text "trusted recovery frontier has no immutable effect floor")
  malformedWhen (frontier.predecessorRunId = some 0)
    (text "trusted recovery frontier predecessor is malformed")
  malformedWhen (frontier.pending.any fun pending => pending.1 = 0 || pending.2 = 0)
    (text "trusted recovery frontier attempt fence is malformed")

def validReservation (observed : Moment) (key : String) (entry : Reservation) : Except Interrupt Unit := do
  let bindings := entry.bindings
  let isRevision? := fun (value : Option String) => value.any isRevision
  malformedWhen (!isSha256 key || bindings.originalRunId = 0 || bindings.originalAttempt = 0
      || entry.preparedServiceRun = 0)
    (text "trusted recovery reservation has invalid bindings")
  malformedWhen (!isRevision bindings.sourceHeadSha || !isRevision bindings.authority)
    (text "authoritative metadata has an invalid commit revision")
  malformedWhen (bindings.kind = .retainedOriginal && !bindings.originalIdentitySha256.any isSha256)
    (text "retained-original reservation lacks exact PR identity")
  if bindings.kind = .nativeLegacyHandoff then
    malformedWhen (!isRevision? bindings.mergeBaseSha)
      (text "authoritative metadata has an invalid commit revision")
    malformedWhen (!bindings.transitionFingerprint.any isSha256 || bindings.hintedCandidateSha.isSome
        || bindings.hintedBaseSha.isSome)
      (text "native handoff reservation has invalid current-only proof")
  else
    malformedWhen (!isRevision? bindings.hintedCandidateSha || !isRevision? bindings.hintedBaseSha)
      (text "authoritative metadata has an invalid commit revision")
  malformedWhen (entry.preparedAt > observed) (text "trusted recovery reservation is from the future")

/-- The bounds and the times of a persisted state. -/
def validContents (value : Payload) (now : Moment) : Except Interrupt Unit := do
  malformedWhen (value.runAttempt = some 0) (text "trusted service artifact has an invalid run attempt")
  malformedWhen (value.observedAt > now) (text "trusted artifact observation is in the future")
  malformedWhen (value.schemaVersion ≠ 1) (text "trusted dependency state schema is invalid")
  malformedWhen (value.firstSeen.keys.length > 4096) (text "trusted first-seen state exceeds its bounds")
  malformedWhen (value.firstSeen.keys.any fun key => !isSha256 key)
    (text "trusted first-seen key is not an immutable artifact identity")
  malformedWhen (value.firstSeen.entries.any fun entry => entry.2 > value.observedAt)
    (text "trusted first-seen time is later than its observation")
  malformedWhen (value.reports.keys.length > 100) (text "trusted candidate reports are malformed")
  malformedWhen (value.reruns.keys.length > 4096) (text "trusted rerun ledger is malformed")
  malformedWhen (value.reruns.keys.any fun key => !isRevision key)
    (text "authoritative metadata has an invalid commit revision")
  malformedWhen (value.reruns.entries.any fun entry => entry.2 = 0)
    (text "trusted rerun ledger has an invalid run identifier")
  match value.frontier with
  | none => pure ()
  | some frontier => validFrontier frontier
  malformedWhen (value.recoveries.keys.length > 4096)
    (text "trusted recovery reservation ledger is malformed")
  value.recoveries.entries.forM fun entry => validReservation value.observedAt entry.1 entry.2

/-- Validates a persisted state: its provenance, its bounds and its times. -/
def validateState (value : Payload) (repository : String) (runId : Nat) (implementation : String)
    (now : Moment) : Except Interrupt Payload := do
  if value.schema ≠ 1 ∨ value.repository ≠ repository ∨ value.runId ≠ runId
      ∨ value.implementationRevision ≠ implementation ∨ value.workflowPath ≠ workflowPath then
    .error (.eligibility (text "trusted artifact provenance does not match the verified run"))
  else do
    validContents value now
    return value

/-- A state that passes is returned as it is, and belongs to the run and the implementation. -/
theorem validateState_ok {value result : Payload} {repository : String} {runId : Nat}
    {implementation : String} {now : Moment}
    (h : validateState value repository runId implementation now = .ok result) :
    result = value ∧ value.runId = runId ∧ value.implementationRevision = implementation := by
  obtain ⟨hprovenance, h⟩ := Results.guard_eq_ok.mp h
  obtain ⟨-, -, h⟩ := Results.bind_eq_ok.mp h
  simp only [not_or, not_not] at hprovenance
  exact ⟨(Except.ok.inj h).symm, hprovenance.2.2.1, hprovenance.2.2.2.1⟩

end Boxferry.Automation.Eligibility
