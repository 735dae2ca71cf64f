import Boxferry.Library.Unwinding

/-! # Opaque runs

A bounded subprocess whose output stays private, over every order in which its environment answers:
each call of the runner may succeed or raise, and handlers and final blocks nest as in the source. -/
namespace Boxferry.Automation.Runner
open Unwinding
set_option autoImplicit false

/-! ## Reasons and exceptions -/

inductive OpaqueObservation where
  | inspectBefore
  | inspectAfter
deriving DecidableEq

namespace OpaqueObservation

def value : OpaqueObservation → String
  | inspectBefore => "inspect-before"
  | inspectAfter => "inspect-after"

def stage (mode : OpaqueObservation) : String := "probe-live-" ++ mode.value

def timeout (_mode : OpaqueObservation) : Rat := 2

def outputCap (_mode : OpaqueObservation) : Nat := 65536

end OpaqueObservation

inductive OpaqueReason where
  | completed
  | exitNonzero
  | timeout
  | outputLimit
  | cancelled
  | spawnUnavailable
  | monitorFailed
  | invalidJson
  | invalidNativeSchema
  | privateParserFailed
  | abortHookFailed
  | cleanupFailed
  | invocationUnavailable
deriving DecidableEq

def OpaqueReason.value : OpaqueReason → String
  | completed => "completed"
  | exitNonzero => "exit-nonzero"
  | timeout => "timeout"
  | outputLimit => "output-limit"
  | cancelled => "cancelled"
  | spawnUnavailable => "spawn-unavailable"
  | monitorFailed => "monitor-failed"
  | invalidJson => "invalid-json"
  | invalidNativeSchema => "invalid-native-schema"
  | privateParserFailed => "private-parser-failed"
  | abortHookFailed => "abort-hook-failed"
  | cleanupFailed => "cleanup-failed"
  | invocationUnavailable => "invocation-unavailable"

inductive RunStatus where
  | success
  | failed
  | cancelled
  | infrastructure
deriving DecidableEq

/-- The classes of `OSError`: two that are caught by name, the other built-in ones, and subclasses. -/
inductive OsClass where
  | processLookup
  | blocking
  | builtin
  | derived
deriving DecidableEq

inductive Raised where
  | runCancelled
  | keyboardInterrupt
  | os (kind : OsClass) (errno : Option Int)
  | timeoutExpired
  | opaqueParse (reason : OpaqueReason)
  | other
deriving DecidableEq

namespace Raised

def isCancellation : Raised → Bool
  | runCancelled => true
  | keyboardInterrupt => true
  | _ => false

def opaqueErrno : Raised → Option Int
  | os .derived _ => none
  | os _ (some value) => if 0 < value ∧ value < 4096 then some value else none
  | _ => none

def isProcessLookup : Raised → Bool
  | os .processLookup _ => true
  | _ => false

def isBlocking : Raised → Bool
  | os .blocking _ => true
  | _ => false

/-- What a failure is recorded as: a cancellation, or a reason of the infrastructure. -/
def recorded (failure : Raised) (otherwise : OpaqueReason) : OpaqueReason × RunStatus :=
  if failure.isCancellation then (.cancelled, .cancelled) else (otherwise, .infrastructure)

end Raised

/-! ## Evidence -/

abbrev Bytes : Type := List UInt8

def maxOutputBytes : Nat := 2000000

def prefixScope : String := "observed-prefix-including-overflow-detection"

/-- `[0-9a-f]{64}` -/
def isDigest (text : String) : Bool :=
  text.toList.length = 64 && text.toList.all fun ch => ch.isDigit || ('a' ≤ ch && ch ≤ 'f')

structure OpaqueMetrics where
  mode : OpaqueObservation
  reason : OpaqueReason
  status : RunStatus
  argvSha256 : String
  programSha256 : Option String
  stdoutPrefixBytes : Nat
  stderrPrefixBytes : Nat
  stdoutPrefixSha256 : String
  stderrPrefixSha256 : String
  scope : String
  cleanupFailed : Bool
  errno : Option Int
deriving DecidableEq

/-- What the constructor accepts, beyond the types of the fields. -/
def OpaqueMetrics.isValid (metrics : OpaqueMetrics) : Bool :=
  metrics.scope = prefixScope &&
    [metrics.stdoutPrefixBytes, metrics.stderrPrefixBytes].all (fun size => size ≤ maxOutputBytes + 1) &&
    [metrics.stdoutPrefixSha256, metrics.stderrPrefixSha256].all isDigest &&
    [some metrics.argvSha256, metrics.programSha256].all (fun digest =>
      digest.all fun text => text = "" || isDigest text) &&
    metrics.errno.all fun value => 0 < value && value < 4096

structure OpaqueAbortContext where
  stage : String
  status : RunStatus
  cause : String
  metrics : OpaqueMetrics
deriving DecidableEq

def OpaqueAbortContext.isValid (context : OpaqueAbortContext) : Bool :=
  context.stage = context.metrics.mode.stage && context.status = context.metrics.status &&
    context.cause = context.metrics.reason.value

structure Diagnostic where
  stage : String
  cause : String
  affectedInput : String
  evidenceLink : String
  nextAction : String
deriving DecidableEq

structure OpaqueRunResult where
  status : RunStatus
  returncode : Option Int
  stdout : String
  stderr : String
  durationSeconds : Rat
  diagnostic : Diagnostic
  argv : List String
  stdoutBytes : Bytes
  abortHookFailure : String
  metrics : OpaqueMetrics
deriving DecidableEq

/-- How a run ends: with a result, or with an `OpaqueRunError`. -/
inductive Outcome where
  | returned (result : OpaqueRunResult)
  | raised (reason : OpaqueReason) (metrics : Option OpaqueMetrics)
deriving DecidableEq

/-! ## Variables -/

inductive Stream where
  | stdout
  | stderr
deriving DecidableEq

inductive Phase where
  | spawn
  | monitor
  | capture
  | cleanup
  | parse
deriving DecidableEq

inductive Signal where
  | term
  | kill
deriving DecidableEq

/-- The failures that were recorded and what the abort hook was shown, in order. -/
inductive Observed where
  | failure (why : OpaqueReason) (state : RunStatus)
  | contextUnavailable
  | aborted (context : OpaqueAbortContext)
deriving DecidableEq

/-- The variables that failures and notifications rewrite. -/
structure Ledger where
  status : RunStatus := .infrastructure
  reason : OpaqueReason := .invocationUnavailable
  notified : Bool := false
  firstFailure : Option (OpaqueReason × RunStatus) := none
  log : List Observed := []

/-- What is held of the output. -/
structure Held where
  captured : Bytes := []
  privateBytes : Bytes := []
  stdoutPrefix : Bytes := []
  stderrPrefix : Bytes := []

structure RunVars extends Ledger, Held where
  process : Bool := false
  pendingOpaqueRaise : Bool := false
  returncode : Option Int := none
  exited : Option Int := none
  streams : List Stream := []
  registered : List Stream := []
  total : Nat := 0
  cleaned : Bool := false
  signals : List Signal := []
  hookFailure : String := ""
  cleanupFailed : Bool := false
  safeErrno : Option Int := none
  phase : Phase := .spawn
  safeMetrics : Option OpaqueMetrics := none
  result : Option OpaqueRunResult := none

/-- What a run is given once its setup has succeeded; the digest is that of the standard library. -/
structure Invocation where
  observation : OpaqueObservation
  argvSha256 : String
  programSha256 : Option String
  hasMonitor : Bool
  hasAbortHook : Bool
  sha256 : Bytes → String

/-! ## Asking the environment -/

abbrev Answer (α : Type) : Type := Except Raised α

/-- The calls that answer nothing. -/
inductive Operation where
  | selectorOpen
  | register
  | unregister
  | monitor
  | parse
  | metrics
  | hook
  | signal
  | close
  | selectorClose
  | result
  | replace
deriving DecidableEq

inductive Event where
  | did (operation : Operation) (answer : Answer Unit)
  | spawned (answer : Answer (List Stream))
  | polled (answer : Answer (Option Int))
  | clocked (answer : Answer Rat)
  | selected (answer : Answer (List Stream))
  | readData (stream : Stream) (answer : Answer Bytes)
  | waited (answer : Answer Int)

abbrev Program (α : Type) : Type := Run Event Raised RunVars α

def performed (operation : Operation) (vars : RunVars) : Event → Option (RunVars × Answer Unit)
  | .did done answer => if done = operation then some (vars, answer) else none
  | _ => none

def perform (operation : Operation) : Program Unit := ask (performed operation)

/-- A process is there with the pipes that were created for it. -/
def spawned (vars : RunVars) : Event → Option (RunVars × Answer Unit)
  | .spawned (.ok streams) => some ({ vars with process := true, streams := streams }, .ok ())
  | .spawned (.error failure) => some (vars, .error failure)
  | _ => none

/-- The exit status of a process does not change once it is known. -/
def polled (vars : RunVars) : Event → Option (RunVars × Answer (Option Int))
  | .polled (.ok code) => some ({ vars with exited := vars.exited.or code }, .ok (vars.exited.or code))
  | .polled (.error failure) => some (vars, .error failure)
  | _ => none

def waited (vars : RunVars) : Event → Option (RunVars × Answer Unit)
  | .waited (.ok code) => some ({ vars with exited := vars.exited.or (some code) }, .ok ())
  | .waited (.error failure) => some (vars, .error failure)
  | _ => none

/-- The seconds since the start of the run. -/
def clocked (vars : RunVars) : Event → Option (RunVars × Answer Rat)
  | .clocked answer => some (vars, answer)
  | _ => none

def selected (vars : RunVars) : Event → Option (RunVars × Answer (List Stream))
  | .selected (.ok ready) =>
    if ready.Nodup ∧ ready ⊆ vars.registered then some (vars, .ok ready) else none
  | .selected (.error failure) => some (vars, .error failure)
  | _ => none

def Held.receive (held : Held) (stream : Stream) (data : Bytes) (room : Nat) : Held :=
  match stream with
  | .stdout => { held with stdoutPrefix := held.stdoutPrefix ++ data, captured := held.captured ++ data.take room }
  | .stderr => { held with stderrPrefix := held.stderrPrefix ++ data }

/-- At most as much as was asked for is read. The answer is its size, and whether there was no room for it. -/
def received (cap : Nat) (stream : Stream) (vars : RunVars) : Event → Option (RunVars × Answer (Nat × Bool))
  | .readData source (.ok data) =>
    let room := cap - vars.total
    if source = stream ∧ data.length ≤ min 65536 (room + 1) then
      some ({ vars with toHeld := vars.toHeld.receive stream data room, total := vars.total + min data.length room },
        .ok (data.length, decide (room < data.length)))
    else none
  | .readData source (.error failure) => if source = stream then some (vars, .error failure) else none
  | _ => none

/-! ## Failures and notification -/

def Ledger.observe (ledger : Ledger) (entry : Observed) : Ledger := { ledger with log := ledger.log ++ [entry] }

def Ledger.fail (ledger : Ledger) (why : OpaqueReason) (state : RunStatus) : Ledger :=
  let first := ledger.firstFailure.getD (why, state)
  { ledger with firstFailure := some first, reason := first.1, status := first.2 }

def account (change : Ledger → Ledger) : Program Unit :=
  update fun vars => { vars with toLedger := change vars.toLedger }

def fail (why : OpaqueReason) (state : RunStatus) : Program Unit :=
  account fun ledger => (ledger.fail why state).observe (.failure why state)

section Protocol
variable (run : Invocation)

def metricsOf (why : OpaqueReason) (state : RunStatus) (vars : RunVars) : OpaqueMetrics where
  mode := run.observation
  reason := why
  status := state
  argvSha256 := run.argvSha256
  programSha256 := run.programSha256
  stdoutPrefixBytes := vars.stdoutPrefix.length
  stderrPrefixBytes := vars.stderrPrefix.length
  stdoutPrefixSha256 := run.sha256 vars.stdoutPrefix
  stderrPrefixSha256 := run.sha256 vars.stderrPrefix
  scope := prefixScope
  cleanupFailed := vars.cleanupFailed
  errno := vars.safeErrno

def metrics (why : OpaqueReason) (state : RunStatus) : Program OpaqueMetrics := do
  perform .metrics
  let built ← reads (metricsOf run why state)
  if built.isValid then pure built else raise .other

def abortContext (abortStatus : Option RunStatus) : Program OpaqueAbortContext := do
  let reason ← reads (·.reason)
  let status ← reads (·.status)
  let built ← metrics run reason (abortStatus.getD status)
  let context : OpaqueAbortContext := ⟨run.observation.stage, abortStatus.getD status, reason.value, built⟩
  if context.isValid then pure context else raise .other

def contextUnavailable (failure : Raised) : Program OpaqueAbortContext := do
  account (·.observe .contextUnavailable)
  raise failure

def callHook (abortStatus : Option RunStatus) : Program Unit := do
  let context ← attempt (abortContext run abortStatus) contextUnavailable
  account (·.observe (.aborted context))
  perform .hook

/-- The hook is called at most once, and what it raises is only remembered. -/
def notify (abortStatus : Option RunStatus) : Program Unit := do
  let reason ← reads (·.reason)
  let status ← reads (·.status)
  fail reason (abortStatus.getD status)
  let notified ← reads (·.notified)
  if notified || !run.hasAbortHook then pure ()
  else do
    account fun ledger => { ledger with notified := true }
    attempt (callHook run abortStatus) fun _ =>
      update fun vars => { vars with hookFailure := OpaqueReason.abortHookFailed.value }

/-! ## Clean-up -/

def passProcessLookup (failure : Raised) : Program Unit :=
  if failure.isProcessLookup then pure () else raise failure

def killpg (signal : Signal) : Program Unit := do
  update fun vars => { vars with signals := vars.signals ++ [signal] }
  attempt (perform .signal) passProcessLookup

def passTimeoutExpired (failure : Raised) : Program Unit :=
  if failure = .timeoutExpired then pure () else raise failure

def cleanup : Program Unit := do
  killpg .term
  ensure (attempt (ask waited) passTimeoutExpired) do
    killpg .kill
    ask waited

/-! ## The loop -/

def registerStream (stream : Stream) : Program Unit := do
  perform .register
  update fun vars => { vars with registered := vars.registered ++ [stream] }

def checkPipes : Program Unit := do
  let streams ← reads (·.streams)
  if Stream.stdout ∈ streams ∧ Stream.stderr ∈ streams then pure () else raise .other

def runMonitor : Program Unit :=
  if run.hasMonitor then do
    update fun vars => { vars with phase := .monitor }
    perform .monitor
  else pure ()

/-- A command that failed is reported before its clean-up can wait. -/
def reportExit (code : Int) : Program Unit :=
  if code ≠ 0 then do
    update fun vars => { vars with reason := .exitNonzero }
    notify run (some .failed)
  else pure ()

def cleanEarly (code : Int) : Program Unit :=
  if !run.hasAbortHook || code ≠ 0 then do
    update fun vars => { vars with phase := .cleanup }
    cleanup
    update fun vars => { vars with phase := .capture, cleaned := true }
  else pure ()

def observeExit : Option Int → Program Unit
  | none => pure ()
  | some code => do
    let cleaned ← reads (·.cleaned)
    if cleaned then pure ()
    else do
      reportExit run code
      cleanEarly run code

def checkDeadline : Program Unit := do
  let elapsed ← ask clocked
  if run.observation.timeout ≤ elapsed then raise (.opaqueParse .timeout) else pure ()

def parse : Program Unit := do
  checkDeadline run
  update fun vars => { vars with privateBytes := vars.captured, captured := [] }
  perform .parse
  checkDeadline run

def parserReason : Raised → OpaqueReason
  | .opaqueParse reason => reason
  | _ => .privateParserFailed

def parseFailed (failure : Raised) : Program Unit :=
  fail (failure.recorded (parserReason failure)).1 (failure.recorded (parserReason failure)).2

def parsePrivate : Program Unit :=
  ensure (attempt (parse run) parseFailed) (update fun vars => { vars with privateBytes := [], captured := [] })

def complete (code : Int) : Program Unit :=
  if code = 0 then do
    update fun vars => { vars with status := .success, reason := .completed, phase := .parse }
    parsePrivate run
  else update fun vars => { vars with status := .failed, reason := .exitNonzero }

def passBlocking (failure : Raised) : Program (Option (Nat × Bool)) :=
  if failure.isBlocking then pure none else raise failure

def readStream (stream : Stream) : Program (Option (Nat × Bool)) :=
  attempt (some <$> ask (received run.observation.outputCap stream)) passBlocking

/-- Whether the stream exceeded the bound of the output. -/
def drainStream (stream : Stream) : Program Bool := do
  let size ← readStream run stream
  match size with
  | none => pure false
  | some (0, _) => do
    perform .unregister
    update fun vars => { vars with registered := vars.registered.erase stream }
    pure false
  | some (_, exceeded) => pure exceeded

def drain : List Stream → Program Bool
  | [] => pure false
  | stream :: streams => do
    let exceeded ← drainStream run stream
    if exceeded then pure true else drain streams

def capture : Program (Option Unit) := do
  let elapsed ← ask clocked
  if run.observation.timeout - elapsed ≤ 0 then do
    update fun vars => { vars with reason := .timeout }
    pure (some ())
  else do
    let ready ← ask selected
    let exceeded ← drain run ready
    if exceeded then do
      update fun vars => { vars with reason := .outputLimit, status := .infrastructure }
      pure (some ())
    else pure none

def round : Program (Option Unit) := do
  runMonitor run
  update fun vars => { vars with phase := .capture }
  let code ← ask polled
  update fun vars => { vars with returncode := code }
  observeExit run code
  let registered ← reads (·.registered)
  match code, registered with
  | some code, [] => do
    complete run code
    pure (some ())
  | _, _ => capture run

def execute (bound : Nat) : Program Unit := do
  ask spawned
  checkPipes
  registerStream .stdout
  registerStream .stderr
  iterate bound (round run)

/-! ## Handlers -/

def phaseCancelled : Program Unit := do
  update fun vars => { vars with cleanupFailed := vars.cleanupFailed || vars.phase = .cleanup }
  fail .cancelled .cancelled

def osReason : Phase → OpaqueReason
  | .cleanup => .cleanupFailed
  | .spawn => .spawnUnavailable
  | _ => .invocationUnavailable

def phaseOsError (failure : Raised) : Program Unit := do
  update fun vars => { vars with
    reason := osReason vars.phase
    safeErrno := failure.opaqueErrno
    status := .infrastructure
    pendingOpaqueRaise := vars.phase = .cleanup
    cleanupFailed := vars.phase = .cleanup }
  let reason ← reads (·.reason)
  fail reason .infrastructure

def otherReason : Phase → OpaqueReason
  | .cleanup => .cleanupFailed
  | _ => .monitorFailed

def notifyProcess : Program Unit := do
  let process ← reads (·.process)
  if process then notify run none else pure ()

def phaseFailed : Program Unit := do
  update fun vars => { vars with
    reason := otherReason vars.phase
    status := .infrastructure
    pendingOpaqueRaise := true
    cleanupFailed := vars.phase = .cleanup }
  let reason ← reads (·.reason)
  fail reason .infrastructure
  notifyProcess run

def handleFailure (failure : Raised) : Program Unit :=
  if failure.isCancellation then phaseCancelled
  else
    match failure with
    | .os _ _ => phaseOsError failure
    | _ => phaseFailed run

/-! ## Final blocks -/

def reportFailure (failure : Raised) : Program Unit := do
  fail (failure.recorded .cleanupFailed).1 (failure.recorded .cleanupFailed).2
  notify run none

def cleanupFailed (failure : Raised) : Program Unit := do
  update fun vars => { vars with
    safeErrno := failure.opaqueErrno, cleanupFailed := true, pendingOpaqueRaise := true }
  reportFailure run failure

def closeFailed (failure : Raised) : Program Unit := do
  update fun vars => { vars with cleanupFailed := true, pendingOpaqueRaise := true }
  reportFailure run failure

def closeStream (stream : Stream) : Program Unit := do
  let streams ← reads (·.streams)
  if stream ∈ streams then attempt (perform .close) (closeFailed run) else pure ()

def closeStreams : Program Unit := do
  closeStream run .stdout
  closeStream run .stderr
  update fun vars => { vars with returncode := vars.exited }

def notifyUnsuccessful : Program Unit := do
  let status ← reads (·.status)
  if status = .success then pure () else notify run none

def release : Program Unit := do
  let process ← reads (·.process)
  if process then do
    notifyUnsuccessful run
    ensure (attempt cleanup (cleanupFailed run)) (closeStreams run)
  else pure ()

def withSelector (bound : Nat) : Program Unit := do
  perform .selectorOpen
  ensure (ensure (attempt (execute run bound) (handleFailure run)) (release run)) (perform .selectorClose)

def selectorReason (process : Bool) : OpaqueReason := if process then .cleanupFailed else .invocationUnavailable

def selectorFailure (failure : Raised) : Program Bool := do
  let process ← reads (·.process)
  fail (failure.recorded (selectorReason process)).1 (failure.recorded (selectorReason process)).2
  pure true

def reportSelector (selectorFailed : Bool) : Program Unit :=
  if selectorFailed then do
    update fun vars => { vars with pendingOpaqueRaise := true, cleanupFailed := vars.process }
    notifyProcess run
  else pure ()

/-! ## The opaque result -/

def display : List String :=
  ["opaque-observation", run.observation.value, run.argvSha256] ++ run.programSha256.toList

def resultOf (built : OpaqueMetrics) (duration : Rat) (vars : RunVars) : OpaqueRunResult where
  status := vars.status
  returncode := vars.returncode
  stdout := ""
  stderr := ""
  durationSeconds := duration
  diagnostic :=
    { stage := run.observation.stage
      cause := vars.reason.value
      affectedInput := "held local process observation"
      evidenceLink := "opaque prefix metrics"
      nextAction := "Review the fixed reason and scoped observation evidence." }
  argv := display run
  stdoutBytes := []
  abortHookFailure := vars.hookFailure
  metrics := built

def buildResult : Program Unit := do
  let reason ← reads (·.reason)
  let status ← reads (·.status)
  let built ← metrics run reason status
  update fun vars => { vars with safeMetrics := some built }
  let pendingOpaqueRaise ← reads (·.pendingOpaqueRaise)
  if pendingOpaqueRaise then pure ()
  else do
    let duration ← ask clocked
    perform .result
    update fun vars => { vars with result := some (resultOf run built duration vars) }

def finalFailure (failure : Raised) : Program Bool := do
  fail (failure.recorded .invocationUnavailable).1 (failure.recorded .invocationUnavailable).2
  pure true

def RunVars.replaced (vars : RunVars) : Option OpaqueMetrics :=
  vars.safeMetrics.map fun built => { built with reason := vars.reason, status := vars.status }

def replaceMetrics : Program Unit := do
  perform .replace
  let replaced ← reads RunVars.replaced
  if replaced.all OpaqueMetrics.isValid then update fun vars => { vars with safeMetrics := replaced }
  else raise .other

def reuseMetrics : Program Unit := do
  let safeMetrics ← reads (·.safeMetrics)
  if safeMetrics.isSome then
    attempt replaceMetrics fun _ => update fun vars => { vars with safeMetrics := none }
  else pure ()

def reportFinal (finalFailed : Bool) : Program Unit :=
  if finalFailed then do
    notify run none
    reuseMetrics
  else pure ()

def finish (finalFailed : Bool) : Program Outcome := do
  let pendingOpaqueRaise ← reads (·.pendingOpaqueRaise)
  if pendingOpaqueRaise || finalFailed then do
    let reason ← reads (·.reason)
    let safeMetrics ← reads (·.safeMetrics)
    pure (.raised reason safeMetrics)
  else do
    let result ← reads (·.result)
    match result with
    | some result => pure (.returned result)
    | none => raise .other

def conclude : Program Outcome := do
  update fun vars => { vars with captured := [] }
  let finalFailed ← attempt (do buildResult run; pure false) finalFailure
  reportFinal run finalFailed
  finish finalFailed

/-- An opaque run after its setup, of at most `bound` rounds of its loop. -/
def opaqueRun (bound : Nat) : Program Outcome := do
  let selectorFailed ← attempt (do withSelector run bound; pure false) selectorFailure
  reportSelector run selectorFailed
  conclude run

end Protocol
end Boxferry.Automation.Runner
