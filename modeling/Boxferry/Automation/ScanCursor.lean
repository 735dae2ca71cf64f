import Boxferry.Automation.Service
import Boxferry.Library.Annotated
import Boxferry.Automation.Steadiness
import Mathlib.Data.List.Basic

/-! # What a scheduled scan writes down

A scheduled run with its list of infrastructure errors, and with what it did to the pull
requests that it chose. Without what it writes down it is the scheduled run. -/
namespace Boxferry.Automation.Eligibility
open Interruptible Annotated
set_option autoImplicit false

/-! ## Events -/

inductive ScanEvent where
  /-- An entry of the infrastructure errors, with the pull request that it names. -/
  | named (number : Nat) (entry : String)
  | evaluated (number : Nat) (scope : Scope)
  /-- A retained original was handled to completion; its report may require the protected queue. -/
  | recovered (number : Nat) (queueRequired : Bool)
  /-- The budget ended a loop, which leaves these pull requests. -/
  | stopped (left : List Nat)
  deriving DecidableEq

/-- The pull requests that a scan chose, in the order of the scan, and what happened then. -/
structure ScanLog where
  chosen : List Nat := []
  events : List ScanEvent := []
  deriving DecidableEq

abbrev Recorded (α : Type) := ExceptT Interrupt (StateM (Session × ScanLog)) α

def record (event : ScanEvent) : Recorded Unit := write fun log => { log with events := log.events ++ [event] }

def nameError (number : Nat) (reason : String) : Recorded Unit :=
  record (.named number ("PR " ++ toString number ++ ": " ++ reason))

/-! ## The scan -/

/-- The API of a scan: the probe of a listed pull request finds its candidate, or a retained original. -/
structure ScanApi extends ServiceApi where
  inspect : Nat → Option String → Answer (Option Candidate)
  probe_eq : ∀ number head tick, probe number head tick = (inspect number head tick).map fun found =>
    found.elim (Found.retained none) Found.pull

variable (api : ScanApi) (sha256 : ByteArray → Vector UInt8 32) (actor : Actor) (context : ServiceContext)

def scanProbe (number : Nat) (head : Option String) : Recorded Found :=
  tryCatch (plainly (probeListed api.toServiceApi number head)) fun interrupt => match interrupt with
    | .eligibility _ | .refused _ => do
      nameError number "merge candidate unavailable; next schedule rechecks"
      return .nothing
    | interrupt => throw interrupt

def scanProbeAll : List (Nat × Option String) → Work → Recorded Work
  | [], work => return work
  | (number, head) :: rest, work => do
    let found ← scanProbe api number head
    scanProbeAll rest (work.add number found)

/-- The selected pull requests are written down as the cursor moves to the last of them. -/
def scanChoose (chosen : List (Nat × Option String)) : Recorded Unit := do
  plainly (moveCursor chosen)
  write fun log => { log with chosen := chosen.map Prod.fst }

theorem scan_bound_named : "open PR scan exceeds its supported bound" ≠ "" := by decide

theorem scan_number_named : "open PR metadata has an invalid PR number" ≠ "" := by decide

def scanDiscover : Recorded Work := do
  let pulls ← plainly (ask api.openPulls)
  plainly (ineligibleWhen (pulls.length ≥ 100) (text "open PR scan exceeds its supported bound" scan_bound_named))
  plainly (ineligibleWhen ((numbered pulls).length ≠ pulls.length)
    (text "open PR metadata has an invalid PR number" scan_number_named))
  let chosen := selected (← get).1.scanCursor (numbered pulls)
  scanChoose chosen
  let work ← scanProbeAll api chosen {}
  return work.enqueue (← plainly (ask api.queueCandidate))

/-- An evaluated candidate of a pull request moves the cursor. -/
def scanEvaluated (candidate : Candidate) : Recorded Unit := do
  plainly (evaluatedWhen (Event.schedule = .schedule ∧ candidate.scope = .pullRequest) candidate.number)
  record (.evaluated candidate.number candidate.scope)

/-- The report of an evaluated candidate, once it is still current and its status is posted. -/
def scanReport (candidate : Candidate) (report : Report) : Recorded (Option Report) := do
  if ¬ (← plainly (ask (api.stillCurrent candidate))) then do
    nameError candidate.number "candidate changed during evaluation; next event rechecks"
    return none
  let receipt := match context.previous with
    | none => actor.runId
    | some previous => if readyReceipt context candidate report then previous.runId else actor.runId
  plainly (ask (api.reportStatus report receipt))
  plainly (modify fun session => { session with reports := session.reports.insert candidate.head report })
  return some report

def scanEvaluate (candidate : Candidate) : Recorded (Option Report) := do
  let (report, firstSeen) ← plainly (ask (api.evaluate candidate (← get).1.firstSeen))
  plainly (modify fun session => { session with firstSeen := firstSeen })
  scanEvaluated candidate
  scanReport api actor context candidate report

def scanRecover (candidate : Candidate) (report : Report) : Recorded Unit := do
  if (← get).1.ledger.lookup candidate.head = none then
    tryCatch (plainly (recover api.toApi sha256 actor context candidate report)) fun interrupt => match interrupt with
      | .refused reason => nameError candidate.number ("older-base recovery refused: " ++ reason.value)
      | interrupt => throw interrupt

def scanCandidate (candidate : Candidate) : Recorded Unit := do
  match ← scanEvaluate api actor context candidate with
  | none => return
  | some report => do
    plainly (rerunWhenReady api.toServiceApi actor context candidate report)
    scanRecover api sha256 actor context candidate report

/-- A retained original whose report requires the protected queue moves the cursor. -/
def scanRecovered (number : Nat) : Recorded Unit := do
  let required := (← get).1.reports.entries.any fun entry =>
    entry.2.pullRequest = number && entry.2.protectedQueueRequired
  plainly (evaluatedWhen (Event.schedule = .schedule ∧ required) number)
  record (.recovered number required)

/-- Handles a retained original: its pull request, and its run where one is known. -/
def scanRetained (item : Nat × Option Nat) : Recorded Unit := do
  plainly (recoverRetained api.toApi sha256 actor context item.1 item.2)
  scanRecovered item.1

def scanStop (left : List Nat) : Recorded Unit := do
  plainly (fallBack context .schedule)
  record (.stopped left)

/-- Whether the item was served; a refusal is an entry of the errors. -/
def scanOne {α : Type} (number : α → Nat) (reason : Text → String) (serve : α → Recorded Unit) (item : α) :
    Recorded Bool :=
  tryCatch (do serve item; return true) fun interrupt => match interrupt with
    | .eligibility error | .refused error => do
      nameError (number item) (reason error)
      return false
    | interrupt => throw interrupt

def scanAll {α : Type} (number : α → Nat) (reason : Text → String) (serve : α → Recorded Unit) :
    List α → Recorded Unit
  | [] => return
  | item :: rest => do
    if ← scanOne number reason serve item then scanAll number reason serve rest
    else if ← plainly (ask api.exhausted) then scanStop context (rest.map number)
    else scanAll number reason serve rest

def scanLoops (work : Work) : Recorded Unit := do
  scanAll api context Candidate.number Text.value (scanCandidate api sha256 actor context) work.candidates
  scanAll api context Prod.fst (fun error => "retained-original recovery refused: " ++ error.value)
    (scanRetained api sha256 actor context) work.retained

def scan : Recorded Unit := do
  let work ← scanDiscover api
  scanLoops api sha256 actor context work

/-- What the scan of a run has written down at its end. -/
def scanLog : ScanLog := (after (scan api sha256 actor context) (Session.start context, {})).2

/-! ## Without what is written down -/

theorem erases_record (event : ScanEvent) : Erases (record event) (pure ⟨⟩) := fun _ => ⟨rfl, rfl⟩

theorem erases_nameError {α : Type} {noted : Recorded α} {plain : Service α} (h : Erases noted plain)
    (number : Nat) (reason : String) : Erases (nameError number reason >>= fun _ => noted) plain :=
  h.write fun log => { log with events := log.events ++ [.named number ("PR " ++ toString number ++ ": " ++ reason)] }

theorem erases_scanProbe (number : Nat) (head : Option String) :
    Erases (scanProbe api number head) (tolerating .nothing (probeListed api.toServiceApi number head)) := by
  refine (erases_plainly _).tryCatch fun interrupt => ?_
  cases interrupt with
  | eligibility | refused => exact erases_nameError (erases_pure _) _ _
  | value | stopped => exact erases_throw _

theorem erases_scanProbeAll (pulls : List (Nat × Option String)) (work : Work) :
    Erases (scanProbeAll api pulls work) (probeAll api.toServiceApi pulls work) := by
  induction pulls generalizing work with
  | nil => exact erases_pure _
  | cons pull rest ih => exact (erases_scanProbe api pull.1 pull.2).bind fun _ => ih _

theorem erases_scanDiscover : Erases (scanDiscover api) (discover api.toServiceApi .schedule) := by
  refine (erases_plainly _).bind fun _ => (erases_plainly _).bind fun _ => (erases_plainly _).bind fun _ => ?_
  refine erases_get_bind fun _ => ((erases_plainly _).thenWrite _).bind fun _ => ?_
  exact (erases_scanProbeAll api _ _).bind fun _ => (erases_plainly _).bind fun _ => erases_pure _

theorem erases_scanEvaluate (candidate : Candidate) :
    Erases (scanEvaluate api actor context candidate)
      (evaluateCandidate api.toServiceApi actor context .schedule candidate) := by
  refine erases_get_bind fun _ => (erases_plainly _).bind ?_
  rintro ⟨report, firstSeen⟩
  refine (erases_plainly _).bind fun _ => ((erases_plainly _).thenWrite _).bind fun _ => ?_
  refine (erases_plainly _).bind fun _ => erases_ite (fun _ => ?_) fun _ => ?_
  · exact erases_nameError (erases_pure _) _ _
  · exact (erases_plainly _).bind fun _ => (erases_plainly _).bind fun _ => erases_pure _

theorem erases_scanRecover (candidate : Candidate) (report : Report) :
    Erases (scanRecover api sha256 actor context candidate report)
      (recoverUnlessRerun api.toServiceApi sha256 actor context candidate report) := by
  refine erases_get_bind fun _ => erases_ite (fun _ => ?_) fun _ => erases_pure _
  refine (erases_plainly _).tryCatch fun interrupt => ?_
  cases interrupt with
  | refused => exact erases_record _
  | eligibility | value | stopped => exact erases_throw _

theorem erases_scanCandidate (candidate : Candidate) :
    Erases (scanCandidate api sha256 actor context candidate)
      (serveCandidate api.toServiceApi sha256 actor context .schedule candidate) := by
  refine (erases_scanEvaluate api actor context candidate).bind fun evaluated => ?_
  cases evaluated with
  | none => exact erases_pure _
  | some report => exact (erases_plainly _).bind fun _ => erases_scanRecover api sha256 actor context candidate report

theorem erases_scanRetained (item : Nat × Option Nat) :
    Erases (scanRetained api sha256 actor context item)
      (serveRetained api.toServiceApi sha256 actor context .schedule item.1 item.2) :=
  (erases_plainly _).bind fun _ => erases_get_bind fun _ => (erases_plainly _).thenWrite _

theorem erases_scanOne {α : Type} (number : α → Nat) (reason : Text → String) {noted : α → Recorded Unit}
    {plain : α → Service Unit} (h : ∀ item, Erases (noted item) (plain item)) (item : α) :
    Erases (scanOne number reason noted item) (tolerating false (do plain item; return true)) := by
  refine Erases.tryCatch ((h item).bind fun _ => erases_pure _) fun interrupt => ?_
  cases interrupt with
  | eligibility | refused => exact erases_nameError (erases_pure _) _ _
  | value | stopped => exact erases_throw _

theorem erases_scanAll {α : Type} (number : α → Nat) (reason : Text → String) {noted : α → Recorded Unit}
    {plain : α → Service Unit} (h : ∀ item, Erases (noted item) (plain item)) (items : List α) :
    Erases (scanAll api context number reason noted items)
      (serveAll api.toServiceApi context .schedule plain items) := by
  induction items with
  | nil => exact erases_pure _
  | cons item rest ih =>
    refine (erases_scanOne number reason h item).bind fun served => erases_ite (fun _ => ih) fun _ => ?_
    refine (erases_plainly _).bind fun _ => erases_ite (fun _ => ?_) fun _ => ih
    exact (erases_plainly _).thenWrite _

/-- Without what it writes down, the scan is the scheduled run. -/
theorem erases_scan :
    Erases (scan api sha256 actor context) (serve api.toServiceApi sha256 actor context .schedule) := by
  refine (erases_scanDiscover api).bind fun work => ?_
  refine (erases_scanAll api context _ _ (erases_scanCandidate api sha256 actor context) _).bind fun _ => ?_
  exact erases_scanAll api context _ _ (erases_scanRetained api sha256 actor context) _

/-! ## The cursor of the scan

The next scheduled scan goes on after the pull request of the cursor, so those before it in
the order of this scan should not be left. They are when the budget ends a loop before it has
reached them and a pull request further on has moved the cursor. -/

/-! ## The log -/

/-- The pull request that an event moves the cursor to. -/
def ScanEvent.moves : ScanEvent → Option Nat
  | .evaluated number .pullRequest => some number
  | .recovered number true => some number
  | _ => none

namespace ScanLog
variable (log : ScanLog)

/-- The pull request was evaluated, or its retained original handled, or an error names it. -/
def Took (number : Nat) : Prop :=
  (∃ scope, .evaluated number scope ∈ log.events) ∨ (∃ required, .recovered number required ∈ log.events) ∨
    ∃ entry, .named number entry ∈ log.events

/-- The budget ended a loop that had not reached the pull request. -/
def Left (number : Nat) : Prop := ∃ left, .stopped left ∈ log.events ∧ number ∈ left

/-- The last pull request that moved the cursor. -/
def last : Option Nat := (log.events.filterMap ScanEvent.moves).getLast?

/-- The budget ended a loop, and no pull request has moved the cursor. -/
def Restored : Prop := (∃ left, .stopped left ∈ log.events) ∧ log.last = none

end ScanLog

/-- The numbers up to the cursor, and the cursor itself. -/
def upTo (cursor : Nat) (numbers : List Nat) : List Nat := numbers.take (numbers.idxOf cursor + 1)

/-- Each chosen pull request up to the cursor was taken up; none counts where the starting cursor was restored. -/
def ScanLog.PassesOverNone (log : ScanLog) (cursor : Nat) : Prop :=
  ¬ log.Restored → ∀ number ∈ upTo cursor log.chosen, log.Took number

/-- What the loops have left when the budget ended them comes after the last pull request that moved the cursor. -/
def ScanLog.LeavesLater (log : ScanLog) : Prop :=
  ∀ last, log.last = some last → ∀ number, log.Left number → ¬ log.Took number → number ∉ upTo last log.chosen

/-! ## The cursors of a log -/

structure Cursors where
  scan : Nat
  evaluated : Option Nat

def Cursors.follow (initial : Nat) (cursors : Cursors) (event : ScanEvent) : Cursors :=
  match event with
  | .stopped _ => { cursors with scan := cursors.evaluated.getD initial }
  | event => event.moves.elim cursors fun number => ⟨number, some number⟩

def ScanLog.cursors (initial : Nat) (log : ScanLog) : Cursors :=
  log.events.foldl (Cursors.follow initial) ⟨log.chosen.getLast?.getD initial, none⟩

variable {initial : Nat} {log : ScanLog} {number : Nat}

theorem Cursors.follow_eq {cursors : Cursors} {event : ScanEvent} (h : ∀ left, event ≠ .stopped left) :
    cursors.follow initial event = event.moves.elim cursors fun number => ⟨number, some number⟩ := by
  cases event with
  | stopped left => exact absurd rfl (h left)
  | named | evaluated | recovered => rfl

theorem ScanLog.cursors_append (events : List ScanEvent) (event : ScanEvent) (chosen : List Nat) :
    ({ chosen := chosen, events := events ++ [event] } : ScanLog).cursors initial =
      (({ chosen := chosen, events := events } : ScanLog).cursors initial).follow initial event := by
  unfold ScanLog.cursors
  rw [List.foldl_append]
  rfl

theorem getLast?_filterMap_append (events : List ScanEvent) (event : ScanEvent) :
    ((events ++ [event]).filterMap ScanEvent.moves).getLast? =
      event.moves.elim (events.filterMap ScanEvent.moves).getLast? some := by
  rw [List.filterMap_append]
  cases hmoves : event.moves with
  | none => rw [List.filterMap_cons_none hmoves, List.filterMap_nil, List.append_nil]; rfl
  | some number => rw [List.filterMap_cons_some hmoves, List.filterMap_nil, List.getLast?_concat]; rfl

/-- The cursors after a log: the evaluated one is the last that moved it, and so is the other one,
or it is the one that the scan started with, as soon as it moved or the budget ended a loop. -/
theorem ScanLog.cursors_spec (initial : Nat) (chosen : List Nat) (events : List ScanEvent) :
    let log : ScanLog := ⟨chosen, events⟩
    (log.cursors initial).evaluated = log.last ∧
      (log.last ≠ none ∨ (∃ left, .stopped left ∈ log.events) →
        (log.cursors initial).scan = log.last.getD initial) := by
  induction events using List.reverseRecOn with
  | nil =>
    refine ⟨rfl, fun h => ?_⟩
    rcases h with h | ⟨left, hleft⟩
    · exact absurd rfl h
    · exact absurd hleft List.not_mem_nil
  | append_singleton events event ih =>
    obtain ⟨hevaluated, hscan⟩ := ih
    simp only [ScanLog.cursors_append, ScanLog.last, getLast?_filterMap_append] at *
    cases hmoves : event.moves with
    | some number =>
      cases event with
      | named | stopped => cases hmoves
      | evaluated | recovered =>
        rw [Cursors.follow_eq (by simp), hmoves]
        exact ⟨rfl, fun _ => rfl⟩
    | none =>
      cases event with
      | stopped left =>
        refine ⟨hevaluated, fun _ => ?_⟩
        show ((ScanLog.cursors _ _).evaluated).getD initial = _
        rw [hevaluated]
        rfl
      | named | evaluated | recovered =>
        rw [Cursors.follow_eq (by simp), hmoves]
        refine ⟨hevaluated, fun h => hscan ?_⟩
        rcases h with h | ⟨left, hleft⟩
        · exact Or.inl h
        · rcases List.mem_append.mp hleft with hleft | hleft
          · exact Or.inr ⟨left, hleft⟩
          · cases List.mem_singleton.mp hleft

theorem ScanLog.cursors_scan (h : log.last ≠ none ∨ ∃ left, .stopped left ∈ log.events) :
    (log.cursors initial).scan = log.last.getD initial :=
  (ScanLog.cursors_spec initial log.chosen log.events).2 h

/-- A scan that takes up or leaves each pull request it chose passes over none exactly when
what it has left comes later. -/
theorem ScanLog.passesOverNone_iff (h : ∀ number ∈ log.chosen, log.Took number ∨ log.Left number) :
    log.PassesOverNone (log.cursors initial).scan ↔ log.LeavesLater := by
  constructor
  · intro hpasses last hlast number _ htook hmem
    have hmoved : log.last ≠ none := by
      rw [hlast]
      exact Option.some_ne_none last
    rw [ScanLog.cursors_scan (Or.inl hmoved), hlast] at hpasses
    exact htook (hpasses (fun hrestored => hmoved hrestored.2) number hmem)
  · intro hlater hrestored number hmem
    by_contra htook
    have hleft := (h number (List.mem_of_mem_take hmem)).resolve_left htook
    have hended := hleft
    obtain ⟨left, hstopped, -⟩ := hended
    rw [ScanLog.cursors_scan (Or.inr ⟨left, hstopped⟩)] at hmem
    cases hlast : log.last with
    | none => exact hrestored ⟨⟨left, hstopped⟩, hlast⟩
    | some last =>
      rw [hlast] at hmem
      exact hlater last hlast number hleft htook hmem

end Boxferry.Automation.Eligibility
