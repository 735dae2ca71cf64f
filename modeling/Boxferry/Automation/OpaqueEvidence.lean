import Mathlib.Data.List.Forall2
import Boxferry.Automation.OpaqueProtocol

/-! # What an opaque run tells of the output

Two runs whose environments answer alike, but for the bytes of the output, end in the same way when
the digests of the observed prefixes are the same. -/
namespace Boxferry.Automation.Runner
open Unwinding Interruptible
set_option autoImplicit false

/-- Events that differ in the bytes that were read, and not in their number. -/
inductive Event.Alike : Event → Event → Prop where
  | same (event : Event) : Event.Alike event event
  | data (stream : Stream) {first second : Bytes} (size : first.length = second.length) :
      Event.Alike (.readData stream (.ok first)) (.readData stream (.ok second))

def Event.bytes (stream : Stream) : Event → Bytes
  | .readData source (.ok data) => if source = stream then data else []
  | _ => []

/-- What a list of events lets a run read from a stream. -/
def observed (stream : Stream) (events : List Event) : Bytes := events.flatMap (Event.bytes stream)

def Held.prefixOf (held : Held) : Stream → Bytes
  | .stdout => held.stdoutPrefix
  | .stderr => held.stderrPrefix

/-- Runs that hold the same but for the output, whose lengths and present and future digests agree. -/
structure Alike (run : Invocation) (first second : List Event × RunVars) : Prop where
  events : List.Forall₂ Event.Alike first.1 second.1
  vars : second.2 = { first.2 with toHeld := second.2.toHeld }
  lengths : ∀ stream, (first.2.prefixOf stream).length = (second.2.prefixOf stream).length
  digests : ∀ count stream, run.sha256 (first.2.prefixOf stream ++ observed stream (first.1.take count)) =
    run.sha256 (second.2.prefixOf stream ++ observed stream (second.1.take count))

variable {run : Invocation} {α β : Type}

theorem Alike.digest {first second : List Event × RunVars} (h : Alike run first second) (stream : Stream) :
    run.sha256 (first.2.prefixOf stream) = run.sha256 (second.2.prefixOf stream) := by
  have hnow := h.digests 0 stream
  rw [List.take_zero, List.take_zero] at hnow
  simpa [observed] using hnow

/-! ## Calls that do not see the output -/

/-- The answer to the question does not depend on what is held, and reads nothing. -/
structure Blind (pick : RunVars → Event → Option (RunVars × Answer α)) : Prop where
  held : ∀ vars held event, pick { vars with toHeld := held } event =
    (pick vars event).map fun found => ({ found.1 with toHeld := held }, found.2)
  unread : ∀ vars stream data, pick vars (.readData stream (.ok data)) = none

theorem Blind.toHeld {pick : RunVars → Event → Option (RunVars × Answer α)} (h : Blind pick) {vars last : RunVars}
    {event : Event} {answer : Answer α} (hpick : pick vars event = some (last, answer)) :
    last.toHeld = vars.toHeld := by
  have hsame := h.held vars vars.toHeld event
  rw [show { vars with toHeld := vars.toHeld } = vars from rfl, hpick] at hsame
  have hlast : last = { last with toHeld := vars.toHeld } := congrArg Prod.fst (Option.some.inj hsame)
  rw [hlast]

theorem Blind.bytes {pick : RunVars → Event → Option (RunVars × Answer α)} (h : Blind pick) {vars last : RunVars}
    {event : Event} {answer : Answer α} (hpick : pick vars event = some (last, answer)) (stream : Stream) :
    event.bytes stream = [] := by
  unfold Event.bytes
  split
  · next source data =>
    rw [h.unread vars source data] at hpick
    exact nomatch hpick
  · rfl

theorem observed_cons_take {stream : Stream} {event : Event} {events : List Event} {count : Nat} :
    observed stream ((event :: events).take (count + 1)) = event.bytes stream ++ observed stream (events.take count) := by
  rw [List.take_succ_cons, observed, List.flatMap_cons]
  rfl

theorem couples_blind {pick : RunVars → Event → Option (RunVars × Answer α)} (h : Blind pick) :
    Couples (Alike run) (ask pick) := by
  refine couples_ask fun first second halike => ?_
  obtain ⟨events, vars⟩ := first
  obtain ⟨others, further⟩ := second
  obtain ⟨hevents, hvars, hlengths, hdigests⟩ := halike
  cases hevents with
  | nil => exact Answered.exhausted
  | @cons event other rest last hevent hrest =>
    cases hevent with
    | data stream size => exact Answered.refused (h.unread vars stream _) (h.unread further stream _)
    | same event =>
      have hpick := h.held vars further.toHeld event
      dsimp only at hvars
      rw [← hvars] at hpick
      cases hfound : pick vars event with
      | none =>
        rw [hfound] at hpick
        exact Answered.refused hfound hpick
      | some found =>
        obtain ⟨next, answer⟩ := found
        rw [hfound] at hpick
        refine Answered.answered hfound hpick ⟨hrest, rfl, fun stream => ?_, fun count stream => ?_⟩
        · show (next.prefixOf stream).length = (further.prefixOf stream).length
          rw [h.toHeld hfound]
          exact hlengths stream
        · have hnext := hdigests (count + 1) stream
          rw [observed_cons_take, observed_cons_take, h.bytes hfound stream] at hnext
          show run.sha256 (next.prefixOf stream ++ _) = run.sha256 (further.prefixOf stream ++ _)
          rw [h.toHeld hfound]
          exact hnext

theorem blind_performed (operation : Operation) : Blind (performed operation) where
  held vars held event := by
    cases event with
    | did done answer =>
      unfold performed
      dsimp only
      split
      · rfl
      · rfl
    | _ => rfl
  unread _ _ _ := rfl

theorem couples_perform (operation : Operation) : Couples (Alike run) (perform operation) :=
  couples_blind (blind_performed operation)

theorem couples_spawned : Couples (Alike run) (ask spawned) := by
  refine couples_blind ⟨fun vars held event => ?_, fun _ _ _ => rfl⟩
  cases event with
  | spawned answer =>
    cases answer with
    | error failure => rfl
    | ok streams => rfl
  | _ => rfl

theorem couples_polled : Couples (Alike run) (ask polled) := by
  refine couples_blind ⟨fun vars held event => ?_, fun _ _ _ => rfl⟩
  cases event with
  | polled answer =>
    cases answer with
    | error failure => rfl
    | ok code => rfl
  | _ => rfl

theorem couples_waited : Couples (Alike run) (ask waited) := by
  refine couples_blind ⟨fun vars held event => ?_, fun _ _ _ => rfl⟩
  cases event with
  | waited answer =>
    cases answer with
    | error failure => rfl
    | ok code => rfl
  | _ => rfl

theorem couples_clocked : Couples (Alike run) (ask clocked) := by
  refine couples_blind ⟨fun vars held event => ?_, fun _ _ _ => rfl⟩
  cases event with
  | clocked answer => rfl
  | _ => rfl

theorem couples_selected : Couples (Alike run) (ask selected) := by
  refine couples_blind ⟨fun vars held event => ?_, fun _ _ _ => rfl⟩
  cases event with
  | selected answer =>
    cases answer with
    | error failure => rfl
    | ok ready =>
      unfold selected
      dsimp only
      split
      · rfl
      · rfl
  | _ => rfl

/-! ## Reading -/

theorem receive_prefixOf (held : Held) (stream source : Stream) (data : Bytes) (room : Nat) :
    (held.receive source data room).prefixOf stream =
      held.prefixOf stream ++ (Event.readData source (.ok data)).bytes stream := by
  cases source with
  | stdout =>
    cases stream with
    | stdout => rfl
    | stderr => exact (List.append_nil _).symm
  | stderr =>
    cases stream with
    | stdout => exact (List.append_nil _).symm
    | stderr => rfl

theorem Alike.receive {rest last : List Event} {vars further : RunVars} {stream : Stream} {chunk again : Bytes}
    (h : Alike run (.readData stream (.ok chunk) :: rest, vars) (.readData stream (.ok again) :: last, further))
    (hrest : List.Forall₂ Event.Alike rest last) (size : chunk.length = again.length) (room total : Nat) :
    Alike run (rest, { vars with toHeld := vars.toHeld.receive stream chunk room, total := total })
      (last, { further with toHeld := further.toHeld.receive stream again room, total := total }) := by
  obtain ⟨-, hvars, hlengths, hdigests⟩ := h
  dsimp only at hvars
  have hread : ∀ source, ((Event.readData stream (.ok chunk)).bytes source).length =
      ((Event.readData stream (.ok again)).bytes source).length := by
    intro source
    unfold Event.bytes
    dsimp only
    split
    · exact size
    · rfl
  refine ⟨hrest, ?_, fun source => ?_, fun count source => ?_⟩
  · show _ = { vars with toHeld := further.toHeld.receive stream again room, total := total }
    rw [hvars]
  · show ((vars.toHeld.receive stream chunk room).prefixOf source).length =
      ((further.toHeld.receive stream again room).prefixOf source).length
    rw [receive_prefixOf, receive_prefixOf, List.length_append, List.length_append, hread]
    exact congrArg (· + _) (hlengths source)
  · show run.sha256 ((vars.toHeld.receive stream chunk room).prefixOf source ++ _) =
      run.sha256 ((further.toHeld.receive stream again room).prefixOf source ++ _)
    have hnext := hdigests (count + 1) source
    rw [observed_cons_take, observed_cons_take] at hnext
    rw [receive_prefixOf, receive_prefixOf, List.append_assoc, List.append_assoc]
    exact hnext

/-- An event that reads nothing leaves the runs alike. -/
theorem Alike.skip {event : Event} {rest last : List Event} {vars further : RunVars}
    (h : Alike run (event :: rest, vars) (event :: last, further)) (hrest : List.Forall₂ Event.Alike rest last)
    (hbytes : ∀ stream, event.bytes stream = []) : Alike run (rest, vars) (last, further) := by
  refine ⟨hrest, h.vars, h.lengths, fun count stream => ?_⟩
  have hnext := h.digests (count + 1) stream
  rw [observed_cons_take, observed_cons_take, hbytes] at hnext
  exact hnext

theorem answered_data {cap : Nat} {stream source : Stream} {rest last : List Event} {vars further : RunVars}
    {chunk again : Bytes}
    (h : Alike run (.readData source (.ok chunk) :: rest, vars) (.readData source (.ok again) :: last, further))
    (hrest : List.Forall₂ Event.Alike rest last) (size : chunk.length = again.length) :
    Answered (Alike run) (received cap stream) (.readData source (.ok chunk) :: rest, vars)
      (.readData source (.ok again) :: last, further) := by
  have htotal : further.total = vars.total := by
    have hvars := h.vars
    dsimp only at hvars
    rw [hvars]
  by_cases haccepted : source = stream ∧ chunk.length ≤ min 65536 (cap - vars.total + 1)
  · obtain ⟨rfl, hsize⟩ := haccepted
    refine Answered.answered (if_pos ⟨rfl, hsize⟩) ?_ (h.receive hrest size (cap - vars.total) _)
    unfold received
    dsimp only
    rw [htotal, ← size]
    exact if_pos ⟨rfl, hsize⟩
  · refine Answered.refused (if_neg haccepted) ?_
    unfold received
    dsimp only
    rw [htotal, ← size]
    exact if_neg haccepted

theorem couples_received {cap : Nat} {stream : Stream} : Couples (Alike run) (ask (received cap stream)) := by
  refine couples_ask fun first second halike => ?_
  obtain ⟨events, vars⟩ := first
  obtain ⟨others, further⟩ := second
  cases halike.events with
  | nil => exact Answered.exhausted
  | @cons event other rest last hevent hrest =>
    cases hevent with
    | data source size => exact answered_data halike hrest size
    | same event =>
      cases event with
      | readData source answer =>
        cases answer with
        | ok chunk => exact answered_data halike hrest rfl
        | error failure =>
          by_cases hsource : source = stream
          · exact Answered.answered (if_pos hsource) (if_pos hsource) (halike.skip hrest fun _ => rfl)
          · exact Answered.refused (if_neg hsource) (if_neg hsource)
      | _ => exact Answered.refused rfl rfl

/-! ## Programs that do not see the output -/

/-- A change that does not depend on what is held, but for what it captures. -/
theorem couples_change {change : RunVars → RunVars} (held : Held → Held)
    (h : ∀ vars other, change { vars with toHeld := other } = { change vars with toHeld := held other })
    (hleading : ∀ other stream, (held other).prefixOf stream = other.prefixOf stream) :
    Couples (Alike run) (update change : Program Unit) := by
  refine couples_update fun first second halike => ?_
  obtain ⟨events, vars⟩ := first
  obtain ⟨others, further⟩ := second
  obtain ⟨hevents, hvars, hlengths, hdigests⟩ := halike
  dsimp only at hvars
  have hfirst : (change vars).toHeld = held vars.toHeld := congrArg RunVars.toHeld (h vars vars.toHeld)
  have hsecond : change further = { change vars with toHeld := held further.toHeld } := by
    rw [← h vars further.toHeld, ← hvars]
  refine ⟨hevents, ?_, fun stream => ?_, fun count stream => ?_⟩
  · show change further = { change vars with toHeld := (change further).toHeld }
    rw [hsecond]
  · show ((change vars).prefixOf stream).length = ((change further).prefixOf stream).length
    rw [hsecond, hfirst, hleading, hleading]
    exact hlengths stream
  · show run.sha256 ((change vars).prefixOf stream ++ _) = run.sha256 ((change further).prefixOf stream ++ _)
    rw [hsecond, hfirst, hleading, hleading]
    exact hdigests count stream

theorem couples_unheld {change : RunVars → RunVars}
    (h : ∀ vars other, change { vars with toHeld := other } = { change vars with toHeld := other }) :
    Couples (Alike run) (update change : Program Unit) :=
  couples_change id h fun _ _ => rfl

theorem couples_reads {f : RunVars → α} {next : α → Program β}
    (h : ∀ vars held, f { vars with toHeld := held } = f vars) (hnext : ∀ value, Couples (Alike run) (next value)) :
    Couples (Alike run) (reads f >>= next) := by
  refine couples_reads_bind (fun first second halike => ?_) hnext
  exact (h first.2 second.2.toHeld).symm.trans (congrArg f halike.vars.symm)

theorem couples_ite {condition : Prop} [Decidable condition] {program other : Program α}
    (h : Couples (Alike run) program) (hother : Couples (Alike run) other) :
    Couples (Alike run) (if condition then program else other) := by
  split
  · exact h
  · exact hother

theorem couples_fail {why : OpaqueReason} {state : RunStatus} : Couples (Alike run) (fail why state) :=
  couples_unheld fun _ _ => rfl

theorem couples_account {change : Ledger → Ledger} : Couples (Alike run) (account change) :=
  couples_unheld fun _ _ => rfl

theorem couples_metrics {why : OpaqueReason} {state : RunStatus} : Couples (Alike run) (metrics run why state) := by
  refine (couples_perform .metrics).bind fun _ => couples_reads_bind (fun first second halike => ?_) fun built =>
    couples_ite (couples_pure built) (couples_raise _)
  have hvars := halike.vars
  have hstdout := halike.lengths .stdout
  have hstderr := halike.lengths .stderr
  have hdigest := halike.digest .stdout
  have herror := halike.digest .stderr
  unfold Held.prefixOf at hstdout hstderr hdigest herror
  dsimp only at hstdout hstderr hdigest herror
  unfold metricsOf
  rw [hstdout, hstderr, hdigest, herror, hvars]

theorem couples_abortContext {abortStatus : Option RunStatus} :
    Couples (Alike run) (abortContext run abortStatus) :=
  couples_reads (fun _ _ => rfl) fun _ => couples_reads (fun _ _ => rfl) fun _ => couples_metrics.bind fun _ =>
    couples_ite (couples_pure _) (couples_raise _)

theorem couples_callHook {abortStatus : Option RunStatus} : Couples (Alike run) (callHook run abortStatus) := by
  refine (couples_attempt couples_abortContext fun failure => ?_).bind fun _ => ?_
  · exact couples_account.bind fun _ => couples_raise failure
  · exact couples_account.bind fun _ => couples_perform .hook

theorem couples_notify {abortStatus : Option RunStatus} : Couples (Alike run) (notify run abortStatus) := by
  refine couples_reads (fun _ _ => rfl) fun _ => couples_reads (fun _ _ => rfl) fun _ => couples_fail.bind fun _ =>
    couples_reads (fun _ _ => rfl) fun _ => couples_ite (couples_pure _) (couples_account.bind fun _ => ?_)
  exact couples_attempt couples_callHook fun _ => couples_unheld fun _ _ => rfl

theorem couples_notifyProcess : Couples (Alike run) (notifyProcess run) :=
  couples_reads (fun _ _ => rfl) fun _ => couples_ite couples_notify (couples_pure _)

theorem couples_killpg {signal : Signal} : Couples (Alike run) (killpg signal) := by
  refine Couples.bind (couples_unheld fun _ _ => rfl) fun _ => couples_attempt (couples_perform .signal) fun failure => ?_
  exact couples_ite (couples_pure _) (couples_raise failure)

theorem couples_cleanup : Couples (Alike run) cleanup := by
  refine couples_killpg.bind fun _ => couples_ensure (couples_attempt couples_waited fun failure => ?_) ?_
  · exact couples_ite (couples_pure _) (couples_raise failure)
  · exact couples_killpg.bind fun _ => couples_waited

/-! ## The loop -/

theorem couples_observeExit {code : Option Int} : Couples (Alike run) (observeExit run code) := by
  cases code with
  | none => exact couples_pure _
  | some code =>
    refine couples_reads (fun _ _ => rfl) fun _ => couples_ite (couples_pure _) (Couples.bind ?_ fun _ => ?_)
    · exact couples_ite (Couples.bind (couples_unheld fun _ _ => rfl) fun _ => couples_notify) (couples_pure _)
    · refine couples_ite (Couples.bind (couples_unheld fun _ _ => rfl) fun _ => ?_) (couples_pure _)
      exact couples_cleanup.bind fun _ => couples_unheld fun _ _ => rfl

theorem couples_checkDeadline : Couples (Alike run) (checkDeadline run) :=
  couples_clocked.bind fun _ => couples_ite (couples_raise _) (couples_pure _)

theorem couples_complete {code : Int} : Couples (Alike run) (complete run code) := by
  refine couples_ite (Couples.bind (couples_unheld fun _ _ => rfl) fun _ => ?_) (couples_unheld fun _ _ => rfl)
  refine couples_ensure (couples_attempt (couples_checkDeadline.bind fun _ => Couples.bind ?_ fun _ =>
    (couples_perform .parse).bind fun _ => couples_checkDeadline) fun _ => couples_fail) ?_
  · refine couples_change (fun held => { held with privateBytes := held.captured, captured := [] })
      (fun _ _ => rfl) fun held stream => ?_
    cases stream with
    | stdout => rfl
    | stderr => rfl
  · refine couples_change (fun held => { held with privateBytes := [], captured := [] })
      (fun _ _ => rfl) fun held stream => ?_
    cases stream with
    | stdout => rfl
    | stderr => rfl

theorem couples_drain {streams : List Stream} : Couples (Alike run) (drain run streams) := by
  induction streams with
  | nil => exact couples_pure false
  | cons stream streams ih =>
    refine Couples.bind (Couples.bind (couples_attempt (couples_received.bind fun _ => couples_pure _)
      fun failure => couples_ite (couples_pure _) (couples_raise failure)) fun size => ?_) fun exceeded =>
      couples_ite (couples_pure true) ih
    split
    · exact couples_pure false
    · exact (couples_perform .unregister).bind fun _ =>
        Couples.bind (couples_unheld fun _ _ => rfl) fun _ => couples_pure false
    · exact couples_pure _

theorem couples_capture : Couples (Alike run) (capture run) := by
  refine couples_clocked.bind fun _ => couples_ite (Couples.bind (couples_unheld fun _ _ => rfl) fun _ =>
    couples_pure _) (couples_selected.bind fun _ => couples_drain.bind fun _ => couples_ite ?_ (couples_pure none))
  exact Couples.bind (couples_unheld fun _ _ => rfl) fun _ => couples_pure _

theorem couples_round : Couples (Alike run) (round run) := by
  refine Couples.bind (couples_ite (Couples.bind (couples_unheld fun _ _ => rfl) fun _ => couples_perform .monitor)
    (couples_pure _)) fun _ => Couples.bind (couples_unheld fun _ _ => rfl) fun _ => couples_polled.bind fun code => ?_
  refine Couples.bind (couples_unheld fun _ _ => rfl) fun _ => couples_observeExit.bind fun _ =>
    couples_reads (fun _ _ => rfl) fun registered => ?_
  split
  · exact couples_complete.bind fun _ => couples_pure _
  · exact couples_capture

theorem couples_execute {bound : Nat} : Couples (Alike run) (execute run bound) := by
  have hregister : ∀ stream, Couples (Alike run) (registerStream stream) := fun stream =>
    (couples_perform .register).bind fun _ => couples_unheld fun _ _ => rfl
  refine couples_spawned.bind fun _ => Couples.bind ?_ fun _ => (hregister .stdout).bind fun _ =>
    (hregister .stderr).bind fun _ => couples_iterate couples_round bound
  exact couples_reads (fun _ _ => rfl) fun _ => couples_ite (couples_pure _) (couples_raise _)

/-! ## Handlers and the outcome -/

theorem couples_handleFailure {failure : Raised} : Couples (Alike run) (handleFailure run failure) := by
  refine couples_ite (Couples.bind (couples_unheld fun _ _ => rfl) fun _ => couples_fail) ?_
  split
  · exact Couples.bind (couples_unheld fun _ _ => rfl) fun _ => couples_reads (fun _ _ => rfl) fun _ => couples_fail
  · exact Couples.bind (couples_unheld fun _ _ => rfl) fun _ => couples_reads (fun _ _ => rfl) fun _ =>
      couples_fail.bind fun _ => couples_notifyProcess

theorem couples_reportFailure {failure : Raised} : Couples (Alike run) (reportFailure run failure) :=
  couples_fail.bind fun _ => couples_notify

theorem couples_closeStream {stream : Stream} : Couples (Alike run) (closeStream run stream) := by
  refine couples_reads (fun _ _ => rfl) fun _ => couples_ite (couples_attempt (couples_perform .close) fun _ => ?_)
    (couples_pure _)
  exact Couples.bind (couples_unheld fun _ _ => rfl) fun _ => couples_reportFailure

theorem couples_release : Couples (Alike run) (release run) := by
  refine couples_reads (fun _ _ => rfl) fun _ => couples_ite (Couples.bind ?_ fun _ => couples_ensure ?_ ?_)
    (couples_pure _)
  · exact couples_reads (fun _ _ => rfl) fun _ => couples_ite (couples_pure _) couples_notify
  · refine couples_attempt couples_cleanup fun _ => ?_
    exact Couples.bind (couples_unheld fun _ _ => rfl) fun _ => couples_reportFailure
  · exact couples_closeStream.bind fun _ => couples_closeStream.bind fun _ => couples_unheld fun _ _ => rfl

theorem couples_withSelector {bound : Nat} : Couples (Alike run) (withSelector run bound) :=
  (couples_perform .selectorOpen).bind fun _ => couples_ensure (couples_ensure
    (couples_attempt couples_execute fun _ => couples_handleFailure) couples_release) (couples_perform .selectorClose)

theorem couples_buildResult : Couples (Alike run) (buildResult run) := by
  refine couples_reads (fun _ _ => rfl) fun _ => couples_reads (fun _ _ => rfl) fun _ => couples_metrics.bind fun _ =>
    Couples.bind (couples_unheld fun _ _ => rfl) fun _ => couples_reads (fun _ _ => rfl) fun _ =>
    couples_ite (couples_pure _) (couples_clocked.bind fun _ => (couples_perform .result).bind fun _ => ?_)
  exact couples_unheld fun _ _ => rfl

theorem couples_reportFinal {finalFailed : Bool} : Couples (Alike run) (reportFinal run finalFailed) := by
  refine couples_ite (couples_notify.bind fun _ => couples_reads (fun _ _ => rfl) fun _ => couples_ite ?_
    (couples_pure _)) (couples_pure _)
  refine couples_attempt ((couples_perform .replace).bind fun _ => couples_reads (fun _ _ => rfl) fun _ =>
    couples_ite ?_ (couples_raise _)) fun _ => couples_unheld fun _ _ => rfl
  exact couples_unheld fun _ _ => rfl

theorem couples_finish {finalFailed : Bool} : Couples (Alike run) (finish finalFailed) := by
  refine couples_reads (fun _ _ => rfl) fun _ => couples_ite ?_ (couples_reads (fun _ _ => rfl) fun result => ?_)
  · exact couples_reads (fun _ _ => rfl) fun _ => couples_reads (fun _ _ => rfl) fun _ => couples_pure _
  · cases result with
    | none => exact couples_raise _
    | some result => exact couples_pure _

theorem couples_opaqueRun {bound : Nat} : Couples (Alike run) (opaqueRun run bound) := by
  refine Couples.bind (couples_attempt (couples_withSelector.bind fun _ => couples_pure false) fun failure => ?_)
    fun selectorFailed => Couples.bind ?_ fun _ => Couples.bind ?_ fun _ => Couples.bind ?_ fun finalFailed =>
      couples_reportFinal.bind fun _ => couples_finish
  · exact couples_reads (fun _ _ => rfl) fun _ => couples_fail.bind fun _ => couples_pure true
  · exact couples_ite (Couples.bind (couples_unheld fun _ _ => rfl) fun _ => couples_notifyProcess) (couples_pure _)
  · refine couples_change (fun held => { held with captured := [] }) (fun _ _ => rfl) fun held stream => ?_
    cases stream with
    | stdout => rfl
    | stderr => rfl
  · exact couples_attempt (couples_buildResult.bind fun _ => couples_pure false) fun _ =>
      couples_fail.bind fun _ => couples_pure true

/-! ## The protocol -/

/-- How a run over a list of events ends, and its variables then. -/
def ends (run : Invocation) (bound : Nat) (events : List Event) : Except (Stop Raised) Outcome :=
  result (opaqueRun run bound) (events, {})

def lastVars (run : Invocation) (bound : Nat) (events : List Event) : RunVars :=
  (after (opaqueRun run bound) (events, {})).2

theorem sound_initial : Sound {} :=
  ⟨Nat.zero_le 1, fun _ => rfl, rfl, fun _ h => (nomatch h), fun _ h => (nomatch h)⟩

theorem fresh_initial : Fresh {} :=
  ⟨rfl, rfl, fun h => (nomatch h), fun h => (nomatch h), rfl⟩

theorem alike_initial {events others : List Event} (hevents : List.Forall₂ Event.Alike events others)
    (hdigests : ∀ count stream, run.sha256 (observed stream (events.take count)) =
      run.sha256 (observed stream (others.take count))) : Alike run (events, {}) (others, {}) := by
  refine ⟨hevents, rfl, fun _ => rfl, fun count stream => ?_⟩
  cases stream with
  | stdout => exact hdigests count .stdout
  | stderr => exact hdigests count .stderr

variable {bound : Nat} {events : List Event} {outcome : Outcome}

theorem ends_finished (h : ends run bound events = .ok outcome) : Finished run outcome (lastVars run bound events) := by
  have hends := (@opaqueRun_meets run bound (events, {}) sound_initial fresh_initial).2
  rw [show result (opaqueRun run bound) (events, {}) = .ok outcome from h] at hends
  exact hends

/-- Whatever a context showed to the hook is what the outcome carries. -/
theorem Finished.agrees {vars : RunVars} (h : Finished run outcome vars) (hsound : SoundVars vars)
    {context : OpaqueAbortContext} (hcontext : context ∈ vars.contexts) :
    ∃ first, vars.failures.head? = some first ∧ Shows context first ∧ outcome.Carries first := by
  obtain ⟨first, hfirst, hshows⟩ := hsound.agrees context hcontext
  refine ⟨first, hsound.first ▸ hfirst, hshows, ?_⟩
  have hsettled : Settled vars.toLedger := h.steady.resolve_left fun hnone => nomatch hnone.symm.trans hfirst
  rw [Option.some.inj (hfirst.symm.trans hsettled)]
  exact h.carries

/-- The failure protocol of opaque runs, over every order of events and answers. -/
theorem opaque_failure_protocol (run : Invocation) (bound : Nat) (events : List Event) :
    (lastVars run bound events).contexts.length ≤ 1 ∧
    (∀ failure, ends run bound events ≠ .error (.raised failure)) ∧
    (∀ outcome, ends run bound events = .ok outcome →
      (∀ context ∈ (lastVars run bound events).contexts, ∃ first,
        (lastVars run bound events).failures.head? = some first ∧ Shows context first ∧ outcome.Carries first) ∧
      ((lastVars run bound events).process = true →
        .term ∈ (lastVars run bound events).signals ∧
          (outcome.succeeded = false → run.hasAbortHook = true →
            (lastVars run bound events).contexts ≠ [] ∨ .contextUnavailable ∈ (lastVars run bound events).log))) ∧
    ∀ others, List.Forall₂ Event.Alike events others →
      (∀ count stream, run.sha256 (observed stream (events.take count)) =
        run.sha256 (observed stream (others.take count))) →
      ends run bound others = ends run bound events ∧
        (lastVars run bound others).contexts = (lastVars run bound events).contexts := by
  have hends := @opaqueRun_meets run bound (events, {}) sound_initial fresh_initial
  refine ⟨hends.1.once, fun failure hraised => ?_, fun outcome houtcome => ?_, fun others halike hdigests => ?_⟩
  · have hfalse := hends.2
    rw [show result (opaqueRun run bound) (events, {}) = .error (.raised failure) from hraised] at hfalse
    exact hfalse
  · have hfinished := ends_finished houtcome
    refine ⟨fun context hcontext => hfinished.agrees hends.1 hcontext, fun hprocess => ?_⟩
    refine ⟨hfinished.signalled hprocess, fun hfailed hhook => ?_⟩
    obtain ⟨first, hreported⟩ := hfinished.reported hprocess hfailed
    exact hreported.told (hreported.notified hhook)
  · obtain ⟨hresult, hafter⟩ := @couples_opaqueRun run bound _ _ (alike_initial halike hdigests)
    refine ⟨hresult.symm, ?_⟩
    unfold lastVars
    rw [hafter.vars]

/-- A command that exits with 3, whose hook fails and whose pipes are empty. -/
def failingEvents : List Event :=
  [.did .selectorOpen (.ok ()), .spawned (.ok [.stdout, .stderr]), .did .register (.ok ()), .did .register (.ok ()),
    .polled (.ok (some 3)), .did .metrics (.ok ()), .did .hook (.error .other), .did .signal (.ok ()), .waited (.ok 3),
    .did .signal (.error (.os .processLookup none)), .waited (.ok 3), .clocked (.ok 1),
    .selected (.ok [.stdout, .stderr]), .readData .stdout (.ok []), .did .unregister (.ok ()),
    .readData .stderr (.ok []), .did .unregister (.ok ()), .polled (.ok none), .did .signal (.ok ()), .waited (.ok 3),
    .did .signal (.ok ()), .waited (.ok 3), .did .close (.ok ()), .did .close (.ok ()), .did .selectorClose (.ok ()),
    .did .metrics (.ok ()), .clocked (.ok 1), .did .result (.ok ())]

def failingInvocation : Invocation :=
  ⟨.inspectBefore, "", none, false, true, fun _ => String.ofList (List.replicate 64 '0')⟩

example : (lastVars failingInvocation 2 failingEvents).contexts.map OpaqueAbortContext.cause = ["exit-nonzero"] := by
  decide +kernel

end Boxferry.Automation.Runner
