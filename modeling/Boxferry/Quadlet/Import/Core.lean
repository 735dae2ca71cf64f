import Boxferry.Engine.Outcome
import Boxferry.Lens.Documents
import Boxferry.Library.Reports

/-! # The Quadlet importer's mapping state

Mapping a document appends events: fidelity decisions with the spans they are
about, and findings of the native library. Most handlers answer one entry with
a new state and the decisions about that entry. -/
namespace Boxferry.Quadlet.Import
open Engine Lens Model
set_option autoImplicit false

namespace Codes

def invalidSource : DiagnosticCode := ⟨"BFQ1001", by decide⟩
def invalidModel : DiagnosticCode := ⟨"BFQ1002", by decide⟩
def unsupported : DiagnosticCode := ⟨"BFQ1003", by decide⟩
def approximate : DiagnosticCode := ⟨"BFQ1004", by decide⟩

end Codes

/-! ## Events -/

inductive Event where
  | exact (subject : String) (origins : List Provenance)
  | approximate (subject document reason : String) (origin : Provenance)
  | unsupported (subject document key : String) (reason : Option String)
      (origins : List Provenance)
  | invalid (subject document reason : String) (origin : Option Provenance)
deriving DecidableEq

namespace Event

def outcome : Event → ConversionOutcome
  | .exact subject origins => ⟨subject, .exact, none, origins, ConversionOutcome.linked_exact⟩
  | .approximate subject _ _ origin =>
    ⟨subject, .approximate, some Codes.approximate, [origin], by simp⟩
  | .unsupported subject _ _ _ origins =>
    ⟨subject, .unsupported, some Codes.unsupported, origins, by simp⟩
  | .invalid subject _ _ origin =>
    ⟨subject, .invalid, some Codes.invalidModel, origin.toList, by simp⟩

def diagnostic? : Event → Option Diagnostic
  | .exact _ _ => none
  | .approximate _ document reason _ =>
    some ⟨Codes.approximate, .warning,
      "Quadlet intent requires a documented neutral-model approximation",
      [⟨"document", .plain document⟩, ⟨"reason", .plain reason⟩]⟩
  | .unsupported _ document key reason _ =>
    some ⟨Codes.unsupported, .warning,
      "Quadlet intent is not represented by the current neutral-model importer",
      [⟨"document", .plain document⟩, ⟨"key", .plain key⟩] ++
        reason.toList.map fun reason => ⟨"reason", .plain reason⟩⟩
  | .invalid _ document reason _ =>
    some ⟨Codes.invalidModel, .error,
      "Quadlet value cannot enter the neutral application model",
      [⟨"document", .plain document⟩, ⟨"reason", .plain reason⟩]⟩

/-- The locations a decision is about. -/
def origins (event : Event) : List Provenance := event.outcome.origins

/-- A decision that reports its subject as faithfully imported. -/
def isExact (event : Event) : Bool := event.outcome.kind = .exact

end Event

abbrev Imported (α : Type) : Type := Reports Event α

/-! ## Source -/

/-- A parsed document set with caller-owned source identities. -/
structure QuadletSource where
  applicationName : Identifier
  documents : List NamedQuadletDocument
  sourceId : Nat → SourceId

namespace QuadletSource
variable (source : QuadletSource)

def provenance (span : NativeSpan) : Provenance :=
  .spanned (source.sourceId span.sourceId) ⟨span.start, span.end, span.ordered⟩

def entryOrigin (entry : TypedEntry) : Provenance := source.provenance entry.span

end QuadletSource

/-- Text before the last dot of a unit filename. -/
def unitStem (fileName : String) : String :=
  let after := fileName.toList.reverse.takeWhile (· ≠ '.')
  if after.length < fileName.toList.length then
    String.ofList (fileName.toList.take (fileName.toList.length - after.length - 1))
  else fileName

/-! ## Answers -/

/-- A decision about one entry. The key of an unsupported value is the entry's own by default. -/
inductive Verdict where
  | exact
  | approximate (reason : String)
  | unsupported (reason : String) (key : Option String := none)
  | unmapped
  | invalid (reason : String)
deriving DecidableEq

/-- The next state and the decisions about the answered entry. -/
structure Answer (σ : Type) where
  reports : List (String × Verdict)
  state : σ

def Verdict.event (verdict : Verdict) (subject fileName key : String) (origin : Provenance) :
    Event :=
  match verdict with
  | .exact => .exact subject [origin]
  | .approximate reason => .approximate subject fileName reason origin
  | .unsupported reason named => .unsupported subject fileName (named.getD key) (some reason) [origin]
  | .unmapped => .unsupported subject fileName key none [origin]
  | .invalid reason => .invalid subject fileName reason (some origin)

namespace Verdict

@[simp] theorem event_origins (verdict : Verdict) (subject fileName key : String)
    (origin : Provenance) : (verdict.event subject fileName key origin).origins = [origin] := by
  cases verdict <;> rfl

theorem event_isExact (verdict : Verdict) (subject fileName key : String) (origin : Provenance) :
    (verdict.event subject fileName key origin).isExact = true ↔ verdict = .exact := by
  cases verdict <;> simp [event, Event.isExact, Event.outcome]

end Verdict

namespace Answer
variable {σ τ : Type}

def one (subject : String) (verdict : Verdict) (state : σ) : Answer σ :=
  ⟨[(subject, verdict)], state⟩

def map (change : σ → τ) (answer : Answer σ) : Answer τ := ⟨answer.reports, change answer.state⟩

@[simp] theorem reports_one (subject : String) (verdict : Verdict) (state : σ) :
    (one subject verdict state).reports = [(subject, verdict)] := rfl

@[simp] theorem state_one (subject : String) (verdict : Verdict) (state : σ) :
    (one subject verdict state).state = state := rfl

@[simp] theorem reports_map (change : σ → τ) (answer : Answer σ) :
    (answer.map change).reports = answer.reports := rfl

@[simp] theorem state_map (change : σ → τ) (answer : Answer σ) :
    (answer.map change).state = change answer.state := rfl

/-- The decisions of an answer, as events about the entry's span. -/
def events (answer : Answer σ) (fileName : String) (entry : TypedEntry) (origin : Provenance) :
    List Event :=
  answer.reports.map fun (subject, verdict) => verdict.event subject fileName entry.key origin

/-- Reports an answer and goes on with its state. -/
def settle (answer : Answer σ) (fileName : String) (entry : TypedEntry) (origin : Provenance) :
    Imported σ :=
  WriterT.mk (answer.state, answer.events fileName entry origin)

@[simp] theorem value_settle (answer : Answer σ) (fileName : String) (entry : TypedEntry)
    (origin : Provenance) : (answer.settle fileName entry origin).value = answer.state := rfl

@[simp] theorem log_settle (answer : Answer σ) (fileName : String) (entry : TypedEntry)
    (origin : Provenance) :
    (answer.settle fileName entry origin).log = answer.events fileName entry origin := rfl

end Answer

/-! ## Direct values -/

def continuedReason : String :=
  "continued physical values require native semantic decoding before import"

/-- `direct_value`: the trimmed one-line value of an entry, answered by `decide`. -/
def direct {σ : Type} (subject : String) (entry : TypedEntry) (state : σ)
    (decide : String → Answer σ) : Answer σ :=
  if entry.isContinued then .one subject (.unsupported continuedReason) state
  else decide (trim entry.primary.text)

end Boxferry.Quadlet.Import
