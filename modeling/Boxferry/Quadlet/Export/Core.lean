import Boxferry.Engine.Outcome
import Boxferry.Lens.Documents
import Boxferry.Library.Reports
import Boxferry.Model.Application

/-! # The Quadlet exporter's mapping state

A mapping appends events: fidelity decisions, notes, rejected native values and
staged unit documents. Nothing a mapping has reported is read back before the
plan is finished, so the vectors of the source are projections of one list. The
native library (capability catalogue, unit builder) is a parameter. -/
namespace Boxferry.Quadlet.Export
open Engine Lens Model
set_option autoImplicit false

/-! ## Native library -/

inductive SupportClassification where
  | native
  | deprecated
  | other (classification : String)
deriving DecidableEq

structure PodmanTarget where
  minimum : PlatformVersion
  maximum : Option PlatformVersion
deriving DecidableEq

inductive EntryKey where
  | container (key : ContainerKey)
  | pod (key : PodKey)
  | systemdUnit (key : SystemdUnitKey)
  | systemd (sectionName key : String)
  | extension (sectionName key : String)
  | other (sectionName key : String)
deriving DecidableEq

structure UnitEntry where
  key : EntryKey
  value : String
deriving DecidableEq

/-- The entries a unit builder accepted, in order. -/
structure UnitBuilder where
  unitType : QuadletUnitType
  entries : List UnitEntry := []
deriving DecidableEq

/-- The section name, key and value of a vendor entry. -/
def UnitEntry.extension? : UnitEntry → Option (String × String × String)
  | ⟨.extension sectionName key, value⟩ => some (sectionName, key, value)
  | _ => none

def UnitBuilder.extensions (builder : UnitBuilder) : List (String × String × String) :=
  builder.entries.filterMap UnitEntry.extension?

/-- The native library: `rejects` is the rendering error of a pushed entry, `refuses` that of a
whole document. -/
structure NativeLibrary where
  coverageMinimum : PlatformVersion
  coverageMaximum : PlatformVersion
  hasCapability : String → Bool
  evaluate : String → PodmanTarget → SupportClassification
  rejects : UnitBuilder → UnitEntry → Option String
  refuses : UnitBuilder → Option String

/-- A library that covers every version and takes every entry. -/
def NativeLibrary.permissive : NativeLibrary where
  coverageMinimum := ⟨4, 4, 0⟩
  coverageMaximum := ⟨6, 1, 0⟩
  hasCapability _ := true
  evaluate _ _ := .native
  rejects _ _ := none
  refuses _ := none

/-! ## Unit filenames -/

def isNativeAtom (value : String) : Bool :=
  value.toList.head?.any Char.isAlphanum && value.toList.getLast?.any Char.isAlphanum &&
    value.toList.all fun ch => ch.isAlphanum || ch ∈ ['.', '_', '-']

def QuadletUnitType.extension : QuadletUnitType → String
  | .container => "container"
  | .pod => "pod"
  | .network => "network"
  | .volume => "volume"
  | .image => "image"
  | .build => "build"
  | .kube => "kube"
  | .artifact => "artifact"
  | .other => ""

def unitName (stem : String) (unitType : QuadletUnitType) : String :=
  stem ++ "." ++ QuadletUnitType.extension unitType

/-! ## Exporter -/

inductive QuadletGroupingPolicy where
  | separateContainers
  | singlePod
  | preserveSingleGroup
deriving DecidableEq

structure QuadletExporter where
  library : NativeLibrary
  groupingPolicy : QuadletGroupingPolicy
  podName : Option String

namespace Codes

def invalidTarget : DiagnosticCode := ⟨"BFQ0001", by decide⟩
def assumedFuture : DiagnosticCode := ⟨"BFQ0002", by decide⟩
def unsupported : DiagnosticCode := ⟨"BFQ0003", by decide⟩
def invalidValue : DiagnosticCode := ⟨"BFQ0004", by decide⟩
def generation : DiagnosticCode := ⟨"BFQ0005", by decide⟩
def capabilityUnavailable : DiagnosticCode := ⟨"BFQ0006", by decide⟩
def groupingApproximation : DiagnosticCode := ⟨"BFQ0007", by decide⟩
def dependencyUnsupported : DiagnosticCode := ⟨"BFQ0008", by decide⟩
def restart : DiagnosticCode := ⟨"BFQ0009", by decide⟩
def groupingInvalid : DiagnosticCode := ⟨"BFQ0011", by decide⟩
def dependencyInvalid : DiagnosticCode := ⟨"BFQ0012", by decide⟩
def capabilityDeprecated : DiagnosticCode := ⟨"BFQ0013", by decide⟩
def unresolvedVariable : DiagnosticCode := ⟨"BFQ0014", by decide⟩

end Codes

/-! ## Subjects -/

/-- The parts of a service that grouping moves to the shared pod. -/
inductive ServiceItem where
  | port (index : Nat)
  | hostMapping (index : Nat)
  | network (name : String)
  | userNamespace
deriving DecidableEq

def ServiceItem.path : ServiceItem → String
  | .port index => "ports[" ++ toString index ++ "]"
  | .hostMapping index => "host_mappings[" ++ toString index ++ "]"
  | .network name => "networks." ++ name
  | .userNamespace => "user_namespace"

/-- What an outcome is about. Two subjects may have one rendered path. -/
inductive Subject where
  | other (path : String)
  | podItem (item : ServiceItem)
  | group (name : String)
  | groupRuntime (name part : String)
  | vendorMetadata (index : Nat)
  | service (name : String)
  | serviceItem (name : String) (item : ServiceItem)
  | serviceSetting (name setting : String)
deriving DecidableEq

def Subject.render : Subject → String
  | .other path => path
  | .podItem item => "application.pod." ++ item.path
  | .group name => "service_groups." ++ name
  | .groupRuntime name part => "service_groups." ++ name ++ ".runtime." ++ part
  | .vendorMetadata index => "application.vendor_metadata[" ++ toString index ++ "]"
  | .service name => "services." ++ name
  | .serviceItem name item => "services." ++ name ++ "." ++ item.path
  | .serviceSetting name setting => "services." ++ name ++ "." ++ setting

/-! ## Events -/

inductive Loss where
  | approximate
  | unsupported
  | invalid
deriving DecidableEq

def Loss.kind : Loss → ConversionKind
  | .approximate => .approximate
  | .unsupported => .unsupported
  | .invalid => .invalid

theorem Loss.kind_ne_exact (loss : Loss) : loss.kind ≠ .exact := by
  cases loss <;> simp [kind]

/-- One staged unit file with the subject and origins its outcome will carry. -/
structure StagedDocument where
  fileName : String
  builder : UnitBuilder
  subject : Subject
  origins : List Provenance
deriving DecidableEq

inductive Event where
  | exact (subject : Subject) (origins : List Provenance)
  | loss (code : DiagnosticCode) (subject : Subject) (kind : Loss) (summary reason : String)
      (origins : List Provenance)
  | note (diagnostic : Diagnostic)
  | generationFailed
  | staged (document : StagedDocument)
deriving DecidableEq

namespace Event

/-- The subject a decision is about. -/
def subject? : Event → Option Subject
  | .exact subject _ => some subject
  | .loss _ subject _ _ _ _ => some subject
  | _ => none

def outcome? : Event → Option ConversionOutcome
  | .exact subject origins => some ⟨subject.render, .exact, none, origins, ConversionOutcome.linked_exact⟩
  | .loss code subject kind _ _ origins =>
    some ⟨subject.render, kind.kind, some code, origins, by simp [kind.kind_ne_exact]⟩
  | _ => none

def diagnostic? : Event → Option Diagnostic
  | .loss code subject kind summary reason _ =>
    some ⟨code, if kind = .invalid then .error else .warning, summary,
      [⟨"subject", .plain subject.render⟩, ⟨"reason", .plain reason⟩]⟩
  | .note diagnostic => some diagnostic
  | _ => none

def staged? : Event → Option StagedDocument
  | .staged document => some document
  | _ => none

end Event

/-! ## Reporting -/

abbrev Mapped (α : Type) : Type := Reports Event α

/-- The read-only part of the source's mapping state. -/
structure Mapping where
  exporter : QuadletExporter
  application : Application
  podmanTarget : Option PodmanTarget

/-- An exporter for a library and a target that refuse nothing. -/
def permissiveMapping : Mapping where
  exporter := ⟨.permissive, .separateContainers, none⟩
  application := Application.new ⟨"app", Identifier.valid_app⟩
  podmanTarget := some ⟨⟨5, 0, 0⟩, none⟩

def exact (subject : Subject) (origins : List Provenance) : Mapped Unit :=
  Reports.report (.exact subject origins)

def loss (code : DiagnosticCode) (subject : Subject) (kind : Loss) (summary reason : String)
    (origins : List Provenance) : Mapped Unit :=
  Reports.report (.loss code subject kind summary reason origins)

def unsupported (subject : Subject) (reason : String) (origins : List Provenance) : Mapped Unit :=
  loss Codes.unsupported subject .unsupported
    "neutral application intent is not represented by the current Quadlet subset" reason origins

def approximate (subject : Subject) (reason : String) (origins : List Provenance) : Mapped Unit :=
  loss Codes.groupingApproximation subject .approximate
    "generated Quadlet topology intentionally approximates source service isolation" reason origins

def restartApproximation (subject : Subject) (reason : String) (origins : List Provenance) :
    Mapped Unit :=
  loss Codes.restart subject .approximate
    "container restart behavior is approximated by the systemd service manager" reason origins

def invalid (code : DiagnosticCode) (subject : Subject) (summary reason : String)
    (origins : List Provenance) : Mapped Unit :=
  loss code subject .invalid summary reason origins

def generationError (subject : Subject) (error : String) (origins : List Provenance) :
    Mapped Unit := do
  Reports.report .generationFailed
  invalid Codes.generation subject "QuadletLens rejected generated native output" error origins

namespace Mapping
variable (m : Mapping)

/-- Whether the target range supports a native capability; reports why it does not. -/
def capability (name : String) (subject : Subject) (origins : List Provenance) : Mapped Bool :=
  match m.podmanTarget with
  | none => pure false
  | some target =>
    match m.exporter.library.evaluate name target with
    | .native => pure true
    | .deprecated => do
      Reports.report (.note ⟨Codes.capabilityDeprecated, .note,
        "required Quadlet capability is deprecated for part of the target range",
        [⟨"subject", .plain subject.render⟩, ⟨"capability", .plain name⟩]⟩)
      pure true
    | .other classification => do
      loss Codes.capabilityUnavailable subject .unsupported
        "required Quadlet capability does not cover the complete target range"
        (name ++ ": " ++ classification) origins
      pure false

/-- `push_container`, `push_pod` and their siblings: one entry for the native builder. -/
def push (builder : UnitBuilder) (key : EntryKey) (value : String) (subject : Subject)
    (origins : List Provenance) : Mapped (Bool × UnitBuilder) :=
  match m.exporter.library.rejects builder ⟨key, value⟩ with
  | none => pure (true, { builder with entries := builder.entries ++ [⟨key, value⟩] })
  | some error => do
    generationError subject error origins
    pure (false, builder)

/-- The common tail of a field mapping: an entry that is available and accepted is exact. -/
def emit (name : String) (key : EntryKey) (value : String) (subject : Subject)
    (origins : List Provenance) (builder : UnitBuilder) : Mapped UnitBuilder := do
  if ← m.capability name subject origins then
    let (pushed, builder) ← m.push builder key value subject origins
    if pushed then
      exact subject origins
    pure builder
  else pure builder

/-- A refused capability appends no exact decision. -/
theorem exact_not_mem_capability {name : String} {subject decided : Subject}
    {origins reported : List Provenance} :
    .exact decided reported ∉ (m.capability name subject origins).log := by
  unfold capability
  split
  · simp
  · split <;> simp [loss]

theorem push_accepted {builder : UnitBuilder} {key : EntryKey} {value : String} {subject : Subject}
    {origins : List Provenance} (h : (m.push builder key value subject origins).value.1 = true) :
    (m.push builder key value subject origins).value.2 =
      { builder with entries := builder.entries ++ [⟨key, value⟩] } := by
  unfold push at h ⊢
  split
  · rfl
  · next hrejected =>
    rw [hrejected] at h
    cases h

theorem exact_not_mem_push {builder : UnitBuilder} {key : EntryKey} {value : String}
    {subject decided : Subject} {origins reported : List Provenance} :
    .exact decided reported ∉ (m.push builder key value subject origins).log := by
  unfold push
  split
  · simp
  · simp [generationError, invalid, loss]

/-- An emitted entry is exact only after the builder took it. -/
theorem emit_exact {name : String} {key : EntryKey} {value : String} {subject decided : Subject}
    {origins reported : List Provenance} {builder : UnitBuilder}
    (h : .exact decided reported ∈ (m.emit name key value subject origins builder).log) :
    (m.emit name key value subject origins builder).value =
      { builder with entries := builder.entries ++ [⟨key, value⟩] } := by
  unfold emit at h ⊢
  rw [Reports.mem_log_bind] at h
  rw [Reports.value_bind]
  rcases h with hcapability | htail
  · exact absurd hcapability m.exact_not_mem_capability
  · split at htail
    · next havailable =>
      rw [if_pos havailable]
      rw [Reports.mem_log_bind] at htail
      rw [Reports.value_bind]
      rcases htail with hpush | hreport
      · exact absurd hpush m.exact_not_mem_push
      · simp only at hreport ⊢
        split at hreport
        · next hpushed =>
          rw [if_pos hpushed]
          exact m.push_accepted hpushed
        · simp at hreport
    · simp at htail

def finishDocument (fileName : String) (builder : UnitBuilder) (subject : Subject)
    (origins : List Provenance) : Mapped Unit :=
  Reports.report (.staged ⟨fileName, builder, subject, origins⟩)

end Mapping
end Boxferry.Quadlet.Export
