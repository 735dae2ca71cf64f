import Boxferry.Library.Reports
import Boxferry.Podman.Import.Observations

/-! # Podman import decisions

The decisions an import records, the diagnostics they carry, and the gates that
let an observed value through. A gate records its decision whether or not the
value passes; a value that passes has the origin the gate asks for. -/
namespace Boxferry.Podman.Import
open Engine Model
set_option autoImplicit false

namespace Codes

def unsupported : DiagnosticCode := ⟨"BFP0002", by decide⟩
def invalid : DiagnosticCode := ⟨"BFP0001", by decide⟩
def policy : DiagnosticCode := ⟨"BFP0003", by decide⟩
def reconstructed : DiagnosticCode := ⟨"BFP0009", by decide⟩
def identity : DiagnosticCode := ⟨"BFP0004", by decide⟩
def secret : DiagnosticCode := ⟨"BFP0005", by decide⟩

end Codes

def portableEffectiveSettingsFlag : String := "--promote-podman-portable-effective-settings"
def effectiveBindMountsFlag : String := "--promote-podman-effective-bind-mounts"
def namedVolumesFlag : String := "--promote-podman-effective-named-volumes"
def namedNetworksFlag : String := "--promote-podman-effective-named-networks"

/-! ## Subjects -/

/-- One step from a resource to a part of it: a field, a named entry, or a row. -/
inductive Segment where
  | field (name : String)
  | entry (name : String)
  | index (position : Nat)
deriving DecidableEq

def Segment.render : Segment → String
  | .field name | .entry name => "." ++ name
  | .index position => "[" ++ toString position ++ "]"

/-- What a decision is about. Parts of a resource are addressed below its native identity. -/
inductive Subject where
  | application
  | part (kind : ResourceKind) (identity : ResourceIdentity) (path : List Segment)
  | selected (identity : ResourceIdentity)
  | acquisition (code : FindingCode)
  | discovery (code : FindingCode)
  | creationEvidence
deriving DecidableEq

/-- The collection of the application that a native kind is reported under. -/
def collection : ResourceKind → String
  | .container => "services"
  | .image => "images"
  | .network => "networks"
  | .pod => "service_groups"
  | .secret => "secrets"
  | .volume => "volumes"

namespace Subject

def ofResource (identity : ResourceIdentity) : Subject := .part identity.kind identity []

def extend (subject : Subject) (segment : Segment) : Subject :=
  match subject with
  | .part kind identity path => .part kind identity (path ++ [segment])
  | other => other

def field (subject : Subject) (name : String) : Subject := subject.extend (.field name)
def entry (subject : Subject) (name : String) : Subject := subject.extend (.entry name)
def index (subject : Subject) (position : Nat) : Subject := subject.extend (.index position)

def render (library : NativeLibrary) : Subject → String
  | .application => "application"
  | .part kind identity path =>
    collection kind ++ "." ++ identity.shownName ++ String.join (path.map Segment.render)
  | .selected identity =>
    "podman.selected[" ++ toString (library.canonicalRank identity.kind) ++ "]." ++ identity.shownName
  | .acquisition code => "podman.acquisition." ++ library.codeText code
  | .discovery code => "podman.discovery." ++ library.codeText code
  | .creationEvidence => "podman.creation_evidence"

/-- The subject itself, or a part below it. -/
def Below (whole part : Subject) : Prop :=
  match whole, part with
  | .part kind identity path, .part otherKind otherIdentity otherPath =>
    kind = otherKind ∧ identity = otherIdentity ∧ path <+: otherPath
  | _, _ => whole = part

end Subject

/-! ## Events -/

/-- A finding as it is reported: the kind of its section, its place, and the finding. -/
structure LocatedFinding where
  sectionKind : ResourceKind
  state : Option ResourceObservationState
  finding : InventoryFinding
deriving DecidableEq

inductive Event where
  | exact (subject : Subject)
  | reconstructed (subject : Subject) (summary : String)
  | approximateWithFlag (subject : Subject) (summary flag : String)
  | partiallyRetainedHealthcheck (subject : Subject)
  | inferredOwnership (subject : Subject)
  | promotionRequired (subject : Subject) (summary : String)
  | promotionRequiredWithFlag (subject : Subject) (summary flag : String)
  | unsupported (subject : Subject) (summary : String)
  | unsupportedWithOrigin (subject : Subject) (summary : String) (origin : ObservationOrigin)
  | secretIncomplete (subject : Subject) (summary : String)
  | identityConflict (subject : Subject) (summary : String)
  | invalid (subject : Subject) (summary : String)
  | invalidObservation (subject : Subject) (summary : String)
  | nativeMappingLimitation (located : LocatedFinding) (subject : Subject)
      (summary remediation : String)
  | inventoryFinding (located : LocatedFinding)
  | nativeInventoryFindings (findings : List LocatedFinding)
  | discoveryFinding (finding : DiscoveryFinding)
  | nativeDiscoveryFinding (finding : DiscoveryFinding)
deriving DecidableEq

namespace Event

/-- The subjects that an event decides, with the kind of the decision. -/
def decisions : Event → List (Subject × ConversionKind)
  | .exact subject | .reconstructed subject _ => [(subject, .exact)]
  | .approximateWithFlag subject _ _ | .partiallyRetainedHealthcheck subject
  | .inferredOwnership subject => [(subject, .approximate)]
  | .promotionRequired subject _ | .promotionRequiredWithFlag subject _ _
  | .unsupported subject _ | .unsupportedWithOrigin subject _ _ | .secretIncomplete subject _
  | .nativeMappingLimitation _ subject _ _ => [(subject, .unsupported)]
  | .identityConflict subject _ | .invalid subject _ | .invalidObservation subject _ =>
    [(subject, .invalid)]
  | .inventoryFinding located => [(.acquisition located.finding.code, .invalid)]
  | .nativeInventoryFindings findings =>
    findings.map fun located =>
      (.acquisition ((findings.head?.getD located).finding.code), .unsupported)
  | .discoveryFinding finding => [(.discovery finding.code, .invalid)]
  | .nativeDiscoveryFinding finding => [(.discovery finding.code, .unsupported)]

/-- The severity of the diagnostic that comes with an event, if one does. -/
def severity? : Event → Option Severity
  | .exact _ | .nativeInventoryFindings [] => none
  | .reconstructed _ _ => some .note
  | .identityConflict _ _ | .invalid _ _ | .invalidObservation _ _ | .inventoryFinding _
  | .discoveryFinding _ => some .error
  | _ => some .warning

/-- The stable code of the diagnostic, and of the losses it explains. -/
def code : Event → DiagnosticCode
  | .reconstructed _ _ => Codes.reconstructed
  | .approximateWithFlag _ _ _ | .partiallyRetainedHealthcheck _ | .inferredOwnership _
  | .promotionRequired _ _ | .promotionRequiredWithFlag _ _ _ => Codes.policy
  | .secretIncomplete _ _ => Codes.secret
  | .identityConflict _ _ => Codes.identity
  | .invalid _ _ | .invalidObservation _ _ | .inventoryFinding _ | .discoveryFinding _ =>
    Codes.invalid
  | _ => Codes.unsupported

/-- An event whose diagnostic has error severity. -/
def isError (event : Event) : Bool := event.severity? = some .error

/-- The event decides the subject or a part of it as other than exact. -/
def Loses (event : Event) (subject : Subject) : Prop :=
  ∃ decision ∈ event.decisions, subject.Below decision.1 ∧ decision.2 ≠ .exact

end Event

/-! ## Provenance -/

def sourceId : SourceId := ⟨"podman", by decide⟩

def origin : Provenance := ⟨.runtimeObservation, sourceId, none⟩

def decisionOrigin : Provenance := ⟨.conversionDecision, sourceId, none⟩

def sourced {α : Type} (value : α) : Sourced α := ⟨value, [origin]⟩

def decisionSourced {α : Type} (value : α) : Sourced α := ⟨value, [origin, decisionOrigin]⟩

def portableSourced {α : Type} (value : α) (promoted : Bool) : Sourced α :=
  if promoted then decisionSourced value else sourced value

@[simp] theorem value_sourced {α : Type} (value : α) : (sourced value).value = value := rfl

@[simp] theorem value_decisionSourced {α : Type} (value : α) :
    (decisionSourced value).value = value := rfl

@[simp] theorem value_portableSourced {α : Type} (value : α) (promoted : Bool) :
    (portableSourced value promoted).value = value := by
  cases promoted <;> rfl

/-! ## Diagnostics -/

section Diagnostics
variable (library : NativeLibrary)

def resourceKindName : ResourceKind → String
  | .container => "container"
  | .image => "image"
  | .network => "network"
  | .pod => "pod"
  | .secret => "secret"
  | .volume => "volume"

def resourceLocator (identity : ResourceIdentity) : String :=
  resourceKindName identity.kind ++ ":" ++ identity.shownName

def observationStateName : ResourceObservationState → String
  | .complete => "complete"
  | .unavailable => "unavailable"
  | .malformed => "malformed"
  | .unreviewed => "unknown"

def observationOriginName : ObservationOrigin → String
  | .configured => "configured"
  | .effective => "effective"
  | .runtimeAssigned => "runtime-assigned"
  | .localResolution => "local-resolution"
  | .unreviewed => "unknown"

def podmanNativeSummary (code : FindingCode) : String :=
  match code with
  | .unknownFieldOverflow =>
    "PodmanLens truncated its diagnostic list of unmapped field paths; mapped Podman observations were not discarded"
  | .nativeFieldUnsupported =>
    "PodmanLens found native response fields without typed portable mappings; path descriptors were retained without values"
  | .advisoryLabelIncomplete =>
    "optional Podman application-grouping labels are incomplete; affected resources remain ungrouped"
  | .advisoryLabelConflict =>
    "optional Podman application-grouping labels disagree; affected resources remain ungrouped"
  | code => library.codeMessage code

def discoveryResourceLocator (finding : DiscoveryFinding) : Option String :=
  match finding.resource, finding.selector with
  | some identity, _ => some (resourceLocator identity)
  | none, some (kind, reference) => some (resourceKindName kind ++ ":" ++ reference)
  | none, none => finding.labelSelector.map ("label:" ++ ·)

/-- The shown subject of an event; a finding shows the resource it is about. -/
def Event.shownSubject : Event → String
  | .exact subject | .reconstructed subject _ | .approximateWithFlag subject _ _
  | .partiallyRetainedHealthcheck subject | .inferredOwnership subject
  | .promotionRequired subject _ | .promotionRequiredWithFlag subject _ _ | .unsupported subject _
  | .unsupportedWithOrigin subject _ _ | .secretIncomplete subject _ | .identityConflict subject _
  | .invalid subject _ | .invalidObservation subject _ | .nativeMappingLimitation _ subject _ _ =>
    subject.render library
  | .inventoryFinding located =>
    (located.finding.resource.map resourceLocator).getD
      ("podman.inventory." ++ resourceKindName located.sectionKind)
  | .nativeInventoryFindings findings =>
    (findings.head?.map fun located => (located.finding.resource.map resourceLocator).getD
      ("podman.inventory." ++ resourceKindName located.sectionKind)).getD ""
  | .discoveryFinding finding | .nativeDiscoveryFinding finding =>
    (discoveryResourceLocator finding).getD "podman.discovery"

def Event.summary : Event → String
  | .exact _ => ""
  | .reconstructed _ summary | .approximateWithFlag _ summary _ | .promotionRequired _ summary
  | .promotionRequiredWithFlag _ summary _ | .unsupported _ summary
  | .unsupportedWithOrigin _ summary _ | .secretIncomplete _ summary | .identityConflict _ summary
  | .invalid _ summary | .invalidObservation _ summary
  | .nativeMappingLimitation _ _ summary _ => summary
  | .partiallyRetainedHealthcheck _ => "only part of the effective health behavior was retained"
  | .inferredOwnership _ =>
    "application-managed lifecycle inferred for a named Podman resource"
  | .inventoryFinding _ => "Podman source evidence is incomplete or malformed"
  | .nativeInventoryFindings findings =>
    (findings.head?.map fun located => podmanNativeSummary library located.finding.code).getD ""
  | .discoveryFinding _ => "Podman resource discovery is incomplete or ambiguous"
  | .nativeDiscoveryFinding _ => "PodmanLens retained a native discovery finding"

/-- The reason a diagnostic states; it is the summary unless the event has its own. -/
def Event.reason : Event → String
  | .reconstructed _ _ =>
    "reviewed effective snapshot retained without a known behavior change; original authored/default distinction is unavailable"
  | .inferredOwnership _ =>
    "effective use proves the named resource exists, not which application owns its lifecycle"
  | .inventoryFinding located => podmanNativeSummary library located.finding.code
  | .discoveryFinding finding | .nativeDiscoveryFinding finding =>
    podmanNativeSummary library finding.code
  | event => event.summary library

/-- What was decided, and the loss policy that releases it. -/
def Event.decisionFields : Event → List (String × String)
  | .exact _ => []
  | .reconstructed _ _ => [("decision", "reconstructed")]
  | .approximateWithFlag _ _ _ | .partiallyRetainedHealthcheck _ =>
    [("decision", "approximated"), ("required_loss_policy", "approximate")]
  | .inferredOwnership _ =>
    [("decision", "inferred-application-ownership"), ("required_loss_policy", "approximate")]
  | .promotionRequired _ _ | .promotionRequiredWithFlag _ _ _ =>
    [("decision", "not-promoted"), ("required_loss_policy", "partial")]
  | .unsupported _ _ | .unsupportedWithOrigin _ _ _ | .secretIncomplete _ _
  | .nativeMappingLimitation _ _ _ _ | .nativeInventoryFindings _ | .nativeDiscoveryFinding _ =>
    [("decision", "omitted"), ("required_loss_policy", "partial")]
  | .identityConflict _ _ | .invalid _ _ | .invalidObservation _ _ | .inventoryFinding _
  | .discoveryFinding _ => [("decision", "rejected")]

def authorSeparately : String :=
  "Author this field separately on the target; no automatic promotion exists."

/-- The promotion that is available and what to do about the decision. -/
def Event.adviceFields : Event → List (String × String)
  | .reconstructed _ _ =>
    [("observation_origin", "effective"), ("source_intent_certainty", "observed-state-only")]
  | .approximateWithFlag _ _ flag => [("available_promotion", flag), ("observation_origin", "effective"),
      ("remediation", "Review target prerequisites for the approximation authorized by " ++ flag ++ ".")]
  | .partiallyRetainedHealthcheck _ =>
    [("available_promotion", "none"), ("observation_origin", "effective"), ("remediation",
      "Review retained health fields against the target and repair or author omitted fields separately.")]
  | .inferredOwnership _ => [("available_promotion", "none"), ("remediation",
      "Confirm that the target should create and own this resource, or select an explicit external-resource boundary.")]
  | .promotionRequired _ _ => [("available_promotion", "none"), ("observation_origin", "effective"),
      ("remediation", authorSeparately)]
  | .promotionRequiredWithFlag _ _ flag =>
    [("available_promotion", flag), ("observation_origin", "effective"), ("remediation",
      "Review the observed intent and enable " ++ flag ++ " when it is valid for the target.")]
  | .unsupported _ _ => [("available_promotion", "none"), ("remediation", authorSeparately)]
  | .unsupportedWithOrigin _ _ origin => [("available_promotion", "none"),
      ("observation_origin", observationOriginName origin), ("remediation", authorSeparately)]
  | .nativeMappingLimitation _ _ _ remediation =>
    [("available_promotion", "none"), ("remediation", remediation)]
  | .secretIncomplete _ _ | .nativeInventoryFindings _ | .nativeDiscoveryFinding _ =>
    [("available_promotion", "none")]
  | _ => []

/-- The diagnostic of an event. Native records and their path samples are left out. -/
def Event.diagnostic? (event : Event) : Option Diagnostic :=
  event.severity?.map fun severity =>
    ⟨event.code, severity, event.summary library,
      ([("subject", event.shownSubject library), ("reason", event.reason library)] ++
        event.decisionFields ++ event.adviceFields).map fun field => ⟨field.1, .plain field.2⟩⟩

/-- A reconstruction is also a decision of the conversion. -/
def Event.origins : Event → List Provenance
  | .reconstructed _ _ => [origin, decisionOrigin]
  | _ => [origin]

def Event.outcomes (event : Event) : List ConversionOutcome :=
  event.decisions.map fun (subject, kind) =>
    if h : kind = .exact then
      ⟨subject.render library, kind, none, event.origins, by simp [h]⟩
    else ⟨subject.render library, kind, some event.code, event.origins, by simp [h]⟩

end Diagnostics

/-! ## Reports -/

abbrev Imported (α : Type) : Type := Reports Event α

def exact (subject : Subject) : Imported Unit := Reports.report (.exact subject)

def unsupported (subject : Subject) (summary : String) : Imported Unit :=
  Reports.report (.unsupported subject summary)

def invalid (subject : Subject) (summary : String) : Imported Unit :=
  Reports.report (.invalid subject summary)

def identityConflict (subject : Subject) (summary : String) : Imported Unit :=
  Reports.report (.identityConflict subject summary)

def reconstructed (subject : Subject) (summary : String) : Imported Unit :=
  Reports.report (.reconstructed subject summary)

def approximateWithFlag (subject : Subject) (summary flag : String) : Imported Unit :=
  Reports.report (.approximateWithFlag subject summary flag)

def promotionRequired (subject : Subject) (summary : String) : Imported Unit :=
  Reports.report (.promotionRequired subject summary)

def promotionRequiredWithFlag (subject : Subject) (summary flag : String) : Imported Unit :=
  Reports.report (.promotionRequiredWithFlag subject summary flag)

/-- Evidence that never becomes intent counts as exactly reported. -/
def evidenceOnly (subject : Subject) : Imported Unit := exact subject

def modelError (subject : Subject) (error : ModelError) : Imported Unit :=
  match error with
  | .duplicateResource _ _ | .duplicateServiceGroupMember _ _ | .unknownServiceGroupMember _ _
  | .serviceInMultipleGroups _ _ _ =>
    identityConflict subject "native identities or references conflict in the neutral namespace"
  | _ => invalid subject "native value cannot be represented safely in neutral model"

/-! ## Gates -/

namespace ObservationField
variable {α : Type}

/-- The value of a field that is observed as configured. -/
def configured? (field : ObservationField α) : Option α :=
  field.observed?.bind fun observation =>
    if observation.origin = .configured then some observation.value else none

/-- The value of a field that may become intent, and whether it is promoted to it. -/
def portable? (field : ObservationField α) (authorized : Bool) : Option (α × Bool) :=
  field.observed?.bind fun observation =>
    if observation.origin = .configured then some (observation.value, false)
    else if observation.origin = .effective ∧ authorized = true then some (observation.value, true)
    else none

/-- The value of a field that is observed as effective. -/
def effective? (field : ObservationField α) : Option α :=
  field.observed?.bind fun observation =>
    if observation.origin = .effective then some observation.value else none

end ObservationField

section Gates
variable {α : Type}

/-- The decision about an observed value that does not become intent. -/
def reportOrigin (subject : Subject) (origin : ObservationOrigin) : Imported Unit :=
  match origin with
  | .configured => exact subject
  | .effective =>
    promotionRequired subject "effective observation requires explicit field-specific promotion"
  | .runtimeAssigned | .localResolution => evidenceOnly subject
  | .unreviewed =>
    unsupported subject "future observation origin is not reviewed for promotion"

def reportState (field : ObservationField α) (subject : Subject) : Imported Unit :=
  match field with
  | .absent | .notApplicable => exact subject
  | .versionInapplicable =>
    unsupported subject "native field is version-inapplicable for the inspected Podman version"
  | .observed observation => reportOrigin subject observation.origin
  | .unavailable => invalid subject "native observation is unavailable"
  | .malformed => invalid subject "native observation is malformed"
  | .unmodelled => unsupported subject "native field is retained only as bounded metadata"
  | .unreviewed => unsupported subject "future native field state is not reviewed"

def observationOnly (subject : Subject) (field : ObservationField α) (reason : String) :
    Imported Unit :=
  match field with
  | .observed observation =>
    match observation.origin with
    | .configured => Reports.report (.unsupportedWithOrigin subject reason .configured)
    | .effective => promotionRequired subject reason
    | .runtimeAssigned | .localResolution => evidenceOnly subject
    | .unreviewed => unsupported subject "future observation origin is not reviewed"
  | field => reportState field subject

/-- Only configured values pass. -/
def configured (field : ObservationField α) (subject : Subject) : Imported (Option α) := do
  reportState field subject
  pure field.configured?

/-- Configured values pass as they are, effective ones as promoted when they are authorized. -/
def portableSetting (field : ObservationField α) (subject : Subject) (authorized : Bool)
    (effectiveReason : String) : Imported (Option (α × Bool)) :=
  match field with
  | .observed observation =>
    match observation.origin with
    | .configured => do
      exact subject
      pure (some (observation.value, false))
    | .effective =>
      if authorized then pure (some (observation.value, true))
      else do
        promotionRequiredWithFlag subject effectiveReason portableEffectiveSettingsFlag
        pure none
    | .runtimeAssigned | .localResolution => do
      evidenceOnly subject
      pure none
    | .unreviewed => do
      unsupported subject "future observation origin is not reviewed for portable promotion"
      pure none
  | field => do
    reportState field subject
    pure none

/-- Configured values pass unless they are rejected for a stated reason. -/
def configuredUnless (field : ObservationField α) (subject : Subject) (reject : α → Bool)
    (reason : String) : Imported (Option α) :=
  match field with
  | .observed observation =>
    if observation.origin = .configured ∧ reject observation.value = true then do
      Reports.report (.unsupportedWithOrigin subject reason .configured)
      pure none
    else configured field subject
  | field => configured field subject

@[simp] theorem value_configured (field : ObservationField α) (subject : Subject) :
    (configured field subject).value = field.configured? := rfl

@[simp] theorem value_portableSetting (field : ObservationField α) (subject : Subject)
    (authorized : Bool) (effectiveReason : String) :
    (portableSetting field subject authorized effectiveReason).value = field.portable? authorized := by
  cases field with
  | observed observation =>
    obtain ⟨origin, value⟩ := observation
    cases origin <;> cases authorized <;> rfl
  | _ => rfl

@[simp] theorem value_configuredUnless (field : ObservationField α) (subject : Subject)
    (reject : α → Bool) (reason : String) :
    (configuredUnless field subject reject reason).value =
      field.configured?.filter fun value => !reject value := by
  cases field with
  | observed observation =>
    obtain ⟨origin, value⟩ := observation
    cases origin <;> cases hreject : reject value <;>
      simp [configuredUnless, ObservationField.configured?, Option.filter_some, hreject]
  | _ => rfl

end Gates

end Boxferry.Podman.Import
