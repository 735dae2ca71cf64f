import Boxferry.Cli.ConversionReport

/-! # The limits of a report

Collections and texts are cut to their limits, in every depth, and every cut is recorded under
the name of its field. -/
namespace Boxferry.Cli
set_option autoImplicit false

/-- A step that cuts, over the records of what was cut. -/
abbrev Limiting (α : Type) : Type := StateM (List Truncation) α

def record (field : String) (original retained : Nat) : Limiting PUnit :=
  modify fun truncations => recordTruncation truncations field original retained

def truncateCollection {α : Type} (values : List α) (field : String) : Limiting (List α) := do
  if values.length > maxCollectionItems then
    record field values.length maxCollectionItems
    return values.take maxCollectionItems
  else return values

/-- Goes down from the offset to a character boundary. -/
def floorBoundary (chars : List Char) : Nat → Nat
  | 0 => 0
  | offset + 1 => if Utf8Text.isCharBoundary chars (offset + 1) then offset + 1 else floorBoundary chars offset

def truncateText (value : String) (field : String) : Limiting String := do
  if value.utf8ByteSize ≤ maxTextBytes then return value
  else
    let retained := floorBoundary value.toList maxTextBytes
    record field value.utf8ByteSize retained
    return String.ofList (Utf8Text.upTo retained value.toList)

def truncateOptionalText (value : Option String) (field : String) : Limiting (Option String) :=
  match value with
  | none => return none
  | some value => do return some (← truncateText value field)

/-! ## The parts of a report -/

def FixFirst.truncate (fixFirst : FixFirst) : Limiting FixFirst := do
  let code ← truncateText fixFirst.code "fix_first.code"
  let name ← truncateText fixFirst.name "fix_first.name"
  let description ← truncateText fixFirst.description "fix_first.description"
  let help ← truncateText fixFirst.help "fix_first.help"
  let nextStep ← truncateText fixFirst.nextStep "fix_first.next_step"
  return ⟨code, name, description, help, nextStep⟩

def ReportInput.truncate (input : ReportInput) : Limiting ReportInput := do
  let aliasName ← truncateText input.aliasName "inputs.alias"
  let kind ← truncateText input.kind "inputs.kind"
  return ⟨aliasName, kind⟩

def DiscoveryDecision.truncate (discovery : DiscoveryDecision) : Limiting DiscoveryDecision := do
  let selected ← truncateText discovery.selected "discovery.selected"
  let ignored ← truncateCollection discovery.ignored "discovery.ignored"
  let ignored ← ignored.mapM (truncateText · "discovery.ignored")
  return ⟨selected, ignored⟩

def ReportChoice.truncate (choice : ReportChoice) : Limiting ReportChoice := do
  let name ← truncateText choice.name "choices.name"
  let value ← truncateText choice.value "choices.value"
  return ⟨name, value⟩

def OutputArtifact.truncate (artifact : OutputArtifact) : Limiting OutputArtifact := do
  let name ← truncateText artifact.name "output_artifacts.name"
  return { artifact with name := name }

def BundleMember.truncate (member : BundleMember) : Limiting BundleMember := do
  let transport ← truncateText member.transport "bundle_members.transport"
  let name ← truncateText member.name "bundle_members.name"
  let unitType ← truncateText member.unitType "bundle_members.unit_type"
  return { member with transport := transport, name := name, unitType := unitType }

def InputBundleMember.truncate (member : InputBundleMember) : Limiting InputBundleMember := do
  let transportAlias ← truncateText member.transportAlias "input_bundle_members.transport_alias"
  let memberAlias ← truncateText member.memberAlias "input_bundle_members.member_alias"
  return ⟨transportAlias, memberAlias⟩

/-- A field of a diagnostic or of its native finding, under the name of the collection. -/
def ReportField.truncate (names : String × String) (field : ReportField) : Limiting ReportField := do
  let name ← truncateText field.name names.1
  let value ← truncateText field.value names.2
  return ⟨name, value⟩

def ReportSpan.truncate (span : ReportSpan) : Limiting ReportSpan := do
  let source ← truncateText span.source "diagnostics.spans.source"
  return { span with source := source }

def ReportNativeLabel.truncate (label : ReportNativeLabel) : Limiting ReportNativeLabel := do
  let kind ← truncateText label.kind "diagnostics.native_finding.labels.kind"
  let source ← truncateText label.source "diagnostics.native_finding.labels.source"
  let message ← truncateText label.message "diagnostics.native_finding.labels.message"
  return { label with kind := kind, source := source, message := message }

def truncateNativeFinding (native : ReportNativeFinding) : Limiting ReportNativeFinding := do
  let sourceFormat ← truncateText native.sourceFormat "diagnostics.native_finding.source_format"
  let producer ← truncateText native.producer "diagnostics.native_finding.producer"
  let producerVersion ← truncateOptionalText native.producerVersion "diagnostics.native_finding.producer_version"
  let code ← truncateText native.code "diagnostics.native_finding.code"
  let stage ← truncateText native.stage "diagnostics.native_finding.stage"
  let severity ← truncateText native.severity "diagnostics.native_finding.severity"
  let summary ← truncateText native.summary "diagnostics.native_finding.summary"
  let help ← truncateOptionalText native.help "diagnostics.native_finding.help"
  let fields ← truncateCollection native.fields "diagnostics.native_finding.fields"
  let labels ← truncateCollection native.labels "diagnostics.native_finding.labels"
  let notes ← truncateCollection native.notes "diagnostics.native_finding.notes"
  let fields ← fields.mapM (ReportField.truncate
    ("diagnostics.native_finding.fields.name", "diagnostics.native_finding.fields.value"))
  let labels ← labels.mapM ReportNativeLabel.truncate
  let notes ← notes.mapM (truncateText · "diagnostics.native_finding.notes")
  return ⟨sourceFormat, producer, producerVersion, code, stage, severity, summary, fields, labels, notes, help⟩

def ReportDiagnostic.truncate (diagnostic : ReportDiagnostic) : Limiting ReportDiagnostic := do
  let fields ← truncateCollection diagnostic.fields "diagnostics.fields"
  let spans ← truncateCollection diagnostic.spans "diagnostics.spans"
  let code ← truncateText diagnostic.code "diagnostics.code"
  let name ← truncateText diagnostic.name "diagnostics.name"
  let sourceCode ← truncateOptionalText diagnostic.sourceCode "diagnostics.source_code"
  let severity ← truncateText diagnostic.severity "diagnostics.severity"
  let summary ← truncateText diagnostic.summary "diagnostics.summary"
  let help ← truncateText diagnostic.help "diagnostics.help"
  let fields ← fields.mapM (ReportField.truncate ("diagnostics.fields.name", "diagnostics.fields.value"))
  let spans ← spans.mapM ReportSpan.truncate
  let nativeFinding ← diagnostic.nativeFinding.mapM truncateNativeFinding
  return ⟨code, name, sourceCode, severity, summary, help, fields, spans, nativeFinding⟩

def truncateDiagnostics (diagnostics : List ReportDiagnostic) : Limiting (List ReportDiagnostic) :=
  diagnostics.mapM ReportDiagnostic.truncate

/-! ## Whole reports -/

/-- The collections of the report itself, before any text is cut. -/
def ConversionReport.truncateCollections (report : ConversionReport) : Limiting ConversionReport := do
  let inputs ← truncateCollection report.inputs "inputs"
  let discovery ← truncateCollection report.discovery "discovery"
  let choices ← truncateCollection report.choices "choices"
  let optionNames ← truncateCollection report.invocation.providedOptionNames "invocation.provided_option_names"
  let diagnostics ← truncateCollection report.diagnostics "diagnostics"
  let events ← truncateCollection report.events "events"
  let outputArtifacts ← truncateCollection report.outputArtifacts "output_artifacts"
  let classes ← truncateCollection report.redaction.classes "redaction.classes"
  return { report with
    inputs := inputs
    discovery := discovery
    choices := choices
    invocation := { report.invocation with providedOptionNames := optionNames }
    diagnostics := diagnostics
    events := events
    outputArtifacts := outputArtifacts
    redaction := { report.redaction with classes := classes } }

/-- The texts of the report, and the collections within its collections. -/
def ConversionReport.truncateContents (report : ConversionReport) : Limiting ConversionReport := do
  let boxferryVersion ← truncateText report.boxferryVersion "boxferry_version"
  let sourceType ← truncateText report.sourceType "source_type"
  let targetType ← truncateText report.targetType "target_type"
  let primaryDiagnosticCode ← truncateOptionalText report.primaryDiagnosticCode "primary_diagnostic_code"
  let failureSummary ← truncateOptionalText report.failureSummary "failure_summary"
  let fixFirst ← report.fixFirst.mapM FixFirst.truncate
  let application ← truncateOptionalText report.application "application"
  let requestedMinimum ← truncateText report.requestedVersions.minimum "requested_versions.minimum"
  let requestedMaximum ← truncateText report.requestedVersions.maximum "requested_versions.maximum"
  let resolvedMinimum ← truncateText report.resolvedVersions.minimum "resolved_versions.minimum"
  let resolvedMaximum ← truncateText report.resolvedVersions.maximum "resolved_versions.maximum"
  let inputs ← report.inputs.mapM ReportInput.truncate
  let discovery ← report.discovery.mapM DiscoveryDecision.truncate
  let choices ← report.choices.mapM ReportChoice.truncate
  let commandKind ← truncateText report.invocation.commandKind "invocation.command_kind"
  let optionNames ← report.invocation.providedOptionNames.mapM
    (truncateText · "invocation.provided_option_names")
  let osFamily ← truncateText report.host.osFamily "host.os_family"
  let architecture ← truncateText report.host.architecture "host.architecture"
  let diagnostics ← truncateDiagnostics report.diagnostics
  let events ← report.events.mapM (truncateText · "events")
  let outputArtifacts ← report.outputArtifacts.mapM OutputArtifact.truncate
  let classes ← report.redaction.classes.mapM (truncateText · "redaction.classes")
  return { report with
    boxferryVersion := boxferryVersion
    sourceType := sourceType
    targetType := targetType
    primaryDiagnosticCode := primaryDiagnosticCode
    failureSummary := failureSummary
    fixFirst := fixFirst
    application := application
    requestedVersions := ⟨requestedMinimum, requestedMaximum⟩
    resolvedVersions := ⟨resolvedMinimum, resolvedMaximum⟩
    inputs := inputs
    discovery := discovery
    choices := choices
    invocation := ⟨commandKind, optionNames⟩
    host := ⟨osFamily, architecture⟩
    diagnostics := diagnostics
    events := events
    outputArtifacts := outputArtifacts
    redaction := { report.redaction with classes := classes } }

/-- The record cut to the limits itself, which is not recorded. -/
def truncateRecords : Limiting PUnit := modify fun truncations => (truncateCollection truncations "truncations" []).1

def truncateRecordFields : Limiting PUnit := modify fun truncations => truncations.map fun truncation =>
  { truncation with field := (truncateText truncation.field "truncations.field" []).1 }

def ConversionReport.limit (report : ConversionReport) : Limiting ConversionReport := do
  let report ← report.truncateCollections
  truncateRecords
  let report ← report.truncateContents
  truncateRecordFields
  return report

def ConversionReport.enforceV1Limits (report : ConversionReport) : ConversionReport :=
  let (limited, truncations) := report.limit report.truncations
  { limited with truncations := truncations }

/-- What the envelope adds to the conversion. -/
def InvocationReport.truncateTransport (report : InvocationReport) : Limiting InvocationReport := do
  let bundleMembers ← truncateCollection report.bundleMembers "bundle_members"
  let inputBundleMembers ← truncateCollection report.inputBundleMembers "input_bundle_members"
  let operation ← truncateText report.operation "operation"
  let bundleMembers ← bundleMembers.mapM BundleMember.truncate
  let inputBundleMembers ← inputBundleMembers.mapM InputBundleMember.truncate
  return { report with
    operation := operation
    bundleMembers := bundleMembers
    inputBundleMembers := inputBundleMembers }

def InvocationReport.limit (report : InvocationReport) : Limiting InvocationReport := do
  let report ← report.truncateTransport
  truncateRecords
  return report

def InvocationReport.enforceV1Limits (report : InvocationReport) : InvocationReport :=
  let conversion := report.conversion.enforceV1Limits
  let (limited, truncations) := report.limit conversion.truncations
  { limited with conversion := { conversion with truncations := truncations } }

/-! ## What the limits make of a report

The report with every collection and every text cut, and the sizes of its fields before and
after. The steps give that report, and record the fields whose size exceeds its limit. -/

/-! ## Sizes -/

inductive SizeUnit where
  | items
  | bytes
deriving DecidableEq

def SizeUnit.limit : SizeUnit → Nat
  | items => maxCollectionItems
  | bytes => maxTextBytes

/-- The longest beginning within the limit. -/
def limitText (value : String) : String := String.ofList (Utf8Text.upTo maxTextBytes value.toList)

/-- One value of a field: a collection of so many elements, or a text. -/
inductive Sized where
  | items (field : String) (count : Nat)
  | text (field value : String)
deriving DecidableEq

namespace Sized

def field : Sized → String
  | items field _ | text field _ => field

def unit : Sized → SizeUnit
  | items _ _ => .items
  | text _ _ => .bytes

def original : Sized → Nat
  | items _ count => count
  | text _ value => value.utf8ByteSize

/-- The size that is kept. -/
def retained : Sized → Nat
  | items _ count => min count maxCollectionItems
  | text _ value => (limitText value).utf8ByteSize

/-- The value is cut. -/
def exceeds (sized : Sized) : Bool := sized.unit.limit < sized.original

def record (truncations : List Truncation) (sized : Sized) : List Truncation :=
  recordTruncation truncations sized.field sized.original sized.retained

end Sized

def collectionSize {α : Type} (values : List α) (field : String) : List Sized := [.items field values.length]

def textSize (value : String) (field : String) : List Sized := [.text field value]

def optionalSize (value : Option String) (field : String) : List Sized := value.elim [] (textSize · field)

/-- The first elements within the limit. -/
def keptItems {α : Type} (values : List α) : List α := values.take maxCollectionItems

/-! ## The parts of a report, limited, and the sizes of their fields -/

def FixFirst.limited (fixFirst : FixFirst) : FixFirst :=
  ⟨limitText fixFirst.code, limitText fixFirst.name, limitText fixFirst.description, limitText fixFirst.help,
    limitText fixFirst.nextStep⟩

def FixFirst.sizes (fixFirst : FixFirst) : List Sized :=
  [textSize fixFirst.code "fix_first.code", textSize fixFirst.name "fix_first.name",
    textSize fixFirst.description "fix_first.description", textSize fixFirst.help "fix_first.help",
    textSize fixFirst.nextStep "fix_first.next_step"].flatten

def ReportInput.limited (input : ReportInput) : ReportInput := ⟨limitText input.aliasName, limitText input.kind⟩

def ReportInput.sizes (input : ReportInput) : List Sized :=
  [textSize input.aliasName "inputs.alias", textSize input.kind "inputs.kind"].flatten

def DiscoveryDecision.limited (discovery : DiscoveryDecision) : DiscoveryDecision :=
  ⟨limitText discovery.selected, (keptItems discovery.ignored).map limitText⟩

def DiscoveryDecision.sizes (discovery : DiscoveryDecision) : List Sized :=
  [textSize discovery.selected "discovery.selected", collectionSize discovery.ignored "discovery.ignored",
    (keptItems discovery.ignored).flatMap (textSize · "discovery.ignored")].flatten

def ReportChoice.limited (choice : ReportChoice) : ReportChoice := ⟨limitText choice.name, limitText choice.value⟩

def ReportChoice.sizes (choice : ReportChoice) : List Sized :=
  [textSize choice.name "choices.name", textSize choice.value "choices.value"].flatten

def OutputArtifact.limited (artifact : OutputArtifact) : OutputArtifact :=
  { artifact with name := limitText artifact.name }

def OutputArtifact.sizes (artifact : OutputArtifact) : List Sized :=
  [textSize artifact.name "output_artifacts.name"].flatten

def BundleMember.limited (member : BundleMember) : BundleMember :=
  { member with
    transport := limitText member.transport
    name := limitText member.name
    unitType := limitText member.unitType }

def BundleMember.sizes (member : BundleMember) : List Sized :=
  [textSize member.transport "bundle_members.transport", textSize member.name "bundle_members.name",
    textSize member.unitType "bundle_members.unit_type"].flatten

def InputBundleMember.limited (member : InputBundleMember) : InputBundleMember :=
  ⟨limitText member.transportAlias, limitText member.memberAlias⟩

def InputBundleMember.sizes (member : InputBundleMember) : List Sized :=
  [textSize member.transportAlias "input_bundle_members.transport_alias",
    textSize member.memberAlias "input_bundle_members.member_alias"].flatten

def ReportField.limited (field : ReportField) : ReportField := ⟨limitText field.name, limitText field.value⟩

def ReportField.sizes (names : String × String) (field : ReportField) : List Sized :=
  [textSize field.name names.1, textSize field.value names.2].flatten

def ReportSpan.limited (span : ReportSpan) : ReportSpan := { span with source := limitText span.source }

def ReportSpan.sizes (span : ReportSpan) : List Sized := [textSize span.source "diagnostics.spans.source"].flatten

def ReportNativeLabel.limited (label : ReportNativeLabel) : ReportNativeLabel :=
  { label with kind := limitText label.kind, source := limitText label.source, message := limitText label.message }

def ReportNativeLabel.sizes (label : ReportNativeLabel) : List Sized :=
  [textSize label.kind "diagnostics.native_finding.labels.kind",
    textSize label.source "diagnostics.native_finding.labels.source",
    textSize label.message "diagnostics.native_finding.labels.message"].flatten

def ReportNativeFinding.limited (native : ReportNativeFinding) : ReportNativeFinding where
  sourceFormat := limitText native.sourceFormat
  producer := limitText native.producer
  producerVersion := native.producerVersion.map limitText
  code := limitText native.code
  stage := limitText native.stage
  severity := limitText native.severity
  summary := limitText native.summary
  fields := (keptItems native.fields).map ReportField.limited
  labels := (keptItems native.labels).map ReportNativeLabel.limited
  notes := (keptItems native.notes).map limitText
  help := native.help.map limitText

def ReportNativeFinding.sizes (native : ReportNativeFinding) : List Sized :=
  [textSize native.sourceFormat "diagnostics.native_finding.source_format",
    textSize native.producer "diagnostics.native_finding.producer",
    optionalSize native.producerVersion "diagnostics.native_finding.producer_version",
    textSize native.code "diagnostics.native_finding.code", textSize native.stage "diagnostics.native_finding.stage",
    textSize native.severity "diagnostics.native_finding.severity",
    textSize native.summary "diagnostics.native_finding.summary",
    optionalSize native.help "diagnostics.native_finding.help",
    collectionSize native.fields "diagnostics.native_finding.fields",
    collectionSize native.labels "diagnostics.native_finding.labels",
    collectionSize native.notes "diagnostics.native_finding.notes",
    (keptItems native.fields).flatMap (ReportField.sizes
      ("diagnostics.native_finding.fields.name", "diagnostics.native_finding.fields.value")),
    (keptItems native.labels).flatMap ReportNativeLabel.sizes,
    (keptItems native.notes).flatMap (textSize · "diagnostics.native_finding.notes")].flatten

def ReportDiagnostic.limited (diagnostic : ReportDiagnostic) : ReportDiagnostic where
  code := limitText diagnostic.code
  name := limitText diagnostic.name
  sourceCode := diagnostic.sourceCode.map limitText
  severity := limitText diagnostic.severity
  summary := limitText diagnostic.summary
  help := limitText diagnostic.help
  fields := (keptItems diagnostic.fields).map ReportField.limited
  spans := (keptItems diagnostic.spans).map ReportSpan.limited
  nativeFinding := diagnostic.nativeFinding.map ReportNativeFinding.limited

def ReportDiagnostic.sizes (diagnostic : ReportDiagnostic) : List Sized :=
  [collectionSize diagnostic.fields "diagnostics.fields", collectionSize diagnostic.spans "diagnostics.spans",
    textSize diagnostic.code "diagnostics.code", textSize diagnostic.name "diagnostics.name",
    optionalSize diagnostic.sourceCode "diagnostics.source_code",
    textSize diagnostic.severity "diagnostics.severity", textSize diagnostic.summary "diagnostics.summary",
    textSize diagnostic.help "diagnostics.help",
    (keptItems diagnostic.fields).flatMap
      (ReportField.sizes ("diagnostics.fields.name", "diagnostics.fields.value")),
    (keptItems diagnostic.spans).flatMap ReportSpan.sizes,
    diagnostic.nativeFinding.elim [] ReportNativeFinding.sizes].flatten

/-- The report limited in every depth; its record of what was cut is not touched. -/
def ConversionReport.limited (report : ConversionReport) : ConversionReport :=
  { report with
    boxferryVersion := limitText report.boxferryVersion
    sourceType := limitText report.sourceType
    targetType := limitText report.targetType
    primaryDiagnosticCode := report.primaryDiagnosticCode.map limitText
    failureSummary := report.failureSummary.map limitText
    fixFirst := report.fixFirst.map FixFirst.limited
    application := report.application.map limitText
    requestedVersions := ⟨limitText report.requestedVersions.minimum, limitText report.requestedVersions.maximum⟩
    resolvedVersions := ⟨limitText report.resolvedVersions.minimum, limitText report.resolvedVersions.maximum⟩
    inputs := (keptItems report.inputs).map ReportInput.limited
    discovery := (keptItems report.discovery).map DiscoveryDecision.limited
    choices := (keptItems report.choices).map ReportChoice.limited
    invocation := ⟨limitText report.invocation.commandKind,
      (keptItems report.invocation.providedOptionNames).map limitText⟩
    host := ⟨limitText report.host.osFamily, limitText report.host.architecture⟩
    diagnostics := (keptItems report.diagnostics).map ReportDiagnostic.limited
    events := (keptItems report.events).map limitText
    outputArtifacts := (keptItems report.outputArtifacts).map OutputArtifact.limited
    redaction := { report.redaction with classes := (keptItems report.redaction.classes).map limitText } }

def ConversionReport.collectionSizes (report : ConversionReport) : List Sized :=
  [collectionSize report.inputs "inputs", collectionSize report.discovery "discovery",
    collectionSize report.choices "choices",
    collectionSize report.invocation.providedOptionNames "invocation.provided_option_names",
    collectionSize report.diagnostics "diagnostics", collectionSize report.events "events",
    collectionSize report.outputArtifacts "output_artifacts",
    collectionSize report.redaction.classes "redaction.classes"].flatten

def ConversionReport.contentSizes (report : ConversionReport) : List Sized :=
  [textSize report.boxferryVersion "boxferry_version", textSize report.sourceType "source_type",
    textSize report.targetType "target_type",
    optionalSize report.primaryDiagnosticCode "primary_diagnostic_code",
    optionalSize report.failureSummary "failure_summary",
    report.fixFirst.elim [] FixFirst.sizes, optionalSize report.application "application",
    textSize report.requestedVersions.minimum "requested_versions.minimum",
    textSize report.requestedVersions.maximum "requested_versions.maximum",
    textSize report.resolvedVersions.minimum "resolved_versions.minimum",
    textSize report.resolvedVersions.maximum "resolved_versions.maximum",
    (keptItems report.inputs).flatMap ReportInput.sizes,
    (keptItems report.discovery).flatMap DiscoveryDecision.sizes,
    (keptItems report.choices).flatMap ReportChoice.sizes,
    textSize report.invocation.commandKind "invocation.command_kind",
    (keptItems report.invocation.providedOptionNames).flatMap (textSize · "invocation.provided_option_names"),
    textSize report.host.osFamily "host.os_family", textSize report.host.architecture "host.architecture",
    (keptItems report.diagnostics).flatMap ReportDiagnostic.sizes,
    (keptItems report.events).flatMap (textSize · "events"),
    (keptItems report.outputArtifacts).flatMap OutputArtifact.sizes,
    (keptItems report.redaction.classes).flatMap (textSize · "redaction.classes")].flatten

/-- The sizes of all the report's fields, within the elements that are kept. -/
def ConversionReport.sizes (report : ConversionReport) : List Sized := report.collectionSizes ++ report.contentSizes

def InvocationReport.limited (report : InvocationReport) : InvocationReport where
  conversion := report.conversion.limited
  operation := limitText report.operation
  bundleMembers := (keptItems report.bundleMembers).map BundleMember.limited
  inputBundleMembers := (keptItems report.inputBundleMembers).map InputBundleMember.limited

def InvocationReport.ownSizes (report : InvocationReport) : List Sized :=
  [collectionSize report.bundleMembers "bundle_members",
    collectionSize report.inputBundleMembers "input_bundle_members", textSize report.operation "operation",
    (keptItems report.bundleMembers).flatMap BundleMember.sizes,
    (keptItems report.inputBundleMembers).flatMap InputBundleMember.sizes].flatten

def InvocationReport.sizes (report : InvocationReport) : List Sized := report.conversion.sizes ++ report.ownSizes

/-! ## Texts and collections -/

variable {value field : String}

theorem utf8ByteSize_ofList (chars : List Char) : (String.ofList chars).utf8ByteSize = Utf8Text.size chars :=
  Utf8Text.length_bytes_ofList chars

theorem utf8ByteSize_toList (value : String) : value.utf8ByteSize = Utf8Text.size value.toList :=
  Utf8Text.length_bytes_toList value

theorem limitText_eq_self (h : value.utf8ByteSize ≤ maxTextBytes) : limitText value = value := by
  rw [utf8ByteSize_toList] at h
  rw [limitText, Utf8Text.upTo_eq_self h, String.ofList_toList]

@[simp] theorem utf8ByteSize_limitText_le (value : String) : (limitText value).utf8ByteSize ≤ maxTextBytes := by
  rw [limitText, utf8ByteSize_ofList]
  exact Utf8Text.size_upTo_le

/-- A cut text is a beginning of the text, cut between two characters. -/
theorem limitText_prefix (value : String) : (limitText value).toList <+: value.toList := by
  rw [limitText, String.toList_ofList]
  exact Utf8Text.upTo_prefix

theorem floorBoundary_eq (chars : List Char) (offset : Nat) :
    floorBoundary chars offset = Utf8Text.size (Utf8Text.upTo offset chars) := by
  induction offset with
  | zero => exact (Nat.le_zero.mp Utf8Text.size_upTo_le).symm
  | succ offset ih =>
    unfold floorBoundary Utf8Text.isCharBoundary
    by_cases hboundary : Utf8Text.size (Utf8Text.upTo (offset + 1) chars) = offset + 1
    · rw [if_pos (decide_eq_true hboundary), hboundary]
    · rw [if_neg fun h => hboundary (of_decide_eq_true h), ih, Utf8Text.upTo_succ hboundary]

/-! ## What steps record -/

variable {α β : Type}

/-- The step gives the value, and records those of the sizes that exceed their limit. -/
def Emits (step : Limiting α) (value : α) (sizes : List Sized) : Prop :=
  ∀ truncations, step truncations = (value, (sizes.filter Sized.exceeds).foldl Sized.record truncations)

theorem emits_pure (value : α) : Emits (pure value) value [] := fun _ => rfl

theorem Emits.bind {step : Limiting α} {next : α → Limiting β} {value : α} {last : β} {sizes rest : List Sized}
    (h : Emits step value sizes) (hnext : Emits (next value) last rest) :
    Emits (step >>= next) last (sizes ++ rest) := by
  intro truncations
  have hstep : (step >>= next) truncations = next (step truncations).1 (step truncations).2 := rfl
  rw [hstep, h truncations]
  dsimp only
  rw [hnext, List.filter_append, List.foldl_append]

/-- A last step that only builds a value records nothing. -/
theorem Emits.build {step : Limiting α} {value : α} {sizes : List Sized} (h : Emits step value sizes) (build : α → β) :
    Emits (do return build (← step)) (build value) sizes := by
  have hbuilt : Emits (do return build (← step)) (build value) (sizes ++ []) := h.bind (emits_pure (build value))
  rwa [List.append_nil] at hbuilt

theorem emits_truncateText (value field : String) :
    Emits (truncateText value field) (limitText value) (textSize value field) := by
  intro truncations
  unfold truncateText textSize
  by_cases hfits : value.utf8ByteSize ≤ maxTextBytes
  · have hkept : ¬ (Sized.text field value).exceeds :=
      fun h => Nat.not_lt.mpr hfits (of_decide_eq_true h)
    rw [if_pos hfits, List.filter_cons_of_neg hkept, limitText_eq_self hfits]
    rfl
  · have hcut : (Sized.text field value).exceeds := decide_eq_true (Nat.not_le.mp hfits)
    have hsize : floorBoundary value.toList maxTextBytes = (limitText value).utf8ByteSize := by
      rw [limitText, utf8ByteSize_ofList, floorBoundary_eq]
    have hvalue : String.ofList (Utf8Text.upTo (floorBoundary value.toList maxTextBytes) value.toList) =
        limitText value := by
      rw [floorBoundary_eq, Utf8Text.upTo_size_upTo]
      rfl
    rw [if_neg hfits, List.filter_cons_of_pos hcut, hvalue, hsize]
    rfl

theorem emits_truncateCollection (values : List α) (field : String) :
    Emits (truncateCollection values field) (keptItems values) (collectionSize values field) := by
  intro truncations
  unfold truncateCollection collectionSize keptItems
  by_cases hexceeds : values.length > maxCollectionItems
  · have hcut : (Sized.items field values.length).exceeds := decide_eq_true hexceeds
    have hretained : maxCollectionItems = (Sized.items field values.length).retained :=
      (Nat.min_eq_right (Nat.le_of_lt hexceeds)).symm
    rw [if_pos hexceeds, List.filter_cons_of_pos hcut]
    show (_, recordTruncation truncations field values.length maxCollectionItems) = _
    rw [hretained]
    rfl
  · have hkept : ¬ (Sized.items field values.length).exceeds := fun h => hexceeds (of_decide_eq_true h)
    rw [if_neg hexceeds, List.filter_cons_of_neg hkept, List.take_of_length_le (Nat.not_lt.mp hexceeds)]
    rfl

theorem emits_truncateOptionalText (value : Option String) (field : String) :
    Emits (truncateOptionalText value field) (value.map limitText) (optionalSize value field) := by
  cases value with
  | none => exact emits_pure none
  | some value => exact (emits_truncateText value field).build some

theorem emits_mapM {steps : α → Limiting β} {limit : α → β} {sizes : α → List Sized}
    (h : ∀ value, Emits (steps value) (limit value) (sizes value)) (values : List α) :
    Emits (values.mapM steps) (values.map limit) (values.flatMap sizes) := by
  induction values with
  | nil => exact emits_pure []
  | cons value values ih =>
    rw [List.mapM_cons, List.map_cons, List.flatMap_cons]
    exact (h value).bind (ih.build (limit value :: ·))

theorem emits_optionMapM {steps : α → Limiting β} {limit : α → β} {sizes : α → List Sized}
    (h : ∀ value, Emits (steps value) (limit value) (sizes value)) (value : Option α) :
    Emits (value.mapM steps) (value.map limit) (value.elim [] sizes) := by
  cases value with
  | none => exact emits_pure none
  | some value => exact (h value).build some

/-! ## The steps of the parts -/

theorem FixFirst.emits (fixFirst : FixFirst) :
    Emits fixFirst.truncate fixFirst.limited fixFirst.sizes :=
  (emits_truncateText _ _).bind ((emits_truncateText _ _).bind ((emits_truncateText _ _).bind (
    (emits_truncateText _ _).bind ((emits_truncateText _ _).bind (emits_pure _)))))

theorem ReportInput.emits (input : ReportInput) :
    Emits input.truncate input.limited input.sizes :=
  (emits_truncateText _ _).bind ((emits_truncateText _ _).bind (emits_pure _))

theorem DiscoveryDecision.emits (discovery : DiscoveryDecision) :
    Emits discovery.truncate discovery.limited discovery.sizes :=
  (emits_truncateText _ _).bind ((emits_truncateCollection _ _).bind (
    (emits_mapM (emits_truncateText · _) _).bind (emits_pure _)))

theorem ReportChoice.emits (choice : ReportChoice) :
    Emits choice.truncate choice.limited choice.sizes :=
  (emits_truncateText _ _).bind ((emits_truncateText _ _).bind (emits_pure _))

theorem OutputArtifact.emits (artifact : OutputArtifact) :
    Emits artifact.truncate artifact.limited artifact.sizes :=
  (emits_truncateText _ _).bind (emits_pure _)

theorem BundleMember.emits (member : BundleMember) :
    Emits member.truncate member.limited member.sizes :=
  (emits_truncateText _ _).bind ((emits_truncateText _ _).bind ((emits_truncateText _ _).bind (emits_pure _)))

theorem InputBundleMember.emits (member : InputBundleMember) :
    Emits member.truncate member.limited member.sizes :=
  (emits_truncateText _ _).bind ((emits_truncateText _ _).bind (emits_pure _))

theorem ReportField.emits (names : String × String) (field : ReportField) :
    Emits (field.truncate names) field.limited (field.sizes names) :=
  (emits_truncateText _ _).bind ((emits_truncateText _ _).bind (emits_pure _))

theorem ReportSpan.emits (span : ReportSpan) :
    Emits span.truncate span.limited span.sizes :=
  (emits_truncateText _ _).bind (emits_pure _)

theorem ReportNativeLabel.emits (label : ReportNativeLabel) :
    Emits label.truncate label.limited label.sizes :=
  (emits_truncateText _ _).bind ((emits_truncateText _ _).bind ((emits_truncateText _ _).bind (emits_pure _)))

theorem ReportNativeFinding.emits (native : ReportNativeFinding) :
    Emits (truncateNativeFinding native) native.limited native.sizes :=
  (emits_truncateText _ _).bind ((emits_truncateText _ _).bind ((emits_truncateOptionalText _ _).bind (
    (emits_truncateText _ _).bind ((emits_truncateText _ _).bind ((emits_truncateText _ _).bind (
    (emits_truncateText _ _).bind ((emits_truncateOptionalText _ _).bind ((emits_truncateCollection _ _).bind (
    (emits_truncateCollection _ _).bind ((emits_truncateCollection _ _).bind (
    (emits_mapM (ReportField.emits _) _).bind ((emits_mapM ReportNativeLabel.emits _).bind (
    (emits_mapM (emits_truncateText · _) _).bind (emits_pure _))))))))))))))

theorem ReportDiagnostic.emits (diagnostic : ReportDiagnostic) :
    Emits diagnostic.truncate diagnostic.limited diagnostic.sizes :=
  (emits_truncateCollection _ _).bind ((emits_truncateCollection _ _).bind ((emits_truncateText _ _).bind (
    (emits_truncateText _ _).bind ((emits_truncateOptionalText _ _).bind ((emits_truncateText _ _).bind (
    (emits_truncateText _ _).bind ((emits_truncateText _ _).bind ((emits_mapM (ReportField.emits _) _).bind (
    (emits_mapM ReportSpan.emits _).bind ((emits_optionMapM ReportNativeFinding.emits _).bind (
    emits_pure _)))))))))))

/-- The report with its own collections cut, and nothing else. -/
def ConversionReport.kept (report : ConversionReport) : ConversionReport :=
  { report with
    inputs := keptItems report.inputs
    discovery := keptItems report.discovery
    choices := keptItems report.choices
    invocation := { report.invocation with providedOptionNames := keptItems report.invocation.providedOptionNames }
    diagnostics := keptItems report.diagnostics
    events := keptItems report.events
    outputArtifacts := keptItems report.outputArtifacts
    redaction := { report.redaction with classes := keptItems report.redaction.classes } }

theorem ConversionReport.emits_collections (report : ConversionReport) :
    Emits report.truncateCollections report.kept report.collectionSizes :=
  (emits_truncateCollection _ _).bind ((emits_truncateCollection _ _).bind ((emits_truncateCollection _ _).bind (
    (emits_truncateCollection _ _).bind ((emits_truncateCollection _ _).bind (
    (emits_truncateCollection _ _).bind ((emits_truncateCollection _ _).bind (
    (emits_truncateCollection _ _).bind (emits_pure _))))))))

theorem ConversionReport.emits_contents (report : ConversionReport) :
    Emits report.kept.truncateContents report.limited report.contentSizes :=
  (emits_truncateText _ _).bind ((emits_truncateText _ _).bind ((emits_truncateText _ _).bind (
    (emits_truncateOptionalText _ _).bind ((emits_truncateOptionalText _ _).bind (
    (emits_optionMapM FixFirst.emits _).bind ((emits_truncateOptionalText _ _).bind (
    (emits_truncateText _ _).bind ((emits_truncateText _ _).bind ((emits_truncateText _ _).bind (
    (emits_truncateText _ _).bind ((emits_mapM ReportInput.emits _).bind (
    (emits_mapM DiscoveryDecision.emits _).bind ((emits_mapM ReportChoice.emits _).bind (
    (emits_truncateText _ _).bind ((emits_mapM (emits_truncateText · _) _).bind ((emits_truncateText _ _).bind (
    (emits_truncateText _ _).bind ((emits_mapM ReportDiagnostic.emits _).bind (
    (emits_mapM (emits_truncateText · _) _).bind ((emits_mapM OutputArtifact.emits _).bind (
    (emits_mapM (emits_truncateText · _) _).bind (emits_pure _))))))))))))))))))))))

theorem InvocationReport.emits_transport (report : InvocationReport) :
    Emits report.truncateTransport { report.limited with conversion := report.conversion } report.ownSizes :=
  (emits_truncateCollection _ _).bind ((emits_truncateCollection _ _).bind ((emits_truncateText _ _).bind (
    (emits_mapM BundleMember.emits _).bind ((emits_mapM InputBundleMember.emits _).bind (emits_pure _)))))

end Boxferry.Cli
