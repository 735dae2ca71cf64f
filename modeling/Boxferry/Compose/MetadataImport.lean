import Boxferry.Engine.Outcome
import Boxferry.Model.Application

/-! # Compose extension metadata

Import of root and direct-service vendor extensions through the merged native view,
and the report of the extensions that stand anywhere else. -/
namespace Boxferry.Compose
open Model Engine
set_option autoImplicit false

/-! ## The merged native view -/

/-- One byte range of a native source. -/
structure ComposeSpan where
  sourceId : Nat
  start : Nat
  «end» : Nat
deriving DecidableEq

structure MergeProvenance where
  sources : List ComposeSpan
  effectiveSource : Option ComposeSpan

inductive MergedScalarKind where
  | string
  | boolean
  | number
deriving DecidableEq

inductive ScalarPresentation where
  | folded
  | doubleQuoted
  | other
deriving DecidableEq

structure MergedScalar where
  kind : MergedScalarKind
  value : String
  isSensitive : Bool
  isStrictYamlString : Bool
  presentation : ScalarPresentation

mutual
inductive MergedValue where
  | mk (kind : MergedValueKind) (provenance : MergeProvenance)

/-- What a merged value is; tags and unresolved aliases are `other`. -/
inductive MergedValueKind where
  | null
  | scalar (scalar : MergedScalar)
  | sequence (values : List MergedValue)
  | mapping (entries : List MergedEntry)
  | other

inductive MergedEntry where
  | mk (key : String) (isStrictYamlString isKeySensitive : Bool) (keySources : List ComposeSpan)
    (value : MergedValue)
end

namespace MergedValue

def kind : MergedValue → MergedValueKind
  | .mk kind _ => kind

def provenance : MergedValue → MergeProvenance
  | .mk _ provenance => provenance

def asMapping (value : MergedValue) : Option (List MergedEntry) :=
  match value.kind with
  | .mapping entries => some entries
  | _ => none

end MergedValue

namespace MergedEntry

def key : MergedEntry → String
  | .mk key _ _ _ _ => key

def isStrictYamlString : MergedEntry → Bool
  | .mk _ strict _ _ _ => strict

def isKeySensitive : MergedEntry → Bool
  | .mk _ _ sensitive _ _ => sensitive

def keySources : MergedEntry → List ComposeSpan
  | .mk _ _ _ sources _ => sources

def value : MergedEntry → MergedValue
  | .mk _ _ _ _ value => value

end MergedEntry

/-- The value of the first entry with the key. -/
def MergedValue.get (value : MergedValue) (key : String) : Option MergedValue :=
  ((value.asMapping.getD []).find? fun entry => entry.key == key).map MergedEntry.value

/-! ## One import -/

/-- The import so far: what it reads, and what it has reported. -/
structure Mapping where
  unsupportedCode : DiagnosticCode
  root : MergedValue
  sourceIds : Nat → Option SourceId
  outcomes : List ConversionOutcome
  diagnostics : List Diagnostic

namespace Mapping

def sourceSpan (start last : Nat) : Option SourceSpan :=
  if h : start ≤ last then some ⟨start, last, h⟩ else none

def origin (mapping : Mapping) (span : ComposeSpan) : Option Provenance := do
  let sourceId ← mapping.sourceIds span.sourceId
  let range ← sourceSpan span.start span.end
  return .spanned sourceId range

def withOptionalOrigin (mapping : Mapping) (outcome : ConversionOutcome) (span : Option ComposeSpan) :
    ConversionOutcome :=
  match span.bind mapping.origin with
  | some origin => outcome.withOrigin origin
  | none => outcome

def withProvenance (mapping : Mapping) (outcome : ConversionOutcome) (provenance : MergeProvenance) :
    ConversionOutcome :=
  (provenance.sources.filterMap mapping.origin).foldl ConversionOutcome.withOrigin outcome

def sourcedProvenance {α : Type} (mapping : Mapping) (value : α) (provenance : MergeProvenance) : Sourced α :=
  (provenance.sources.filterMap mapping.origin).foldl Sourced.addOrigin (.generated value)

def addNewOrigin {α : Type} (sourced : Sourced α) (origin : Provenance) : Sourced α :=
  if origin ∈ sourced.origins then sourced else sourced.addOrigin origin

def sourcedSpans {α : Type} (mapping : Mapping) (value : α) (sourceSpans : List ComposeSpan) : Sourced α :=
  (sourceSpans.filterMap mapping.origin).foldl addNewOrigin (.generated value)

def exactProvenance (mapping : Mapping) (subject : String) (provenance : MergeProvenance) : Mapping :=
  { mapping with
    outcomes := mapping.outcomes ++ [mapping.withProvenance (.exact subject) provenance] }

def unsupportedDiagnostic (code : DiagnosticCode) (subject feature : String) : Diagnostic where
  code := code
  severity := .warning
  summary := "Compose intent is not represented by the current neutral-model subset"
  fields := [⟨"subject", .plain subject⟩, ⟨"feature", .plain feature⟩]

def unsupportedOptional (mapping : Mapping) (subject feature : String) (span : Option ComposeSpan) : Mapping :=
  let reported := { mapping with
    diagnostics := mapping.diagnostics ++ [unsupportedDiagnostic mapping.unsupportedCode subject feature] }
  match ConversionOutcome.loss subject .unsupported mapping.unsupportedCode with
  | .ok outcome =>
    { reported with outcomes := mapping.outcomes ++ [mapping.withOptionalOrigin outcome span] }
  | .error _ => reported

end Mapping

/-! ## Payloads -/

def protect (text : String) (sensitive : Bool) : ProtectedString :=
  if sensitive then .sensitive text else .plain text

def metadataScalar (scalar : MergedScalar) : Except String (MetadataValue × Bool) :=
  match scalar.kind with
  | .string =>
    if scalar.isStrictYamlString then
      .ok (.string (protect scalar.value scalar.isSensitive), scalar.presentation == .folded)
    else .error "metadata scalar is not a supported string, boolean or decimal number"
  | .boolean =>
    if scalar.value ∈ ["true", "True", "TRUE"] then .ok (.boolean true, false)
    else if scalar.value ∈ ["false", "False", "FALSE"] then .ok (.boolean false, false)
    else .error "metadata boolean spelling is unsupported; use true or false"
  | .number => .ok (.number (protect scalar.value scalar.isSensitive), false)

mutual
def metadataNode (mapping : Mapping) : MergedValue → Nat → Except String (Sourced MetadataNode)
  | .mk kind provenance, depth =>
    if metadataMaxDepth < depth then
      .error "metadata exceeds the supported depth; simplify the nested extension"
    else do
      let (value, sensitive, folded) ← metadataKind mapping kind depth
      match MetadataNode.new value sensitive folded with
      | .ok node => .ok (mapping.sourcedProvenance node provenance)
      | .error _ =>
        .error "metadata contains unsupported numbers, duplicate keys or exceeds supported bounds"

/-- The semantic value, whether the scalar is sensitive and whether it was folded. -/
def metadataKind (mapping : Mapping) : MergedValueKind → Nat → Except String (MetadataValue × Bool × Bool)
  | .null, _ => .ok (.null, false, false)
  | .scalar scalar, _ => do
    let (value, folded) ← metadataScalar scalar
    return (value, scalar.isSensitive, folded)
  | .sequence values, depth => do
    let nodes ← metadataNodes mapping values (depth + 1)
    return (.sequence nodes, false, false)
  | .mapping entries, depth => do
    let entries ← metadataEntries mapping entries (depth + 1)
    return (.mapping entries, false, false)
  | .other, _ =>
    .error "metadata tags or unresolved aliases are unsupported; use resolved ordinary YAML values"

def metadataNodes (mapping : Mapping) : List MergedValue → Nat → Except String (List (Sourced MetadataNode))
  | [], _ => .ok []
  | value :: rest, depth => do
    let node ← metadataNode mapping value depth
    let nodes ← metadataNodes mapping rest depth
    return node :: nodes

def metadataEntries (mapping : Mapping) : List MergedEntry → Nat → Except String (List Model.MetadataEntry)
  | [], _ => .ok []
  | .mk key strict sensitive sources value :: rest, depth => do
    if !strict then .error "metadata mapping keys must be YAML strings"
    let node ← metadataNode mapping value depth
    let entries ← metadataEntries mapping rest depth
    return .mk (mapping.sourcedSpans (protect key sensitive) sources) node :: entries
end

/-! ## Root and direct-service extensions -/

def isExtension (entry : MergedEntry) : Bool := startsWith entry.key "x-"

/-- The vendor metadata of one extension. -/
def vendorMetadata (mapping : Mapping) (scope : MetadataScope) (entry : MergedEntry) :
    Except String VendorMetadata :=
  if entry.isStrictYamlString then do
    let node ← metadataNode mapping entry.value 1
    match VendorMetadata.new scope
        (mapping.sourcedSpans (protect entry.key entry.isKeySensitive) entry.keySources) node with
    | .ok metadata => .ok metadata
    | .error _ => .error "metadata namespace or payload exceeds the neutral contract"
  else .error "metadata namespace must be a YAML string"

def addMetadata (application : Application) (metadata : VendorMetadata) : Except String Application :=
  match application.addVendorMetadata metadata with
  | .ok added => .ok added
  | .error _ => .error "metadata has a duplicate identity, absent owner or exceeds the aggregate limit"

/-- Imports one extension of a scope, or reports why it is left out. -/
def importEntry (scope : MetadataScope) (state : Mapping × Application) (entry : MergedEntry) :
    Mapping × Application :=
  let (mapping, application) := state
  let subject := "application.vendor_metadata[" ++ toString application.vendorMetadata.length ++ "]"
  match (vendorMetadata mapping scope entry).bind (addMetadata application) with
  | .ok added => (mapping.exactProvenance subject entry.value.provenance, added)
  | .error reason =>
    (mapping.unsupportedOptional subject reason entry.value.provenance.effectiveSource, application)

def importMetadataScope (state : Mapping × Application) (value : MergedValue) (scope : MetadataScope) :
    Mapping × Application :=
  ((value.asMapping.getD []).filter isExtension).foldl (importEntry scope) state

/-! ## Extensions anywhere else -/

inductive Location where
  | root
  | services
  | service
  | other
deriving DecidableEq

structure Traversal where
  /-- The values still to be visited, the next one first. -/
  stack : List (MergedValue × Location)
  index : Nat
  mapping : Mapping

def Traversal.push (traversal : Traversal) (value : MergedValue) (location : Location) : Traversal :=
  { traversal with stack := (value, location) :: traversal.stack }

def Traversal.report (traversal : Traversal) (entry : MergedEntry) : Traversal where
  stack := traversal.stack
  index := traversal.index + 1
  mapping := traversal.mapping.unsupportedOptional
    ("application.vendor_metadata.unsupported_scopes[" ++ toString traversal.index ++ "]")
    "unsupported vendor metadata scope; only application-root and direct-service extensions are retained"
    entry.value.provenance.effectiveSource

def isService (application : Application) (key : String) : Bool :=
  application.services.any fun service => service.value.name.asStr == key

def visitEntry (application : Application) (location : Location) (traversal : Traversal)
    (entry : MergedEntry) : Traversal :=
  if location = .services then
    if isService application entry.key then traversal.push entry.value .service else traversal
  else if isExtension entry then
    if location ≠ .root ∧ location ≠ .service then traversal.report entry else traversal
  else
    traversal.push entry.value (if location = .root ∧ entry.key = "services" then .services else .other)

def visitValue (application : Application) (traversal : Traversal) (value : MergedValue)
    (location : Location) : Traversal :=
  match value.kind with
  | .mapping entries => entries.reverse.foldl (visitEntry application location) traversal
  | .sequence values => values.reverse.foldl (fun traversal value => traversal.push value .other) traversal
  | .null | .scalar _ | .other => traversal

/-- The loop over the stack, in at most as many steps as the fuel says. -/
def visitStack (application : Application) : Nat → Traversal → Option Mapping
  | 0, _ => none
  | fuel + 1, traversal =>
    match traversal.stack with
    | [] => some traversal.mapping
    | (value, location) :: stack =>
      visitStack application fuel (visitValue application { traversal with stack } value location)

def reportOtherMetadataScopes (fuel : Nat) (mapping : Mapping) (application : Application) : Option Mapping :=
  visitStack application fuel ⟨[(mapping.root, .root)], 0, mapping⟩

/-! ## The import -/

/-- Imports the extensions of a child of the services mapping when it is a declared service. -/
def importService (state : Mapping × Application) (service : MergedEntry) : Mapping × Application :=
  match state.2.services.find? (fun owner => owner.value.name.asStr == service.key) with
  | some owner => importMetadataScope state service.value (.service owner.value.name)
  | none => state

def importMetadata (fuel : Nat) (mapping : Mapping) (application : Application) :
    Option (Mapping × Application) :=
  let state := importMetadataScope (mapping, application) mapping.root .application
  let state := match (mapping.root.get "services").bind MergedValue.asMapping with
    | some services => services.foldl importService state
    | none => state
  (reportOtherMetadataScopes fuel state.1 state.2).map fun mapping => (mapping, state.2)

end Boxferry.Compose
