import Boxferry.Cli.Redaction
import Boxferry.Library.Utf8Text

/-! # The conversion report

The versioned result of an invocation, with the record of what was cut from it. -/
namespace Boxferry.Cli
set_option autoImplicit false

def maxCollectionItems : Nat := 2048
def maxTextBytes : Nat := 16 * 1024

inductive ReportStatus where
  | success
  | blocked
  | failure
deriving DecidableEq

inductive ExitCategory where
  | success
  | policyBlocked
  | inputOrExecution
  | outputWrite
  | reportWrite
deriving DecidableEq

inductive FailedStage where
  | inputDiscovery
  | inputRead
  | interpolation
  | composeLoad
  | composeMerge
  | profileSelection
  | quadletParse
  | quadletDocumentSet
  | conversion
  | outputWrite
  | reportWrite
deriving DecidableEq

structure VersionBounds where
  minimum : String
  maximum : String
deriving DecidableEq

structure ReportInput where
  aliasName : String
  kind : String
deriving DecidableEq

structure DiscoveryDecision where
  selected : String
  ignored : List String
deriving DecidableEq

structure ReportChoice where
  name : String
  value : String
deriving DecidableEq

structure SanitizedInvocation where
  commandKind : String
  providedOptionNames : List String
deriving DecidableEq

structure HostMetadata where
  osFamily : String
  architecture : String
deriving DecidableEq

structure FidelityCounts where
  exact : Nat := 0
  approximate : Nat := 0
  unsupported : Nat := 0
  invalid : Nat := 0
  other : Nat := 0
deriving DecidableEq

/-- What to address before anything else. -/
structure FixFirst where
  code : String
  name : String
  description : String
  help : String
  nextStep : String
deriving DecidableEq

structure OutputArtifact where
  name : String
  size : Nat
deriving DecidableEq

structure RedactionSummary where
  classes : List String := []
  count : Nat := 0
  reviewRequired : Bool := true
deriving DecidableEq

/-- What was cut from the values of one field: the largest size, and the smallest that was kept. -/
structure Truncation where
  field : String
  original : Nat
  retained : Nat
deriving DecidableEq

structure BundleMember where
  transport : String
  name : String
  unitType : String
  size : Nat
deriving DecidableEq

structure InputBundleMember where
  transportAlias : String
  memberAlias : String
deriving DecidableEq

structure ConversionReport where
  schemaVersion : Nat := 1
  boxferryVersion : String
  status : ReportStatus := .failure
  exitCategory : ExitCategory := .inputOrExecution
  failedStage : Option FailedStage := none
  primaryDiagnosticCode : Option String := none
  failureSummary : Option String := none
  fixFirst : Option FixFirst := none
  sourceType : String
  targetType : String
  application : Option String := none
  inputs : List ReportInput := []
  discovery : List DiscoveryDecision := []
  choices : List ReportChoice := []
  invocation : SanitizedInvocation := ⟨"unknown", []⟩
  host : HostMetadata := ⟨"unknown", "unknown"⟩
  fidelity : FidelityCounts := {}
  requestedVersions : VersionBounds
  resolvedVersions : VersionBounds := ⟨"unresolved", "unresolved"⟩
  diagnostics : List ReportDiagnostic := []
  events : List String := []
  outputArtifacts : List OutputArtifact := []
  reviewRequired : Bool := true
  redaction : RedactionSummary := {}
  truncations : List Truncation := []
deriving DecidableEq

/-- The report of an invocation: the conversion, and what was transported. -/
structure InvocationReport where
  conversion : ConversionReport
  operation : String := "convert"
  bundleMembers : List BundleMember := []
  inputBundleMembers : List InputBundleMember := []
deriving DecidableEq

/-! ## The record of a cut -/

/-- Widens the first record of the field. -/
def widenFirst (field : String) (original retained : Nat) : List Truncation → List Truncation
  | [] => []
  | existing :: rest =>
    if existing.field = field then
      { existing with original := max existing.original original, retained := min existing.retained retained } :: rest
    else existing :: widenFirst field original retained rest

def recordTruncation (truncations : List Truncation) (field : String) (original retained : Nat) : List Truncation :=
  if truncations.any (·.field = field) then widenFirst field original retained truncations
  else if truncations.length < maxCollectionItems then truncations ++ [⟨field, original, retained⟩]
  else truncations

variable {truncations : List Truncation} {field : String} {original retained : Nat}

theorem map_field_widenFirst : (widenFirst field original retained truncations).map Truncation.field =
    truncations.map Truncation.field := by
  induction truncations with
  | nil => rfl
  | cons existing rest ih =>
    by_cases hfield : existing.field = field
    · rw [widenFirst, if_pos hfield]
      rfl
    · rw [widenFirst, if_neg hfield, List.map_cons, List.map_cons, ih]

/-- The names of the records: a new one comes last, where there is room. -/
theorem map_field_record : (recordTruncation truncations field original retained).map Truncation.field =
    if field ∈ truncations.map Truncation.field then truncations.map Truncation.field
    else if truncations.length < maxCollectionItems then truncations.map Truncation.field ++ [field]
    else truncations.map Truncation.field := by
  have hany : truncations.any (·.field = field) ↔ field ∈ truncations.map Truncation.field := by
    rw [List.any_eq_true, List.mem_map]
    simp
  unfold recordTruncation
  by_cases hmem : field ∈ truncations.map Truncation.field
  · rw [if_pos (hany.mpr hmem), if_pos hmem, map_field_widenFirst]
  · rw [if_neg fun h => hmem (hany.mp h), if_neg hmem]
    split
    · rw [List.map_append]
      rfl
    · rfl

end Boxferry.Cli
