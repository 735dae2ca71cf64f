import Boxferry.Model.Values
import Mathlib.Data.Finset.Card

/-! # Deferred expressions

Explicit execution environment requirements without native variable syntax. -/
namespace Boxferry.Model
set_option autoImplicit false

def deferredMaxBytes : Nat := 1048576

def deferredMaxSegments : Nat := 65536

def isAsciiAlphabetic (byte : UInt8) : Bool :=
  (65 ≤ byte && byte ≤ 90) || (97 ≤ byte && byte ≤ 122)

def isAsciiAlphanumeric (byte : UInt8) : Bool :=
  isAsciiAlphabetic byte || (48 ≤ byte && byte ≤ 57)

/-- The portable ASCII identifier grammar of environment reference names. -/
def validEnvironmentName (value : String) : Bool :=
  match Utf8Text.bytes value with
  | [] => false
  | first :: rest =>
    (isAsciiAlphabetic first || first == 95) &&
      rest.all (fun byte => isAsciiAlphanumeric byte || byte == 95) &&
      decide (len value ≤ deferredMaxBytes)

/-- Portable environment reference name. -/
structure ServiceEnvironmentName where
  asStr : String
  valid : validEnvironmentName asStr = true
deriving DecidableEq

def ServiceEnvironmentName.new (value : String) : Except ModelError ServiceEnvironmentName :=
  if h : validEnvironmentName value = true then .ok ⟨value, h⟩
  else .error (.invalidDeferred "invalid service environment name")

/-! ## Expressions -/

inductive DeferredSegment where
  | literal (value : ProtectedString)
  | reference (name : ServiceEnvironmentName)
deriving DecidableEq

namespace DeferredSegment

def text : DeferredSegment → String
  | .literal value => value.expose
  | .reference name => name.asStr

def isReference : DeferredSegment → Bool
  | .literal _ => false
  | .reference _ => true

def referenceName : DeferredSegment → Option ServiceEnvironmentName
  | .literal _ => none
  | .reference name => some name

end DeferredSegment

/-- `usize::saturating_add`. -/
def saturatingAdd (left right : Nat) : Nat := min (left + right) usizeMax

/-- The checks of `DeferredExpression::new`. -/
def deferredExpressionValid (parts : List (Sourced DeferredSegment)) : Except ModelError Unit :=
  let bytes := parts.foldl (fun bytes part => saturatingAdd bytes (len part.value.text)) 0
  if parts.any (fun part => containsChar part.value.text '\x00') then
    .error (.invalidDeferred "NUL in deferred expression")
  else if !parts.any (fun part => part.value.isReference) || deferredMaxSegments < parts.length ||
      deferredMaxBytes < bytes then
    .error (.invalidDeferred "deferred expression requires references within finite bounds")
  else .ok ()

/-- Bounded flat concatenation with at least one reference. -/
structure DeferredExpression where
  segments : List (Sourced DeferredSegment)
  valid : deferredExpressionValid segments = .ok ()
deriving DecidableEq

namespace DeferredExpression

def new (parts : List (Sourced DeferredSegment)) : Except ModelError DeferredExpression :=
  match h : deferredExpressionValid parts with
  | .ok () => .ok ⟨parts, h⟩
  | .error error => .error error

def hasNonemptyLiteral (expression : DeferredExpression) : Bool :=
  expression.segments.any fun part =>
    match part.value with
    | .literal value => !value.expose.isEmpty
    | .reference _ => false

/-- The names an expression looks up. -/
def references (expression : DeferredExpression) : List ServiceEnvironmentName :=
  expression.segments.filterMap fun part => part.value.referenceName

/-- The literal text after the leading reference, or the error of a second reference. -/
def hostBindSuffix : List (Sourced DeferredSegment) → String → Except ModelError String
  | [], suffix => .ok suffix
  | part :: rest, suffix =>
    match part.value with
    | .literal value => hostBindSuffix rest (suffix ++ value.expose)
    | .reference _ => .error (.invalidDeferred "host bind requires one reference")

/-- One leading direct reference and a safe optional slash suffix. -/
def validateHostBind (expression : DeferredExpression) : Except ModelError Unit :=
  match expression.segments with
  | ⟨.reference _, _⟩ :: rest => do
    let suffix ← hostBindSuffix rest ""
    if (!suffix.isEmpty && !startsWith suffix "/") ||
        suffix.toList.any (fun ch => isControl ch || ch == ':') then
      .error (.invalidDeferred "unsafe host-bind suffix; use conversion-time resolution")
    else .ok ()
  | _ => .error (.invalidDeferred "host bind requires one leading reference")

end DeferredExpression

/-! ## Execution providers -/

/-- Explicit protected assignment to the service execution environment. -/
structure ServiceEnvironmentAssignment where
  name : ServiceEnvironmentName
  text : String
  valid : (containsChar text '\x00' || decide (deferredMaxBytes < len text)) = false
deriving DecidableEq

namespace ServiceEnvironmentAssignment

def new (name : ServiceEnvironmentName) (value : String) :
    Except ModelError ServiceEnvironmentAssignment :=
  if h : (containsChar value '\x00' || decide (deferredMaxBytes < len value)) = false then
    .ok ⟨name, value, h⟩
  else .error (.invalidDeferred "invalid inline service environment assignment")

/-- Assignments are admitted as protected data. -/
def value (assignment : ServiceEnvironmentAssignment) : ProtectedString :=
  .sensitive assignment.text

end ServiceEnvironmentAssignment

/-- An absolute path without control characters or glob activation. -/
def validEnvironmentFile (path : String) : Bool :=
  startsWith path "/" && decide (len path ≤ deferredMaxBytes) &&
    !path.toList.any (fun ch => isControl ch || ch == '*' || ch == '?' || ch == '[' || ch == ']')

/-- Mandatory absolute literal external file; construction never reads the file. -/
structure ServiceEnvironmentFile where
  path : String
  valid : validEnvironmentFile path = true
deriving DecidableEq

def ServiceEnvironmentFile.new (path : String) : Except ModelError ServiceEnvironmentFile :=
  if h : validEnvironmentFile path = true then .ok ⟨path, h⟩
  else .error (.invalidDeferred "service environment file requires an absolute literal path")

/-- The checks of `ServiceExecutionEnvironment::new`. -/
def executionEnvironmentValid (references : List (Sourced ServiceEnvironmentName))
    (assignments : List (Sourced ServiceEnvironmentAssignment))
    (files : List (Sourced ServiceEnvironmentFile)) : Except ModelError Unit :=
  let names := (references.map Sourced.value).toFinset
  let filePaths := (files.map (fun item => item.value.path)).toFinset
  let inline := (assignments.map (fun item => item.value.name)).toFinset
  let sizes := references.map (fun item => len item.value.asStr) ++
    (assignments.map (fun item =>
      saturatingAdd (len item.value.name.asStr) (len item.value.value.expose)) ++
    files.map (fun item => len item.value.path))
  let bytes := sizes.foldl saturatingAdd 0
  let entries := saturatingAdd (saturatingAdd references.length assignments.length) files.length
  if filePaths.card ≠ files.length ∨ names = ∅ ∨ names.card ≠ references.length ∨
      inline.card ≠ assignments.length ∨ ¬ inline ⊆ names ∨ deferredMaxSegments < entries ∨
      deferredMaxBytes < bytes then
    .error (.invalidDeferred "invalid or duplicate service environment plan entries")
  else .ok ()

/-- Explicit per-service allowlist and external execution providers. -/
structure ServiceExecutionEnvironment where
  references : List (Sourced ServiceEnvironmentName)
  assignments : List (Sourced ServiceEnvironmentAssignment)
  files : List (Sourced ServiceEnvironmentFile)
  valid : executionEnvironmentValid references assignments files = .ok ()
deriving DecidableEq

def ServiceExecutionEnvironment.new (references : List (Sourced ServiceEnvironmentName))
    (assignments : List (Sourced ServiceEnvironmentAssignment))
    (files : List (Sourced ServiceEnvironmentFile)) :
    Except ModelError ServiceExecutionEnvironment :=
  match h : executionEnvironmentValid references assignments files with
  | .ok () => .ok ⟨references, assignments, files, h⟩
  | .error error => .error error

end Boxferry.Model
