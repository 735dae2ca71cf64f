import Boxferry.Model.Text
import Boxferry.Model.Service
import Boxferry.Quadlet.Import.Core

/-! # Imported scalars

The reviewed grammars of single container values, and the handler of one entry
of each kind. A value outside its grammar is kept and reported. -/
namespace Boxferry.Quadlet.Import
open Engine Lens Model
set_option autoImplicit false

/-! ## Grammars -/

def isPositiveMemory (value : String) : Bool :=
  let amount := String.ofList (value.toList.takeWhile Char.isDigit)
  let suffix := String.ofList (value.toList.dropWhile Char.isDigit)
  !amount.isEmpty && !startsWith amount "0" && (parseU64 amount).any (0 < ·) &&
    suffix ∈ ["", "b", "k", "m", "g"]

def isPositiveCanonicalDecimal (value : String) : Bool :=
  !startsWith value "0" && (parseU64 value).any (0 < ·)

def isCanonicalDecimal (value : String) : Bool := value = "0" || isPositiveCanonicalDecimal value

def isSafeSysctlAssignment (name value : String) : Bool :=
  !name.isEmpty && !value.isEmpty && !containsChar value '=' &&
    name.toList.all (fun ch => ch.isAlphanum || ch ∈ ['_', '.', '-']) &&
    value.toList.all fun ch => ch.isAlphanum || ch ∈ ['_', '.', '-', '/', ':']

def isSafeUlimitAssignment (name soft hard : String) : Bool :=
  !name.isEmpty && name.toList.all (fun ch => ch.isLower || ch.isDigit || ch = '_') &&
    !containsChar soft ':' && !containsChar hard ':' &&
    [soft, hard].all fun value => value = "-1" || isCanonicalDecimal value

def isSafeAbsoluteContainerPath (value : String) : Bool :=
  startsWith value "/" && !containsChar value '%' &&
    (splitText '/' value).all (· ≠ "..") &&
    value.toList.all fun ch => ch.isAlphanum || ch ∈ ['_', '-', '.', '/', '@', '+']

def isSafeDevicePath (value : String) : Bool :=
  startsWith value "/dev/" && 5 < len value && isSafeAbsoluteContainerPath value

def isSafeDevice (value : String) : Bool :=
  match splitText ':' value with
  | [source] => isSafeDevicePath source
  | [source, target] => isSafeDevicePath source && isSafeDevicePath target
  | [source, target, permissions] =>
    isSafeDevicePath source && isSafeDevicePath target && !permissions.isEmpty &&
      permissions.toList.all (· ∈ ['r', 'w', 'm']) &&
      permissions.toList.dedup.length = len permissions
  | _ => false

def isSafeCapability (value : String) : Bool :=
  let name := withoutPrefix "CAP_" value
  name.toList.head?.any Char.isUpper &&
    name.toList.all fun ch => ch.isUpper || ch.isDigit || ch = '_'

def isSafeWord (value : String) (allowEmpty : Bool) : Bool :=
  (allowEmpty || !value.isEmpty) &&
    value.toList.all fun ch =>
      ch.isAlphanum || ch ∈ ['_', '-', '.', '/', ':', '@', '+', '=', ',']

def isSafeTmpfs (value : String) : Bool :=
  let (target, options) := match splitOnce ':' value with
    | some (target, options) => (target, some options)
    | none => (value, none)
  isSafeAbsoluteContainerPath target && options.all fun options =>
    !options.isEmpty && (splitText ',' options).all fun option =>
      isSafeWord option false && !option.toList.any (· ∈ [':', '%'])

def isSafeHostname (value : String) : Bool :=
  len value ≤ 253 && (splitText '.' value).all fun label =>
    !label.isEmpty && len label ≤ 63 && label.toList.head?.any Char.isAlphanum &&
      label.toList.getLast?.any Char.isAlphanum &&
      label.toList.all fun ch => ch.isAlphanum || ch = '-'

/-! ## Handlers -/

section Handlers
variable (serviceName : String) (entry : TypedEntry) (origin : Provenance) (service : Service)

def serviceField (field : String) : String := "services." ++ serviceName ++ "." ++ field

/-- A collection's origins with the origin of a new item. -/
def withOrigin (origins : List Provenance) : List Provenance :=
  if origin ∈ origins then origins else origins ++ [origin]

def plainFrom (value : String) : Sourced ProtectedString := ⟨⟨value, false⟩, [origin]⟩

/-- `map_raw_service_value` of the hostname. -/
def mapHostname : Answer Service :=
  let subject := serviceField serviceName "hostname"
  direct subject entry service fun raw =>
    .one subject
      (if isSafeHostname raw then .exact
      else .unsupported "native value is retained but outside the reviewed exact grammar")
      { service with hostname := some (plainFrom origin raw) }

/-- The values and collection origins after one capability entry. -/
def capabilityAnswer (field value : String) (values : List (Sourced ProtectedString))
    (origins : List Provenance) : Answer (List (Sourced ProtectedString) × List Provenance) :=
  let subject := serviceField serviceName field
  if value.isEmpty then
    .one subject (.unsupported "an empty native capability assignment resets the effective list")
      ([], [origin])
  else if (splitAsciiWhitespace value).all isSafeCapability then
    .one subject .exact
      (values ++ (splitAsciiWhitespace value).map (plainFrom origin), withOrigin origin origins)
  else
    .one subject
      (.unsupported "capabilities are retained but require a plain whitespace-separated capability list")
      (values ++ [plainFrom origin value], withOrigin origin origins)

def mapCapability (add : Bool) : Answer Service :=
  let field := if add then "cap_add" else "cap_drop"
  direct (serviceField serviceName field) entry service fun value =>
    if add then
      (capabilityAnswer serviceName origin field value (service.capAdd.getD []) service.capAddOrigins).map
        fun (values, origins) => { service with capAdd := some values, capAddOrigins := origins }
    else
      (capabilityAnswer serviceName origin field value (service.capDrop.getD []) service.capDropOrigins).map
        fun (values, origins) => { service with capDrop := some values, capDropOrigins := origins }

def mapTmpfs : Answer Service :=
  let subject := serviceField serviceName "tmpfs"
  direct subject entry service fun value =>
    if value.isEmpty then
      .one subject (.unsupported "an empty native tmpfs assignment resets the effective list")
        { service with tmpfs := some [], tmpfsOrigins := [origin] }
    else
      .one subject
        (if isSafeTmpfs value then .exact
        else .unsupported "tmpfs is retained but must use an absolute target and plain comma-separated options")
        { service with
          tmpfs := some (service.tmpfs.getD [] ++ [plainFrom origin value])
          tmpfsOrigins := withOrigin origin service.tmpfsOrigins }

def mapSysctl : Answer Service :=
  let subject := serviceField serviceName "sysctls"
  direct subject entry service fun text =>
    match splitOnce '=' text with
    | none => .one subject (.unsupported "Sysctl must contain one NAME=VALUE assignment") service
    | some (name, value) =>
      .one subject
        (if isSafeSysctlAssignment name value then .exact
        else .unsupported "Sysctl is retained but must have one safe nonempty NAME=VALUE assignment")
        { service with
          sysctls := some (service.sysctls.getD [] ++ [⟨⟨⟨name, false⟩, ⟨value, false⟩⟩, [origin]⟩])
          sysctlsOrigins := withOrigin origin service.sysctlsOrigins }

def ulimitShape : String := "Ulimit must contain NAME=SOFT:HARD"

def mapUlimit : Answer Service :=
  let subject := serviceField serviceName "ulimits"
  direct subject entry service fun text =>
    match splitOnce '=' text with
    | none => .one subject (.unsupported ulimitShape) service
    | some (name, values) =>
      match splitOnce ':' values with
      | none => .one subject (.unsupported ulimitShape) service
      | some (soft, hard) =>
        .one subject
          (if isSafeUlimitAssignment name soft hard then .exact
          else .unsupported
            "Ulimit is retained but must be NAME=SOFT:HARD with safe decimal or unlimited values")
          { service with
            ulimits := some (service.ulimits.getD [] ++
              [⟨⟨⟨name, false⟩, some (plainFrom origin soft), some (plainFrom origin hard)⟩, [origin]⟩])
            ulimitsOrigins := withOrigin origin service.ulimitsOrigins }

def mapDevice : Answer Service :=
  let subject := serviceField serviceName "devices"
  direct subject entry service fun value =>
    .one subject
      (if isSafeDevice value then .exact
      else .unsupported
        "device is retained but outside the reviewed absolute host[:container][:rwm] grammar")
      { service with
        devices := some (service.devices.getD [] ++ [⟨.short ⟨value, false⟩, [origin]⟩])
        devicesOrigins := withOrigin origin service.devicesOrigins }

def mapStopTimeout : Answer Service :=
  let subject := serviceField serviceName "stop_timeout"
  direct subject entry service fun text =>
    match StopTimeout.new text with
    | .error _ => .one subject (.invalid "StopTimeout is invalid") service
    | .ok timeout =>
      .one subject
        (if (parseU64 timeout.asStr).any (0 < ·) then .exact
        else .approximate "fractional, zero, and default stop-timeout semantics remain reviewable")
        { service with stopTimeout := some ⟨timeout, [origin]⟩ }

def mapMemory : Answer Service :=
  let subject := serviceField serviceName "memory_limit"
  direct subject entry service fun value =>
    .one subject
      (if isPositiveMemory value then .exact
      else .unsupported "Memory must be a positive canonical byte quantity")
      { service with memoryLimit := some ⟨⟨value, true⟩, [origin]⟩ }

/-- The handler of a scalar key of the container section. -/
def scalarHandler : ContainerKey → Option (Answer Service)
  | .hostName => some (mapHostname serviceName entry origin service)
  | .addCapability => some (mapCapability serviceName entry origin service true)
  | .dropCapability => some (mapCapability serviceName entry origin service false)
  | .tmpfs => some (mapTmpfs serviceName entry origin service)
  | .sysctl => some (mapSysctl serviceName entry origin service)
  | .ulimit => some (mapUlimit serviceName entry origin service)
  | .addDevice => some (mapDevice serviceName entry origin service)
  | .stopTimeout => some (mapStopTimeout serviceName entry origin service)
  | .memory => some (mapMemory serviceName entry origin service)
  | _ => none

end Handlers
end Boxferry.Quadlet.Import
