import Boxferry.Model.Text
import Boxferry.Quadlet.Export.Command

/-! # Exported scalars

The reviewed grammars of single container values, and the mapping of one value
of each kind to one entry of the container section. -/
namespace Boxferry.Quadlet.Export
open Engine Lens Model
set_option autoImplicit false

/-! ## Grammars -/

def isSafeHostname (value : String) : Bool :=
  !value.isEmpty && len value ≤ 253 && value.toList.all (fun ch => ch.toNat < 128) &&
    (splitText '.' value).all fun label =>
      !label.isEmpty && len label ≤ 63 && label.toList.head?.any Char.isAlphanum &&
        label.toList.getLast?.any Char.isAlphanum &&
        label.toList.all fun ch => ch.isAlphanum || ch = '-'

def isSafeAbsoluteContainerPath (value : String) : Bool :=
  startsWith value "/" && !containsChar value '%' &&
    (splitText '/' value).all (· ≠ "..") &&
    value.toList.all fun ch => ch.isAlphanum || ch ∈ ['_', '-', '.', '/', '@', '+']

def isSafeTmpfs (value : String) : Bool :=
  let (target, options) := match splitOnce ':' value with
    | some (target, options) => (target, some options)
    | none => (value, none)
  isSafeAbsoluteContainerPath target && options.all fun options =>
    !options.isEmpty && (splitText ',' options).all fun option =>
      isSafeWord option false && !option.toList.any (· ∈ [':', '%'])

def isSafeSysctl (name value : String) : Bool :=
  !name.isEmpty && !containsChar name '=' && isSafeWord name false && isSafeWord value true

def isSafeLimitValue (value : String) : Bool :=
  value = "-1" || value = "0" ||
    (!startsWith value "0" && (parseU64 value).any (0 < ·))

def isSafeUlimit (name soft hard : String) : Bool :=
  !name.isEmpty && name.toList.all Char.isLower && isSafeLimitValue soft && isSafeLimitValue hard

def isReviewedDeviceComponent (value : String) : Bool :=
  startsWith value "/dev/" && 5 < len value && value.toList.all (fun ch => ch.toNat < 128) &&
    !value.toList.any (· ∈ ['$', '%', ':', '\x00', '\r', '\n']) && !value.toList.any isWhitespace &&
    (splitText '/' value).all fun part => part ≠ "." && part ≠ ".."

def isReviewedDevicePermissions (value : String) : Bool :=
  !value.isEmpty && value.toList.all (· ∈ ['r', 'w', 'm']) && value.toList.dedup.length = len value

/-- A device path with an optional target path and optional permissions. -/
def reviewedDeviceParts (source : String) (target permissions : Option String) : Bool :=
  isReviewedDeviceComponent source && target.all isReviewedDeviceComponent &&
    permissions.all isReviewedDevicePermissions && (permissions.isNone || target.isSome)

def reviewedDeviceSpelling (value : String) : Option String :=
  match splitText ':' value with
  | [source] => if reviewedDeviceParts source none none then some value else none
  | [source, target] => if reviewedDeviceParts source (some target) none then some value else none
  | [source, target, permissions] =>
    if reviewedDeviceParts source (some target) (some permissions) then some value else none
  | _ => none

def reviewedDeviceValue : Device → Option String
  | .short value => reviewedDeviceSpelling value.expose
  | .long none _ _ => none
  | .long (some source) target permissions =>
    let source := source.value.expose
    let target := target.map fun target => target.value.expose
    let permissions := permissions.map fun permissions => permissions.value.expose
    if reviewedDeviceParts source target permissions then
      some (source ++ (target.elim "" fun target => ":" ++ target) ++
        permissions.elim "" fun permissions => ":" ++ permissions)
    else none

def isSafeCapability (value : String) : Bool :=
  let name := withoutPrefix "CAP_" value
  name.toList.head?.any Char.isUpper &&
    name.toList.all fun ch => ch.isUpper || ch.isDigit || ch = '_'

def isPositiveMemory (value : String) : Bool :=
  let amount := String.ofList (value.toList.takeWhile Char.isDigit)
  let suffix := String.ofList (value.toList.dropWhile Char.isDigit)
  !amount.isEmpty && !startsWith amount "0" && (parseU64 amount).any (0 < ·) &&
    suffix ∈ ["", "b", "k", "m", "g"]

theorem colon_not_mem_isSafeLimitValue {value : String} (h : isSafeLimitValue value = true) :
    ':' ∉ value.toList := by
  unfold isSafeLimitValue at h
  simp only [Bool.or_eq_true, decide_eq_true_eq, Bool.and_eq_true] at h
  rcases h with (rfl | rfl) | ⟨-, hparsed⟩
  · decide
  · decide
  · obtain ⟨number, hnumber, -⟩ := Option.any_eq_true _ _ |>.mp hparsed
    intro hcolon
    rcases digits_of_parseU64 hnumber ':' hcolon with hdigit | hplus
    · revert hdigit
      decide
    · revert hplus
      decide

/-! ## Mapping one value -/

namespace Mapping
variable (m : Mapping) (subject : Subject) (origins : List Provenance) (builder : UnitBuilder)

def mapRawContainerValue (value : ProtectedString) (capability : String) (key : ContainerKey)
    (validate : String → Bool) (reason : String) : Mapped UnitBuilder :=
  if !validate value.expose then do
    unsupported subject reason origins
    pure builder
  else m.emit capability (.container key) value.expose subject origins builder

def mapTmpfs (value : ProtectedString) : Mapped UnitBuilder :=
  m.mapRawContainerValue subject origins builder value "quadlet.container.tmpfs" .tmpfs isSafeTmpfs
    "tmpfs must be a resolved non-empty systemd-safe declaration"

def mapHostname (value : ProtectedString) : Mapped UnitBuilder :=
  m.mapRawContainerValue subject origins builder value "quadlet.container.hostname" .hostName
    isSafeHostname "hostname must be a resolved systemd-safe token and must not rely on host UTS mode"

/-- One capability of `cap_add` or `cap_drop`. -/
def mapCapability (add : Bool) (value : ProtectedString) : Mapped UnitBuilder :=
  m.mapRawContainerValue subject origins builder value
    (if add then "quadlet.container.add-capability" else "quadlet.container.drop-capability")
    (if add then .addCapability else .dropCapability) isSafeCapability
    "capability names must use the reviewed uppercase Linux capability grammar"

def mapSysctl (sysctl : KernelParameter) : Mapped UnitBuilder :=
  let name := sysctl.name.expose
  let value := sysctl.value.expose
  if !isSafeSysctl name value then do
    unsupported subject "sysctl must use an unambiguous systemd-safe name=value spelling" origins
    pure builder
  else m.emit "quadlet.container.sysctl" (.container .sysctl) (name ++ ("=" ++ value)) subject origins
    builder

def incompleteLimit : String := "ulimit lacks a complete soft/hard scalar representation"

def mapUlimit (limit : ResourceLimit) : Mapped UnitBuilder :=
  match limit.soft, limit.hard with
  | none, _ | _, none => do
    unsupported subject incompleteLimit origins
    pure builder
  | some soft, some hard =>
    let name := limit.name.expose
    let soft := soft.value.expose
    let hard := hard.value.expose
    if !isSafeUlimit name soft hard then do
      unsupported subject
        "ulimit requires a lowercase name and -1 or non-negative ASCII decimal soft/hard values" origins
      pure builder
    else m.emit "quadlet.container.ulimit" (.container .ulimit)
      (name ++ ("=" ++ (soft ++ (":" ++ hard)))) subject origins builder

def mapDevice (device : Device) : Mapped UnitBuilder :=
  match reviewedDeviceValue device with
  | none => do
    unsupported subject "device is CDI, opaque, deferred, or not a reviewed host-device spelling" origins
    pure builder
  | some value =>
    m.emit "quadlet.container.add-device" (.container .addDevice) value subject origins builder

/-- A timeout in whole seconds; zero stays reviewable. -/
def mapStopTimeout (timeout : StopTimeout) : Mapped UnitBuilder :=
  match parseU64 timeout.asStr with
  | none => do
    unsupported subject
      "only nonnegative integral stop-timeout seconds are encodable; fractional native durations remain source-aware but require review"
      origins
    pure builder
  | some seconds => do
    if ← m.capability "quadlet.container.stop-timeout" subject origins then
      let (pushed, builder) ← m.push builder (.container .stopTimeout) timeout.asStr subject origins
      if pushed then
        if seconds = 0 then
          approximate subject
            "a zero stop timeout can differ from an omitted/default timeout and remains reviewable" origins
        else exact subject origins
      pure builder
    else pure builder

def mapMemory (value : ProtectedString) : Mapped UnitBuilder :=
  m.mapRawContainerValue subject origins builder value "quadlet.container.memory" .memory
    isPositiveMemory "memory must be a positive canonical byte quantity"

end Mapping
end Boxferry.Quadlet.Export
