import Boxferry.Model.Values

/-! # Native names, keys and documents

Reviewed name types of the native Quadlet library (unit filenames, vendor
section names), known only through a constructor and the spelling it keeps. -/
namespace Boxferry.Lens
set_option autoImplicit false

/-- The constructor and the spelling of a native name type. -/
structure NativeNames (Name : Type) where
  new : String → Option Name
  asStr : Name → String

/-- A name keeps the spelling it was admitted with. -/
def NativeNames.KeepsSpelling {Name : Type} (names : NativeNames Name) : Prop :=
  ∀ spelling name, names.new spelling = some name → names.asStr name = spelling

/-- Names that are the spellings a predicate accepts. -/
def NativeNames.spelled (accepts : String → Bool) : NativeNames String :=
  ⟨fun spelling => if accepts spelling then some spelling else none, id⟩

theorem NativeNames.spelled_keepsSpelling (accepts : String → Bool) :
    (spelled accepts).KeepsSpelling := by
  intro spelling name h
  have hkept := (Option.ite_none_right_eq_some.mp h).2
  exact (Option.some.inj hkept).symm

/-! ## Native keys

The unit types, section kinds and entry keys of the native Quadlet model. -/

inductive QuadletUnitType where
  | container
  | pod
  | network
  | volume
  | image
  | build
  | kube
  | artifact
  | other
deriving DecidableEq

inductive SectionKind where
  | container
  | pod
  | unit
  | service
  | other
deriving DecidableEq

/-- Keys of a container section; `other` stands for keys that no mapping names. -/
inductive ContainerKey where
  | addCapability
  | addDevice
  | addHost
  | annotation
  | appArmor
  | containerName
  | dns
  | dnsOption
  | dnsSearch
  | dropCapability
  | entrypoint
  | environment
  | environmentFile
  | exec
  | exposeHostPort
  | group
  | groupAdd
  | healthCmd
  | healthInterval
  | healthRetries
  | healthStartPeriod
  | healthTimeout
  | hostName
  | image
  | ip
  | ip6
  | label
  | logDriver
  | logOpt
  | mask
  | memory
  | mount
  | network
  | networkAlias
  | noNewPrivileges
  | notify
  | pidsLimit
  | pod
  | podmanArgs
  | publishPort
  | pull
  | readOnly
  | reloadCmd
  | reloadSignal
  | rootfs
  | runInit
  | seccompProfile
  | secret
  | securityLabelDisable
  | securityLabelFileType
  | securityLabelLevel
  | securityLabelNested
  | securityLabelType
  | shmSize
  | stopSignal
  | stopTimeout
  | sysctl
  | tmpfs
  | ulimit
  | unmask
  | user
  | userNs
  | volume
  | workingDir
  | other (name : String)
deriving DecidableEq

inductive PodKey where
  | addHost
  | exitPolicy
  | network
  | podName
  | publishPort
  | serviceName
  | shmSize
  | stopTimeout
  | userNs
  | volume
  | other (name : String)
deriving DecidableEq

inductive SystemdUnitKey where
  | after
  | requires
  | wants
  | other (name : String)
deriving DecidableEq

/-- The typed kind of one entry. -/
inductive EntryKind where
  | container (key : ContainerKey)
  | pod (key : PodKey)
  | systemdUnit (key : SystemdUnitKey)
  | genericSystemd
  | other
deriving DecidableEq

/-! ## Native documents

One parsed unit file as the native library hands it over: typed sections and
entries with their spans, and the semantic views it decodes once for a whole
document. What a view makes of a value is the library's business, so views are
data of a document. -/

structure NativeSpan where
  sourceId : Nat
  start : Nat
  «end» : Nat
  ordered : start ≤ «end»

theorem NativeSpan.ordered_start : (0 : Nat) ≤ 0 := Nat.le_refl 0

instance : DecidableEq NativeSpan := fun first second =>
  decidable_of_iff
    (first.sourceId = second.sourceId ∧ first.start = second.start ∧ first.«end» = second.«end») (by
      cases first
      cases second
      simp)

structure ValueSegment where
  text : String
  span : NativeSpan
deriving DecidableEq

inductive UnitReferenceKind where
  | image
  | build
  | network
  | other
deriving DecidableEq

inductive ValueKind where
  | unitReference (kind : UnitReferenceKind)
  | other
deriving DecidableEq

structure TypedEntry where
  key : String
  kind : EntryKind
  isRepeatable : Bool
  valueKind : ValueKind
  primary : ValueSegment
  continuations : List ValueSegment
deriving DecidableEq

namespace TypedEntry

def isContinued (entry : TypedEntry) : Bool := !entry.continuations.isEmpty

/-- The span an entry is reported under. -/
def span (entry : TypedEntry) : NativeSpan := entry.primary.span

end TypedEntry

structure TypedSection where
  name : String
  kind : SectionKind
  entries : List TypedEntry
deriving DecidableEq

/-! ## Views -/

inductive EnvironmentDirective where
  | assignment (name value : String) (span : NativeSpan)
  | reset (span : NativeSpan)
  | bareName (name : String) (span : NativeSpan)
  | deferred (name : String) (span : NativeSpan)
  | unmodeled (span : NativeSpan)
  | newer (span : NativeSpan)
deriving DecidableEq

def EnvironmentDirective.span : EnvironmentDirective → NativeSpan
  | .assignment _ _ span | .reset span | .bareName _ span | .deferred _ span | .unmodeled span
  | .newer span => span

inductive NativeCommandKind where
  | exec
  | entrypoint
  | newer
deriving DecidableEq

inductive NativeCommandDirective where
  | command (kind : NativeCommandKind) (arguments : List String) (jsonArray : Bool)
      (span : NativeSpan)
  | reset (kind : NativeCommandKind) (span : NativeSpan)
  | deferred (kind : NativeCommandKind) (span : NativeSpan)
  | unmodeled (kind : NativeCommandKind) (span : NativeSpan)
  | newer
deriving DecidableEq

/-- A directive of a kind the importer does not know has no readable span. -/
def NativeCommandDirective.span? : NativeCommandDirective → Option NativeSpan
  | .command _ _ _ span | .reset _ span | .deferred _ span | .unmodeled _ span => some span
  | .newer => none

inductive NativePortProtocol where
  | tcp
  | udp
  | sctp
  | newer
deriving DecidableEq

structure NativePortRange where
  start : UInt16
  isSingle : Bool
deriving DecidableEq

structure NativePortSpecification where
  host : Option String
  published : Option NativePortRange
  container : NativePortRange
  protocol : NativePortProtocol
  span : NativeSpan
deriving DecidableEq

inductive NativePortPublication where
  | publication (specification : NativePortSpecification)
  | reset (span : NativeSpan)
  | deferred (span : NativeSpan)
  | unmodeled (span : NativeSpan)
  | newer (span : NativeSpan)
deriving DecidableEq

def NativePortPublication.span : NativePortPublication → NativeSpan
  | .publication specification => specification.span
  | .reset span | .deferred span | .unmodeled span | .newer span => span

inductive NativeMountOption where
  | flag (name : String)
  | assignment (name value : String)
  | newer
deriving DecidableEq

structure NativeMountSpecification where
  source : Option String
  destination : Option String
  options : List NativeMountOption
  span : NativeSpan
deriving DecidableEq

inductive NativeMountDirective where
  | mount (specification : NativeMountSpecification)
  | reset (span : NativeSpan)
  | deferred (span : NativeSpan)
  | unmodeled (span : NativeSpan)
  | newer (span : NativeSpan)
deriving DecidableEq

def NativeMountDirective.span : NativeMountDirective → NativeSpan
  | .mount specification => specification.span
  | .reset span | .deferred span | .unmodeled span | .newer span => span

/-! ## Documents -/

structure QuadletDocument where
  unitType : QuadletUnitType
  sourceSpan : NativeSpan
  sections : List TypedSection
  environment : List EnvironmentDirective := []
  commands : List NativeCommandDirective := []
  ports : List NativePortPublication := []
  mounts : List NativeMountDirective := []
deriving DecidableEq

structure NamedQuadletDocument where
  name : String
  document : QuadletDocument
deriving DecidableEq

/-- The entries of every section that is not a vendor section. -/
def QuadletDocument.ownEntries (document : QuadletDocument) : List TypedEntry :=
  (document.sections.filter fun part => !"X-".toList.isPrefixOf part.name.toList).flatMap
    TypedSection.entries

end Boxferry.Lens
