import Boxferry.Library.PathSteps
import Boxferry.Model.Text
import Boxferry.Quadlet.Export.Core

/-! # Exported mounts

Five routes lead a mount source to the colon-separated volume value. The routes of literal,
absolute and mapped sources check its characters; the one that resolves a relative
source against the project root checks those of the root only. -/
namespace Boxferry.Quadlet.Export
open Engine Lens Model
set_option autoImplicit false

/-! ## Paths -/

inductive PathForm where
  | absoluteLiteral
  | systemdSpecifier
  | unitRelativeLiteral
  | relativeLiteral
  | other
deriving DecidableEq

def isSafeMountPart (value : String) : Bool :=
  !value.isEmpty && value.toList.all fun ch =>
    ch.isAlphanum || ch ∈ ['_', '-', '.', '/', '@', '+', '=', '%']

def isValidMappingSource (value : String) : Bool :=
  !value.isEmpty && !value.toList.any (· ∈ ['\x00', '\n', '\r'])

/-- What one component of a path does to the components before it. -/
def pathStep (component : String) : Option (Option String) :=
  if component = "" ∨ component = "." then some none
  else if component = ".." then none
  else some (some component)

def absolutePath (components : List String) : String := "/" ++ joinText '/' components

def resolveRelativePath (root relative : String) : Option String :=
  let components := (splitText '/' (String.ofList (root.toList.dropWhile (· = '/')))).filter (!·.isEmpty)
  if "~" ∈ splitText '/' relative then none
  else (PathSteps.resolve components ((splitText '/' relative).map pathStep)).map absolutePath

section Classified
variable (classifyPath : String → PathForm)

def isValidQuadletBindSource (value : String) : Bool :=
  classifyPath value ∈ [.absoluteLiteral, .systemdSpecifier] && isSafeMountPart value

def normalizeAbsolutePath (value : String) : Option String :=
  if classifyPath value ≠ .absoluteLiteral ∨ isSafeMountPart value = false then none
  else (PathSteps.resolve [] ((splitText '/' value).map pathStep)).map absolutePath

end Classified

/-! ## Bind sources -/

inductive QuadletExporterError where
  | invalidRelativeBindRoot (root : String)
  | invalidBindSourceMapping (source target : String)
  | conflictingBindSourceMapping (source existing replacement : String)
deriving DecidableEq

def QuadletExporterError.display : QuadletExporterError → String
  | .invalidRelativeBindRoot root => "invalid absolute relative-bind root `" ++ root ++ "`"
  | .invalidBindSourceMapping source target =>
    "invalid explicit bind-source mapping `" ++ source ++ "` to `" ++ target ++ "`"
  | .conflictingBindSourceMapping source existing replacement =>
    "conflicting bind-source mapping for `" ++ source ++ "`: `" ++ existing ++ "` versus `" ++ replacement ++ "`"

/-- The exporter's settings for bind sources. -/
structure BindSources (classifyPath : String → PathForm) where
  relativeBindRoot : Option String := none
  bindSourceMappings : List (String × String) := []
  normalRoot : ∀ root, relativeBindRoot = some root →
    ∃ given, normalizeAbsolutePath classifyPath given = some root := by simp
  validMappings : ∀ mapping ∈ bindSourceMappings,
    isValidMappingSource mapping.1 = true ∧ isValidQuadletBindSource classifyPath mapping.2 = true := by simp

namespace BindSources
variable {classifyPath : String → PathForm}

def withRelativeBindRoot (sources : BindSources classifyPath) (root : String) :
    Except QuadletExporterError (BindSources classifyPath) :=
  match h : normalizeAbsolutePath classifyPath root with
  | none => .error (.invalidRelativeBindRoot root)
  | some normal => .ok { sources with
      relativeBindRoot := some normal
      normalRoot := fun _ hroot => ⟨root, Option.some.inj hroot ▸ h⟩ }

def bindSourceMapping (sources : BindSources classifyPath) (source : String) : Option String :=
  sources.bindSourceMappings.lookup source

def withBindSourceMapping (sources : BindSources classifyPath) (source target : String) :
    Except QuadletExporterError (BindSources classifyPath) :=
  if h : isValidMappingSource source = true ∧ isValidQuadletBindSource classifyPath target = true then
    match sources.bindSourceMapping source with
    | some existing =>
      if existing ≠ target then .error (.conflictingBindSourceMapping source existing target) else .ok sources
    | none => .ok { sources with
        bindSourceMappings := sources.bindSourceMappings ++ [(source, target)]
        validMappings := fun mapping hmapping => by
          cases List.mem_append.mp hmapping with
          | inl hold => exact sources.validMappings mapping hold
          | inr hnew =>
            rw [List.mem_singleton.mp hnew]
            exact h }
  else .error (.invalidBindSourceMapping source target)

end BindSources

/-! ## Mounts -/

inductive DeferredWordPart where
  | literal (value : String)
  | reference (name : String)
deriving DecidableEq

/-- A bind whose source the service manager expands. -/
structure DeferredBind where
  word : List DeferredWordPart
  target : String
  options : List String
deriving DecidableEq

/-- A container unit under construction. -/
structure ContainerStage where
  builder : UnitBuilder
  binds : List DeferredBind
deriving DecidableEq

/-- What the native library decides about mounts: the form of a path, the names and words it accepts, and
the error of a bind it refuses. -/
structure MountLibrary where
  classifyPath : String → PathForm
  acceptsName : String → Bool
  acceptsWord : List DeferredWordPart → Bool
  rejectsBind : ContainerStage → DeferredBind → Option String

structure ResolvedResourceSource where
  value : String
  approximation : Option String
deriving DecidableEq

def mountOptions (mount : Mount) : List String :=
  (if mount.readOnly then ["ro"] else []) ++
    match mount.selinuxRelabel with
    | none => []
    | some .shared => ["z"]
    | some .private => ["Z"]

def hasSafeTarget (mount : Mount) : Bool :=
  (if mount.pathsAreLiteral then !mount.target.toList.any (fun ch => isControl ch || ch == ':')
    else isSafeMountPart mount.target) &&
    startsWith mount.target "/"

/-- A literal target that the service manager would expand. -/
def targetExpands (mount : Mount) : Bool :=
  mount.pathsAreLiteral && (containsChar mount.target '$' || containsChar mount.target '%')

def isHostPath : MountSource → Bool
  | .hostPath _ => true
  | _ => false

/-- The value of a mount with a resolved source. -/
def encodeVolume (source : String) (mount : Mount) : String :=
  let encoded := if source.isEmpty then mount.target else source ++ ":" ++ mount.target
  if (mountOptions mount).isEmpty then encoded else encoded ++ ":" ++ joinText ',' (mountOptions mount)

namespace Mapping
variable (m : Mapping) (library : MountLibrary) (sources : BindSources library.classifyPath)

def volumeSource (subject : Subject) (name : String) (origins : List Provenance) :
    Mapped (Option ResolvedResourceSource) :=
  if !isNativeAtom name then do
    unsupported subject "volume name requires target-specific escaping" origins
    pure none
  else
    let declaration := m.application.volumes.find? fun volume => volume.value.name.asStr = name
    match declaration.map fun volume : Sourced Volume => volume.value.ownership with
    | some .application => pure (some ⟨name ++ ".volume", none⟩)
    | some .external => pure (some ⟨name, none⟩)
    | some .uncertain => pure (some ⟨name, some
        "volume lifecycle ownership is uncertain; retained the known native name as an external reference"⟩)
    | some .implicit | none => do
      unsupported subject "implicit volume cannot yet be reproduced safely" origins
      pure none

/-- The source of a host path that no mapping names. -/
def classifiedSource (subject : Subject) (path : String) (origins : List Provenance) :
    Mapped (Option ResolvedResourceSource) :=
  let refuse (reason : String) : Mapped (Option ResolvedResourceSource) := do
    unsupported subject reason origins
    pure none
  match library.classifyPath path with
  | .absoluteLiteral | .systemdSpecifier =>
    if isSafeMountPart path then pure (some ⟨path, none⟩)
    else refuse "bind source needs an explicit source-to-target mapping for Quadlet"
  | .unitRelativeLiteral =>
    match sources.relativeBindRoot with
    | none => refuse "relative bind source needs an explicit Compose project root"
    | some root =>
      match resolveRelativePath root path with
      | some resolved => pure (some ⟨resolved, none⟩)
      | none => refuse "relative bind source traverses above the filesystem root"
  | .relativeLiteral => refuse "relative bind form needs an explicit source-to-target mapping"
  | .other => refuse "bind source needs an explicit source-to-target mapping for Quadlet"

def mountSource (subject : Subject) (mount : Sourced Mount) : Mapped (Option ResolvedResourceSource) :=
  match mount.value.source with
  | .volume name => m.volumeSource subject name.asStr mount.origins
  | .hostPath path =>
    if startsWith path "/" && !path.toList.any (fun ch => isControl ch || ch == ':') &&
        mount.value.pathsAreLiteral then pure (some ⟨path, none⟩)
    else
      match sources.bindSourceMapping path with
      | some mapped => pure (some ⟨mapped, none⟩)
      | none => classifiedSource library sources subject path mount.origins
  | .anonymous => pure (some ⟨"", none⟩)
  | .deferredHostPath _ => do
    unsupported subject "unknown mount source" mount.origins
    pure none

def renderBind (subject : Subject) (word : List DeferredWordPart) (mount : Sourced Mount)
    (stage : ContainerStage) : Mapped ContainerStage := do
  let bind : DeferredBind := ⟨word, mount.value.target, mountOptions mount.value⟩
  if ← m.capability "quadlet.container.volume" subject mount.origins then
    match library.rejectsBind stage bind with
    | none => do
      exact subject mount.origins
      pure { stage with binds := stage.binds ++ [bind] }
    | some error => do
      unsupported subject ("native renderer cannot safely preserve this bind: " ++ error ++
        "; use an explicit target-path mapping") mount.origins
      pure stage
  else pure stage

def mapLiteralBind (subject : Subject) (source : String) (mount : Sourced Mount)
    (stage : ContainerStage) : Mapped ContainerStage :=
  if library.acceptsWord [.literal source] then m.renderBind library subject [.literal source] mount stage
  else do
    unsupported subject "invalid literal bind source" mount.origins
    pure stage

/-- The native word of a deferred expression. -/
def nativeWord (expression : DeferredExpression) : Option (List DeferredWordPart) :=
  let word := expression.segments.map fun segment =>
    match segment.value with
    | .literal value => DeferredWordPart.literal value.expose
    | .reference name => .reference name.asStr
  let named := expression.segments.all fun segment =>
    match segment.value with
    | .literal _ => true
    | .reference name => library.acceptsName name.asStr
  if named && library.acceptsWord word then some word else none

def mapDeferredBind (subject : Subject) (expression : DeferredExpression) (mount : Sourced Mount)
    (stage : ContainerStage) : Mapped ContainerStage :=
  match expression.validateHostBind with
  | .error error => do
    unsupported subject error.display mount.origins
    pure stage
  | .ok () =>
    match nativeWord library expression with
    | none => do
      unsupported subject "native renderer rejected deferred bind" mount.origins
      pure stage
    | some word => m.renderBind library subject word mount stage

/-- The volume entry of a mount. -/
def pushVolume (subject : Subject) (source : ResolvedResourceSource) (mount : Sourced Mount)
    (stage : ContainerStage) : Mapped ContainerStage := do
  if ← m.capability "quadlet.container.volume" subject mount.origins then
    let (pushed, builder) ← m.push stage.builder (.container .volume) (encodeVolume source.value mount.value)
      subject mount.origins
    if pushed then
      match source.approximation with
      | some reason => approximate subject reason mount.origins
      | none => exact subject mount.origins
    pure { stage with builder := builder }
  else pure stage

/-- What is done with a mount once its source is resolved. -/
def mapResolvedMount (subject : Subject) (source : Option ResolvedResourceSource) (mount : Sourced Mount)
    (stage : ContainerStage) : Mapped ContainerStage :=
  match source with
  | none => pure stage
  | some source =>
    if isHostPath mount.value.source && (containsChar source.value '$' ||
        (containsChar source.value '%' && mount.value.pathsAreLiteral) || targetExpands mount.value) then
      if containsChar source.value '%' && !mount.value.pathsAreLiteral then do
        unsupported subject ("native source specifier intent cannot be combined safely with a literal " ++
          "expansion-bearing target; use an explicit literal target path") mount.origins
        pure stage
      else m.mapLiteralBind library subject source.value mount stage
    else m.pushVolume subject source mount stage

def mountSubject (serviceSubject : String) (index : Nat) : Subject :=
  .other (serviceSubject ++ ".mounts[" ++ toString index ++ "]")

def mapMount (serviceSubject : String) (index : Nat) (mount : Sourced Mount) (stage : ContainerStage) :
    Mapped ContainerStage :=
  let subject := mountSubject serviceSubject index
  if !hasSafeTarget mount.value then do
    unsupported subject "container mount target is not a safely encoded absolute path" mount.origins
    pure stage
  else
    match mount.value.source with
    | .deferredHostPath expression => m.mapDeferredBind library subject expression mount stage
    | source =>
      if targetExpands mount.value && !isHostPath source then do
        unsupported subject
          "literal percent in a non-bind mount target needs a native expansion-safe renderer" mount.origins
        pure stage
      else do
        let source ← m.mountSource library sources subject mount
        m.mapResolvedMount library subject source mount stage

end Mapping
end Boxferry.Quadlet.Export
