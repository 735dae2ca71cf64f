import Mathlib.Data.List.Sort
import Boxferry.Library.CountedOrder
import Boxferry.Quadlet.Export.Core

/-! # Exported dependencies

A dependency on another service becomes an activation and an ordering entry of
the unit section. Before anything is mapped, the dependencies of the whole
application must name declared services and order them. -/
namespace Boxferry.Quadlet.Export
open Engine Lens Model
set_option autoImplicit false

/-- An edge is required unless it says otherwise. -/
def isRequired (dependency : ServiceDependency) : Bool :=
  dependency.required.all fun required => required.value

def extendOrigins (origins more : List Provenance) : List Provenance :=
  more.foldl (fun origins origin => if origin ∈ origins then origins else origins ++ [origin]) origins

def dependencyMappingOrigins (dependency : Sourced ServiceDependency) : List Provenance :=
  let origins := extendOrigins dependency.origins
    (dependency.value.condition.elim [] fun condition => condition.origins)
  extendOrigins origins (dependency.value.required.elim [] fun required => required.origins)

/-- A health command text that the native command can carry. -/
def isRenderableArgument (argument : ProtectedString) : Bool :=
  !argument.expose.toList.any (· ∈ ['\x00', '%'])

def serviceHasRenderableHealthcheck (service : Service) : Bool :=
  match service.healthcheck with
  | none => false
  | some healthcheck =>
    if healthcheck.value.disabled.any fun disabled => disabled.value then false
    else
      match healthcheck.value.command.map Sourced.value with
      | some (.exec arguments) => !arguments.isEmpty && arguments.all isRenderableArgument
      | some (.shell value) => !value.expose.isEmpty && isRenderableArgument value
      | none => false

/-! ## The dependency graph -/

namespace Mapping
variable (m : Mapping)

/-- The service names in name order, each once. -/
def serviceNames : List String :=
  (m.application.services.map fun service => service.value.name.asStr).dedup.insertionSort (· ≤ ·)

/-- Every edge between declared services, from the target to the dependent service. -/
def dependencyEdges : List (CountedOrder.Edge String) :=
  m.application.services.flatMap fun service =>
    (service.value.dependencies.map fun dependency => dependency.value.service.asStr).filterMap
      fun target => if target ∈ m.serviceNames then some (target, service.value.name.asStr) else none

def dependencySubject (serviceName : String) (index : Nat) : Subject :=
  .serviceSetting serviceName ("dependencies[" ++ toString index ++ "]")

/-- Reports one edge whose required target is missing. -/
def validateDependencyTarget (dependent : String) (dependency : Sourced ServiceDependency)
    (index : Nat) : Mapped Bool :=
  let target := dependency.value.service.asStr
  if target ∉ m.serviceNames && isRequired dependency.value then do
    invalid Codes.dependencyInvalid (dependencySubject dependent index)
      "required service dependency does not exist in the application"
      ("referenced service `" ++ target ++ "` is missing") dependency.origins
    pure false
  else pure true

def validateDependencyTargets (service : Sourced Service) (valid : Bool) : Mapped Bool :=
  service.value.dependencies.zipIdx.foldlM (fun valid (dependency, index) => do
    let found ← m.validateDependencyTarget service.value.name.asStr dependency index
    pure (valid && found)) valid

def validateDependencyGraph : Mapped Bool := do
  let valid ← m.application.services.foldlM
    (fun valid service => m.validateDependencyTargets service valid) true
  if !valid then pure false
  else
    let order := CountedOrder.run m.dependencyEdges m.serviceNames
    if order.visited.length = m.serviceNames.length then pure true
    else do
      let cycle := m.serviceNames.filter fun name => 0 < order.indegree name
      invalid Codes.dependencyInvalid (.other "application.dependencies")
        "service dependency graph contains an ordering cycle"
        ("cycle includes: " ++ ", ".intercalate cycle)
        (m.application.services.flatMap fun service =>
          service.value.dependencies.flatMap Sourced.origins)
      pure false

/-! ## One dependency -/

section Dependency
variable (subject : Subject) (origins : List Provenance)

/-- A condition that has no unit entry, with what is reported for it. -/
def unsupportedCondition (target : Service) : ServiceDependencyCondition → Option (String × String)
  | .started => none
  | .healthy =>
    if serviceHasRenderableHealthcheck target then none
    else some ("healthy service dependency cannot be established for the target",
      "referenced service has no explicit, enabled, safely encodable health command")
  | .completedSuccessfully =>
    some ("successful-completion dependency has no verified Quadlet mapping",
      "ordinary Quadlet container services do not provide the required one-shot completion contract")
  | .other _ =>
    some ("source-specific dependency condition has no verified Quadlet mapping",
      "retain or replace the provider-specific condition manually")

def dependencyConditionSupported (dependency : ServiceDependency) (target : Service) : Mapped Bool :=
  match unsupportedCondition target (dependency.condition.elim .started Sourced.value) with
  | none => pure true
  | some (summary, reason) => do
    loss Codes.dependencyUnsupported subject .unsupported summary reason origins
    pure false

def mapDependencyRestart (restartSubject : Subject) (dependency : ServiceDependency) : Mapped Unit :=
  match dependency.restart with
  | none => pure ()
  | some restart =>
    if restart.value then
      loss Codes.dependencyUnsupported restartSubject .unsupported
        "Compose-controlled dependency restart propagation has no verified Quadlet mapping"
        "systemd runtime restart relationships are not equivalent to explicit Compose update operations"
        restart.origins
    else exact restartSubject restart.origins

def activationKey (required : Bool) : SystemdUnitKey := if required then .requires else .wants

def activationCapability (required : Bool) : String :=
  if required then "systemd.unit.requires" else "systemd.unit.wants"

/-- Pushes the activation and then the ordering entry; both or the edge is not exact. -/
def pushDependency (required : Bool) (targetUnit : String) (builder : UnitBuilder) :
    Mapped UnitBuilder := do
  let (activated, builder) ←
    m.push builder (.systemdUnit (activationKey required)) targetUnit subject origins
  if activated then
    let (ordered, builder) ← m.push builder (.systemdUnit .after) targetUnit subject origins
    if ordered then
      exact subject origins
    pure builder
  else pure builder

def mapDependencyUnits (required : Bool) (targetName : String) (builder : UnitBuilder) :
    Mapped UnitBuilder := do
  let activationSupported ← m.capability (activationCapability required) subject origins
  let orderingSupported ← m.capability "systemd.unit.after" subject origins
  if activationSupported && orderingSupported then
    m.pushDependency subject origins required (targetName ++ ".service") builder
  else pure builder

end Dependency

def findService (name : String) : Option Service :=
  (m.application.services.find? fun service => service.value.name.asStr = name).map Sourced.value

def mapServiceDependency (serviceName : String) (index : Nat)
    (dependency : Sourced ServiceDependency) (builder : UnitBuilder) : Mapped UnitBuilder :=
  let subject := dependencySubject serviceName index
  let targetName := dependency.value.service.asStr
  let origins := dependencyMappingOrigins dependency
  match m.findService targetName with
  | none => do
    loss Codes.dependencyUnsupported subject .unsupported
      "optional service dependency is absent from the application"
      ("optional service `" ++ targetName ++ "` cannot be ordered or activated") origins
    pure builder
  | some target => do
    if ← dependencyConditionSupported subject origins dependency.value target then
      let builder ← m.mapDependencyUnits subject origins (isRequired dependency.value) targetName
        builder
      mapDependencyRestart (.serviceSetting serviceName ("dependencies[" ++ toString index ++ "].restart"))
        dependency.value
      pure builder
    else pure builder

def mapServiceDependencies (service : Sourced Service) (builder : UnitBuilder) :
    Mapped UnitBuilder :=
  service.value.dependencies.zipIdx.foldlM
    (fun builder (dependency, index) =>
      m.mapServiceDependency service.value.name.asStr index dependency builder) builder

end Mapping
end Boxferry.Quadlet.Export
