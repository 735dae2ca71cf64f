import Boxferry.Engine.Outcome
import Boxferry.Library.Attempts
import Boxferry.Model.Application

/-! # Podman deployments

The deployment intent of the native Podman library. A native constructor checks
its arguments and keeps them; which arguments it refuses is a parameter. -/
namespace Boxferry.Podman
open Engine Model
set_option autoImplicit false

/-! ## Native values -/

inductive ResourceKind where
  | container
  | image
  | network
  | pod
  | secret
  | volume
deriving DecidableEq

structure DeploymentResourceId where
  kind : ResourceKind
  name : String
deriving DecidableEq

structure NativeError where
  code : String
  message : String
deriving DecidableEq

inductive MountAccess where
  | readOnly
  | readWrite
deriving DecidableEq

/-- A mount of a container. Named volumes are always copied into. -/
inductive ContainerMount where
  | namedVolume (source : DeploymentResourceId) (destination : String) (access : MountAccess)
  | tmpfs (destination : String) (access : MountAccess)
deriving DecidableEq

structure AttachedNetwork where
  network : DeploymentResourceId
  aliases : List String := []
deriving DecidableEq

inductive ImagePullPolicy where
  | always
  | missing
  | never
deriving DecidableEq

inductive ContainerRestartPolicy where
  | no
  | always
  | onFailure
  | unlessStopped
deriving DecidableEq

structure ContainerSettings where
  command : Option (List String) := none
  entrypoint : Option (List String) := none
  user : Option String := none
  workdir : Option String := none
  hostname : Option String := none
  labels : List (String × String) := []
  environment : List (String × String) := []
  restartPolicy : Option ContainerRestartPolicy := none
deriving DecidableEq

structure ContainerIntent where
  id : DeploymentResourceId
  image : DeploymentResourceId
  pod : Option DeploymentResourceId := none
  settings : ContainerSettings := {}
  mounts : List ContainerMount := []
  networks : List AttachedNetwork := []
deriving DecidableEq

structure PodIntent where
  id : DeploymentResourceId
  members : List DeploymentResourceId := []
deriving DecidableEq

inductive DeploymentResource where
  | network (id : DeploymentResourceId)
  | volume (id : DeploymentResourceId)
  | secret (id : DeploymentResourceId) (reference : String)
  | image (id : DeploymentResourceId) (source : String) (policy : ImagePullPolicy)
  | pod (intent : PodIntent)
  | container (intent : ContainerIntent)
  | externalPrecondition (id : DeploymentResourceId)
deriving DecidableEq

structure StartupDependency where
  predecessor : DeploymentResourceId
  dependent : DeploymentResourceId
deriving DecidableEq

structure DeploymentIntent where
  resources : List DeploymentResource
  dependencies : List StartupDependency
deriving DecidableEq

/-! ## Native library -/

/-- A native constructor or setter with the value it is to build. -/
inductive NativeCall where
  | resourceId (id : DeploymentResourceId)
  | resource (resource : DeploymentResource)
  | podMember (pod : PodIntent)
  | containerPod (container pod : DeploymentResourceId)
  | sensitiveInputReference (name : String)
  | imageSource (spelling : String)
  | argumentArray (arguments : List String)
  | containerCommand (arguments : List String)
  | containerEntrypoint (arguments : List String)
  | containerUser (spelling : String)
  | absoluteContainerPath (path : String)
  | containerWorkdir (path : String)
  | containerHostname (spelling : String)
  | labelKey (key : String)
  | publicLabelValue (value : String)
  | containerLabels (labels : List (String × String))
  | environmentName (name : String)
  | publicEnvironmentValue (value : String)
  | containerEnvironment (environment : List (String × String))
  | restartPolicy (policy : ContainerRestartPolicy)
  | mount (mount : ContainerMount)
  | networkAttachment (attachment : AttachedNetwork)
  | containerNetworks (networks : List AttachedNetwork)
  | startupDependency (edge : StartupDependency)

/-- The native library: the calls it refuses, its finding of an invalid deployment intent, and the
artifacts it plans and renders. -/
structure PodmanLens where
  rejects : NativeCall → Option NativeError
  invalidDeploymentIntent : NativeError
  render : DeploymentIntent → Option String

/-- A library that takes every value. -/
def PodmanLens.permissive : PodmanLens where
  rejects _ := none
  invalidDeploymentIntent := ⟨"", ""⟩
  render _ := some ""

/-! ## Subjects and events -/

inductive SubjectKind where
  | network
  | volume
  | secret
  | group
  | service
deriving DecidableEq

def SubjectKind.path : SubjectKind → String
  | .network => "networks"
  | .volume => "volumes"
  | .secret => "secrets"
  | .group => "groups"
  | .service => "services"

/-- What an outcome is about: the application, a resource, or a part of a resource. -/
inductive Subject where
  | application
  | resource (kind : SubjectKind) (name : String)
  | part (kind : SubjectKind) (name field : String)
deriving DecidableEq

def Subject.render : Subject → String
  | .application => "application"
  | .resource kind name => kind.path ++ "." ++ name
  | .part kind name field => kind.path ++ "." ++ name ++ "." ++ field

namespace Codes

def unsupported : DiagnosticCode := ⟨"BFP0007", by decide⟩
def planning : DiagnosticCode := ⟨"BFP0008", by decide⟩

end Codes

inductive Event where
  | exact (subject : Subject)
  | unsupported (subject : Subject) (summary : String)
  | error (subject : Subject) (summary : String)
  | nativeError (subject : Subject) (reason : NativeError)
  | resource (added : DeploymentResource)
  | dependency (edge : StartupDependency)
deriving DecidableEq

namespace Event

def outcome? : Event → Option ConversionOutcome
  | .exact subject => some (.exact subject.render)
  | .unsupported subject _ =>
    some ⟨subject.render, .unsupported, some Codes.unsupported, [], by simp⟩
  | .error subject _ | .nativeError subject _ =>
    some ⟨subject.render, .invalid, some Codes.planning, [], by simp⟩
  | .resource _ | .dependency _ => none

def diagnostic? : Event → Option Diagnostic
  | .unsupported subject summary => some ⟨Codes.unsupported, .warning, summary,
      [⟨"subject", .plain subject.render⟩, ⟨"reason", .plain summary⟩,
        ⟨"decision", .plain "omitted"⟩, ⟨"required_loss_policy", .plain "partial"⟩,
        ⟨"available_promotion", .plain "none"⟩,
        ⟨"remediation", .plain
          "Re-author the omitted field in target-compatible configuration or remove it after review; no automatic promotion exists."⟩]⟩
  | .error subject summary => some ⟨Codes.planning, .error, summary,
      [⟨"subject", .plain subject.render⟩, ⟨"reason", .plain summary⟩,
        ⟨"decision", .plain "rejected"⟩]⟩
  | .nativeError subject reason => some ⟨Codes.planning, .error,
      "PodmanLens could not map, plan, or render deployment intent",
      [⟨"subject", .plain subject.render⟩, ⟨"reason", .plain reason.message⟩,
        ⟨"decision", .plain "rejected"⟩]⟩
  | .exact _ | .resource _ | .dependency _ => none

/-- An event that takes the intent away. -/
def rejects : Event → Bool
  | .error _ _ | .nativeError _ _ => true
  | _ => false

def resource? : Event → Option DeploymentResource
  | .resource added => some added
  | _ => none

def dependency? : Event → Option StartupDependency
  | .dependency edge => some edge
  | _ => none

/-- The subject of a decision other than exact. -/
def loss? : Event → Option Subject
  | .unsupported subject _ | .error subject _ | .nativeError subject _ => some subject
  | _ => none

end Event

/-- The deployment intent a mapping keeps: an error drops it for good. -/
def keptIntent (log : List Event) : Option DeploymentIntent :=
  if log.any Event.rejects then none
  else some ⟨log.filterMap Event.resource?, log.filterMap Event.dependency?⟩

theorem keptIntent_eq_some {log : List Event} {intent : DeploymentIntent} :
    keptIntent log = some intent ↔ (∀ event ∈ log, event.rejects = false) ∧
      intent = ⟨log.filterMap Event.resource?, log.filterMap Event.dependency?⟩ := by
  unfold keptIntent
  by_cases hrejected : log.any Event.rejects = true
  · rw [if_pos hrejected]
    obtain ⟨event, hevent, hrejects⟩ := List.any_eq_true.mp hrejected
    constructor
    · intro h
      cases h
    · rintro ⟨hkept, -⟩
      rw [hkept event hevent] at hrejects
      cases hrejects
  · rw [if_neg hrejected]
    rw [Bool.not_eq_true, List.any_eq_false] at hrejected
    constructor
    · intro h
      exact ⟨fun event hevent => Bool.not_eq_true _ ▸ hrejected event hevent,
        (Option.some.inj h).symm⟩
    · rintro ⟨-, rfl⟩
      rfl

end Boxferry.Podman
