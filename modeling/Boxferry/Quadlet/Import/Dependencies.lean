import Boxferry.Model.Text
import Boxferry.Model.Service
import Boxferry.Quadlet.Import.Scalars

/-! # Imported dependencies

Activation and ordering references of the unit sections, regrouped by the
service they name. A service that is both activated and ordered after is a
neutral dependency; everything else is reported. -/
namespace Boxferry.Quadlet.Import
open Engine Lens Model
set_option autoImplicit false

/-! ## References -/

def isSafeSystemdUnitName (value : String) : Bool :=
  value.toList.head?.any Char.isAlphanum && value.toList.getLast?.any Char.isAlphanum &&
    value.toList.all fun ch => ch.isAlphanum || ch ∈ ['.', '_', '-']

/-- `str::strip_suffix`. -/
def stripSuffix (suffix text : String) : Option String :=
  if suffix.toList <:+ text.toList then
    some (String.ofList (text.toList.take (text.toList.length - suffix.toList.length)))
  else none

def siblingServiceReference (value : String) (serviceNames : List Identifier) : Option String :=
  if !isSafeSystemdUnitName value then none
  else do
    let service ← (stripSuffix ".container" value).or (stripSuffix ".service" value)
    if service ∈ serviceNames.map Identifier.asStr then some service else none

/-! ## Relations -/

structure DependencyActivation where
  required : Bool
  origins : List Provenance
deriving DecidableEq

structure DependencyRelation where
  activation : Option DependencyActivation := none
  conflictingActivation : Bool := false
  afterOrigins : List Provenance := []
deriving DecidableEq

/-- The relations of one unit by target, and the targets in the order of first mention. -/
structure DependencyRelations where
  order : List String := []
  byService : String → Option DependencyRelation := fun _ => none

def DependencyRelation.recordActivation (relation : DependencyRelation) (required : Bool)
    (origin : Provenance) : DependencyRelation :=
  match relation.activation with
  | some activation =>
    if activation.required = required then
      { relation with activation := some ⟨required, activation.origins ++ [origin]⟩ }
    else { relation with conflictingActivation := true }
  | none => { relation with activation := some ⟨required, [origin]⟩ }

def DependencyRelation.recordAfter (relation : DependencyRelation) (origin : Provenance) :
    DependencyRelation :=
  { relation with afterOrigins := relation.afterOrigins ++ [origin] }

namespace DependencyRelations

/-- `relation_mut`: changes the relation of a service, which a first mention creates. -/
def change (relations : DependencyRelations) (service : String)
    (update : DependencyRelation → DependencyRelation) : DependencyRelations where
  order := if (relations.byService service).isNone then relations.order ++ [service] else relations.order
  byService := Function.update relations.byService service
    (some (update ((relations.byService service).getD {})))

def recordActivation (relations : DependencyRelations) (service : String) (required : Bool)
    (origin : Provenance) : DependencyRelations :=
  relations.change service fun relation => relation.recordActivation required origin

def recordAfter (relations : DependencyRelations) (service : String) (origin : Provenance) :
    DependencyRelations :=
  relations.change service fun relation => relation.recordAfter origin

end DependencyRelations

/-! ## Collecting -/

/-- What a unit key says about the services it names: their activation, or that they come first. -/
inductive UnitRelation where
  | activation (required : Bool)
  | after
deriving DecidableEq

def UnitRelation.ofKind : EntryKind → Option UnitRelation
  | .systemdUnit .requires => some (.activation true)
  | .systemdUnit .wants => some (.activation false)
  | .systemdUnit .after => some .after
  | _ => none

section Collecting
variable (serviceName : String) (serviceNames : List Identifier)

def recordRelation (relation : UnitRelation) (target : String) (origin : Provenance)
    (relations : DependencyRelations) : DependencyRelations :=
  match relation with
  | .activation required => relations.recordActivation target required origin
  | .after => relations.recordAfter target origin

/-- One reference of an entry. -/
def collectReference (itemSubject : String) (relation : UnitRelation) (origin : Provenance)
    (answer : Answer DependencyRelations) (reference : String) : Answer DependencyRelations :=
  match siblingServiceReference reference serviceNames with
  | none =>
    ⟨answer.reports ++ [(itemSubject, .unsupported
      "systemd dependency is not an unescaped reference to a sibling .container or generated .service unit")],
      answer.state⟩
  | some target =>
    if target = serviceName then
      ⟨answer.reports ++ [(itemSubject, .invalid "a service cannot depend on itself")], answer.state⟩
    else ⟨answer.reports, recordRelation relation target origin answer.state⟩

def collectUnitRelationEntry (entry : TypedEntry) (relation : UnitRelation) (origin : Provenance)
    (relations : DependencyRelations) : Answer DependencyRelations :=
  let subject := serviceField serviceName ("quadlet." ++ entry.key)
  direct subject entry relations fun value =>
    let references := splitAsciiWhitespace value
    if references.isEmpty then
      .one subject
        (.unsupported "empty systemd dependency directives do not define a neutral service edge")
        relations
    else
      references.zipIdx.foldl (fun answer (reference, index) =>
        collectReference serviceName serviceNames (subject ++ "[" ++ toString index ++ "]") relation
          origin answer reference) ⟨[], relations⟩

def unsupportedEntry (entry : TypedEntry) (relations : DependencyRelations) :
    Answer DependencyRelations :=
  .one (serviceField serviceName ("quadlet." ++ entry.key)) .unmapped relations

def collectUnitRelations (source : QuadletSource) (fileName : String) (entries : List TypedEntry)
    (relations : DependencyRelations) : Imported DependencyRelations :=
  entries.foldlM (fun relations entry =>
    let origin := source.entryOrigin entry
    let answer := match UnitRelation.ofKind entry.kind with
      | none => unsupportedEntry serviceName entry relations
      | some relation =>
        collectUnitRelationEntry serviceName serviceNames entry relation origin relations
    answer.settle fileName entry origin) relations

/-- The unit sections of a document, in order. Vendor sections are no unit sections. -/
def unitEntries (sections : List TypedSection) : List TypedEntry :=
  (sections.filter fun part => !startsWith part.name "X-" && part.kind = .unit).flatMap
    TypedSection.entries

end Collecting

/-! ## Mapping -/

def activationKey (activation : DependencyActivation) : String :=
  if activation.required then "Requires" else "Wants"

def neutralDependency (target : Identifier) (activation : DependencyActivation)
    (afterOrigins : List Provenance) : Sourced ServiceDependency :=
  ⟨{ service := target
     condition := some ⟨.started, afterOrigins⟩
     restart := none
     required := some ⟨activation.required, activation.origins⟩ },
    activation.origins ++ afterOrigins⟩

/-- One relation: an activation with an ordering, without a conflict, is a dependency. -/
def mapUnitRelation (fileName serviceName target : String) (relation : DependencyRelation)
    (service : Service) : Imported Service :=
  let subject := serviceField serviceName
    ("dependencies[" ++ toString service.dependencies.length ++ "]")
  if relation.conflictingActivation then do
    Reports.report (.invalid subject fileName
      "the same service is declared through both Requires and Wants"
      (relation.activation.bind fun activation => activation.origins.head?))
    pure service
  else
    match relation.activation with
    | none => do
      relation.afterOrigins.head?.toList.forM fun origin =>
        Reports.report (.unsupported subject fileName "After"
          (some "After without Requires or Wants is ordering only and cannot become a neutral service dependency")
          [origin])
      pure service
    | some activation =>
      if relation.afterOrigins.isEmpty then do
        activation.origins.head?.toList.forM fun origin =>
          Reports.report (.unsupported subject fileName (activationKey activation)
            (some "Requires or Wants without After activates a unit but does not express neutral startup ordering")
            [origin])
        pure service
      else
        match Identifier.new target with
        | .error _ => pure service
        | .ok name => do
          let dependency := neutralDependency name activation relation.afterOrigins
          Reports.report (.exact subject dependency.origins)
          pure { service with dependencies := service.dependencies ++ [dependency] }

/-- The order names every service once, so that a relation is mapped once. -/
def mapUnitRelations (fileName serviceName : String) (relations : DependencyRelations)
    (service : Service) : Imported Service :=
  relations.order.foldlM (fun service target =>
    match relations.byService target with
    | none => pure service
    | some relation => mapUnitRelation fileName serviceName target relation service) service

/-- The part of `map_container` that reads the unit sections of a document. -/
def importDependencies (source : QuadletSource) (fileName serviceName : String)
    (serviceNames : List Identifier) (sections : List TypedSection) (service : Service) :
    Imported Service := do
  let relations ← collectUnitRelations serviceName serviceNames source fileName (unitEntries sections) {}
  mapUnitRelations fileName serviceName relations service

end Boxferry.Quadlet.Import
