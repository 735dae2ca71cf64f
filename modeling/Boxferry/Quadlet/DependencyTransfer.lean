import Boxferry.Quadlet.Export.ExactEdges
import Boxferry.Quadlet.Import.Regrouped

/-! # Dependencies through unit files

An exact edge is written as two references and regrouped by its target when it
is read back. -/
namespace Boxferry.Quadlet.Import
open Engine Lens Model
set_option autoImplicit false

/-- The targets that the unit sections name in a relation. -/
def Occurs (serviceName : String) (serviceNames : List Identifier) (entries : List TypedEntry)
    (relation : UnitRelation) (target : String) : Prop :=
  ∃ entry ∈ entries, UnitRelation.ofKind entry.kind = some relation ∧
    target ∈ entryTargets serviceName serviceNames entry

/-- The edges a fresh service is imported with. -/
def importedEdges (source : QuadletSource) (fileName : String) (name : Identifier)
    (serviceNames : List Identifier) (sections : List TypedSection) : List NeutralEdge :=
  edges (importDependencies source fileName name.asStr serviceNames sections { name := name }).value

/-- A typed entry of the unit section that an emitted entry is read back as. -/
def ReadsAs (emitted : Export.UnitEntry) (entry : TypedEntry) : Prop :=
  ∃ key, emitted.key = .systemdUnit key ∧ entry.kind = .systemdUnit key ∧
    entry.primary.text = emitted.value ∧ entry.isContinued = false

/-- The entries of the unit sections that relate services. -/
def relationEntries (sections : List TypedSection) : List TypedEntry :=
  (unitEntries sections).filter fun entry => (UnitRelation.ofKind entry.kind).isSome

/-- The dependency on a target whose edges agree on being required. -/
def agreedEdge (exported : List ServiceDependency) (target : String) : Option NeutralEdge :=
  let required := (exported.filter fun edge => edge.service.asStr = target).map Export.isRequired
  if required.all (· = true) then some ⟨target, true, .started⟩
  else if required.all (· = false) then some ⟨target, false, .started⟩
  else none

section Read
variable {serviceName : String} {serviceNames : List Identifier} {source : QuadletSource}

theorem occurs_iff {entries : List TypedEntry} {relation : UnitRelation} {target : String} :
    Occurs serviceName serviceNames entries relation target ↔
      ∃ reference ∈ about target (entries.flatMap (entryReferences serviceName serviceNames source)),
        reference.relation = relation := by
  simp only [about, List.mem_filter, List.mem_flatMap, decide_eq_true_eq]
  constructor
  · rintro ⟨entry, hentry, hkind, htarget⟩
    refine ⟨⟨target, relation, source.entryOrigin entry⟩, ⟨⟨entry, hentry, ?_⟩, rfl⟩, rfl⟩
    unfold entryReferences
    rw [hkind]
    exact List.mem_map_of_mem htarget
  · rintro ⟨reference, ⟨⟨entry, hentry, hreference⟩, rfl⟩, rfl⟩
    unfold entryReferences at hreference
    split at hreference
    · cases hreference
    · next relation hkind =>
      obtain ⟨target, htarget, rfl⟩ := List.mem_map.mp hreference
      exact ⟨entry, hentry, hkind, htarget⟩

theorem mem_importedEdges {fileName : String} {name : Identifier} {sections : List TypedSection}
    {edge : NeutralEdge} :
    edge ∈ importedEdges source fileName name serviceNames sections ↔
      edge.condition = .started ∧
        Occurs name.asStr serviceNames (unitEntries sections) .after edge.target ∧
          Occurs name.asStr serviceNames (unitEntries sections) (.activation edge.required) edge.target ∧
            ¬ Occurs name.asStr serviceNames (unitEntries sections) (.activation !edge.required)
              edge.target := by
  unfold importedEdges
  rw [edges_importDependencies]
  show edge ∈ [] ++ _ ↔ _
  rw [List.nil_append, List.mem_flatMap]
  constructor
  · rintro ⟨target, -, hedge⟩
    obtain ⟨required, hflag, rfl⟩ := List.mem_map.mp hedge
    rw [Option.mem_toList, importedFlag_relationOf, mem_flags, mem_flags] at hflag
    rw [@occurs_iff _ _ source, @occurs_iff _ _ source, @occurs_iff _ _ source]
    exact ⟨rfl, hflag⟩
  · rintro ⟨hcondition, hoccurs⟩
    rw [@occurs_iff _ _ source, @occurs_iff _ _ source, @occurs_iff _ _ source] at hoccurs
    refine ⟨edge.target, ?_, List.mem_map.mpr ⟨edge.required, ?_, ?_⟩⟩
    · obtain ⟨reference, hreference, -⟩ := hoccurs.1
      obtain ⟨hmem, htarget⟩ := List.mem_filter.mp hreference
      rw [List.mem_eraseDups]
      exact List.mem_map.mpr ⟨reference, hmem, of_decide_eq_true htarget⟩
    · rw [Option.mem_toList, importedFlag_relationOf, mem_flags, mem_flags]
      exact hoccurs
    · rw [← hcondition]

/-! ## What is read back of an exported edge -/

theorem stripSuffix_append (text suffix : String) : stripSuffix suffix (text ++ suffix) = some text := by
  unfold stripSuffix
  rw [String.toList_append, if_pos (List.suffix_append _ _), List.length_append, Nat.add_sub_cancel,
    List.take_left, String.ofList_toList]

theorem stripSuffix_container (text : String) : stripSuffix ".container" (text ++ ".service") = none := by
  unfold stripSuffix
  rw [if_neg]
  rintro ⟨front, hfront⟩
  have hlast := congrArg List.getLast? hfront
  rw [String.toList_append, List.getLast?_append, List.getLast?_append] at hlast
  change some 'r' = some 'e' at hlast
  exact absurd hlast (by decide)

theorem unspaced_of_safe {value : String} (h : isSafeSystemdUnitName value = true) : Unspaced value := by
  unfold isSafeSystemdUnitName at h
  rw [Bool.and_eq_true, List.all_eq_true] at h
  intro ch hch
  exact (isPlain_of_mark (List.forall_iff_forall_mem.mp (by decide)) (h.2 ch hch)).1

/-- A target that a unit reference can name. -/
structure Referable (serviceName : String) (serviceNames : List Identifier) (target : String) : Prop where
  safe : isSafeSystemdUnitName (target ++ ".service") = true
  declared : target ∈ serviceNames.map Identifier.asStr
  other : target ≠ serviceName

theorem siblings_service {target : String} (h : Referable serviceName serviceNames target) :
    siblings serviceName serviceNames [target ++ ".service"] = [target] := by
  have hreference : siblingServiceReference (target ++ ".service") serviceNames = some target := by
    unfold siblingServiceReference
    rw [h.safe, stripSuffix_container, stripSuffix_append]
    simpa using h.declared
  unfold siblings
  simp [hreference, h.other]

theorem entryTargets_service {target : String} (h : Referable serviceName serviceNames target)
    {entry : TypedEntry} (htext : entry.primary.text = target ++ ".service")
    (hcontinued : entry.isContinued = false) :
    entryTargets serviceName serviceNames entry = [target] := by
  have hunspaced := unspaced_of_safe h.safe
  have hnonempty : target ++ ".service" ≠ "" := by simp
  unfold entryTargets
  rw [hcontinued, if_neg (by simp), htext, trim_of_unspaced hunspaced,
    splitAsciiWhitespace_of_unspaced hunspaced hnonempty, siblings_service h]

def UnitRelation.key : UnitRelation → SystemdUnitKey
  | .activation required => Export.Mapping.activationKey required
  | .after => .after

theorem UnitRelation.ofKind_key (relation : UnitRelation) :
    UnitRelation.ofKind (.systemdUnit relation.key) = some relation := by
  cases relation with
  | activation required => cases required <;> rfl
  | after => rfl

/-- The entry that states a relation to a target. -/
def relationEntry (named : String × UnitRelation) : Export.UnitEntry :=
  ⟨.systemdUnit named.2.key, named.1 ++ ".service"⟩

theorem references_read {named : List (String × UnitRelation)} {entries : List TypedEntry}
    (h : List.Forall₂ ReadsAs (named.map relationEntry) entries)
    (hnamed : ∀ pair ∈ named, Referable serviceName serviceNames pair.1) :
    (entries.flatMap (entryReferences serviceName serviceNames source)).map
      (fun reference => (reference.target, reference.relation)) = named := by
  induction named generalizing entries with
  | nil =>
    cases h
    rfl
  | cons pair named ih =>
    cases h with
    | @cons _ entry _ entries hfirst hrest =>
      obtain ⟨key, hkey, hkind, htext, hcontinued⟩ := hfirst
      have hreferences : entryReferences serviceName serviceNames source entry =
          [⟨pair.1, pair.2, source.entryOrigin entry⟩] := by
        have hsame : key = pair.2.key := by
          injection hkey with hkey
          exact hkey.symm
        unfold entryReferences
        rw [hkind, hsame, UnitRelation.ofKind_key,
          entryTargets_service (hnamed pair List.mem_cons_self) htext hcontinued]
        rfl
      rw [List.flatMap_cons, hreferences, List.map_append,
        ih hrest fun other hother => hnamed other (List.mem_cons_of_mem _ hother)]
      rfl

theorem references_relationEntries (sections : List TypedSection) :
    (relationEntries sections).flatMap (entryReferences serviceName serviceNames source) =
      (unitEntries sections).flatMap (entryReferences serviceName serviceNames source) := by
  unfold relationEntries
  induction unitEntries sections with
  | nil => rfl
  | cons entry entries ih =>
    rw [List.filter_cons, List.flatMap_cons]
    cases hkind : UnitRelation.ofKind entry.kind with
    | some relation =>
      simp only [Option.isSome_some, if_true, List.flatMap_cons, ih]
    | none =>
      have hnone : entryReferences serviceName serviceNames source entry = [] := by
        unfold entryReferences
        rw [hkind]
      simp only [Option.isSome_none, Bool.false_eq_true, if_false, ih, hnone, List.nil_append]

/-! ## Regrouping -/

/-- The relations that an exported edge states. -/
def statedBy (edge : ServiceDependency) : List (String × UnitRelation) :=
  [(edge.service.asStr, .activation (Export.isRequired edge)), (edge.service.asStr, .after)]

theorem mention_statedBy (exported : List ServiceDependency) (seen : List String) :
    ((exported.flatMap statedBy).map Prod.fst).foldl mention seen =
      (exported.map fun edge => edge.service.asStr).foldl mention seen := by
  induction exported generalizing seen with
  | nil => rfl
  | cons edge exported ih =>
    rw [List.flatMap_cons, List.map_append, List.foldl_append, ih, List.map_cons, List.foldl_cons]
    congr 1
    show mention (mention seen edge.service.asStr) edge.service.asStr = mention seen edge.service.asStr
    have hmem : edge.service.asStr ∈ mention seen edge.service.asStr := by
      unfold mention
      split
      · assumption
      · exact List.mem_append_right _ List.mem_cons_self
    rw [mention, if_pos hmem]

theorem mem_statedBy {exported : List ServiceDependency} {target : String} {relation : UnitRelation} :
    (target, relation) ∈ exported.flatMap statedBy ↔
      ∃ edge ∈ exported, edge.service.asStr = target ∧
        (relation = .activation (Export.isRequired edge) ∨ relation = .after) := by
  simp only [statedBy, List.mem_flatMap, List.mem_cons, Prod.mk.injEq, List.not_mem_nil, or_false]
  constructor
  · rintro ⟨edge, hedge, ⟨hfirst, hsecond⟩ | ⟨hfirst, hsecond⟩⟩
    · exact ⟨edge, hedge, hfirst.symm, Or.inl hsecond⟩
    · exact ⟨edge, hedge, hfirst.symm, Or.inr hsecond⟩
  · rintro ⟨edge, hedge, hfirst, hsecond⟩
    rcases hsecond with hsecond | hsecond
    · exact ⟨edge, hedge, Or.inl ⟨hfirst.symm, hsecond⟩⟩
    · exact ⟨edge, hedge, Or.inr ⟨hfirst.symm, hsecond⟩⟩

/-- An edge is agreed on when every exported edge to its target has its flag. -/
theorem agreedEdge_eq_some {exported : List ServiceDependency} {target : String} {required : Bool}
    (h : ∃ edge ∈ exported, edge.service.asStr = target) :
    agreedEdge exported target = some ⟨target, required, .started⟩ ↔
      ∀ edge ∈ exported, edge.service.asStr = target → Export.isRequired edge = required := by
  obtain ⟨known, hknown, htarget⟩ := h
  have hall (flag : Bool) :
      (((exported.filter fun edge => edge.service.asStr = target).map Export.isRequired).all
        (· = flag)) = true ↔
          ∀ edge ∈ exported, edge.service.asStr = target → Export.isRequired edge = flag := by
    simp [imp_iff_not_or]
  unfold agreedEdge
  dsimp only
  cases required with
  | true =>
    rw [← hall true]
    constructor
    · intro h
      split at h
      · assumption
      · split at h
        · cases h
        · cases h
    · intro h
      rw [if_pos h]
  | false =>
    rw [← hall false]
    constructor
    · intro h
      split at h
      · cases h
      · split at h
        · assumption
        · cases h
    · intro h
      rw [if_pos h, if_neg]
      intro htrue
      have hfirst := (hall true).mp htrue known hknown htarget
      rw [(hall false).mp h known hknown htarget] at hfirst
      cases hfirst

theorem agreedEdge_started {exported : List ServiceDependency} {target : String} {edge : NeutralEdge}
    (h : agreedEdge exported target = some edge) : edge = ⟨target, edge.required, .started⟩ := by
  unfold agreedEdge at h
  dsimp only at h
  split at h
  · cases h
    rfl
  · split at h
    · cases h
      rfl
    · cases h

/-- The references read back of exported edges import the edges that agree. -/
theorem importedFlag_stated {exported : List ServiceDependency} {references : List Reference}
    (h : references.map (fun reference => (reference.target, reference.relation)) =
      exported.flatMap statedBy) {target : String}
    (htarget : ∃ edge ∈ exported, edge.service.asStr = target) :
    (importedFlag (relationOf (about target references))).map
        (fun required => (⟨target, required, .started⟩ : NeutralEdge)) =
      agreedEdge exported target := by
  have hstated (relation : UnitRelation) :
      (∃ reference ∈ about target references, reference.relation = relation) ↔
        ∃ edge ∈ exported, edge.service.asStr = target ∧
          (relation = .activation (Export.isRequired edge) ∨ relation = .after) := by
    rw [← mem_statedBy, ← h, List.mem_map]
    simp only [about, List.mem_filter, decide_eq_true_eq, Prod.mk.injEq, and_assoc]
  have hflag (required : Bool) :
      importedFlag (relationOf (about target references)) = some required ↔
        ∀ edge ∈ exported, edge.service.asStr = target → Export.isRequired edge = required := by
    rw [importedFlag_relationOf, mem_flags, mem_flags, hstated, hstated, hstated]
    obtain ⟨known, hknown, hsame⟩ := htarget
    constructor
    · rintro ⟨-, -, hother⟩ edge hedge hedgeTarget
      by_contra hdiffers
      refine hother ⟨edge, hedge, hedgeTarget, Or.inl ?_⟩
      cases hflag : Export.isRequired edge <;> cases required <;> simp_all
    · intro hall
      refine ⟨⟨known, hknown, hsame, Or.inr rfl⟩,
        ⟨known, hknown, hsame, Or.inl (by rw [hall known hknown hsame])⟩, ?_⟩
      rintro ⟨edge, hedge, hedgeTarget, hrelation⟩
      rw [hall edge hedge hedgeTarget] at hrelation
      simp at hrelation
  apply Option.ext
  intro edge
  rw [Option.map_eq_some_iff]
  constructor
  · rintro ⟨required, hrequired, rfl⟩
    exact (agreedEdge_eq_some htarget).mpr ((hflag required).mp hrequired)
  · intro hedge
    have hshape := agreedEdge_started hedge
    rw [hshape] at hedge
    exact ⟨edge.required, (hflag _).mpr ((agreedEdge_eq_some htarget).mp hedge), hshape.symm⟩

/-- What is imported of the entries of exported edges. -/
theorem importedEdges_read {fileName : String} {name : Identifier} {sections : List TypedSection}
    {exported : List ServiceDependency}
    (h : List.Forall₂ ReadsAs (exported.flatMap fun edge =>
      Export.Mapping.dependencyEntries (Export.isRequired edge) edge.service.asStr)
        (relationEntries sections))
    (hreferable : ∀ edge ∈ exported, Referable name.asStr serviceNames edge.service.asStr) :
    importedEdges source fileName name serviceNames sections =
      (exported.map fun edge => edge.service.asStr).eraseDups.filterMap (agreedEdge exported) := by
  have hentries : (exported.flatMap fun edge =>
      Export.Mapping.dependencyEntries (Export.isRequired edge) edge.service.asStr) =
        (exported.flatMap statedBy).map relationEntry := by
    rw [List.map_flatMap]
    rfl
  rw [hentries] at h
  have hnamed : ∀ pair ∈ exported.flatMap statedBy, Referable name.asStr serviceNames pair.1 := by
    rintro ⟨target, relation⟩ hpair
    obtain ⟨edge, hedge, rfl, -⟩ := mem_statedBy.mp hpair
    exact hreferable edge hedge
  have hreferences := @references_read name.asStr serviceNames source _ _ h hnamed
  rw [references_relationEntries] at hreferences
  have htargets : ((unitEntries sections).flatMap
      (entryReferences name.asStr serviceNames source)).map Reference.target =
        (exported.flatMap statedBy).map Prod.fst := by
    rw [← hreferences, List.map_map]
    rfl
  unfold importedEdges
  rw [edges_importDependencies, htargets, ← foldl_mention_nil, mention_statedBy, foldl_mention_nil,
    List.filterMap_eq_flatMap_toList]
  show [] ++ _ = _
  rw [List.nil_append]
  refine List.flatMap_congr fun target htarget => ?_
  rw [List.mem_eraseDups, List.mem_map] at htarget
  rw [← importedFlag_stated hreferences htarget]
  cases importedFlag (relationOf (about target _)) <;> rfl

end Read

/-! ## Service dependencies -/

theorem exists_importedEdges_iff {source : QuadletSource} {fileName : String} {name : Identifier}
    {serviceNames : List Identifier} {sections : List TypedSection} {target : String} :
    (∃ edge ∈ importedEdges source fileName name serviceNames sections, edge.target = target) ↔
      Occurs name.asStr serviceNames (unitEntries sections) .after target ∧
        Xor (Occurs name.asStr serviceNames (unitEntries sections) (.activation true) target)
          (Occurs name.asStr serviceNames (unitEntries sections) (.activation false) target) := by
  simp only [mem_importedEdges]
  constructor
  · rintro ⟨⟨target, required, condition⟩, ⟨-, hafter, hactivated, hother⟩, rfl⟩
    refine ⟨hafter, ?_⟩
    cases required with
    | true => exact Or.inl ⟨hactivated, hother⟩
    | false => exact Or.inr ⟨hactivated, hother⟩
  · rintro ⟨hafter, ⟨hactivated, hother⟩ | ⟨hactivated, hother⟩⟩
    · exact ⟨⟨target, true, .started⟩, ⟨rfl, hafter, hactivated, hother⟩, rfl⟩
    · exact ⟨⟨target, false, .started⟩, ⟨rfl, hafter, hactivated, hother⟩, rfl⟩

theorem Occurs.perm {serviceName target : String} {serviceNames : List Identifier}
    {entries others : List TypedEntry} {relation : UnitRelation} (h : entries.Perm others) :
    Occurs serviceName serviceNames entries relation target ↔
      Occurs serviceName serviceNames others relation target := by
  unfold Occurs
  simp only [h.mem_iff]

theorem mem_importedEdges_perm {source : QuadletSource} {fileName : String} {name : Identifier}
    {serviceNames : List Identifier} {sections others : List TypedSection}
    (h : (unitEntries sections).Perm (unitEntries others)) {edge : NeutralEdge} :
    edge ∈ importedEdges source fileName name serviceNames sections ↔
      edge ∈ importedEdges source fileName name serviceNames others := by
  rw [mem_importedEdges, mem_importedEdges, Occurs.perm h, Occurs.perm h, Occurs.perm h]

/-- Exact edges to a target with one flag are one imported dependency, and any unit section imports
the targets that it orders after and activates in exactly one way. -/
theorem dependencies_transferred :
    (∀ (m : Export.Mapping) (service : Sourced Service) (serviceNames : List Identifier)
        (source : QuadletSource) (fileName : String) (sections : List TypedSection),
      service ∈ m.application.services → m.validateDependencyGraph.value = true →
      .generationFailed ∉ (m.mapServiceDependencies service ⟨.container, []⟩).log →
      (∀ name, name ∈ serviceNames.map Identifier.asStr ↔ name ∈ m.serviceNames) →
      (∀ edge ∈ m.exactEdges service,
        isSafeSystemdUnitName (edge.service.asStr ++ ".service") = true) →
      List.Forall₂ ReadsAs (m.mapServiceDependencies service ⟨.container, []⟩).value.entries
        (relationEntries sections) →
      importedEdges source fileName service.value.name serviceNames sections =
        ((m.exactEdges service).map fun edge => edge.service.asStr).eraseDups.filterMap
          (agreedEdge (m.exactEdges service))) ∧
    (∀ (source : QuadletSource) (fileName : String) (name : Identifier)
        (serviceNames : List Identifier) (sections : List TypedSection) (target : String),
      (∃ edge ∈ importedEdges source fileName name serviceNames sections, edge.target = target) ↔
        Occurs name.asStr serviceNames (unitEntries sections) .after target ∧
          Xor (Occurs name.asStr serviceNames (unitEntries sections) (.activation true) target)
            (Occurs name.asStr serviceNames (unitEntries sections) (.activation false) target)) ∧
    (∀ (source : QuadletSource) (fileName : String) (name : Identifier)
        (serviceNames : List Identifier) (sections others : List TypedSection) (edge : NeutralEdge),
      (unitEntries sections).Perm (unitEntries others) →
        (edge ∈ importedEdges source fileName name serviceNames sections ↔
          edge ∈ importedEdges source fileName name serviceNames others)) := by
  refine ⟨?_, fun _ _ _ _ _ _ => exists_importedEdges_iff, fun _ _ _ _ _ _ _ h =>
    mem_importedEdges_perm h⟩
  intro m service serviceNames source fileName sections hservice haccepted hgenerated hnames hsafe hread
  obtain ⟨hexact, hentries⟩ := m.exactEdges_generated hgenerated
  rw [hentries] at hread
  refine importedEdges_read hread fun edge hedge => ?_
  have hmapped := hedge
  rw [hexact, List.mem_map] at hmapped
  obtain ⟨⟨dependency, index⟩, hmem, rfl⟩ := hmapped
  obtain ⟨hposition, hmapped⟩ := List.mem_filter.mp hmem
  have hdeclared := m.mem_serviceNames_of_isMapped hmapped
  exact ⟨hsafe _ hedge, (hnames _).mpr hdeclared,
    m.ne_of_validateDependencyGraph haccepted hservice (List.fst_mem_of_mem_zipIdx hposition) hdeclared⟩

/-! ## A service that waits for a healthy one -/

def demoOrigin : Provenance := ⟨.sourceDocument, ⟨"demo", SourceId.valid_demo⟩, none⟩

def demoSource : QuadletSource :=
  ⟨⟨"demo", Identifier.valid_demo⟩, [], fun _ => ⟨"demo", SourceId.valid_demo⟩⟩

def databaseName : Identifier := ⟨"db", Identifier.valid_db⟩

def healthyDatabase : Service where
  name := databaseName
  healthcheck := some ⟨{ command := some ⟨.shell ⟨"true", false⟩, [demoOrigin]⟩ }, [demoOrigin]⟩

def waitingService (condition : ServiceDependencyCondition) : Service where
  name := ⟨"web", Identifier.valid_web⟩
  dependencies := [⟨⟨databaseName, some ⟨condition, [demoOrigin]⟩, none, none⟩, [demoOrigin]⟩]

def waitingMapping (condition : ServiceDependencyCondition) : Export.Mapping where
  exporter := ⟨.permissive, .separateContainers, none⟩
  application :=
    { Application.new ⟨"demo", Identifier.valid_demo⟩ with
      services := [⟨waitingService condition, []⟩, ⟨healthyDatabase, []⟩] }
  podmanTarget := some ⟨⟨5, 0, 0⟩, none⟩

def relationLine (key : SystemdUnitKey) (text : String) : TypedEntry :=
  ⟨"Key", .systemdUnit key, true, .other, ⟨text, ⟨0, 0, 0, NativeSpan.ordered_start⟩⟩, []⟩

def waitingSections : List TypedSection :=
  [⟨"Unit", .unit, [relationLine .requires "db.service", relationLine .after "db.service"]⟩]

theorem waitingSections_read (condition : ServiceDependencyCondition)
    (h : ((waitingMapping condition).mapServiceDependencies ⟨waitingService condition, []⟩
      ⟨.container, []⟩).value.entries =
        [⟨.systemdUnit .requires, "db.service"⟩, ⟨.systemdUnit .after, "db.service"⟩]) :
    List.Forall₂ ReadsAs ((waitingMapping condition).mapServiceDependencies
      ⟨waitingService condition, []⟩ ⟨.container, []⟩).value.entries (relationEntries waitingSections) := by
  rw [h]
  exact .cons ⟨.requires, rfl, rfl, rfl, rfl⟩ (.cons ⟨.after, rfl, rfl, rfl, rfl⟩ .nil)

/-- No edge waits only for a start, but one is imported that does. -/
theorem healthy_edge_imported_started :
    (waitingMapping .healthy).validateDependencyGraph.value = true ∧
    ((waitingMapping .healthy).exactEdges ⟨waitingService .healthy, []⟩).map NeutralEdge.of =
      [⟨"db", true, .healthy⟩] ∧
    List.Forall₂ ReadsAs ((waitingMapping .healthy).mapServiceDependencies
      ⟨waitingService .healthy, []⟩ ⟨.container, []⟩).value.entries (relationEntries waitingSections) ∧
    importedEdges demoSource "web.container" ⟨"web", by decide⟩ [⟨"web", by decide⟩, databaseName]
      waitingSections = [⟨"db", true, .started⟩] :=
  ⟨by decide +kernel, by decide +kernel, waitingSections_read .healthy (by decide +kernel),
    by decide +kernel⟩

theorem started_edge_transferred :
    importedEdges demoSource "web.container" ⟨"web", by decide⟩ [⟨"web", by decide⟩, databaseName]
        waitingSections =
      (((waitingMapping .started).exactEdges ⟨waitingService .started, []⟩).map
        fun edge => edge.service.asStr).eraseDups.filterMap
          (agreedEdge ((waitingMapping .started).exactEdges ⟨waitingService .started, []⟩)) := by
  refine dependencies_transferred.1 (waitingMapping .started) ⟨waitingService .started, []⟩
    [⟨"web", by decide⟩, databaseName] demoSource "web.container" waitingSections
    List.mem_cons_self (by decide +kernel) (by decide +kernel) ?_ (by decide +kernel)
    (waitingSections_read .started (by decide +kernel))
  have hnames : (waitingMapping .started).serviceNames = ["db", "web"] := by decide +kernel
  intro name
  rw [hnames]
  simp [databaseName, or_comm]

end Boxferry.Quadlet.Import
