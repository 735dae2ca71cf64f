import Boxferry.Quadlet.Export.Dependencies
import Boxferry.Quadlet.Import.Dependencies

/-! # Regrouped references

The relations of a unit hold, for every target, what the references to it say.
A target is imported when it is ordered after and activated in one way. -/
namespace Boxferry.Quadlet.Import
open Engine Lens Model
set_option autoImplicit false

/-! ## First mentions -/

/-- Adds an item that is not there yet. -/
def mention {α : Type} [DecidableEq α] (seen : List α) (item : α) : List α :=
  if item ∈ seen then seen else seen ++ [item]

theorem foldl_mention {α : Type} [DecidableEq α] (items seen : List α) :
    items.foldl mention seen = seen ++ (items.filter (· ∉ seen)).eraseDups := by
  induction items generalizing seen with
  | nil => simp
  | cons item items ih =>
    rw [List.foldl_cons, ih, mention]
    by_cases hseen : item ∈ seen
    · rw [if_pos hseen, List.filter_cons_of_neg (by simpa using hseen)]
    · rw [if_neg hseen, List.filter_cons_of_pos (by simpa using hseen), List.eraseDups_cons,
        List.filter_filter, List.append_assoc]
      have hnew : items.filter (fun other => decide (other ∉ seen ++ [item])) =
          items.filter fun other => !other == item && decide (other ∉ seen) := by
        refine List.filter_congr fun other _ => ?_
        simp [beq_eq_decide, and_comm]
      rw [hnew]
      rfl

theorem foldl_mention_nil {α : Type} [DecidableEq α] (items : List α) :
    items.foldl mention [] = items.eraseDups := by
  rw [foldl_mention, List.nil_append]
  congr 1
  simp

/-! ## Recorded references -/

/-- A reference to a sibling service with what it says and where it stands. -/
structure Reference where
  target : String
  relation : UnitRelation
  origin : Provenance

def Reference.record (relations : DependencyRelations) (reference : Reference) :
    DependencyRelations :=
  recordRelation reference.relation reference.target reference.origin relations

/-- What one reference adds to the relation of its target. -/
def DependencyRelation.record (relation : DependencyRelation) (reference : Reference) :
    DependencyRelation :=
  match reference.relation with
  | .activation required => relation.recordActivation required reference.origin
  | .after => relation.recordAfter reference.origin

theorem record_eq_change (relations : DependencyRelations) (reference : Reference) :
    reference.record relations =
      relations.change reference.target fun relation => relation.record reference := by
  unfold Reference.record recordRelation DependencyRelation.record
  cases reference.relation <;> rfl

/-- The relation of the references to one target. -/
def relationOf (references : List Reference) : DependencyRelation :=
  references.foldl DependencyRelation.record {}

/-- A target without references has no relation. -/
def relationOf? (references : List Reference) : Option DependencyRelation :=
  if references.isEmpty then none else some (relationOf references)

theorem relationOf?_append (references : List Reference) (reference : Reference) :
    relationOf? (references ++ [reference]) =
      some (((relationOf? references).getD {}).record reference) := by
  unfold relationOf? relationOf
  rw [List.foldl_append]
  cases references <;> simp

def about (target : String) (references : List Reference) : List Reference :=
  references.filter fun reference => reference.target = target

/-- Relations that hold what references say about each target. -/
structure Records (references : List Reference) (relations : DependencyRelations) : Prop where
  order : relations.order = (references.map Reference.target).foldl mention []
  byService : ∀ target, relations.byService target = relationOf? (about target references)

theorem records_nil : Records [] {} := ⟨rfl, fun _ => rfl⟩

theorem isNone_relationOf?_about {target : String} {references : List Reference} :
    (relationOf? (about target references)).isNone = true ↔
      target ∉ references.map Reference.target := by
  unfold relationOf? about
  by_cases hempty : (references.filter fun reference => reference.target = target).isEmpty
  · rw [if_pos hempty]
    simpa using hempty
  · rw [if_neg hempty]
    simpa using hempty

theorem Records.record {references : List Reference} {relations : DependencyRelations}
    (h : Records references relations) (reference : Reference) :
    Records (references ++ [reference]) (reference.record relations) := by
  rw [record_eq_change]
  constructor
  · rw [List.map_append, List.foldl_append, ← h.order]
    show (if (relations.byService reference.target).isNone then _ else _) = mention relations.order _
    have hmem : reference.target ∈ relations.order ↔
        reference.target ∈ references.map Reference.target := by
      rw [h.order, foldl_mention_nil, List.mem_eraseDups]
    unfold mention
    by_cases hnew : (relations.byService reference.target).isNone = true
    · rw [if_pos hnew]
      rw [h.byService, isNone_relationOf?_about] at hnew
      rw [if_neg fun hknown => hnew (hmem.mp hknown)]
    · rw [if_neg hnew]
      rw [h.byService, isNone_relationOf?_about, not_not] at hnew
      rw [if_pos (hmem.mpr hnew)]
  · intro target
    show Function.update relations.byService _ _ target = _
    unfold about
    rw [List.filter_append]
    by_cases htarget : target = reference.target
    · have hlast : [reference].filter (fun reference => reference.target = target) = [reference] := by
        simp [htarget]
      rw [hlast, htarget, Function.update_self, h.byService, relationOf?_append]
      rfl
    · have hlast : [reference].filter (fun reference => reference.target = target) = [] := by
        simp [Ne.symm htarget]
      rw [hlast, Function.update_of_ne htarget, h.byService, List.append_nil]
      rfl

theorem records_foldl (references : List Reference) :
    Records references (references.foldl Reference.record {}) := by
  have hgeneral : ∀ (rest done : List Reference) (relations : DependencyRelations),
      Records done relations → Records (done ++ rest) (rest.foldl Reference.record relations) := by
    intro rest
    induction rest with
    | nil =>
      intro done relations h
      rw [List.append_nil]
      exact h
    | cons reference rest ih =>
      intro done relations h
      have hnext := ih (done ++ [reference]) _ (h.record reference)
      rw [List.append_assoc] at hnext
      exact hnext
  exact hgeneral references [] {} records_nil

/-! ## What a relation is mapped to -/

def UnitRelation.required? : UnitRelation → Option Bool
  | .activation required => some required
  | .after => none

theorem UnitRelation.required?_eq_some {relation : UnitRelation} {required : Bool} :
    relation.required? = some required ↔ relation = .activation required := by
  cases relation <;> simp [required?]

def flags (references : List Reference) : List Bool :=
  references.filterMap fun reference => reference.relation.required?

theorem mem_flags {references : List Reference} {required : Bool} :
    required ∈ flags references ↔
      ∃ reference ∈ references, reference.relation = .activation required := by
  simp only [flags, List.mem_filterMap, UnitRelation.required?_eq_some]

/-- A relation keeps the first activation, whether another one differs, and every ordering. -/
structure Summarizes (references : List Reference) (relation : DependencyRelation) : Prop where
  activation : relation.activation.map DependencyActivation.required = (flags references).head?
  conflict : relation.conflictingActivation = true ↔
    ∃ required ∈ flags references, (flags references).head? ≠ some required
  after : relation.afterOrigins ≠ [] ↔ ∃ reference ∈ references, reference.relation = .after

theorem Summarizes.record {references : List Reference} {relation : DependencyRelation}
    (h : Summarizes references relation) (reference : Reference) :
    Summarizes (references ++ [reference]) (relation.record reference) := by
  obtain ⟨target, said, origin⟩ := reference
  have hactivation := h.activation
  have hconflict := h.conflict
  have hafter := h.after
  cases said with
  | after =>
    have hflags : flags (references ++ [⟨target, .after, origin⟩]) = flags references := by
      simp [flags, UnitRelation.required?]
    constructor
    · rw [hflags]
      exact hactivation
    · rw [hflags]
      exact hconflict
    · simp [DependencyRelation.record, DependencyRelation.recordAfter]
  | activation required =>
    have hflags : flags (references ++ [⟨target, .activation required, origin⟩]) =
        flags references ++ [required] := by
      simp [flags, UnitRelation.required?]
    have horder (other : DependencyRelation) (hsame : other.afterOrigins = relation.afterOrigins) :
        other.afterOrigins ≠ [] ↔
          ∃ reference ∈ references ++ [⟨target, .activation required, origin⟩],
            reference.relation = .after := by
      rw [hsame, hafter]
      simp
    cases hfound : relation.activation with
    | none =>
      rw [hfound] at hactivation
      have hempty : flags references = [] := List.head?_eq_none_iff.mp hactivation.symm
      have hrecord : relation.record ⟨target, .activation required, origin⟩ =
          { relation with activation := some ⟨required, [origin]⟩ } := by
        simp [DependencyRelation.record, DependencyRelation.recordActivation, hfound]
      rw [hrecord]
      rw [hempty] at hconflict
      refine ⟨?_, ?_, horder _ rfl⟩
      · simp [hflags, hempty]
      · rw [hflags, hempty]
        simpa using hconflict
    | some activation =>
      rw [hfound] at hactivation
      have hhead : (flags references).head? = some activation.required := hactivation.symm
      have hsame : (flags references ++ [required]).head? = some activation.required := by
        rw [List.head?_append, hhead]
        rfl
      by_cases hrequired : activation.required = required
      · have hrecord : relation.record ⟨target, .activation required, origin⟩ =
            { relation with activation := some ⟨required, activation.origins ++ [origin]⟩ } := by
          simp [DependencyRelation.record, DependencyRelation.recordActivation, hfound, hrequired]
        rw [hrecord]
        refine ⟨?_, ?_, horder _ rfl⟩
        · rw [hflags, hsame, hrequired]
          rfl
        · show relation.conflictingActivation = true ↔ _
          rw [hflags, hsame, hconflict, hhead, hrequired]
          simp
      · have hrecord : relation.record ⟨target, .activation required, origin⟩ =
            { relation with conflictingActivation := true } := by
          simp [DependencyRelation.record, DependencyRelation.recordActivation, hfound, hrequired]
        rw [hrecord]
        refine ⟨?_, ?_, horder _ rfl⟩
        · rw [hflags, hsame, ← hhead, ← hactivation]
          exact congrArg (Option.map DependencyActivation.required) hfound
        · rw [hflags, hsame]
          simp only [true_iff]
          refine ⟨required, by simp, ?_⟩
          simpa using hrequired

theorem summarizes_relationOf (references : List Reference) :
    Summarizes references (relationOf references) := by
  induction references using List.reverseRecOn with
  | nil => exact ⟨rfl, by simp [flags, relationOf], by simp [relationOf]⟩
  | append_singleton references reference ih =>
    have hstep := ih.record reference
    unfold relationOf at hstep ⊢
    rw [List.foldl_append]
    exact hstep

/-- The flag a relation is imported with. -/
def importedFlag (relation : DependencyRelation) : Option Bool :=
  if relation.conflictingActivation || relation.afterOrigins.isEmpty then none
  else relation.activation.map DependencyActivation.required

/-- A target is imported when it is ordered after and activated in exactly one way. -/
theorem importedFlag_relationOf {references : List Reference} {required : Bool} :
    importedFlag (relationOf references) = some required ↔
      (∃ reference ∈ references, reference.relation = .after) ∧
        required ∈ flags references ∧ (!required) ∉ flags references := by
  have hspec := summarizes_relationOf references
  unfold importedFlag
  constructor
  · intro h
    split at h
    · cases h
    · next hkept =>
      rw [Bool.or_eq_true, not_or, hspec.conflict, List.isEmpty_iff] at hkept
      rw [hspec.activation] at h
      refine ⟨hspec.after.mp hkept.2, List.mem_of_mem_head? h, ?_⟩
      intro hother
      refine hkept.1 ⟨!required, hother, ?_⟩
      rw [h]
      simp
  · rintro ⟨hafter, hmem, hother⟩
    have hall (flag : Bool) (hflag : flag ∈ flags references) : flag = required := by
      by_contra hdiffers
      have hnot : flag = !required := by
        cases flag <;> cases required <;> simp_all
      exact hother (hnot ▸ hflag)
    cases hhead : (flags references).head? with
    | none =>
      rw [List.head?_eq_none_iff] at hhead
      rw [hhead] at hmem
      cases hmem
    | some first =>
      have hfirst := hall first (List.mem_of_mem_head? hhead)
      have hkept : ¬ ((relationOf references).conflictingActivation ||
          (relationOf references).afterOrigins.isEmpty) = true := by
        rw [Bool.or_eq_true, not_or, hspec.conflict, List.isEmpty_iff, hhead]
        refine ⟨?_, hspec.after.mpr hafter⟩
        rintro ⟨flag, hflag, hdiffers⟩
        rw [hall flag hflag, hfirst] at hdiffers
        exact hdiffers rfl
      rw [if_neg hkept, hspec.activation, hhead, hfirst]

/-! ## Collected references -/

section Collected
variable (serviceName : String) (serviceNames : List Identifier)

/-- The other services a list of words refers to. -/
def siblings (words : List String) : List String :=
  (words.filterMap fun word => siblingServiceReference word serviceNames).filter (· ≠ serviceName)

/-- The targets an entry names; a continued value names none. -/
def entryTargets (entry : TypedEntry) : List String :=
  if entry.isContinued then []
  else siblings serviceName serviceNames (splitAsciiWhitespace (trim entry.primary.text))

def entryReferences (source : QuadletSource) (entry : TypedEntry) : List Reference :=
  match UnitRelation.ofKind entry.kind with
  | none => []
  | some relation => (entryTargets serviceName serviceNames entry).map fun target =>
    ⟨target, relation, source.entryOrigin entry⟩

variable {serviceName serviceNames}

theorem state_collectReference {subject : String} {relation : UnitRelation} {origin : Provenance}
    {answer : Answer DependencyRelations} {word : String} :
    (collectReference serviceName serviceNames subject relation origin answer word).state =
      (siblings serviceName serviceNames [word]).foldl
        (fun relations target => recordRelation relation target origin relations) answer.state := by
  unfold collectReference siblings
  cases hword : siblingServiceReference word serviceNames with
  | none => simp [hword]
  | some target =>
    by_cases hself : target = serviceName
    · simp [hword, hself]
    · simp [hword, hself]

theorem state_collectReferences {subject : String} {relation : UnitRelation} {origin : Provenance}
    {words : List (String × Nat)} {answer : Answer DependencyRelations} :
    (words.foldl (fun answer (word, index) =>
        collectReference serviceName serviceNames (subject ++ "[" ++ toString index ++ "]") relation
          origin answer word) answer).state =
      (siblings serviceName serviceNames (words.map Prod.fst)).foldl
        (fun relations target => recordRelation relation target origin relations) answer.state := by
  induction words generalizing answer with
  | nil => rfl
  | cons word words ih =>
    obtain ⟨word, index⟩ := word
    have hsplit : siblings serviceName serviceNames (word :: words.map Prod.fst) =
        siblings serviceName serviceNames [word] ++
          siblings serviceName serviceNames (words.map Prod.fst) := by
      unfold siblings
      rw [← List.filter_append, ← List.filterMap_append]
      rfl
    rw [List.foldl_cons, ih, state_collectReference, List.map_cons, hsplit, List.foldl_append]

theorem state_collectUnitRelationEntry {entry : TypedEntry} {relation : UnitRelation}
    {origin : Provenance} {relations : DependencyRelations} :
    (collectUnitRelationEntry serviceName serviceNames entry relation origin relations).state =
      (entryTargets serviceName serviceNames entry).foldl
        (fun relations target => recordRelation relation target origin relations) relations := by
  unfold collectUnitRelationEntry direct entryTargets
  by_cases hcontinued : entry.isContinued = true
  · rw [if_pos hcontinued, if_pos hcontinued]
    rfl
  · rw [if_neg hcontinued, if_neg hcontinued]
    simp only
    by_cases hempty : (splitAsciiWhitespace (trim entry.primary.text)).isEmpty = true
    · rw [if_pos hempty, List.isEmpty_iff.mp hempty]
      rfl
    · rw [if_neg hempty, state_collectReferences, List.zipIdx_map_fst]

theorem value_collectUnitRelations {source : QuadletSource} {fileName : String}
    {entries : List TypedEntry} {relations : DependencyRelations} :
    (collectUnitRelations serviceName serviceNames source fileName entries relations).value =
      (entries.flatMap (entryReferences serviceName serviceNames source)).foldl Reference.record
        relations := by
  induction entries generalizing relations with
  | nil => rfl
  | cons entry entries ih =>
    unfold collectUnitRelations at ih ⊢
    rw [Reports.foldlM_cons, Reports.value_bind, ih, List.flatMap_cons, List.foldl_append]
    congr 1
    simp only [Answer.value_settle]
    unfold entryReferences
    cases UnitRelation.ofKind entry.kind with
    | none => rfl
    | some relation =>
      rw [state_collectUnitRelationEntry, List.foldl_map]
      rfl

/-! ## Imported edges -/

/-- A dependency without its provenance. -/
structure NeutralEdge where
  target : String
  required : Bool
  condition : ServiceDependencyCondition
deriving DecidableEq

def NeutralEdge.of (dependency : ServiceDependency) : NeutralEdge :=
  ⟨dependency.service.asStr, Export.isRequired dependency,
    dependency.condition.elim .started Sourced.value⟩

def edges (service : Service) : List NeutralEdge :=
  service.dependencies.map fun dependency => NeutralEdge.of dependency.value

theorem edges_mapUnitRelation {fileName target : String} {relation : DependencyRelation}
    {service : Service} (hname : ∃ name, Identifier.new target = .ok name) :
    edges (mapUnitRelation fileName serviceName target relation service).value =
      edges service ++ (importedFlag relation).toList.map fun required => ⟨target, required, .started⟩ := by
  unfold mapUnitRelation importedFlag
  by_cases hconflict : relation.conflictingActivation = true
  · simp [hconflict]
  · rw [Bool.not_eq_true] at hconflict
    cases hactivation : relation.activation with
    | none => simp [hconflict]
    | some activation =>
      by_cases hempty : relation.afterOrigins.isEmpty = true
      · simp [hconflict, hempty]
      · obtain ⟨name, hname⟩ := hname
        rw [Bool.not_eq_true] at hempty
        simp [hconflict, hempty, hname, edges, NeutralEdge.of, neutralDependency, Export.isRequired,
          Identifier.new_asStr hname]

theorem edges_mapUnitRelations {fileName : String} {references : List Reference}
    {relations : DependencyRelations} (h : Records references relations)
    (hnames : ∀ reference ∈ references, ∃ name, Identifier.new reference.target = .ok name)
    (service : Service) :
    edges (mapUnitRelations fileName serviceName relations service).value =
      edges service ++ (references.map Reference.target).eraseDups.flatMap fun target =>
        (importedFlag (relationOf (about target references))).toList.map fun required =>
          ⟨target, required, .started⟩ := by
  unfold mapUnitRelations
  rw [h.order, foldl_mention_nil]
  refine Reports.value_foldlM_gather edges (· ++ ·) _ List.append_nil
    (fun state first rest => List.append_assoc _ _ _) ?_ service
  intro state target htarget
  rw [List.mem_eraseDups] at htarget
  have hknown : (relationOf? (about target references)).isNone ≠ true := by
    rw [Ne, isNone_relationOf?_about, not_not]
    exact htarget
  obtain ⟨reference, hreference, rfl⟩ := List.mem_map.mp htarget
  rw [h.byService]
  unfold relationOf? at hknown ⊢
  split at hknown
  · exact absurd rfl hknown
  · next hnonempty =>
    rw [if_neg hnonempty]
    exact edges_mapUnitRelation (hnames reference hreference)

/-- A sibling reference names a declared service. -/
theorem mem_of_siblingServiceReference {word target : String}
    (h : siblingServiceReference word serviceNames = some target) :
    target ∈ serviceNames.map Identifier.asStr := by
  unfold siblingServiceReference at h
  split at h
  · cases h
  · obtain ⟨service, -, hmem⟩ := Option.bind_eq_some_iff.mp h
    split at hmem
    · next hdeclared =>
      cases hmem
      exact hdeclared
    · cases hmem

theorem entryReferences_named {source : QuadletSource} {entry : TypedEntry} {reference : Reference}
    (h : reference ∈ entryReferences serviceName serviceNames source entry) :
    ∃ name, Identifier.new reference.target = .ok name := by
  unfold entryReferences at h
  split at h
  · cases h
  · obtain ⟨target, htarget, rfl⟩ := List.mem_map.mp h
    unfold entryTargets siblings at htarget
    split at htarget
    · cases htarget
    · obtain ⟨word, -, hword⟩ := List.mem_filterMap.mp (List.mem_of_mem_filter htarget)
      obtain ⟨name, -, rfl⟩ := List.mem_map.mp (mem_of_siblingServiceReference hword)
      exact ⟨name, Identifier.new_ok name.valid⟩

/-- The imported dependencies, read off the references of the unit sections. -/
theorem edges_importDependencies {source : QuadletSource} {fileName : String}
    {sections : List TypedSection} {service : Service} :
    edges (importDependencies source fileName serviceName serviceNames sections service).value =
      edges service ++
        (((unitEntries sections).flatMap (entryReferences serviceName serviceNames source)).map
          Reference.target).eraseDups.flatMap fun target =>
            (importedFlag (relationOf (about target
              ((unitEntries sections).flatMap (entryReferences serviceName serviceNames source))))).toList.map
                fun required => ⟨target, required, .started⟩ := by
  unfold importDependencies
  rw [Reports.value_bind, value_collectUnitRelations]
  refine edges_mapUnitRelations (records_foldl _) ?_ service
  intro reference hreference
  obtain ⟨entry, -, hentry⟩ := List.mem_flatMap.mp hreference
  exact entryReferences_named hentry

end Collected
end Boxferry.Quadlet.Import
