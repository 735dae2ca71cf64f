import Boxferry.Quadlet.Export.Dependencies

/-! # Exact edges

What one dependency adds to the unit section and to the report, the same over a
whole service, and what acceptance says about the targets. -/
namespace Boxferry.Quadlet.Export
open Engine Lens Model
set_option autoImplicit false

/-! ## Exact edges -/

/-- The subject that an event reports as exact. -/
def Event.exactSubject? : Event → Option Subject
  | .exact subject _ => some subject
  | _ => none

namespace Mapping
variable (m : Mapping)

/-- Whether the target range supports a capability. -/
def supports (name : String) : Bool :=
  m.podmanTarget.any fun target =>
    match m.exporter.library.evaluate name target with
    | .native | .deprecated => true
    | .other _ => false

theorem value_capability (name : String) (subject : Subject) (origins : List Provenance) :
    (m.capability name subject origins).value = m.supports name := by
  unfold capability supports
  cases m.podmanTarget with
  | none => rfl
  | some target =>
    simp only [Option.any_some]
    cases m.exporter.library.evaluate name target <;> rfl

theorem exactSubject?_capability {name : String} {subject : Subject} {origins : List Provenance} :
    (m.capability name subject origins).log.filterMap Event.exactSubject? = [] := by
  unfold capability
  split
  · rfl
  · split <;> rfl

/-- The entries of an edge. -/
def dependencyEntries (required : Bool) (target : String) : List UnitEntry :=
  [⟨.systemdUnit (activationKey required), target ++ ".service"⟩,
    ⟨.systemdUnit .after, target ++ ".service"⟩]

/-- Whether an edge has unit entries: its target is declared, its condition and its entries are
supported. -/
def isMapped (dependency : ServiceDependency) : Bool :=
  (m.findService dependency.service.asStr).any fun target =>
    (unsupportedCondition target (dependency.condition.elim .started Sourced.value)).isNone &&
      (m.supports (activationCapability (isRequired dependency)) && m.supports "systemd.unit.after")

/-- An accepted entry is pushed; a rejected one fails the generation. -/
theorem push_generated {builder : UnitBuilder} {key : EntryKey} {value : String} {subject : Subject}
    {origins : List Provenance}
    (h : .generationFailed ∉ (m.push builder key value subject origins).log) :
    m.push builder key value subject origins =
      pure (true, { builder with entries := builder.entries ++ [⟨key, value⟩] }) := by
  unfold push at h ⊢
  split
  · rfl
  · next error herror =>
    rw [herror] at h
    exact absurd (List.mem_append_left _ List.mem_cons_self) h

theorem pushDependency_generated {subject : Subject} {origins : List Provenance} {required : Bool}
    {target : String} {builder : UnitBuilder}
    (h : .generationFailed ∉
      (m.pushDependency subject origins required (target ++ ".service") builder).log) :
    (m.pushDependency subject origins required (target ++ ".service") builder).value =
        { builder with entries := builder.entries ++ dependencyEntries required target } ∧
      (m.pushDependency subject origins required (target ++ ".service") builder).log.filterMap
        Event.exactSubject? = [subject] := by
  unfold pushDependency at h ⊢
  have hactivated := m.push_generated fun hmem => h (Reports.mem_log_bind.mpr (Or.inl hmem))
  rw [hactivated] at h ⊢
  rw [Reports.pure_bind] at h ⊢
  simp only [if_true] at h ⊢
  have hordered := m.push_generated fun hmem => h (Reports.mem_log_bind.mpr (Or.inl hmem))
  rw [hordered]
  refine ⟨?_, rfl⟩
  simp [dependencyEntries]

theorem mapDependencyUnits_generated {subject : Subject} {origins : List Provenance} {required : Bool}
    {target : String} {builder : UnitBuilder}
    (h : .generationFailed ∉ (m.mapDependencyUnits subject origins required target builder).log) :
    (m.mapDependencyUnits subject origins required target builder).value =
        { builder with entries := builder.entries ++
          if m.supports (activationCapability required) && m.supports "systemd.unit.after" then
            dependencyEntries required target
          else [] } ∧
      (m.mapDependencyUnits subject origins required target builder).log.filterMap
        Event.exactSubject? =
          if m.supports (activationCapability required) && m.supports "systemd.unit.after" then [subject]
          else [] := by
  unfold mapDependencyUnits at h ⊢
  simp only [Reports.mem_log_bind, not_or, value_capability] at h
  simp only [Reports.value_bind, Reports.log_bind, value_capability, List.filterMap_append,
    exactSubject?_capability, List.nil_append]
  by_cases hsupported :
      (m.supports (activationCapability required) && m.supports "systemd.unit.after") = true
  · rw [if_pos hsupported] at h
    rw [if_pos hsupported, if_pos hsupported, if_pos hsupported]
    exact m.pushDependency_generated h.2.2
  · rw [if_neg hsupported, if_neg hsupported, if_neg hsupported, List.append_nil]
    exact ⟨rfl, rfl⟩

theorem value_dependencyConditionSupported (subject : Subject) (origins : List Provenance)
    (dependency : ServiceDependency) (target : Service) :
    (dependencyConditionSupported subject origins dependency target).value =
      (unsupportedCondition target (dependency.condition.elim .started Sourced.value)).isNone := by
  unfold dependencyConditionSupported
  split
  · next h =>
    rw [h]
    rfl
  · next h =>
    rw [h]
    rfl

theorem exactSubject?_dependencyConditionSupported (subject : Subject) (origins : List Provenance)
    (dependency : ServiceDependency) (target : Service) :
    (dependencyConditionSupported subject origins dependency target).log.filterMap
      Event.exactSubject? = [] := by
  unfold dependencyConditionSupported
  split <;> rfl

theorem exactSubject?_restart (subject : Subject) (dependency : ServiceDependency) :
    ∀ exact ∈ (mapDependencyRestart subject dependency).log.filterMap Event.exactSubject?,
      exact = subject := by
  unfold mapDependencyRestart
  split
  · simp
  · split
    · simp [loss, Event.exactSubject?]
    · simp [Export.exact, Event.exactSubject?]

/-- One edge: its entries, and the subjects it reports as exact. -/
theorem mapServiceDependency_generated {serviceName : String} {index : Nat}
    {dependency : Sourced ServiceDependency} {builder : UnitBuilder}
    (h : .generationFailed ∉ (m.mapServiceDependency serviceName index dependency builder).log) :
    (m.mapServiceDependency serviceName index dependency builder).value =
        { builder with entries := builder.entries ++
          if m.isMapped dependency.value then
            dependencyEntries (isRequired dependency.value) dependency.value.service.asStr
          else [] } ∧
      ∃ restarts, (m.mapServiceDependency serviceName index dependency builder).log.filterMap
          Event.exactSubject? =
            (if m.isMapped dependency.value then [dependencySubject serviceName index] else []) ++
              restarts ∧
        ∀ subject ∈ restarts, subject =
          .serviceSetting serviceName ("dependencies[" ++ toString index ++ "].restart") := by
  unfold mapServiceDependency at h ⊢
  unfold isMapped
  dsimp only at h ⊢
  cases hfound : m.findService dependency.value.service.asStr with
  | none => exact ⟨by simp, [], by simp [loss, Event.exactSubject?], by simp⟩
  | some target =>
    rw [hfound] at h
    simp only [Option.any_some] at h ⊢
    simp only [Reports.mem_log_bind, not_or, value_dependencyConditionSupported] at h
    simp only [Reports.value_bind, Reports.log_bind, List.filterMap_append,
      value_dependencyConditionSupported, exactSubject?_dependencyConditionSupported, List.nil_append]
    by_cases hcondition : (unsupportedCondition target
        (dependency.value.condition.elim .started Sourced.value)).isNone = true
    · rw [if_pos hcondition] at h
      simp only [hcondition, if_true, Bool.true_and]
      simp only [Reports.mem_log_bind, not_or] at h
      obtain ⟨hentries, hexact⟩ := m.mapDependencyUnits_generated h.2.1
      refine ⟨hentries, _, ?_, exactSubject?_restart _ dependency.value⟩
      rw [Reports.log_bind, List.filterMap_append, hexact, Reports.log_bind, List.filterMap_append,
        Reports.log_pure, List.filterMap_nil, List.append_nil]
    · rw [Bool.not_eq_true] at hcondition
      exact ⟨by simp [hcondition], [], by simp [hcondition], by simp⟩

theorem dependencySubject_inj {serviceName : String} {index other : Nat}
    (h : dependencySubject serviceName index = dependencySubject serviceName other) : index = other := by
  unfold dependencySubject at h
  injection h with _ htext
  have hlist := congrArg String.toList htext
  simp only [String.toList_append, List.append_assoc] at hlist
  have hdigits : (toString index).toList = (toString other).toList :=
    List.append_cancel_right (List.append_cancel_left hlist)
  have hread := congrArg (fun digits => Nat.ofDigitChars 10 digits 0) hdigits
  simpa [Nat.toString_eq_ofList_toDigits] using hread

theorem dependencySubject_ne_restart {serviceName : String} {index other : Nat} :
    dependencySubject serviceName index ≠
      .serviceSetting serviceName ("dependencies[" ++ toString other ++ "].restart") := by
  intro h
  unfold dependencySubject at h
  injection h with _ htext
  have hleft : ("dependencies[" ++ toString index ++ "]").toList.getLast? = some ']' := by
    rw [String.toList_append, List.getLast?_append]
    rfl
  have hright : ("dependencies[" ++ toString other ++ "].restart").toList.getLast? = some 't' := by
    rw [String.toList_append, List.getLast?_append]
    rfl
  rw [htext, hright] at hleft
  exact absurd hleft (by decide)

theorem mapServiceDependencies_generated {serviceName : String}
    {dependencies : List (Sourced ServiceDependency × Nat)} {builder : UnitBuilder}
    (h : .generationFailed ∉ (dependencies.foldlM (fun builder (dependency, index) =>
      m.mapServiceDependency serviceName index dependency builder) builder).log) :
    (dependencies.foldlM (fun builder (dependency, index) =>
        m.mapServiceDependency serviceName index dependency builder) builder).value =
          { builder with entries := builder.entries ++
            (dependencies.filter fun edge => m.isMapped edge.1.value).flatMap fun edge =>
              dependencyEntries (isRequired edge.1.value) edge.1.value.service.asStr } ∧
      ∀ index, dependencySubject serviceName index ∈
          (dependencies.foldlM (fun builder (dependency, index) =>
            m.mapServiceDependency serviceName index dependency builder) builder).log.filterMap
              Event.exactSubject? ↔
        ∃ edge ∈ dependencies, edge.2 = index ∧ m.isMapped edge.1.value = true := by
  induction dependencies generalizing builder with
  | nil => exact ⟨by simp, by simp⟩
  | cons edge edges ih =>
    obtain ⟨dependency, position⟩ := edge
    rw [Reports.foldlM_cons, Reports.mem_log_bind, not_or] at h
    obtain ⟨hvalue, restarts, hexact, hrestarts⟩ := m.mapServiceDependency_generated h.1
    obtain ⟨hentries, hsubjects⟩ := ih h.2
    rw [Reports.foldlM_cons, Reports.value_bind, Reports.log_bind, hentries]
    constructor
    · rw [hvalue, List.filter_cons]
      by_cases hmapped : m.isMapped dependency.value = true
      · simp [hmapped]
      · simp [hmapped]
    · intro index
      have hrestart : dependencySubject serviceName index ∉ restarts := fun hmem =>
        dependencySubject_ne_restart (hrestarts _ hmem)
      rw [List.filterMap_append, List.mem_append, hsubjects, hexact, List.mem_append,
        List.exists_mem_cons_iff]
      by_cases hmapped : m.isMapped dependency.value = true
      · simp only [hmapped, if_true, List.mem_singleton, hrestart, or_false, and_true]
        refine or_congr_left ⟨fun hsame => (dependencySubject_inj hsame).symm, fun hsame => ?_⟩
        rw [hsame]
      · simp [hmapped, hrestart]

/-- The edges of a service that the export reports as exact, in order. -/
def exactEdges (service : Sourced Service) : List ServiceDependency :=
  let report := (m.mapServiceDependencies service ⟨.container, []⟩).log
  (service.value.dependencies.zipIdx.filter fun edge =>
    dependencySubject service.value.name.asStr edge.2 ∈ report.filterMap Event.exactSubject?).map
      fun edge => edge.1.value

theorem exactEdges_generated {service : Sourced Service}
    (h : .generationFailed ∉ (m.mapServiceDependencies service ⟨.container, []⟩).log) :
    m.exactEdges service = (service.value.dependencies.zipIdx.filter fun edge =>
        m.isMapped edge.1.value).map (fun edge => edge.1.value) ∧
      (m.mapServiceDependencies service ⟨.container, []⟩).value.entries =
        (m.exactEdges service).flatMap fun edge =>
          dependencyEntries (isRequired edge) edge.service.asStr := by
  obtain ⟨hentries, hsubjects⟩ := m.mapServiceDependencies_generated h
  have hexact : m.exactEdges service = (service.value.dependencies.zipIdx.filter fun edge =>
      m.isMapped edge.1.value).map fun edge => edge.1.value := by
    unfold exactEdges
    dsimp only
    congr 1
    refine List.filter_congr fun edge hedge => ?_
    have hreported : dependencySubject service.value.name.asStr edge.2 ∈
        (m.mapServiceDependencies service ⟨.container, []⟩).log.filterMap Event.exactSubject? ↔
          m.isMapped edge.1.value = true := by
      refine (hsubjects edge.2).trans ⟨?_, fun hmapped => ⟨edge, hedge, rfl, hmapped⟩⟩
      rintro ⟨other, hother, hindex, hmapped⟩
      have hfirst := List.mem_zipIdx_iff_getElem?.mp hedge
      have hsecond := List.mem_zipIdx_iff_getElem?.mp hother
      rw [hindex, hfirst] at hsecond
      rw [Option.some_inj.mp hsecond]
      exact hmapped
    rw [Bool.eq_iff_iff, decide_eq_true_eq]
    exact hreported
  refine ⟨hexact, ?_⟩
  rw [hexact, List.flatMap_map]
  exact congrArg UnitBuilder.entries hentries

/-- A declared target is found. -/
theorem mem_serviceNames {name : String} :
    name ∈ m.serviceNames ↔ ∃ service ∈ m.application.services, service.value.name.asStr = name := by
  unfold serviceNames
  rw [List.mem_insertionSort, List.mem_dedup, List.mem_map]

theorem mem_serviceNames_of_isMapped {dependency : ServiceDependency}
    (h : m.isMapped dependency = true) : dependency.service.asStr ∈ m.serviceNames := by
  unfold isMapped findService at h
  rw [Option.any_map, Option.any_eq_true] at h
  obtain ⟨service, hfound, -⟩ := h
  exact m.mem_serviceNames.mpr ⟨service, List.mem_of_find?_eq_some hfound,
    by simpa using List.find?_some hfound⟩

theorem nodup_serviceNames : m.serviceNames.Nodup := by
  unfold serviceNames
  exact (List.perm_insertionSort _ _).nodup_iff.mpr (List.nodup_dedup _)

theorem mem_dependencyEdges {edge : String × String} :
    edge ∈ m.dependencyEdges ↔ edge.1 ∈ m.serviceNames ∧
      ∃ service ∈ m.application.services, service.value.name.asStr = edge.2 ∧
        ∃ dependency ∈ service.value.dependencies, dependency.value.service.asStr = edge.1 := by
  obtain ⟨target, dependent⟩ := edge
  unfold dependencyEdges
  simp only [List.mem_flatMap, List.mem_filterMap, List.mem_map, exists_exists_and_eq_and]
  constructor
  · rintro ⟨service, hservice, dependency, hdependency, hedge⟩
    split at hedge
    · next hknown =>
      cases hedge
      exact ⟨hknown, service, hservice, rfl, dependency, hdependency, rfl⟩
    · cases hedge
  · rintro ⟨hknown, service, hservice, rfl, dependency, hdependency, rfl⟩
    exact ⟨service, hservice, dependency, hdependency, by rw [if_pos hknown]⟩

/-- An accepted application has no service that depends on itself. -/
theorem ne_of_validateDependencyGraph (h : m.validateDependencyGraph.value = true)
    {service : Sourced Service} (hservice : service ∈ m.application.services)
    {dependency : Sourced ServiceDependency} (hdependency : dependency ∈ service.value.dependencies)
    (htarget : dependency.value.service.asStr ∈ m.serviceNames) :
    dependency.value.service.asStr ≠ service.value.name.asStr := by
  have hlength : (CountedOrder.run m.dependencyEdges m.serviceNames).visited.length =
      m.serviceNames.length := by
    unfold validateDependencyGraph at h
    rw [Reports.value_bind] at h
    split at h
    · cases h
    · dsimp only at h
      split at h
      · assumption
      · cases h
  refine CountedOrder.irrefl_of_run m.nodup_serviceNames ?_ hlength
    (dependency.value.service.asStr, service.value.name.asStr)
    (m.mem_dependencyEdges.mpr ⟨htarget, service, hservice, rfl, dependency, hdependency, rfl⟩)
  intro edge hedge
  obtain ⟨-, other, hother, hname, -⟩ := m.mem_dependencyEdges.mp hedge
  exact m.mem_serviceNames.mpr ⟨other, hother, hname⟩

end Mapping
end Boxferry.Quadlet.Export
