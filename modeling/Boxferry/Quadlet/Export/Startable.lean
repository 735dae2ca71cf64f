import Boxferry.Library.CountedCycles
import Boxferry.Quadlet.Export.ExactEdges

/-! # Startable applications

The dependency graph of an application is accepted exactly when its services can be
started in some order. The services that a rejection names are those that no order
starts, which need not lie on a cycle themselves. -/
namespace Boxferry.Quadlet.Export
open Engine Lens Model Relation
set_option autoImplicit false

namespace Mapping
variable (m : Mapping)

/-- A declared service depends on a declared one, required or not. -/
def DependsOn (dependent target : String) : Prop :=
  target ∈ m.serviceNames ∧ ∃ service ∈ m.application.services, service.value.name.asStr = dependent
    ∧ ∃ dependency ∈ service.value.dependencies, dependency.value.service.asStr = target

def OnCycle (name : String) : Prop := TransGen m.DependsOn name name

def RequiredDeclared : Prop :=
  ∀ service ∈ m.application.services, ∀ dependency ∈ service.value.dependencies,
    isRequired dependency.value = true → dependency.value.service.asStr ∈ m.serviceNames

theorem waits_dependencyEdges : CountedOrder.Waits m.dependencyEdges = m.DependsOn := by
  funext dependent target
  exact propext m.mem_dependencyEdges

theorem dependencyEdges_mem :
    ∀ edge ∈ m.dependencyEdges, edge.1 ∈ m.serviceNames ∧ edge.2 ∈ m.serviceNames := by
  intro edge hedge
  obtain ⟨htarget, service, hservice, hname, -⟩ := m.mem_dependencyEdges.mp hedge
  exact ⟨htarget, m.mem_serviceNames.mpr ⟨service, hservice, hname⟩⟩

theorem DependsOn.mem {m : Mapping} {dependent target : String} (h : m.DependsOn dependent target) :
    dependent ∈ m.serviceNames := by
  obtain ⟨-, service, hservice, hname, -⟩ := h
  exact m.mem_serviceNames.mpr ⟨service, hservice, hname⟩

/-! ## Required targets -/

/-- The target of the dependency is declared or need not be. -/
def hasTarget (dependency : Sourced ServiceDependency) : Bool :=
  dependency.value.service.asStr ∈ m.serviceNames || !isRequired dependency.value

theorem value_validateDependencyTarget (dependent : String) (dependency : Sourced ServiceDependency)
    (index : Nat) :
    (m.validateDependencyTarget dependent dependency index).value = m.hasTarget dependency := by
  unfold validateDependencyTarget hasTarget
  by_cases hdeclared : dependency.value.service.asStr ∈ m.serviceNames
  · simp [hdeclared]
  · cases hrequired : isRequired dependency.value with
    | true =>
      simp only [hdeclared, not_false_eq_true, decide_true, Bool.and_self, if_true]
      rfl
    | false => simp [hdeclared]

theorem value_validateDependencyTargets (service : Sourced Service) (valid : Bool) :
    (m.validateDependencyTargets service valid).value
      = (valid && service.value.dependencies.all m.hasTarget) := by
  have hfold : ∀ (indexed : List (Sourced ServiceDependency × Nat)) (valid : Bool),
      (indexed.foldlM (fun valid entry => do
        let found ← m.validateDependencyTarget service.value.name.asStr entry.1 entry.2
        pure (valid && found)) valid : Mapped Bool).value
        = (valid && (indexed.map Prod.fst).all m.hasTarget) := by
    intro indexed
    induction indexed with
    | nil => simp
    | cons first rest ih =>
      intro valid
      rw [Reports.foldlM_cons, Reports.value_bind, ih, Reports.value_bind, Reports.value_pure,
        value_validateDependencyTarget, List.map_cons, List.all_cons, Bool.and_assoc]
  have hall := hfold service.value.dependencies.zipIdx valid
  rw [List.zipIdx_map_fst] at hall
  exact hall

/-- Whether every required dependency of every service names a declared one. -/
def targetsDeclared : Bool :=
  m.application.services.all fun service => service.value.dependencies.all m.hasTarget

theorem targetsDeclared_iff : m.targetsDeclared = true ↔ m.RequiredDeclared := by
  unfold targetsDeclared RequiredDeclared
  rw [List.all_eq_true]
  refine forall₂_congr fun service _ => ?_
  rw [List.all_eq_true]
  refine forall₂_congr fun dependency _ => ?_
  unfold hasTarget
  rw [Bool.or_eq_true, decide_eq_true_eq, Bool.not_eq_true']
  constructor
  · intro h hrequired
    exact h.resolve_right (by rw [hrequired]; exact Bool.noConfusion)
  · intro h
    cases hrequired : isRequired dependency.value with
    | true => exact Or.inl (h hrequired)
    | false => exact Or.inr rfl

/-- The first loop of the validation. -/
def validateTargets : Mapped Bool :=
  m.application.services.foldlM (fun valid service => m.validateDependencyTargets service valid) true

theorem value_validateTargets : m.validateTargets.value = m.targetsDeclared := by
  have hfold : ∀ (services : List (Sourced Service)) (valid : Bool),
      (services.foldlM (fun valid service => m.validateDependencyTargets service valid) valid :
        Mapped Bool).value
        = (valid && services.all fun service => service.value.dependencies.all m.hasTarget) := by
    intro services
    induction services with
    | nil => simp
    | cons first rest ih =>
      intro valid
      rw [Reports.foldlM_cons, Reports.value_bind, ih, value_validateDependencyTargets, List.all_cons,
        Bool.and_assoc]
  unfold validateTargets targetsDeclared
  rw [hfold, Bool.true_and]

/-! ## The verdict -/

/-- The services that are named as included in the cycle. -/
def cycleServices : List String :=
  m.serviceNames.filter fun name => 0 < (CountedOrder.run m.dependencyEdges m.serviceNames).indegree name

/-- The report of an ordering cycle that names these services. -/
def cycleReport (names : List String) : Mapped Unit :=
  invalid Codes.dependencyInvalid (.other "application.dependencies")
    "service dependency graph contains an ordering cycle" ("cycle includes: " ++ ", ".intercalate names)
    (m.application.services.flatMap fun service => service.value.dependencies.flatMap Sourced.origins)

def orders : Prop :=
  (CountedOrder.run m.dependencyEdges m.serviceNames).visited.length = m.serviceNames.length

instance : Decidable m.orders := inferInstanceAs (Decidable (_ = _))

theorem orders_iff : m.orders ↔ ¬ ∃ name, m.OnCycle name := by
  unfold orders OnCycle
  rw [CountedOrder.run_visits_iff m.nodup_serviceNames m.dependencyEdges_mem, waits_dependencyEdges]

/-- The validation is its loop over the targets and then the verdict on the order. -/
theorem validateDependencyGraph_eq :
    m.validateDependencyGraph = (do
      let valid ← m.validateTargets
      if !valid then pure false
      else if m.orders then pure true
      else do
        m.cycleReport m.cycleServices
        pure false) := rfl

theorem validateDependencyGraph_iff :
    m.validateDependencyGraph.value = true ↔ m.RequiredDeclared ∧ ¬ ∃ name, m.OnCycle name := by
  rw [validateDependencyGraph_eq, Reports.value_bind, value_validateTargets, ← targetsDeclared_iff,
    ← orders_iff]
  cases m.targetsDeclared with
  | false => simp
  | true =>
    simp only [Bool.not_true, Bool.false_eq_true, if_false, true_and]
    by_cases horders : m.orders
    · simp [horders]
    · simp [horders]

/-- Whether the validation reports an ordering cycle that includes these services. -/
def ReportsCycle (names : List String) : Prop :=
  names = m.cycleServices ∧ ∀ event ∈ (m.cycleReport names).log, event ∈ m.validateDependencyGraph.log

theorem subject_validateTargets {event : Event} (h : event ∈ m.validateTargets.log) :
    event.subject? ≠ some (.other "application.dependencies") := by
  obtain ⟨service, -, valid, h⟩ := Reports.of_mem_log_foldlM h
  obtain ⟨⟨dependency, index⟩, -, state, h⟩ := Reports.of_mem_log_foldlM h
  rw [Reports.log_bind, Reports.log_pure, List.append_nil] at h
  unfold validateDependencyTarget at h
  dsimp only at h
  split at h
  · rw [Reports.log_bind, Reports.log_pure, List.append_nil] at h
    rw [List.mem_singleton.mp h]
    intro hsubject
    exact nomatch Option.some.inj hsubject
  · exact nomatch h

theorem reportsCycle_iff {names : List String} :
    m.ReportsCycle names ↔ names = m.cycleServices ∧ m.RequiredDeclared ∧ ∃ name, m.OnCycle name := by
  refine and_congr_right fun hnames => ?_
  subst hnames
  have hcycles : (∃ name, m.OnCycle name) ↔ ¬ m.orders := by rw [orders_iff, not_not]
  rw [hcycles, validateDependencyGraph_eq, Reports.log_bind, value_validateTargets, ← targetsDeclared_iff]
  constructor
  · intro h
    have hmem := List.mem_append.mp (h _ List.mem_cons_self)
    rcases hmem with hearlier | hverdict
    · exact absurd rfl (m.subject_validateTargets hearlier)
    · cases htargets : m.targetsDeclared with
      | false =>
        rw [htargets] at hverdict
        exact nomatch hverdict
      | true =>
        refine ⟨rfl, fun horders => ?_⟩
        rw [htargets] at hverdict
        simp only [Bool.not_true, Bool.false_eq_true, if_false, horders, if_true] at hverdict
        exact nomatch hverdict
  · rintro ⟨htargets, horders⟩ event hevent
    rw [htargets]
    simp only [Bool.not_true, Bool.false_eq_true, if_false, horders]
    exact List.mem_append_right _ (List.mem_append_left _ hevent)

theorem mem_cycleServices {name : String} :
    name ∈ m.cycleServices ↔ ∃ turn, ReflTransGen m.DependsOn name turn ∧ m.OnCycle turn := by
  unfold cycleServices OnCycle
  rw [List.mem_filter, decide_eq_true_eq]
  constructor
  · rintro ⟨hname, hpositive⟩
    rw [CountedOrder.left_iff m.nodup_serviceNames m.dependencyEdges_mem hname,
      waits_dependencyEdges] at hpositive
    exact hpositive
  · intro hturn
    obtain ⟨turn, hreach, hcycle⟩ := hturn
    have hname : name ∈ m.serviceNames := by
      rcases ReflTransGen.cases_head hreach with rfl | ⟨next, hedge, -⟩
      · obtain ⟨next, hedge, -⟩ := TransGen.head'_iff.mp hcycle
        exact hedge.mem
      · exact hedge.mem
    refine ⟨hname, ?_⟩
    rw [CountedOrder.left_iff m.nodup_serviceNames m.dependencyEdges_mem hname, waits_dependencyEdges]
    exact ⟨turn, hreach, hcycle⟩

/-! ## Reported members -/

/-- The verdict is right, and what is named as included in the cycle lies on one. -/
def DecidesStartability : Prop :=
  (m.validateDependencyGraph.value = true ↔ m.RequiredDeclared ∧ ¬ ∃ name, m.OnCycle name)
    ∧ ∀ names, m.ReportsCycle names → ∀ name ∈ names, m.OnCycle name

theorem decidesStartability_iff :
    m.DecidesStartability ↔ (m.RequiredDeclared → ∀ dependent target,
      m.DependsOn dependent target → m.OnCycle target → m.OnCycle dependent) := by
  constructor
  · rintro ⟨-, hnamed⟩ hdeclared dependent target hdepends hcycle
    refine hnamed m.cycleServices (m.reportsCycle_iff.mpr ⟨rfl, hdeclared, target, hcycle⟩) dependent ?_
    exact m.mem_cycleServices.mpr ⟨target, ReflTransGen.single hdepends, hcycle⟩
  · intro hkept
    refine ⟨m.validateDependencyGraph_iff, fun names hreports name hname => ?_⟩
    obtain ⟨rfl, hdeclared, -⟩ := m.reportsCycle_iff.mp hreports
    obtain ⟨turn, hreach, hcycle⟩ := m.mem_cycleServices.mp hname
    induction hreach using ReflTransGen.head_induction_on with
    | refl => exact hcycle
    | head hedge hrest ih => exact hkept hdeclared _ _ hedge (ih (m.mem_cycleServices.mpr ⟨turn, hrest, hcycle⟩))

end Mapping

/-! ## A service that waits for a cycle -/

def selfName : Identifier := ⟨"a", by decide +kernel⟩

/-- One service depends on itself, and another one on it. -/
def selfMapping : Mapping where
  exporter := ⟨.permissive, .separateContainers, none⟩
  application :=
    { Application.new ⟨"demo", Identifier.valid_demo⟩ with
      services :=
        [⟨{ name := selfName, dependencies := [⟨⟨selfName, none, none, none⟩, []⟩] }, []⟩,
          ⟨{ name := ⟨"web", Identifier.valid_web⟩
             dependencies := [⟨⟨selfName, none, none, none⟩, []⟩] }, []⟩] }
  podmanTarget := some ⟨⟨5, 0, 0⟩, none⟩

/-- The report says that the cycle includes the service that only waits for it. -/
theorem waiting_service_named : ¬ ∀ m : Mapping, m.DecidesStartability := by
  intro hall
  have hnames : selfMapping.cycleServices = ["a", "web"] := by decide +kernel
  have hreports : selfMapping.ReportsCycle selfMapping.cycleServices :=
    ⟨rfl, by decide +kernel⟩
  have hcycle := (hall selfMapping).2 _ hreports "web" (by rw [hnames]; decide)
  obtain ⟨dependent, -, -, service, hservice, -, dependency, hdependency, htarget⟩ :=
    TransGen.tail'_iff.mp hcycle
  simp only [selfMapping, List.mem_cons, List.not_mem_nil, or_false] at hservice
  rcases hservice with rfl | rfl
  · rw [List.mem_singleton.mp hdependency] at htarget
    exact absurd htarget (by decide +kernel)
  · rw [List.mem_singleton.mp hdependency] at htarget
    exact absurd htarget (by decide +kernel)

end Boxferry.Quadlet.Export
