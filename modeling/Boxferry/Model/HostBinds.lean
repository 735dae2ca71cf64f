import Boxferry.Library.Results
import Boxferry.Model.Service

/-! # Host binds of an admitted service

The path of a deferred host bind is never computed. What it comes to is safe because
its root is one assigned text, and what follows the root is one literal suffix. -/
namespace Boxferry.Model
set_option autoImplicit false

/-! ## Evaluation -/

/-- The inline text of a name. -/
def ServiceExecutionEnvironment.inlineText (plan : ServiceExecutionEnvironment) (name : ServiceEnvironmentName) :
    String :=
  ((plan.assignments.find? fun item => item.value.name = name).map fun item => item.value.value.expose).getD ""

/-- The text of an expression with its references replaced by their inline assignments. -/
def DeferredExpression.evaluate (plan : ServiceExecutionEnvironment) (expression : DeferredExpression) : String :=
  String.join (expression.segments.map fun part =>
    match part.value with
    | .literal value => value.expose
    | .reference name => plan.inlineText name)

/-- An absolute path without a colon or a control character. -/
structure SafePath (path : String) : Prop where
  absolute : startsWith path "/" = true
  plain : ∀ ch ∈ path.toList, isControl ch = false ∧ ch ≠ ':'

variable {plan : ServiceExecutionEnvironment} {expression : DeferredExpression} {service : Service}
  {name : ServiceEnvironmentName} {parts : List (Sourced DeferredSegment)} {suffix result : String}

theorem startsWith_slash {text : String} : startsWith text "/" = true ↔ text.toList.head? = some '/' := by
  unfold startsWith
  show ['/'].isPrefixOf text.toList = true ↔ _
  cases text.toList with
  | nil => exact ⟨fun h => (nomatch h), fun h => (nomatch h)⟩
  | cons first rest =>
    rw [List.isPrefixOf_cons_cons, List.isPrefixOf_nil_left, Bool.and_true, beq_iff_eq, List.head?_cons,
      Option.some.injEq]
    exact eq_comm

theorem SafePath.append {root rest : String} (hroot : SafePath root)
    (hrest : ∀ ch ∈ rest.toList, isControl ch = false ∧ ch ≠ ':') : SafePath (root ++ rest) := by
  constructor
  · have habsolute := startsWith_slash.mp hroot.absolute
    rw [startsWith_slash, String.toList_append, List.head?_append, habsolute]
    rfl
  · intro ch hch
    rw [String.toList_append, List.mem_append] at hch
    exact hch.elim (hroot.plain ch) (hrest ch)

/-! ## Accepted shapes -/

/-- A suffix is the literal texts of the parts, none of which is a reference. -/
theorem hostBindSuffix_ok (h : DeferredExpression.hostBindSuffix parts suffix = .ok result) :
    (∀ part ∈ parts, ∃ value, part.value = .literal value)
      ∧ result = suffix ++ String.join (parts.map fun part => part.value.text) := by
  induction parts generalizing suffix with
  | nil =>
    rw [← Except.ok.inj h]
    refine ⟨fun _ hpart => (nomatch hpart), ?_⟩
    show suffix = suffix ++ ""
    rw [String.append_empty]
  | cons part rest ih =>
    obtain ⟨segment, origins⟩ := part
    cases segment with
    | reference name => exact nomatch h
    | literal value =>
      obtain ⟨hall, hresult⟩ := ih h
      refine ⟨fun other hother => ?_, ?_⟩
      · rcases List.mem_cons.mp hother with rfl | hrest
        · exact ⟨value, rfl⟩
        · exact hall other hrest
      · rw [hresult, List.map_cons, String.join_cons, String.append_assoc]
        rfl

theorem validateHostBind_ok (h : expression.validateHostBind = .ok ()) :
    ∃ name origins rest, expression.segments = ⟨.reference name, origins⟩ :: rest
      ∧ (∀ part ∈ rest, ∃ value, part.value = .literal value)
      ∧ ∀ ch ∈ (String.join (rest.map fun part => part.value.text)).toList, isControl ch = false ∧ ch ≠ ':' := by
  unfold DeferredExpression.validateHostBind at h
  split at h
  · next name origins rest hsegments =>
    obtain ⟨suffix, hsuffix, h⟩ := Results.bind_eq_ok.mp h
    obtain ⟨hliterals, rfl⟩ := hostBindSuffix_ok hsuffix
    refine ⟨name, origins, rest, hsegments, hliterals, fun ch hch => ?_⟩
    split at h
    · cases h
    · next hsafe =>
      rw [Bool.or_eq_true, not_or, Bool.not_eq_true, Bool.not_eq_true, List.any_eq_false] at hsafe
      have hplain := hsafe.2 ch (by rw [String.empty_append]; exact hch)
      simpa using hplain
  · exact nomatch h

theorem validateHostBinds_ok {mounts : List (Sourced Mount)} (h : Service.validateHostBinds mounts = .ok ())
    {mount : Sourced Mount} (hmount : mount ∈ mounts) (hsource : mount.value.source = .deferredHostPath expression) :
    expression.validateHostBind = .ok () := by
  induction mounts with
  | nil => exact nomatch hmount
  | cons first rest ih =>
    unfold Service.validateHostBinds at h
    rcases List.mem_cons.mp hmount with rfl | hrest
    · rw [hsource] at h
      obtain ⟨⟨⟩, hbind, -⟩ := Results.bind_eq_ok.mp h
      exact hbind
    · split at h
      · obtain ⟨⟨⟩, -, h⟩ := Results.bind_eq_ok.mp h
        exact ih h hrest
      · exact ih h hrest

/-! ## Plans -/

theorem nodup_of_card {α : Type} [DecidableEq α] {list : List α} (h : list.toFinset.card = list.length) :
    list.Nodup := by
  rw [List.card_toFinset] at h
  have hsame := (List.dedup_sublist list).eq_of_length h
  rw [← hsame]
  exact List.nodup_dedup list

/-- A plan assigns each name at most once. -/
theorem nodup_assignments (plan : ServiceExecutionEnvironment) :
    (plan.assignments.map fun item => item.value.name).Nodup := by
  have hvalid := plan.valid
  unfold executionEnvironmentValid at hvalid
  dsimp only at hvalid
  split at hvalid
  · exact nomatch hvalid
  · next hchecks =>
    simp only [not_or, not_not] at hchecks
    refine nodup_of_card ?_
    rw [hchecks.2.2.2.1, List.length_map]

/-- What an admitted service has checked. -/
structure DeferredChecked (service : Service) : Prop where
  binds : Service.validateHostBinds service.mounts = .ok ()
  absent : service.executionEnvironment = none →
    ∀ name, name ∉ service.deferredExpressions.flatMap DeferredExpression.references
  declared : ∀ plan, service.executionEnvironment = some plan → ∀ name,
    name ∈ service.deferredExpressions.flatMap DeferredExpression.references
      ↔ name ∈ plan.value.references.map Sourced.value
  provided : ∀ plan, service.executionEnvironment = some plan → plan.value.files = [] → ∀ name,
    name ∈ service.deferredExpressions.flatMap DeferredExpression.references →
      name ∈ plan.value.assignments.map fun item => item.value.name
  roots : ∀ plan, service.executionEnvironment = some plan → plan.value.files = [] → ∀ mount ∈ service.mounts,
    ∀ root, Service.inlineBindRoot plan.value mount.value = some root → Service.unsafeBindRoot root = false

theorem validateDeferred_ok (h : service.validateDeferred = .ok ()) : DeferredChecked service := by
  unfold Service.validateDeferred at h
  obtain ⟨⟨⟩, hbinds, h⟩ := Results.bind_eq_ok.mp h
  cases henvironment : service.executionEnvironment with
  | none =>
    rw [henvironment] at h
    simp only at h
    split at h
    · next hempty =>
      refine ⟨hbinds, fun _ name hname => ?_, fun plan hplan => ?_, fun plan hplan => ?_, fun plan hplan => ?_⟩
      · rw [List.toFinset_eq_empty_iff] at hempty
        rw [hempty] at hname
        cases hname
      · cases henvironment.symm.trans hplan
      · cases henvironment.symm.trans hplan
      · cases henvironment.symm.trans hplan
    · cases h
  | some plan =>
    rw [henvironment] at h
    simp only at h
    split at h
    · cases h
    next hroots =>
    split at h
    · cases h
    next hchecks =>
    simp only [not_or, not_not, not_and] at hchecks
    obtain ⟨hused, -, hprovided⟩ := hchecks
    refine ⟨hbinds, fun hnone => ?_, fun other hother name => ?_, fun other hother hfiles name hname => ?_,
      fun other hother hfiles mount hmount root hroot => ?_⟩
    · cases henvironment.symm.trans hnone
    · obtain rfl := Option.some.inj (henvironment.symm.trans hother)
      rw [← List.mem_toFinset, hused, List.mem_toFinset]
    · obtain rfl := Option.some.inj (henvironment.symm.trans hother)
      have hsubset := hprovided (by rw [hfiles]; rfl)
      exact List.mem_toFinset.mp (hsubset (List.mem_toFinset.mpr hname))
    · obtain rfl := Option.some.inj (henvironment.symm.trans hother)
      by_contra hunsafe
      rw [Bool.not_eq_false] at hunsafe
      refine hroots ?_
      rw [Bool.and_eq_true, List.any_eq_true]
      refine ⟨by rw [hfiles]; rfl, mount, hmount, ?_⟩
      rw [hroot, Option.map_some, Option.getD_some]
      exact hunsafe

/-! ## Effective paths -/

theorem inlineText_of_mem (h : name ∈ plan.assignments.map fun item => item.value.name) :
    ∃ item, plan.assignments.find? (fun item => item.value.name = name) = some item
      ∧ plan.inlineText name = item.value.value.expose := by
  obtain ⟨assigned, hassigned, rfl⟩ := List.mem_map.mp h
  cases hfind : plan.assignments.find? fun item => item.value.name = assigned.value.name with
  | none =>
    have hnone := List.find?_eq_none.mp hfind assigned hassigned
    exact absurd (decide_eq_true rfl) hnone
  | some item =>
    refine ⟨item, rfl, ?_⟩
    unfold ServiceExecutionEnvironment.inlineText
    rw [hfind]
    rfl

/-- After the root an accepted host bind evaluates to its literal texts. -/
theorem evaluate_literals (h : ∀ part ∈ parts, ∃ value, part.value = .literal value) :
    (parts.map fun part =>
      match part.value with
      | .literal value => value.expose
      | .reference name => plan.inlineText name) = parts.map fun part => part.value.text := by
  refine List.map_congr_left fun part hpart => ?_
  obtain ⟨value, hvalue⟩ := h part hpart
  rw [hvalue]
  rfl

theorem mem_references_of_mount {mount : Sourced Mount} (hmount : mount ∈ service.mounts)
    (hsource : mount.value.source = .deferredHostPath expression) {origins : List Provenance}
    {rest : List (Sourced DeferredSegment)} (hsegments : expression.segments = ⟨.reference name, origins⟩ :: rest) :
    name ∈ service.deferredExpressions.flatMap DeferredExpression.references := by
  refine List.mem_flatMap.mpr ⟨expression, List.mem_append_right _ (List.mem_filterMap.mpr ⟨mount, hmount, ?_⟩), ?_⟩
  · rw [hsource]
  · unfold DeferredExpression.references
    rw [hsegments]
    exact List.mem_cons_self

theorem DeferredChecked.safePath (h : DeferredChecked service) {plan : Sourced ServiceExecutionEnvironment}
    (hplan : service.executionEnvironment = some plan) (hfiles : plan.value.files = []) {mount : Sourced Mount}
    (hmount : mount ∈ service.mounts) (hsource : mount.value.source = .deferredHostPath expression) :
    SafePath (expression.evaluate plan.value) := by
  obtain ⟨name, origins, rest, hsegments, hliterals, hsuffix⟩ :=
    validateHostBind_ok (validateHostBinds_ok h.binds hmount hsource)
  have hused := mem_references_of_mount hmount hsource hsegments
  obtain ⟨item, hfind, htext⟩ := inlineText_of_mem (h.provided plan hplan hfiles name hused)
  have hroot : SafePath item.value.value.expose := by
    have hbound : Service.inlineBindRoot plan.value mount.value = some item.value.value.expose := by
      unfold Service.inlineBindRoot
      rw [hsource]
      simp only
      rw [hsegments]
      simp only
      rw [hfind]
      rfl
    have hsafe := h.roots plan hplan hfiles mount hmount _ hbound
    unfold Service.unsafeBindRoot at hsafe
    rw [Bool.or_eq_false_iff, Bool.not_eq_false', List.any_eq_false] at hsafe
    refine ⟨hsafe.1, fun ch hch => ?_⟩
    simpa using hsafe.2 ch hch
  unfold DeferredExpression.evaluate
  rw [hsegments, List.map_cons, String.join_cons, evaluate_literals hliterals]
  show SafePath (plan.value.inlineText name ++ _)
  rw [htext]
  exact hroot.append hsuffix

/-- An admitted service declares what its expressions look up, and without provider files each of
its deferred host binds comes to a safe path. -/
theorem deferred_binds_safe (h : service.validateDeferred = .ok ()) :
    (∀ name, (∃ expression ∈ service.deferredExpressions, name ∈ expression.references)
        ↔ ∃ plan, service.executionEnvironment = some plan ∧ name ∈ plan.value.references.map Sourced.value)
      ∧ ∀ plan, service.executionEnvironment = some plan → plan.value.files = [] →
        (∀ expression ∈ service.deferredExpressions, ∀ name ∈ expression.references,
          (plan.value.assignments.map fun item => item.value.name).count name = 1)
        ∧ ∀ mount ∈ service.mounts, ∀ expression, mount.value.source = .deferredHostPath expression →
          SafePath (expression.evaluate plan.value) := by
  have hchecked := validateDeferred_ok h
  refine ⟨fun name => ?_, fun plan hplan hfiles => ⟨fun expression hexpression name hname => ?_,
    fun mount hmount expression hsource => hchecked.safePath hplan hfiles hmount hsource⟩⟩
  · rw [← List.mem_flatMap]
    constructor
    · intro hname
      cases hplan : service.executionEnvironment with
      | none => exact absurd hname (hchecked.absent hplan name)
      | some plan => exact ⟨plan, rfl, (hchecked.declared plan hplan name).mp hname⟩
    · rintro ⟨plan, hplan, hname⟩
      exact (hchecked.declared plan hplan name).mpr hname
  · refine List.count_eq_one_of_mem (nodup_assignments plan.value) ?_
    exact hchecked.provided plan hplan hfiles name (List.mem_flatMap.mpr ⟨expression, hexpression, hname⟩)

def rootName : ServiceEnvironmentName := ⟨"ROOT", by decide +kernel⟩

def boundPlan : ServiceExecutionEnvironment :=
  ⟨[⟨rootName, []⟩], [⟨⟨rootName, "/srv", by decide +kernel⟩, []⟩], [], by decide +kernel⟩

def boundPath : DeferredExpression :=
  ⟨[⟨.reference rootName, []⟩, ⟨.literal (.plain "/data"), []⟩], by decide +kernel⟩

/-- `$ROOT/data`, with the root assigned inline. -/
def boundService : Service where
  name := ⟨"db", Identifier.valid_db⟩
  executionEnvironment := some ⟨boundPlan, []⟩
  mounts := [⟨⟨.deferredHostPath boundPath, "/var/lib", false, none, false, by decide +kernel⟩, []⟩]

theorem deferred_binds_safe_bound : SafePath (boundPath.evaluate boundPlan) :=
  ((deferred_binds_safe (by decide +kernel : boundService.validateDeferred = .ok ())).2 ⟨boundPlan, []⟩ rfl rfl).2 _
    List.mem_cons_self boundPath rfl

end Boxferry.Model
