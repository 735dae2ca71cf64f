import Boxferry.Quadlet.Export.Mounts

/-! # Fields of an exported volume value

A bind that reaches the unit as a volume value keeps its source and target apart exactly when
no name that a root-relative source keeps has a colon. -/
namespace Boxferry.Quadlet.Export
open Engine Lens Model
set_option autoImplicit false

/-! ## Colons of a path -/

theorem colon_not_mem_of_isSafeMountPart {value : String} (h : isSafeMountPart value = true) :
    ':' ∉ value.toList := by
  intro hcolon
  unfold isSafeMountPart at h
  rw [Bool.and_eq_true, List.all_eq_true] at h
  exact absurd (h.2 ':' hcolon) (by decide)

theorem pathStep_eq_name {component name : String} (h : pathStep component = some (some name)) :
    name = component := by
  unfold pathStep at h
  split at h
  · cases h
  · split at h
    · cases h
    · exact (Option.some.inj (Option.some.inj h)).symm

/-- The names of a path that no later component takes away. -/
def keptNames (path : String) : List String := (PathSteps.kept ((splitText '/' path).map pathStep)).2

theorem mem_of_mem_keptNames {path name : String} {ch : Char} (hname : name ∈ keptNames path)
    (h : ch ∈ name.toList) : ch ∈ path.toList := by
  obtain ⟨component, hcomponent, hstep⟩ := List.mem_map.mp (PathSteps.mem_of_mem_kept hname)
  rw [pathStep_eq_name hstep] at h
  exact (mem_of_mem_splitText hcomponent h).1

theorem colon_mem_absolutePath {components : List String} :
    ':' ∈ (absolutePath components).toList ↔ ∃ component ∈ components, ':' ∈ component.toList := by
  unfold absolutePath
  rw [String.toList_append, List.mem_append]
  constructor
  · intro h
    cases h with
    | inl hslash => exact absurd hslash (by decide)
    | inr hjoined => exact (mem_joinText hjoined).resolve_left (by decide)
  · rintro ⟨component, hcomponent, hcolon⟩
    exact Or.inr (mem_joinText_of_mem hcomponent hcolon)

theorem absolutePath_ne_empty (components : List String) : (absolutePath components).isEmpty = false := by
  have hlength : (absolutePath components).toList ≠ [] := by
    unfold absolutePath
    rw [String.toList_append]
    exact List.cons_ne_nil _ _
  cases hempty : (absolutePath components).isEmpty with
  | false => rfl
  | true =>
    rw [String.isEmpty_iff] at hempty
    rw [hempty] at hlength
    exact absurd rfl hlength

theorem colon_not_mem_normal {classifyPath : String → PathForm} {given root : String}
    (h : normalizeAbsolutePath classifyPath given = some root) : ':' ∉ root.toList := by
  unfold normalizeAbsolutePath at h
  split at h
  · cases h
  · next hchecked =>
    rw [not_or, Bool.not_eq_false] at hchecked
    obtain ⟨components, hresolve, rfl⟩ := Option.map_eq_some_iff.mp h
    intro hcolon
    obtain ⟨component, hcomponent, hmem⟩ := colon_mem_absolutePath.mp hcolon
    cases PathSteps.mem_resolve hresolve hcomponent with
    | inl hnone => exact nomatch hnone
    | inr hkept =>
      exact colon_not_mem_of_isSafeMountPart hchecked.2 (mem_of_mem_keptNames hkept hmem)

/-- A relative path brings the colons of the names it keeps, and the root none. -/
theorem colon_mem_resolved {root path resolved : String} (hroot : ':' ∉ root.toList)
    (h : resolveRelativePath root path = some resolved) :
    ':' ∈ resolved.toList ↔ ∃ name ∈ keptNames path, ':' ∈ name.toList := by
  unfold resolveRelativePath at h
  dsimp only at h
  split at h
  · cases h
  · obtain ⟨components, hresolve, rfl⟩ := Option.map_eq_some_iff.mp h
    rw [colon_mem_absolutePath]
    constructor
    · rintro ⟨component, hcomponent, hcolon⟩
      cases PathSteps.mem_resolve hresolve hcomponent with
      | inl hstart =>
        have hpart := (List.mem_filter.mp hstart).1
        have hmem := (mem_of_mem_splitText hpart hcolon).1
        rw [String.toList_ofList] at hmem
        exact absurd ((List.dropWhile_sublist _).mem hmem) hroot
      | inr hkept => exact ⟨component, hkept, hcolon⟩
    · rintro ⟨name, hname, hcolon⟩
      exact ⟨name, PathSteps.kept_mem_resolve hresolve hname, hcolon⟩

theorem resolved_ne_empty {root path resolved : String} (h : resolveRelativePath root path = some resolved) :
    resolved.isEmpty = false := by
  unfold resolveRelativePath at h
  dsimp only at h
  split at h
  · cases h
  · obtain ⟨components, -, rfl⟩ := Option.map_eq_some_iff.mp h
    exact absolutePath_ne_empty components

/-! ## Fields -/

/-- The fields that a mount with a resolved source has. -/
def volumeFields (source : String) (mount : Mount) : List String :=
  [source, mount.target] ++
    if (mountOptions mount).isEmpty then [] else [joinText ',' (mountOptions mount)]

theorem colon_not_mem_target {mount : Mount} (h : hasSafeTarget mount = true) : ':' ∉ mount.target.toList := by
  unfold hasSafeTarget at h
  rw [Bool.and_eq_true] at h
  have hsafe := h.1
  split at hsafe
  · intro hcolon
    rw [Bool.not_eq_true', List.any_eq_false] at hsafe
    exact hsafe ':' hcolon (by decide)
  · exact colon_not_mem_of_isSafeMountPart hsafe

theorem colon_not_mem_options (mount : Mount) : ':' ∉ (joinText ',' (mountOptions mount)).toList := by
  intro hcolon
  obtain ⟨option, hoption, hmem⟩ := (mem_joinText hcolon).resolve_left (by decide)
  have hknown : option ∈ ["ro", "z", "Z"] := by
    unfold mountOptions at hoption
    cases List.mem_append.mp hoption with
    | inl hro =>
      split at hro
      · rw [List.mem_singleton.mp hro]
        decide
      · exact nomatch hro
    | inr hrelabel =>
      split at hrelabel
      · exact nomatch hrelabel
      · rw [List.mem_singleton.mp hrelabel]
        decide
      · rw [List.mem_singleton.mp hrelabel]
        decide
  have hall : ∀ known ∈ ["ro", "z", "Z"], ':' ∉ known.toList := by decide
  exact hall option hknown hmem

theorem encodeVolume_eq {source : String} {mount : Mount} (hsource : source.isEmpty = false) :
    encodeVolume source mount = joinText ':' (volumeFields source mount) := by
  unfold encodeVolume volumeFields
  dsimp only
  rw [hsource, if_neg Bool.false_ne_true]
  apply String.toList_inj.mp
  unfold joinText
  split
  · simp [List.intercalate_cons_cons, List.intercalate_singleton]
  · simp [List.intercalate_cons_cons, List.intercalate_singleton]

/-- Only a colon in the source moves a field. -/
theorem splitText_encodeVolume {source : String} {mount : Mount} (hsource : source.isEmpty = false)
    (htarget : hasSafeTarget mount = true) :
    splitText ':' (encodeVolume source mount) = volumeFields source mount ↔ ':' ∉ source.toList := by
  constructor
  · intro hsplit hcolon
    have hfirst : source ∈ splitText ':' (encodeVolume source mount) := by
      rw [hsplit]
      exact List.mem_cons_self
    exact (mem_of_mem_splitText hfirst hcolon).2 rfl
  · intro hclean
    have hparts : ∀ part ∈ volumeFields source mount, ':' ∉ part.toList := by
      intro part hpart
      unfold volumeFields at hpart
      cases List.mem_append.mp hpart with
      | inl hpaths =>
        cases List.mem_cons.mp hpaths with
        | inl hsame =>
          rw [hsame]
          exact hclean
        | inr hlast =>
          rw [List.mem_singleton.mp hlast]
          exact colon_not_mem_target htarget
      | inr hoptions =>
        split at hoptions
        · exact nomatch hoptions
        · rw [List.mem_singleton.mp hoptions]
          exact colon_not_mem_options mount
    rw [encodeVolume_eq hsource]
    exact splitText_join ':' _ (List.cons_ne_nil _ _) hparts

/-! ## Sources -/

/-- The path is resolved against the root and keeps a name with a colon. -/
def CarriesColon (library : MountLibrary) (sources : BindSources library.classifyPath) (path : String) : Prop :=
  sources.bindSourceMapping path = none ∧ library.classifyPath path = .unitRelativeLiteral ∧
    ∃ name ∈ keptNames path, ':' ∈ name.toList

instance (library : MountLibrary) (sources : BindSources library.classifyPath) (path : String) :
    Decidable (CarriesColon library sources path) := inferInstanceAs (Decidable (_ ∧ _ ∧ _))

namespace Mapping
variable {m : Mapping} {library : MountLibrary} {sources : BindSources library.classifyPath}
  {subject : Subject} {mount : Sourced Mount} {path : String} {source : ResolvedResourceSource}
  {stage : ContainerStage} {origins : List Provenance}

theorem not_carriesColon_of_clean (h : ':' ∉ path.toList) : ¬ CarriesColon library sources path := by
  rintro ⟨-, -, name, hname, hcolon⟩
  exact h (mem_of_mem_keptNames hname hcolon)

theorem isEmpty_of_isSafeMountPart {value : String} (h : isSafeMountPart value = true) :
    value.isEmpty = false := by
  unfold isSafeMountPart at h
  rw [Bool.and_eq_true, Bool.not_eq_true'] at h
  exact h.1

theorem mapped_safe {mapped : String} (h : sources.bindSourceMapping path = some mapped) :
    isSafeMountPart mapped = true := by
  obtain ⟨before, after, hsplit, -⟩ := List.lookup_eq_some_iff.mp h
  have hmem : (path, mapped) ∈ sources.bindSourceMappings := by
    rw [hsplit]
    exact List.mem_append_right _ List.mem_cons_self
  have hvalid := (sources.validMappings _ hmem).2
  unfold isValidQuadletBindSource at hvalid
  rw [Bool.and_eq_true] at hvalid
  exact hvalid.2

theorem classifiedSource_colon (hmapping : sources.bindSourceMapping path = none)
    (h : (classifiedSource library sources subject path origins).value = some source) :
    source.value.isEmpty = false ∧ (':' ∈ source.value.toList ↔ CarriesColon library sources path) := by
  have hsafe : isSafeMountPart path = true → some (⟨path, none⟩ : ResolvedResourceSource) = some source →
      source.value.isEmpty = false ∧ (':' ∈ source.value.toList ↔ CarriesColon library sources path) := by
    intro hpart hsource
    have hclean := colon_not_mem_of_isSafeMountPart hpart
    rw [← Option.some.inj hsource]
    exact ⟨isEmpty_of_isSafeMountPart hpart, iff_of_false hclean (not_carriesColon_of_clean hclean)⟩
  unfold classifiedSource at h
  dsimp only at h
  split at h
  · split at h
    · next hpart => exact hsafe hpart h
    · cases h
  · split at h
    · next hpart => exact hsafe hpart h
    · cases h
  · next hform =>
    split at h
    · cases h
    · next root hroot =>
      split at h
      · next resolved hresolved =>
        obtain ⟨given, hgiven⟩ := sources.normalRoot root hroot
        rw [← Option.some.inj h]
        refine ⟨resolved_ne_empty hresolved, ?_⟩
        rw [colon_mem_resolved (colon_not_mem_normal hgiven) hresolved]
        exact ⟨fun hkept => ⟨hmapping, hform, hkept⟩, fun hcarries => hcarries.2.2⟩
      · cases h
  · cases h
  · cases h

theorem mountSource_colon (hsource : mount.value.source = .hostPath path)
    (h : (m.mountSource library sources subject mount).value = some source) :
    source.value.isEmpty = false ∧ (':' ∈ source.value.toList ↔ CarriesColon library sources path) := by
  unfold mountSource at h
  rw [hsource] at h
  dsimp only at h
  split at h
  · next hliteral =>
    rw [Bool.and_eq_true, Bool.and_eq_true, Bool.not_eq_true', List.any_eq_false] at hliteral
    have hclean : ':' ∉ path.toList := fun hcolon => hliteral.1.2 ':' hcolon (by decide)
    have hnonempty : path.isEmpty = false := by
      cases hempty : path.isEmpty with
      | false => rfl
      | true =>
        rw [String.isEmpty_iff] at hempty
        rw [hempty] at hliteral
        exact absurd hliteral.1.1 (by decide)
    rw [← Option.some.inj h]
    exact ⟨hnonempty, iff_of_false hclean (not_carriesColon_of_clean hclean)⟩
  · split at h
    · next mapped hmapping =>
      have hpart := mapped_safe hmapping
      rw [← Option.some.inj h]
      refine ⟨isEmpty_of_isSafeMountPart hpart, iff_of_false (colon_not_mem_of_isSafeMountPart hpart) ?_⟩
      rintro ⟨hnone, -⟩
      rw [hnone] at hmapping
      cases hmapping
    · next hmapping => exact classifiedSource_colon hmapping h

/-! ## Emission -/

theorem builder_renderBind {word : List DeferredWordPart} :
    (m.renderBind library subject word mount stage).value.builder = stage.builder := by
  unfold renderBind
  rw [Reports.value_bind]
  split
  · split
    · rfl
    · rfl
  · rfl

theorem builder_mapLiteralBind {text : String} :
    (m.mapLiteralBind library subject text mount stage).value.builder = stage.builder := by
  unfold mapLiteralBind
  split
  · exact builder_renderBind
  · rfl

/-- The builder with one more volume entry. -/
def withVolume (builder : UnitBuilder) (value : String) : UnitBuilder :=
  { builder with entries := builder.entries ++ [⟨.container .volume, value⟩] }

theorem withVolume_ne {builder : UnitBuilder} {value : String} : builder ≠ withVolume builder value := by
  intro hsame
  have hlength := congrArg (fun other => other.entries.length) hsame
  simp [withVolume] at hlength

theorem withVolume_inj {builder : UnitBuilder} {value other : String}
    (h : withVolume builder value = withVolume builder other) : value = other := by
  have hentries := List.append_cancel_left (congrArg UnitBuilder.entries h)
  exact (UnitEntry.mk.inj (List.cons.inj hentries).1).2

theorem builder_pushVolume {value : String}
    (h : (m.pushVolume subject source mount stage).value.builder = withVolume stage.builder value) :
    value = encodeVolume source.value mount.value := by
  unfold pushVolume at h
  rw [Reports.value_bind] at h
  split at h
  · unfold push at h
    split at h
    · cases happroximation : source.approximation with
      | none =>
        rw [happroximation] at h
        exact (withVolume_inj h).symm
      | some reason =>
        rw [happroximation] at h
        exact (withVolume_inj h).symm
    · exact absurd h withVolume_ne
  · exact absurd h withVolume_ne

/-- The mount has this source and reaches the unit as this volume value. -/
def EmitsVolume (m : Mapping) (library : MountLibrary) (sources : BindSources library.classifyPath)
    (serviceSubject : String) (index : Nat) (mount : Sourced Mount) (stage : ContainerStage)
    (source : ResolvedResourceSource) (value : String) : Prop :=
  (m.mountSource library sources (mountSubject serviceSubject index) mount).value = some source ∧
    (m.mapMount library sources serviceSubject index mount stage).value.builder
      = withVolume stage.builder value

instance (m : Mapping) (library : MountLibrary) (sources : BindSources library.classifyPath)
    (serviceSubject : String) (index : Nat) (mount : Sourced Mount) (stage : ContainerStage)
    (source : ResolvedResourceSource) (value : String) :
    Decidable (m.EmitsVolume library sources serviceSubject index mount stage source value) :=
  inferInstanceAs (Decidable (_ ∧ _))

variable {serviceSubject : String} {index : Nat} {value : String}

theorem emitsVolume_value (hsource : mount.value.source = .hostPath path)
    (h : m.EmitsVolume library sources serviceSubject index mount stage source value) :
    hasSafeTarget mount.value = true ∧ value = encodeVolume source.value mount.value := by
  obtain ⟨hresolved, hbuilder⟩ := h
  unfold mapMount at hbuilder
  dsimp only at hbuilder
  split at hbuilder
  · exact absurd hbuilder withVolume_ne
  · next htarget =>
    rw [Bool.not_eq_true', Bool.not_eq_false] at htarget
    refine ⟨htarget, ?_⟩
    rw [hsource] at hbuilder
    dsimp only at hbuilder
    split at hbuilder
    · exact absurd hbuilder withVolume_ne
    · rw [Reports.value_bind, hresolved] at hbuilder
      unfold mapResolvedMount at hbuilder
      dsimp only at hbuilder
      split at hbuilder
      · split at hbuilder
        · exact absurd hbuilder withVolume_ne
        · rw [builder_mapLiteralBind] at hbuilder
          exact absurd hbuilder withVolume_ne
      · exact builder_pushVolume hbuilder

/-- An emitted bind keeps its fields exactly when its source is not a relative one that keeps a colon. -/
theorem volume_fields_iff (hsource : mount.value.source = .hostPath path)
    (h : m.EmitsVolume library sources serviceSubject index mount stage source value) :
    splitText ':' value = volumeFields source.value mount.value ↔ ¬ CarriesColon library sources path := by
  obtain ⟨htarget, rfl⟩ := emitsVolume_value hsource h
  obtain ⟨hnonempty, hcolon⟩ := mountSource_colon hsource h.1
  rw [splitText_encodeVolume hnonempty htarget, hcolon]

end Mapping

/-! ## A relative source with a colon -/

def sampleLibrary : MountLibrary where
  classifyPath path :=
    if startsWith path "./" || startsWith path "../" then .unitRelativeLiteral
    else if startsWith path "/" then .absoluteLiteral
    else .other
  acceptsName _ := true
  acceptsWord _ := true
  rejectsBind _ _ := none

def sampleSources : BindSources sampleLibrary.classifyPath where
  relativeBindRoot := some "/srv"
  normalRoot root hroot := ⟨"/srv", by rw [← hroot]; decide +kernel⟩

def sampleMapping : Mapping where
  exporter := ⟨.permissive, .separateContainers, none⟩
  application := Application.new ⟨"demo", Identifier.valid_demo⟩
  podmanTarget := some ⟨⟨5, 0, 0⟩, none⟩

def sampleMount (path : String) : Sourced Mount :=
  ⟨⟨.hostPath path, "/data", true, some .shared, false, Mount.valid_data⟩, []⟩

def sampleStage : ContainerStage := ⟨⟨.container, []⟩, []⟩

namespace Mapping

theorem volume_fields_iff_data :
    splitText ':' "/srv/data:/data:ro,z" = volumeFields "/srv/data" (sampleMount "./a:b/../data").value
      ↔ ¬ CarriesColon sampleLibrary sampleSources "./a:b/../data" :=
  volume_fields_iff (m := sampleMapping) rfl
    (by decide +kernel :
      sampleMapping.EmitsVolume sampleLibrary sampleSources "services.web" 0 (sampleMount "./a:b/../data")
        sampleStage ⟨"/srv/data", none⟩ "/srv/data:/data:ro,z")

end Mapping

/-- The colon of a relative source ends the first field. -/
theorem relative_colon_moves_field :
    ¬ ∀ (m : Mapping) (library : MountLibrary) (sources : BindSources library.classifyPath)
      (serviceSubject : String) (index : Nat) (mount : Sourced Mount) (stage : ContainerStage) (path : String)
      (source : ResolvedResourceSource) (value : String),
      (∀ spelling, startsWith spelling "./" = true ∨ startsWith spelling "../" = true →
        library.classifyPath spelling = .unitRelativeLiteral) →
      (∀ spelling, library.classifyPath spelling = .absoluteLiteral → startsWith spelling "/" = true) →
      mount.value.source = .hostPath path →
      m.EmitsVolume library sources serviceSubject index mount stage source value →
      splitText ':' value = volumeFields source.value mount.value := by
  intro hall
  have hrelative : ∀ spelling, startsWith spelling "./" = true ∨ startsWith spelling "../" = true →
      sampleLibrary.classifyPath spelling = .unitRelativeLiteral := by
    intro spelling hspelling
    show (if (startsWith spelling "./" || startsWith spelling "../") = true then _ else _) = _
    rw [if_pos (Bool.or_eq_true _ _ ▸ hspelling)]
  have habsolute : ∀ spelling, sampleLibrary.classifyPath spelling = .absoluteLiteral →
      startsWith spelling "/" = true := by
    intro spelling hform
    have hbranches : (if (startsWith spelling "./" || startsWith spelling "../") = true then
        PathForm.unitRelativeLiteral
      else if startsWith spelling "/" = true then .absoluteLiteral else .other) = .absoluteLiteral := hform
    split at hbranches
    · cases hbranches
    · split at hbranches
      · next hslash => exact hslash
      · cases hbranches
  have hemits : sampleMapping.EmitsVolume sampleLibrary sampleSources "services.web" 0 (sampleMount "./a:b")
      sampleStage ⟨"/srv/a:b", none⟩ "/srv/a:b:/data:ro,z" := by decide +kernel
  have hfields := hall _ _ _ _ _ _ _ _ _ _ hrelative habsolute rfl hemits
  exact absurd hfields (by decide +kernel)

end Boxferry.Quadlet.Export
