import Boxferry.Compose.MetadataWalk
import Boxferry.Library.Results

/-! # Accounting for extensions

Every extension of a project tree is accounted for once: those of the root and of a
declared service by an item or an unsupported outcome of the import, all others by an
unsupported outcome of the walk. -/
namespace Boxferry.Compose
open Model Engine StackWalk Results
set_option autoImplicit false

/-! ## What one step adds -/

theorem kind_withOrigins (outcome : ConversionOutcome) (origins : List Provenance) :
    (origins.foldl ConversionOutcome.withOrigin outcome).kind = outcome.kind := by
  induction origins generalizing outcome with
  | nil => rfl
  | cons origin rest ih => exact ih (outcome.withOrigin origin)

theorem value_addNewOrigins {α : Type} (sourced : Sourced α) (origins : List Provenance) :
    (origins.foldl Mapping.addNewOrigin sourced).value = sourced.value := by
  induction origins generalizing sourced with
  | nil => rfl
  | cons origin rest ih =>
    rw [List.foldl_cons, ih]
    unfold Mapping.addNewOrigin
    split <;> rfl

theorem unsupportedOptional_eq (mapping : Mapping) (subject feature : String) (span : Option ComposeSpan) :
    ∃ outcome diagnostics, mapping.unsupportedOptional subject feature span =
        { mapping with outcomes := mapping.outcomes ++ [outcome], diagnostics := diagnostics } ∧
      outcome.subject = subject ∧ outcome.kind = .unsupported ∧
      outcome.origins = (span.bind mapping.origin).toList := by
  refine ⟨_, _, rfl, ?_⟩
  unfold Mapping.withOptionalOrigin
  cases span.bind mapping.origin with
  | none => exact ⟨rfl, rfl, rfl⟩
  | some origin => exact ⟨rfl, rfl, rfl⟩

theorem exactProvenance_eq (mapping : Mapping) (subject : String) (provenance : MergeProvenance) :
    ∃ outcome, mapping.exactProvenance subject provenance =
        { mapping with outcomes := mapping.outcomes ++ [outcome] } ∧ outcome.kind = .exact :=
  ⟨_, rfl, kind_withOrigins _ _⟩

theorem expose_protect (text : String) (sensitive : Bool) : (protect text sensitive).expose = text := by
  cases sensitive <;> rfl

theorem vendorMetadata_spec {mapping : Mapping} {scope : MetadataScope} {entry : MergedEntry}
    {metadata : VendorMetadata} (h : vendorMetadata mapping scope entry = .ok metadata) :
    metadata.scope = scope ∧ metadata.nameSpace.value.expose = entry.key := by
  unfold vendorMetadata at h
  split at h
  · obtain ⟨node, -, h⟩ := bind_eq_ok.mp h
    split at h
    · next made hmade =>
      obtain rfl := Except.ok.inj h
      unfold VendorMetadata.new at hmade
      split at hmade
      · obtain rfl := Except.ok.inj hmade
        refine ⟨rfl, ?_⟩
        have hvalue : (mapping.sourcedSpans (protect entry.key entry.isKeySensitive) entry.keySources).value =
            protect entry.key entry.isKeySensitive := value_addNewOrigins _ _
        show (mapping.sourcedSpans (protect entry.key entry.isKeySensitive) entry.keySources).value.expose = entry.key
        rw [hvalue]
        exact expose_protect entry.key entry.isKeySensitive
      · cases hmade
    · cases h
  · cases h

theorem addMetadata_spec {application added : Application} {metadata : VendorMetadata}
    (h : addMetadata application metadata = .ok added) :
    added = { application with vendorMetadata := application.vendorMetadata ++ [metadata] } := by
  unfold addMetadata at h
  split at h
  · next result hresult =>
    obtain rfl := Except.ok.inj h
    unfold Application.addVendorMetadata at hresult
    rw [guard_eq_ok, guard_eq_ok] at hresult
    obtain ⟨-, -, hresult⟩ := hresult
    obtain ⟨first, -, hresult⟩ := bind_eq_ok.mp hresult
    obtain ⟨bytes, -, hresult⟩ := bind_eq_ok.mp hresult
    rw [guard_eq_ok] at hresult
    exact (Except.ok.inj hresult.2).symm
  · cases h

/-! ## Root and direct-service extensions -/

/-- The scope an extension of the root or of a service belongs to. -/
def Scoped (root : MergedValue) (site : List Nat) (scope : MetadataScope) : Prop :=
  (site.length = 1 ∧ scope = .application) ∨
    ∃ service index entry owner, site = service ++ [index] ∧ ServiceChild root service ∧
      root.entryAt service = some entry ∧ owner.asStr = entry.key ∧ scope = .service owner

/-- The extension becomes one item with one exact outcome, or none with one unsupported outcome. -/
def Accounted (root : MergedValue) (site : List Nat) (result : Option VendorMetadata × ConversionOutcome) : Prop :=
  ∃ entry, root.entryAt site = some entry ∧
    ((∃ metadata, result.1 = some metadata ∧ metadata.nameSpace.value.expose = entry.key ∧
        Scoped root site metadata.scope ∧ result.2.kind = .exact) ∨
      (result.1 = none ∧ result.2.kind = .unsupported))

/-- The import accounts for the sites, one after the other, and changes nothing else. -/
def Imports (root : MergedValue) (sites : List (List Nat)) (before after : Mapping × Application) : Prop :=
  ∃ results diagnostics, List.Forall₂ (Accounted root) sites results ∧
    after = ({ before.1 with
        outcomes := before.1.outcomes ++ results.map Prod.snd
        diagnostics := diagnostics },
      { before.2 with vendorMetadata := before.2.vendorMetadata ++ results.filterMap Prod.fst })

section Imports
variable {root : MergedValue} {site : List Nat} {sites others : List (List Nat)} {scope : MetadataScope}
  {state before middle after : Mapping × Application} {entry : MergedEntry}

theorem imports_nil : Imports root [] state state := by
  refine ⟨[], state.1.diagnostics, List.Forall₂.nil, ?_⟩
  rw [List.map_nil, List.filterMap_nil, List.append_nil, List.append_nil]

theorem Imports.trans (h : Imports root sites before middle) (hnext : Imports root others middle after) :
    Imports root (sites ++ others) before after := by
  obtain ⟨results, diagnostics, hresults, rfl⟩ := h
  obtain ⟨more, last, hmore, rfl⟩ := hnext
  refine ⟨results ++ more, last, List.rel_append hresults hmore, ?_⟩
  rw [List.map_append, List.filterMap_append, ← List.append_assoc, ← List.append_assoc]

theorem imports_entry (hentry : root.entryAt site = some entry) (hscope : Scoped root site scope) :
    Imports root [site] state (importEntry scope state entry) := by
  obtain ⟨mapping, application⟩ := state
  unfold importEntry
  simp only
  split
  · next added hadded =>
    obtain ⟨metadata, hmetadata, hadd⟩ := bind_eq_ok.mp hadded
    obtain ⟨hsame, hkey⟩ := vendorMetadata_spec hmetadata
    obtain ⟨outcome, heq, hkind⟩ := exactProvenance_eq mapping
      ("application.vendor_metadata[" ++ toString application.vendorMetadata.length ++ "]")
      entry.value.provenance
    rw [heq, addMetadata_spec hadd]
    have haccounted : Accounted root site (some metadata, outcome) :=
      ⟨entry, hentry, Or.inl ⟨metadata, rfl, hkey, hsame ▸ hscope, hkind⟩⟩
    exact ⟨[(some metadata, outcome)], mapping.diagnostics, List.Forall₂.cons haccounted List.Forall₂.nil, rfl⟩
  · next reason hreason =>
    obtain ⟨outcome, diagnostics, heq, -, hkind, -⟩ := unsupportedOptional_eq mapping
      ("application.vendor_metadata[" ++ toString application.vendorMetadata.length ++ "]") reason
      entry.value.provenance.effectiveSource
    rw [heq]
    refine ⟨[(none, outcome)], diagnostics,
      List.Forall₂.cons ⟨entry, hentry, Or.inr ⟨rfl, hkind⟩⟩ List.Forall₂.nil, ?_⟩
    show (_, application) = (_, { application with vendorMetadata := application.vendorMetadata ++ [] })
    rw [List.append_nil]
    rfl

theorem imports_entries (found : List (List Nat × MergedEntry))
    (h : ∀ pair ∈ found, root.entryAt pair.1 = some pair.2 ∧ Scoped root pair.1 scope) :
    Imports root (found.map Prod.fst) state ((found.map Prod.snd).foldl (importEntry scope) state) := by
  induction found generalizing state with
  | nil => exact imports_nil
  | cons pair rest ih =>
    obtain ⟨hentry, hscope⟩ := h pair List.mem_cons_self
    have hrest : Imports root (rest.map Prod.fst) (importEntry scope state pair.2)
        ((rest.map Prod.snd).foldl (importEntry scope) (importEntry scope state pair.2)) :=
      ih fun other hother => h other (List.mem_cons_of_mem _ hother)
    exact (imports_entry hentry hscope).trans hrest

theorem importMetadataScope_eq (state : Mapping × Application) (value : MergedValue) (scope : MetadataScope)
    (site : List Nat) :
    importMetadataScope state value scope =
      ((extensions site value.entries.zipIdx).map Prod.snd).foldl (importEntry scope) state := by
  have hentries : ∀ (entries : List MergedEntry) (first : Nat),
      (extensions site (entries.zipIdx first)).map Prod.snd = entries.filter isExtension := by
    intro entries
    induction entries with
    | nil => exact fun _ => rfl
    | cons entry rest ih =>
      intro first
      rw [List.zipIdx_cons, extensions_cons, List.filter_cons]
      split
      · rw [List.map_cons, ih]
      · exact ih _
  rw [hentries]
  rfl

theorem mem_extensions {value : MergedValue} {pair : List Nat × MergedEntry} :
    pair ∈ extensions site value.entries.zipIdx ↔
      ∃ index, pair.1 = site ++ [index] ∧ value.entries[index]? = some pair.2 ∧ isExtension pair.2 = true := by
  unfold extensions
  rw [List.mem_map]
  constructor
  · rintro ⟨⟨entry, index⟩, hpair, rfl⟩
    obtain ⟨hmem, hkeyed⟩ := List.mem_filter.mp hpair
    exact ⟨index, rfl, List.mk_mem_zipIdx_iff_getElem?.mp hmem, hkeyed⟩
  · rintro ⟨index, hsite, hentry, hkeyed⟩
    refine ⟨(pair.2, index), List.mem_filter.mpr ⟨List.mk_mem_zipIdx_iff_getElem?.mpr hentry, hkeyed⟩, ?_⟩
    rw [← hsite]

theorem nodup_extensions (site : List Nat) (entries : List MergedEntry) :
    ((extensions site entries.zipIdx).map Prod.fst).Nodup := by
  unfold extensions
  rw [List.map_map]
  refine (nodup_sites site entries).sublist ?_
  exact List.filter_sublist.map _

/-- The sites of the extensions of a service, when it is declared. -/
def serviceSites (application : Application) (parent : Nat) (pair : MergedEntry × Nat) : List (List Nat) :=
  if isService application pair.1.key then
    (extensions [parent, pair.2] pair.1.value.entries.zipIdx).map Prod.fst
  else []

theorem Imports.services (h : Imports root sites before after) : after.2.services = before.2.services := by
  obtain ⟨results, diagnostics, -, rfl⟩ := h
  rfl

theorem isService_congr {application other : Application} (h : other.services = application.services)
    (key : String) : isService other key = isService application key := by
  unfold isService
  rw [h]

theorem imports_service {parent : Nat} {services : MergedEntry} {pair : MergedEntry × Nat}
    (hservices : root.entryAt [parent] = some services) (hkey : services.key = "services")
    (hentry : services.value.entries[pair.2]? = some pair.1) :
    Imports root (serviceSites state.2 parent pair) state (importService state pair.1) := by
  have hparent : root.valueAt [parent] = some services.value := by
    rw [MergedValue.entryAt_singleton] at hservices
    exact (MergedValue.valueAt_concat root [] parent).trans (MergedValue.child_of_entry hservices)
  have hservice : root.entryAt [parent, pair.2] = some pair.1 := (entryAt_of_found hparent pair.2).trans hentry
  have hvalue : root.valueAt [parent, pair.2] = some pair.1.value :=
    (valueAt_of_found hparent pair.2).trans (MergedValue.child_of_entry hentry)
  have hchild : ServiceChild root [parent, pair.2] :=
    ⟨parent, pair.2, services, rfl, hservices, hkey, by rw [hservice]; rfl⟩
  unfold importService serviceSites isService
  cases howner : state.2.services.find? (fun owner => owner.value.name.asStr == pair.1.key) with
  | none =>
    have hnone : state.2.services.any (fun service => service.value.name.asStr == pair.1.key) = false := by
      rw [List.any_eq_false]
      exact List.find?_eq_none.mp howner
    rw [hnone]
    exact imports_nil
  | some owner =>
    have hsame := List.find?_some howner
    have hany : state.2.services.any (fun service => service.value.name.asStr == pair.1.key) = true :=
      List.any_eq_true.mpr ⟨owner, List.mem_of_find?_eq_some howner, hsame⟩
    rw [hany]
    show Imports root _ state (importMetadataScope state pair.1.value (.service owner.value.name))
    rw [importMetadataScope_eq state pair.1.value _ [parent, pair.2]]
    refine imports_entries _ fun found hfound => ?_
    obtain ⟨index, hsite, hfoundEntry, -⟩ := mem_extensions.mp hfound
    rw [hsite]
    refine ⟨(entryAt_of_found hvalue index).trans hfoundEntry, Or.inr ?_⟩
    exact ⟨_, index, pair.1, owner.value.name, rfl, hchild, hservice, eq_of_beq hsame, rfl⟩

theorem imports_services {parent : Nat} {services : MergedEntry}
    (hservices : root.entryAt [parent] = some services) (hkey : services.key = "services")
    (pairs : List (MergedEntry × Nat)) (h : ∀ pair ∈ pairs, services.value.entries[pair.2]? = some pair.1) :
    Imports root (pairs.flatMap (serviceSites state.2 parent)) state
      ((pairs.map Prod.fst).foldl importService state) := by
  induction pairs generalizing state with
  | nil => exact imports_nil
  | cons pair rest ih =>
    have hfirst : Imports root (serviceSites state.2 parent pair) state (importService state pair.1) :=
      imports_service hservices hkey (h pair List.mem_cons_self)
    have hrest : Imports root (rest.flatMap (serviceSites (importService state pair.1).2 parent))
        (importService state pair.1) ((rest.map Prod.fst).foldl importService (importService state pair.1)) :=
      ih fun other hother => h other (List.mem_cons_of_mem _ hother)
    have hsites : serviceSites (importService state pair.1).2 parent = serviceSites state.2 parent := by
      funext other
      unfold serviceSites
      rw [isService_congr hfirst.services]
    rw [hsites] at hrest
    exact hfirst.trans hrest

end Imports

/-! ## Which extensions the import takes -/

section Extensions
variable {root : MergedValue} {application : Application} {site : List Nat} {entry : MergedEntry} {index : Nat}

theorem extension_concat : Extension root application (site ++ [index]) entry ↔
    Open root application site ∧ root.entryAt (site ++ [index]) = some entry ∧ isExtension entry = true ∧
      ¬ ServiceChild root (site ++ [index]) := by
  have hshort : ∀ above, above <+: site → above ≠ site ++ [index] := by
    intro above habove hsame
    have hlength := habove.length_le
    rw [hsame, List.length_append, List.length_singleton] at hlength
    omega
  constructor
  · intro h
    refine ⟨⟨?_, ?_⟩, h.found, h.keyed, h.notService⟩
    · intro above other habove
      exact h.outside above other (habove.trans (List.prefix_append _ _)) (hshort above habove)
    · intro above other habove
      exact h.declared above other (habove.trans (List.prefix_append _ _))
  · rintro ⟨hopen, hfound, hkeyed, hservice⟩
    refine ⟨hfound, hkeyed, hservice, ?_, ?_⟩
    · intro above other habove hne
      rcases List.prefix_concat_iff.mp habove with hsame | habove
      · exact absurd hsame hne
      · exact hopen.outside above other habove
    · intro above other habove hchild
      rcases List.prefix_concat_iff.mp habove with hsame | habove
      · exact absurd (hsame ▸ hchild) hservice
      · exact hopen.declared above other habove hchild

theorem direct_concat : Direct root (site ++ [index]) ↔ site = [] ∨ ServiceChild root site := by
  unfold Direct
  rw [List.length_append, List.length_singleton]
  constructor
  · rintro (hlength | ⟨service, last, hsite, hchild⟩)
    · exact Or.inl (List.eq_nil_of_length_eq_zero (by omega))
    · exact Or.inr ((List.append_inj' hsite rfl).1 ▸ hchild)
  · rintro (hnil | hchild)
    · exact Or.inl (by rw [hnil]; rfl)
    · exact Or.inr ⟨site, index, rfl, hchild⟩

theorem length_serviceChild (h : ServiceChild root site) : site.length = 2 := by
  obtain ⟨parent, child, services, rfl, -⟩ := h
  rfl

/-- The extensions of the root. -/
theorem extension_root : (∃ entry, Extension root application [index] entry) ↔
    ∃ entry, root.entries[index]? = some entry ∧ isExtension entry = true := by
  have hconcat : ∀ entry, Extension root application ([] ++ [index]) entry ↔
      root.entries[index]? = some entry ∧ isExtension entry = true := by
    intro entry
    rw [extension_concat, List.nil_append, MergedValue.entryAt_singleton]
    constructor
    · rintro ⟨-, hentry, hkeyed, -⟩
      exact ⟨hentry, hkeyed⟩
    · rintro ⟨hentry, hkeyed⟩
      exact ⟨open_nil, hentry, hkeyed, fun hchild => absurd (length_serviceChild hchild) (by simp)⟩
  exact exists_congr hconcat

theorem isExtension_services {services : MergedEntry} (h : services.key = "services") :
    isExtension services = false := by
  unfold isExtension
  rw [h]
  rfl

/-- The extensions of a child of the services mapping. -/
theorem extension_service {parent child : Nat} {services service : MergedEntry}
    (hservices : root.entryAt [parent] = some services) (hkey : services.key = "services")
    (hservice : root.entryAt [parent, child] = some service) :
    Extension root application [parent, child, index] entry ↔
      isService application service.key = true ∧ root.entryAt [parent, child, index] = some entry ∧
        isExtension entry = true := by
  have hchild : ServiceChild root [parent, child] :=
    ⟨parent, child, services, rfl, hservices, hkey, by rw [hservice]; rfl⟩
  have hparent : Open root application [parent] := by
    have hiff : Open root application ([] ++ [parent]) ↔ _ := open_entry open_nil hservices
    refine hiff.mpr ⟨?_, ?_⟩
    · intro hextension
      rw [isExtension_services hkey] at hextension
      cases hextension
    · intro hbad
      cases length_serviceChild hbad
  have hopen : Open root application [parent, child] ↔ isService application service.key = true := by
    have hiff : Open root application ([parent] ++ [child]) ↔ _ := open_entry hparent hservice
    exact hiff.trans ⟨fun h => h.2 hchild, fun h => ⟨fun _ => hchild, fun _ => h⟩⟩
  have hconcat : Extension root application ([parent, child] ++ [index]) entry ↔ _ := extension_concat
  rw [← hopen]
  refine hconcat.trans ⟨fun h => ⟨h.1, h.2.1, h.2.2.1⟩, fun h => ⟨h.1, h.2.1, h.2.2, ?_⟩⟩
  intro hbad
  cases length_serviceChild hbad

/-! ## The import of the root and the services -/

/-- The merged view has one services mapping: its mappings hold no key twice. -/
def OneServices (root : MergedValue) : Prop :=
  ∀ (first second : Nat) (entry other : MergedEntry), root.entries[first]? = some entry →
    root.entries[second]? = some other → entry.key = "services" → other.key = "services" → first = second

def importDirect (mapping : Mapping) (application : Application) : Mapping × Application :=
  let state := importMetadataScope (mapping, application) mapping.root .application
  match (mapping.root.get "services").bind MergedValue.asMapping with
  | some services => services.foldl importService state
  | none => state

theorem importMetadata_eq (fuel : Nat) (mapping : Mapping) (application : Application) :
    importMetadata fuel mapping application =
      (reportOtherMetadataScopes fuel (importDirect mapping application).1 (importDirect mapping application).2).map
        fun reported => (reported, (importDirect mapping application).2) := rfl

theorem importDirect_eq {mapping : Mapping} {application : Application} {found : Option MergedEntry}
    (h : mapping.root.entries.find? (fun entry => entry.key == "services") = found) :
    importDirect mapping application = (found.elim [] fun services => services.value.entries).foldl importService
      (importMetadataScope (mapping, application) mapping.root .application) := by
  have hget : (mapping.root.get "services").bind MergedValue.asMapping =
      found.bind fun services => services.value.asMapping := by
    rw [← h]
    show (Option.map MergedEntry.value _).bind MergedValue.asMapping = _
    rw [Option.bind_map]
    rfl
  unfold importDirect
  rw [hget]
  cases found with
  | none => rfl
  | some services =>
    have hbind : ((some services).bind fun services => services.value.asMapping) = services.value.asMapping := rfl
    have hentries : ((some services).elim [] fun services => services.value.entries) =
        services.value.asMapping.getD [] := rfl
    rw [hbind, hentries]
    cases services.value.asMapping <;> rfl

theorem mem_serviceSites {parent child : Nat} {services service : MergedEntry}
    (hservices : root.entryAt [parent] = some services) (hkey : services.key = "services")
    (hservice : services.value.entries[child]? = some service) :
    site ∈ serviceSites application parent (service, child) ↔
      ∃ index, site = [parent, child, index] ∧ ∃ entry, Extension root application site entry := by
  have hparent : root.valueAt [parent] = some services.value := by
    rw [MergedValue.entryAt_singleton] at hservices
    exact (MergedValue.valueAt_concat root [] parent).trans (MergedValue.child_of_entry hservices)
  have hentry : root.entryAt [parent, child] = some service := (entryAt_of_found hparent child).trans hservice
  have hvalue : root.valueAt [parent, child] = some service.value :=
    (valueAt_of_found hparent child).trans (MergedValue.child_of_entry hservice)
  have hat : ∀ index, root.entryAt [parent, child, index] = service.value.entries[index]? :=
    fun index => entryAt_of_found hvalue index
  unfold serviceSites
  constructor
  · intro hmem
    by_cases hdeclared : isService application service.key = true
    · rw [if_pos hdeclared] at hmem
      obtain ⟨pair, hpair, rfl⟩ := List.mem_map.mp hmem
      obtain ⟨index, hsite, hindex, hkeyed⟩ := mem_extensions.mp hpair
      refine ⟨index, hsite, pair.2, ?_⟩
      rw [hsite]
      exact (extension_service hservices hkey hentry).mpr ⟨hdeclared, (hat index).trans hindex, hkeyed⟩
    · rw [if_neg hdeclared] at hmem
      cases hmem
  · rintro ⟨index, rfl, entry, hextension⟩
    obtain ⟨hdeclared, hindex, hkeyed⟩ := (extension_service hservices hkey hentry).mp hextension
    rw [if_pos hdeclared]
    exact List.mem_map.mpr ⟨([parent, child, index], entry),
      mem_extensions.mpr ⟨index, rfl, (hat index).symm.trans hindex, hkeyed⟩, rfl⟩

/-- The sites of the extensions of the root. -/
def rootSites (root : MergedValue) : List (List Nat) := (extensions [] root.entries.zipIdx).map Prod.fst

theorem mem_rootSites : site ∈ rootSites root ↔
    ∃ index, site = [index] ∧ ∃ entry, Extension root application site entry := by
  unfold rootSites
  rw [List.mem_map]
  constructor
  · rintro ⟨pair, hpair, rfl⟩
    obtain ⟨index, hsite, hindex, hkeyed⟩ := mem_extensions.mp hpair
    refine ⟨index, hsite, ?_⟩
    rw [hsite]
    exact extension_root.mpr ⟨pair.2, hindex, hkeyed⟩
  · rintro ⟨index, rfl, hextension⟩
    obtain ⟨entry, hindex, hkeyed⟩ := extension_root.mp hextension
    exact ⟨([index], entry), mem_extensions.mpr ⟨index, rfl, hindex, hkeyed⟩, rfl⟩

theorem nodup_serviceSites (parent : Nat) (entries : List MergedEntry) :
    (entries.zipIdx.flatMap (serviceSites application parent)).Nodup := by
  have hsite : ∀ pair, ∀ site ∈ serviceSites application parent pair, ∃ index, site = [parent, pair.2, index] := by
    intro pair site hmem
    unfold serviceSites at hmem
    split at hmem
    · obtain ⟨found, hfound, rfl⟩ := List.mem_map.mp hmem
      obtain ⟨index, hindex, -⟩ := mem_extensions.mp hfound
      exact ⟨index, hindex⟩
    · cases hmem
  rw [List.nodup_flatMap]
  constructor
  · intro pair _
    unfold serviceSites
    split
    · exact nodup_extensions _ _
    · exact List.nodup_nil
  · have hindices : (entries.zipIdx.map Prod.snd).Nodup := by
      rw [List.zipIdx_map_snd]
      exact List.nodup_range'
    refine List.Pairwise.imp ?_ (List.pairwise_map.mp hindices)
    intro left right hne site hleft hright
    obtain ⟨i, hi⟩ := hsite left site hleft
    obtain ⟨j, hj⟩ := hsite right site hright
    rw [hi] at hj
    injection hj with _ hrest
    injection hrest with hsame _
    exact hne hsame

/-- The import accounts for exactly the extensions of the root and of the declared services. -/
theorem imports_direct (mapping : Mapping) (application : Application) (hone : OneServices mapping.root) :
    ∃ direct, Imports mapping.root direct (mapping, application) (importDirect mapping application) ∧
      direct.Nodup ∧ ∀ site, site ∈ direct ↔
        Direct mapping.root site ∧ ∃ entry, Extension mapping.root application site entry := by
  have hroot : Imports mapping.root (rootSites mapping.root) (mapping, application)
      (importMetadataScope (mapping, application) mapping.root .application) := by
    rw [importMetadataScope_eq _ _ _ []]
    refine imports_entries _ fun pair hpair => ?_
    obtain ⟨index, hsite, hentry, -⟩ := mem_extensions.mp hpair
    rw [hsite]
    exact ⟨(MergedValue.entryAt_singleton _ index).trans hentry, Or.inl ⟨rfl, rfl⟩⟩
  have hrootmem : ∀ site, site ∈ rootSites mapping.root ↔
      ∃ index, site = [index] ∧ ∃ entry, Extension mapping.root application site entry := fun _ => mem_rootSites
  cases hfind : mapping.root.entries.find? (fun entry => entry.key == "services") with
  | none =>
    have hnone : ∀ site, ¬ ServiceChild mapping.root site := by
      rintro site ⟨parent, child, services, rfl, hservices, hkey, -⟩
      rw [MergedValue.entryAt_singleton] at hservices
      exact List.find?_eq_none.mp hfind services (List.mem_of_getElem? hservices) (beq_iff_eq.mpr hkey)
    refine ⟨rootSites mapping.root, ?_, nodup_extensions _ _, ?_⟩
    · rw [importDirect_eq hfind]
      exact hroot
    · intro site
      rw [hrootmem]
      constructor
      · rintro ⟨index, rfl, hextension⟩
        exact ⟨Or.inl rfl, hextension⟩
      · rintro ⟨hlength | ⟨service, index, -, hchild⟩, hextension⟩
        · obtain ⟨index, hsite⟩ := List.length_eq_one_iff.mp hlength
          exact ⟨index, hsite, hextension⟩
        · exact absurd hchild (hnone service)
  | some services =>
    have hfound := List.find?_some hfind
    have hkey : services.key = "services" := eq_of_beq hfound
    obtain ⟨parent, hparent⟩ := List.getElem?_of_mem (List.mem_of_find?_eq_some hfind)
    have hservices : mapping.root.entryAt [parent] = some services :=
      (MergedValue.entryAt_singleton _ parent).trans hparent
    have hchildren : Imports mapping.root
        (services.value.entries.zipIdx.flatMap
          (serviceSites (importMetadataScope (mapping, application) mapping.root .application).2 parent))
        (importMetadataScope (mapping, application) mapping.root .application)
        ((services.value.entries.zipIdx.map Prod.fst).foldl importService _) :=
      imports_services hservices hkey _ fun pair hpair => List.mk_mem_zipIdx_iff_getElem?.mp hpair
    have hsites : serviceSites (importMetadataScope (mapping, application) mapping.root .application).2 parent =
        serviceSites application parent := by
      funext pair
      unfold serviceSites
      rw [isService_congr hroot.services]
    rw [hsites, List.zipIdx_map_fst] at hchildren
    have hvalue : mapping.root.valueAt [parent] = some services.value :=
      (MergedValue.valueAt_concat mapping.root [] parent).trans (MergedValue.child_of_entry hparent)
    have hentry : ∀ child, mapping.root.entryAt [parent, child] = services.value.entries[child]? :=
      fun child => entryAt_of_found hvalue child
    have hservicemem : ∀ site, site ∈ services.value.entries.zipIdx.flatMap (serviceSites application parent) ↔
        ∃ child index, site = [parent, child, index] ∧ ServiceChild mapping.root [parent, child] ∧
          ∃ entry, Extension mapping.root application site entry := by
      intro site
      rw [List.mem_flatMap]
      constructor
      · rintro ⟨⟨service, child⟩, hpair, hmem⟩
        have hservice := List.mk_mem_zipIdx_iff_getElem?.mp hpair
        obtain ⟨index, hsite, hextension⟩ := (mem_serviceSites hservices hkey hservice).mp hmem
        have hsome : (mapping.root.entryAt [parent, child]).isSome := by
          rw [hentry, hservice]
          rfl
        exact ⟨child, index, hsite, ⟨parent, child, services, rfl, hservices, hkey, hsome⟩, hextension⟩
      · rintro ⟨child, index, hsite, ⟨_, _, _, _, _, _, hsome⟩, hextension⟩
        obtain ⟨service, hservice⟩ := Option.isSome_iff_exists.mp hsome
        rw [hentry] at hservice
        exact ⟨(service, child), List.mk_mem_zipIdx_iff_getElem?.mpr hservice,
          (mem_serviceSites hservices hkey hservice).mpr ⟨index, hsite, hextension⟩⟩
    refine ⟨rootSites mapping.root ++ services.value.entries.zipIdx.flatMap (serviceSites application parent),
      ?_, ?_, ?_⟩
    · rw [importDirect_eq hfind]
      exact hroot.trans hchildren
    · refine List.nodup_append.mpr ⟨nodup_extensions _ _, nodup_serviceSites parent _, ?_⟩
      intro site hsite other hother hsame
      obtain ⟨index, hshort, -⟩ := (hrootmem site).mp hsite
      obtain ⟨child, last, hthree, -⟩ := (hservicemem other).mp hother
      rw [hsame, hthree] at hshort
      cases hshort
    · intro site
      rw [List.mem_append, hrootmem, hservicemem]
      constructor
      · rintro (⟨index, rfl, hextension⟩ | ⟨child, index, rfl, hchild, hextension⟩)
        · exact ⟨Or.inl rfl, hextension⟩
        · exact ⟨Or.inr ⟨[parent, child], index, rfl, hchild⟩, hextension⟩
      · rintro ⟨hlength | ⟨service, index, rfl, hchild⟩, hextension⟩
        · obtain ⟨index, hsite⟩ := List.length_eq_one_iff.mp hlength
          exact Or.inl ⟨index, hsite, hextension⟩
        · have hservice := hchild
          obtain ⟨first, child, entry, rfl, hfirst, hfirstkey, -⟩ := hchild
          rw [MergedValue.entryAt_singleton] at hfirst
          obtain rfl := hone first parent entry services hfirst hparent hfirstkey hkey
          exact Or.inr ⟨child, index, rfl, hservice, hextension⟩

/-! ## Which extensions the walk reports -/

/-- The extension is left out with the unsupported outcome of the index. -/
def Reported (root : MergedValue) (origin : ComposeSpan → Option Provenance) (site : List Nat × Nat)
    (outcome : ConversionOutcome) : Prop :=
  ∃ entry, root.entryAt site.1 = some entry ∧
    outcome.subject = "application.vendor_metadata.unsupported_scopes[" ++ toString site.2 ++ "]" ∧
    outcome.kind = .unsupported ∧
    outcome.origins = (entry.value.provenance.effectiveSource.bind origin).toList

theorem reported_entries (found : List (List Nat × MergedEntry))
    (h : ∀ pair ∈ found, root.entryAt pair.1 = some pair.2) (first : Nat) (mapping : Mapping) :
    ∃ reported diagnostics, List.Forall₂ (Reported root mapping.origin) ((found.map Prod.fst).zipIdx first) reported ∧
      ((found.map Prod.snd).foldl Traversal.report ⟨[], first, mapping⟩).mapping =
        { mapping with outcomes := mapping.outcomes ++ reported, diagnostics := diagnostics } := by
  induction found generalizing first mapping with
  | nil =>
    refine ⟨[], mapping.diagnostics, List.Forall₂.nil, ?_⟩
    rw [List.append_nil]
    rfl
  | cons pair rest ih =>
    obtain ⟨outcome, diagnostics, heq, hsubject, hkind, horigins⟩ := unsupportedOptional_eq mapping
      ("application.vendor_metadata.unsupported_scopes[" ++ toString first ++ "]")
      "unsupported vendor metadata scope; only application-root and direct-service extensions are retained"
      pair.2.value.provenance.effectiveSource
    obtain ⟨reported, last, hreported, hrest⟩ := ih (fun other hother => h other (List.mem_cons_of_mem _ hother))
      (first + 1) { mapping with outcomes := mapping.outcomes ++ [outcome], diagnostics := diagnostics }
    refine ⟨outcome :: reported, last, ?_, ?_⟩
    · exact List.Forall₂.cons ⟨pair.2, h pair List.mem_cons_self, hsubject, hkind, horigins⟩ hreported
    · show ((rest.map Prod.snd).foldl Traversal.report ⟨[], first + 1, mapping.unsupportedOptional _ _ _⟩).mapping = _
      rw [heq, hrest]
      show { mapping with outcomes := (mapping.outcomes ++ [outcome]) ++ reported, diagnostics := last } = _
      rw [List.append_assoc]
      rfl

theorem mem_reports {visit : Visit} {pair : List Nat × MergedEntry} : pair ∈ reports visit ↔
    visit.location = .other ∧ ∃ index, pair.1 = visit.site ++ [index] ∧
      visit.value.entries[index]? = some pair.2 ∧ isExtension pair.2 = true := by
  unfold reports
  split
  · next hother =>
    rw [List.mem_reverse, mem_extensions]
    exact ⟨fun h => ⟨hother, h⟩, fun h => h.2⟩
  · next hother => exact ⟨fun h => absurd h List.not_mem_nil, fun h => absurd h.1 hother⟩

/-- The walk reports exactly the extensions that stand neither in the root nor in a service. -/
theorem mem_reports_iff {found : List Visit} (hfound : ∀ visit, visit ∈ found ↔ Located root application visit) :
    site ∈ (found.flatMap reports).map Prod.fst ↔
      ¬ Direct root site ∧ ∃ entry, Extension root application site entry := by
  rw [List.mem_map]
  constructor
  · rintro ⟨pair, hpair, rfl⟩
    obtain ⟨visit, hvisit, hreports⟩ := List.mem_flatMap.mp hpair
    obtain ⟨hother, index, hsite, hindex, hkeyed⟩ := mem_reports.mp hreports
    have hlocated := (hfound visit).mp hvisit
    have hentry : root.entryAt (visit.site ++ [index]) = some pair.2 :=
      (entryAt_of_found hlocated.found index).trans hindex
    have hlocation : locationAt root visit.site = .other := hlocated.location.symm.trans hother
    rw [hsite, direct_concat]
    refine ⟨?_, pair.2, extension_concat.mpr ⟨hlocated.open, hentry, hkeyed, ?_⟩⟩
    · rintro (hnil | hchild)
      · rw [locationAt_root.mpr hnil] at hlocation
        cases hlocation
      · rw [locationAt_service.mpr hchild] at hlocation
        cases hlocation
    · rw [serviceChild_concat hentry, hlocation]
      exact fun h => by cases h
  · rintro ⟨hdirect, entry, hextension⟩
    rcases List.eq_nil_or_concat site with rfl | ⟨above, index, hsite⟩
    · cases hextension.found
    · rw [List.concat_eq_append] at hsite
      subst hsite
      obtain ⟨hopen, hentry, hkeyed, hservice⟩ := extension_concat.mp hextension
      rw [serviceChild_concat hentry] at hservice
      have hnil : locationAt root above = .root ↔ above = [] := locationAt_root
      rw [direct_concat, not_or, ← hnil, ← locationAt_service] at hdirect
      have hother : locationAt root above = .other := by
        cases hlocation : locationAt root above with
        | root => exact absurd hlocation hdirect.1
        | services => exact absurd hlocation hservice
        | service => exact absurd hlocation hdirect.2
        | other => rfl
      have hvalue := hentry
      rw [MergedValue.entryAt_concat] at hvalue
      obtain ⟨value, hvalue, hindex⟩ := Option.bind_eq_some_iff.mp hvalue
      refine ⟨(above ++ [index], entry), List.mem_flatMap.mpr ⟨⟨above, value, .other⟩, ?_, ?_⟩, rfl⟩
      · exact (hfound _).mpr ⟨hvalue, hopen, hother.symm⟩
      · exact mem_reports.mpr ⟨rfl, index, rfl, hindex, hkeyed⟩

theorem nodup_reports {found : List Visit} (h : (found.map Visit.site).Nodup) :
    ((found.flatMap reports).map Prod.fst).Nodup := by
  rw [List.map_flatMap, List.nodup_flatMap]
  constructor
  · intro visit _
    unfold reports
    split
    · rw [List.map_reverse]
      exact List.nodup_reverse.mpr (nodup_extensions _ _)
    · exact List.nodup_nil
  · refine List.Pairwise.imp ?_ (List.pairwise_map.mp h)
    intro left right hne site hleft hright
    obtain ⟨pair, hpair, rfl⟩ := List.mem_map.mp hleft
    obtain ⟨other, hother, hsame⟩ := List.mem_map.mp hright
    obtain ⟨-, i, hi, -⟩ := mem_reports.mp hpair
    obtain ⟨-, j, hj, -⟩ := mem_reports.mp hother
    rw [hj, hi] at hsame
    exact hne (List.append_inj' hsame rfl).1.symm

end Extensions

/-! ## The accounts -/

theorem Extension.congr {root : MergedValue} {application other : Application} {site : List Nat}
    {entry : MergedEntry} (hservices : other.services = application.services)
    (h : Extension root application site entry) : Extension root other site entry where
  found := h.found
  keyed := h.keyed
  notService := h.notService
  outside := h.outside
  declared := fun above between habove hchild hbetween =>
    (isService_congr hservices between.key).trans (h.declared above between habove hchild hbetween)

/-- The walk ends and reports every extension that stands neither in the root nor in a service. -/
theorem walk_accounting (mapping : Mapping) (application : Application) (fuel : Nat)
    (hfuel : mapping.root.size < fuel) :
    ∃ (nested : List (List Nat)) (reported : List ConversionOutcome) (diagnostics : List Diagnostic),
      reportOtherMetadataScopes fuel mapping application =
        some { mapping with outcomes := mapping.outcomes ++ reported, diagnostics := diagnostics } ∧
      nested.Nodup ∧
      (∀ site, site ∈ nested ↔
        ¬ Direct mapping.root site ∧ ∃ entry, Extension mapping.root application site entry) ∧
      List.Forall₂ (Reported mapping.root mapping.origin) nested.zipIdx reported := by
  obtain ⟨found, hwalk, hlocated, hsites⟩ := walk_located mapping.root application hfuel
  obtain ⟨more, hmore, hrun⟩ := visitStack_walk 0 mapping hwalk
  rw [List.nil_append] at hmore
  subst hmore
  have hentries : ∀ pair ∈ found.flatMap reports, mapping.root.entryAt pair.1 = some pair.2 := by
    intro pair hpair
    obtain ⟨visit, hvisit, hreports⟩ := List.mem_flatMap.mp hpair
    obtain ⟨-, index, hsite, hindex, -⟩ := mem_reports.mp hreports
    rw [hsite]
    exact (entryAt_of_found ((hlocated visit).mp hvisit).found index).trans hindex
  obtain ⟨reported, diagnostics, hreported, hmapping⟩ := reported_entries _ hentries 0 mapping
  refine ⟨_, reported, diagnostics, ?_, nodup_reports hsites, fun site => mem_reports_iff hlocated, hreported⟩
  rw [← hmapping]
  exact hrun

/-- The import ends, and accounts for every extension once: for those of the root and of the
declared services by an item with an exact outcome or an unsupported outcome, and for all
others by an unsupported outcome of their own index. -/
theorem extension_accounting (mapping : Mapping) (application : Application) (fuel : Nat)
    (hone : OneServices mapping.root) (hfuel : mapping.root.size < fuel) :
    ∃ (imported : Mapping) (added : Application) (direct nested : List (List Nat))
        (results : List (Option VendorMetadata × ConversionOutcome)) (reported : List ConversionOutcome),
      importMetadata fuel mapping application = some (imported, added) ∧
      (direct ++ nested).Nodup ∧
      (∀ site, site ∈ direct ++ nested ↔ ∃ entry, Extension mapping.root application site entry) ∧
      (∀ site ∈ direct, Direct mapping.root site) ∧ (∀ site ∈ nested, ¬ Direct mapping.root site) ∧
      List.Forall₂ (Accounted mapping.root) direct results ∧
      List.Forall₂ (Reported mapping.root mapping.origin) nested.zipIdx reported ∧
      added.vendorMetadata = application.vendorMetadata ++ results.filterMap Prod.fst ∧
      imported.outcomes = mapping.outcomes ++ results.map Prod.snd ++ reported := by
  obtain ⟨direct, ⟨results, diagnostics, hresults, hdirect⟩, honce, hmem⟩ :=
    imports_direct mapping application hone
  obtain ⟨nested, reported, last, hwalk, hnested, hnestedmem, hreported⟩ :=
    walk_accounting (importDirect mapping application).1 (importDirect mapping application).2 fuel
      (by rw [hdirect]; exact hfuel)
  have hservices : (importDirect mapping application).2.services = application.services := by rw [hdirect]
  have hextension : ∀ site, (∃ entry, Extension mapping.root (importDirect mapping application).2 site entry) ↔
      ∃ entry, Extension mapping.root application site entry := fun site =>
    exists_congr fun entry => ⟨Extension.congr hservices.symm, Extension.congr hservices⟩
  have hroot : (importDirect mapping application).1.root = mapping.root := by rw [hdirect]
  have horigin : (importDirect mapping application).1.origin = mapping.origin := by
    rw [hdirect]
    rfl
  rw [hroot] at hnestedmem hreported
  rw [horigin] at hreported
  have hnestediff : ∀ site, site ∈ nested ↔
      ¬ Direct mapping.root site ∧ ∃ entry, Extension mapping.root application site entry := fun site =>
    (hnestedmem site).trans (and_congr_right fun _ => hextension site)
  refine ⟨{ (importDirect mapping application).1 with
      outcomes := (importDirect mapping application).1.outcomes ++ reported
      diagnostics := last }, (importDirect mapping application).2, direct, nested, results, reported,
    ?_, ?_, ?_, ?_, ?_, hresults, hreported, ?_, ?_⟩
  · rw [importMetadata_eq, hwalk]
    rfl
  · refine List.nodup_append.mpr ⟨honce, hnested, ?_⟩
    intro site hsite other hother hsame
    exact ((hnestediff other).mp hother).1 (hsame ▸ ((hmem site).mp hsite).1)
  · intro site
    rw [List.mem_append, hmem, hnestediff]
    constructor
    · rintro (h | h)
      · exact h.2
      · exact h.2
    · intro h
      by_cases hdirect : Direct mapping.root site
      · exact Or.inl ⟨hdirect, h⟩
      · exact Or.inr ⟨hdirect, h⟩
  · exact fun site hsite => ((hmem site).mp hsite).1
  · exact fun site hsite => ((hnestediff site).mp hsite).1
  · rw [hdirect]
  · rw [hdirect]

/-! ## Worked examples -/

def plainValue (kind : MergedValueKind) : MergedValue := .mk kind ⟨[], none⟩

def plainEntry (key : String) (kind : MergedValueKind) : MergedEntry := .mk key true false [] (plainValue kind)

theorem valid_unsupportedCode :
    (!"BFC0004".isEmpty && "BFC0004".toList.all fun ch => ch.isUpper || ch.isDigit) = true := by decide

def plainMapping (entries : List MergedEntry) : Mapping where
  unsupportedCode := ⟨"BFC0004", valid_unsupportedCode⟩
  root := plainValue (.mapping entries)
  sourceIds _ := none
  outcomes := []
  diagnostics := []

def serving (name : Identifier) : Application :=
  { Application.new name with services := [.generated { name := name }] }

/-- Extensions of the root, of a service, below a service and in a sequence. -/
def notedMapping : Mapping := plainMapping [
  plainEntry "x-note" .null,
  plainEntry "services" (.mapping [plainEntry "app" (.mapping [
    plainEntry "x-note" .null,
    plainEntry "deploy" (.mapping [plainEntry "x-note" .null])])]),
  plainEntry "volumes" (.sequence [plainValue (.mapping [plainEntry "x-note" .null])])]

theorem oneServices_noted : OneServices notedMapping.root := by
  intro first second entry other hfirst hsecond hkey hother
  have hat : ∀ (index : Nat) (entry : MergedEntry), notedMapping.root.entries[index]? = some entry →
      entry.key = "services" → index = 1 := by
    intro index entry hentry hkey
    rcases index with _ | _ | _ | index
    · obtain rfl := Option.some.inj hentry
      exact absurd hkey (by decide)
    · rfl
    · obtain rfl := Option.some.inj hentry
      exact absurd hkey (by decide)
    · cases hentry
  rw [hat first entry hfirst hkey, hat second other hsecond hother]

theorem extension_accounting_noted :
    ∃ imported added,
      importMetadata 16 notedMapping (serving ⟨"app", Identifier.valid_app⟩) = some (imported, added) ∧
      imported.outcomes.map ConversionOutcome.kind = [.exact, .exact, .unsupported, .unsupported] ∧
      added.vendorMetadata.length = 2 := by
  obtain ⟨imported, added, -, -, -, -, h, -⟩ := extension_accounting notedMapping
    (serving ⟨"app", Identifier.valid_app⟩) 16 oneServices_noted (by decide)
  refine ⟨imported, added, h, ?_, ?_⟩
  · have hkinds : (importMetadata 16 notedMapping (serving ⟨"app", Identifier.valid_app⟩)).map
        (fun result => result.1.outcomes.map ConversionOutcome.kind) =
          some [.exact, .exact, .unsupported, .unsupported] := rfl
    rw [h] at hkinds
    exact Option.some.inj hkinds
  · have hlength : (importMetadata 16 notedMapping (serving ⟨"app", Identifier.valid_app⟩)).map
        (fun result => result.2.vendorMetadata.length) = some 2 := rfl
    rw [h] at hlength
    exact Option.some.inj hlength

/-! A service whose own name starts with `x-` is an entry with such a key. -/

theorem valid_xApp : validateText "identifier" "x-app" = .ok () := by decide

def xServiceMapping : Mapping := plainMapping [plainEntry "services" (.mapping [plainEntry "x-app" (.mapping [])])]

/-- An entry whose key starts with `x-`, neither inside the value of another one nor at or
below a child of the root services mapping that is not a declared service. -/
structure KeyedEntry (root : MergedValue) (application : Application) (site : List Nat) (entry : MergedEntry) :
    Prop where
  found : root.entryAt site = some entry
  keyed : isExtension entry = true
  outside : ∀ above other, above <+: site → above ≠ site → root.entryAt above = some other →
    isExtension other = false
  declared : ∀ above other, above <+: site → ServiceChild root above → root.entryAt above = some other →
    isService application other.key = true

/-- No item and no outcome accounts for it: its key is the name of the service. -/
theorem x_service_unaccounted :
    (∃ entry, KeyedEntry xServiceMapping.root (serving ⟨"x-app", valid_xApp⟩) [0, 0] entry) ∧
      (importMetadata 8 xServiceMapping (serving ⟨"x-app", valid_xApp⟩)).map
        (fun result => (result.1.outcomes, result.2.vendorMetadata)) = some ([], []) := by
  refine ⟨⟨plainEntry "x-app" (.mapping []), rfl, by decide, ?_, ?_⟩, rfl⟩
  · intro above other habove hne hother
    have hsite : ([0, 0] : List Nat) = [0] ++ [0] := rfl
    rw [hsite, List.prefix_concat_iff] at habove
    rcases habove with hsame | habove
    · exact absurd hsame hne
    · rw [← List.nil_append [0], List.prefix_concat_iff] at habove
      rcases habove with rfl | habove
      · obtain rfl := Option.some.inj hother
        decide
      · rw [List.prefix_nil.mp habove] at hother
        cases hother
  · intro above other habove hchild hother
    have hsame : above = [0, 0] := habove.eq_of_length (length_serviceChild hchild)
    rw [hsame] at hother
    obtain rfl := Option.some.inj hother
    decide

end Boxferry.Compose
