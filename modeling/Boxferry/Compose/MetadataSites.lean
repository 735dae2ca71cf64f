import Boxferry.Compose.MetadataImport
import Boxferry.Library.StackWalk

/-! # Sites of extensions

Where the entries of a project tree sit, and which of them the walk over the stack
comes by. A site is the index of each entry or item on the way down. -/
namespace Boxferry.Compose
open Model
set_option autoImplicit false

namespace MergedValue

def entries (value : MergedValue) : List MergedEntry := value.asMapping.getD []

def child (value : MergedValue) (index : Nat) : Option MergedValue :=
  match value.kind with
  | .mapping entries => entries[index]?.map MergedEntry.value
  | .sequence values => values[index]?
  | .null | .scalar _ | .other => none

def valueAt : MergedValue → List Nat → Option MergedValue
  | value, [] => some value
  | value, index :: rest => (value.child index).bind (valueAt · rest)

/-- The mapping entry whose value sits at the site. -/
def entryAt (root : MergedValue) (site : List Nat) : Option MergedEntry :=
  match site.getLast? with
  | none => none
  | some index => (root.valueAt site.dropLast).bind fun parent => parent.entries[index]?

theorem valueAt_concat (root : MergedValue) (site : List Nat) (index : Nat) :
    root.valueAt (site ++ [index]) = (root.valueAt site).bind (child · index) := by
  induction site generalizing root with
  | nil =>
    show (root.child index).bind (valueAt · []) = root.child index
    cases root.child index <;> rfl
  | cons first rest ih =>
    show (root.child first).bind (valueAt · (rest ++ [index])) =
      ((root.child first).bind (valueAt · rest)).bind (child · index)
    cases root.child first with
    | none => rfl
    | some next => exact ih next

theorem entryAt_concat (root : MergedValue) (site : List Nat) (index : Nat) :
    root.entryAt (site ++ [index]) = (root.valueAt site).bind fun parent => parent.entries[index]? := by
  unfold entryAt
  rw [List.getLast?_concat, List.dropLast_concat]

theorem entryAt_singleton (root : MergedValue) (index : Nat) : root.entryAt [index] = root.entries[index]? :=
  entryAt_concat root [] index

@[simp] theorem entryAt_nil (root : MergedValue) : root.entryAt [] = none := rfl

theorem entries_mapping {value : MergedValue} {entries : List MergedEntry} (h : value.kind = .mapping entries) :
    value.entries = entries := by
  unfold MergedValue.entries asMapping
  rw [h]
  rfl

theorem entries_sequence {value : MergedValue} {values : List MergedValue} (h : value.kind = .sequence values) :
    value.entries = [] := by
  unfold MergedValue.entries asMapping
  rw [h]
  rfl

/-- An entry of a value is one of the mapping it is. -/
theorem child_of_entry {value : MergedValue} {index : Nat} {entry : MergedEntry}
    (h : value.entries[index]? = some entry) : value.child index = some entry.value := by
  unfold child
  cases hkind : value.kind with
  | mapping entries =>
    rw [entries_mapping hkind] at h
    show entries[index]?.map MergedEntry.value = some entry.value
    rw [h]
    rfl
  | null | scalar | sequence | other =>
    unfold MergedValue.entries asMapping at h
    rw [hkind] at h
    cases h

end MergedValue

/-! ## Extensions -/

/-- A child of the root services mapping sits at the site. -/
def ServiceChild (root : MergedValue) (site : List Nat) : Prop :=
  ∃ parent index services, site = [parent, index] ∧ root.entryAt [parent] = some services ∧
    services.key = "services" ∧ (root.entryAt site).isSome

/-- No site on the way is that of an extension or an undeclared service. -/
structure Open (root : MergedValue) (application : Application) (site : List Nat) : Prop where
  outside : ∀ above entry, above <+: site → root.entryAt above = some entry → isExtension entry = true →
    ServiceChild root above
  declared : ∀ above entry, above <+: site → ServiceChild root above → root.entryAt above = some entry →
    isService application entry.key = true

/-- An entry whose key starts with `x-` and is no service name, neither inside the value of
another one nor below a child of the root services mapping that is not a declared service. -/
structure Extension (root : MergedValue) (application : Application) (site : List Nat) (entry : MergedEntry) :
    Prop where
  found : root.entryAt site = some entry
  keyed : isExtension entry = true
  notService : ¬ ServiceChild root site
  outside : ∀ above other, above <+: site → above ≠ site → root.entryAt above = some other →
    isExtension other = true → ServiceChild root above
  declared : ∀ above other, above <+: site → ServiceChild root above → root.entryAt above = some other →
    isService application other.key = true

/-- The site is that of an entry of the root or of a service. -/
def Direct (root : MergedValue) (site : List Nat) : Prop :=
  site.length = 1 ∨ ∃ service index, site = service ++ [index] ∧ ServiceChild root service

/-! ## Locations -/

def locationAt (root : MergedValue) : List Nat → Location
  | [] => .root
  | [parent] =>
    if (root.entryAt [parent]).any fun entry => entry.key == "services" then .services else .other
  | [parent, index] =>
    if ((root.entryAt [parent]).any fun entry => entry.key == "services") &&
        (root.entryAt [parent, index]).isSome then .service
    else .other
  | _ :: _ :: _ :: _ => .other

section Locations
variable {root : MergedValue} {application : Application} {site : List Nat} {entry : MergedEntry} {index : Nat}

theorem locationAt_root : locationAt root site = .root ↔ site = [] := by
  constructor
  · intro h
    unfold locationAt at h
    split at h
    · rfl
    · split at h <;> cases h
    · split at h <;> cases h
    · cases h
  · rintro rfl
    rfl

theorem any_services : (root.entryAt site).any (fun entry => entry.key == "services") = true ↔
    ∃ services, root.entryAt site = some services ∧ services.key = "services" := by
  rw [Option.any_eq_true]
  constructor
  · rintro ⟨services, hservices, hkey⟩
    exact ⟨services, hservices, eq_of_beq hkey⟩
  · rintro ⟨services, hservices, hkey⟩
    exact ⟨services, hservices, beq_iff_eq.mpr hkey⟩

theorem locationAt_services : locationAt root site = .services ↔
    ∃ parent services, site = [parent] ∧ root.entryAt site = some services ∧ services.key = "services" := by
  constructor
  · intro h
    unfold locationAt at h
    split at h
    · cases h
    · next parent =>
      split at h
      · next hany =>
        obtain ⟨services, hservices, hkey⟩ := any_services.mp hany
        exact ⟨parent, services, rfl, hservices, hkey⟩
      · cases h
    · split at h <;> cases h
    · cases h
  · rintro ⟨parent, services, rfl, hservices, hkey⟩
    exact if_pos (any_services.mpr ⟨services, hservices, hkey⟩)

theorem locationAt_service : locationAt root site = .service ↔ ServiceChild root site := by
  constructor
  · intro h
    unfold locationAt at h
    split at h
    · cases h
    · split at h <;> cases h
    · next parent index =>
      split at h
      · next hany =>
        rw [Bool.and_eq_true] at hany
        obtain ⟨services, hservices, hkey⟩ := any_services.mp hany.1
        exact ⟨parent, index, services, rfl, hservices, hkey, hany.2⟩
      · cases h
    · cases h
  · rintro ⟨parent, index, services, rfl, hservices, hkey, hsome⟩
    refine if_pos ?_
    rw [Bool.and_eq_true]
    exact ⟨any_services.mpr ⟨services, hservices, hkey⟩, hsome⟩

/-- The children of the services mapping are the entries of the value at its location. -/
theorem serviceChild_concat (hentry : root.entryAt (site ++ [index]) = some entry) :
    ServiceChild root (site ++ [index]) ↔ locationAt root site = .services := by
  rw [locationAt_services]
  constructor
  · rintro ⟨parent, child, services, hsite, hservices, hkey, -⟩
    obtain ⟨hparent, -⟩ := List.append_inj' (show site ++ [index] = [parent] ++ [child] from hsite) rfl
    exact ⟨parent, services, hparent, hparent ▸ hservices, hkey⟩
  · rintro ⟨parent, services, rfl, hservices, hkey⟩
    exact ⟨parent, index, services, rfl, hservices, hkey, by rw [hentry]; rfl⟩

/-- Below a service and anywhere else there are no further locations. -/
theorem locationAt_concat (hentry : root.entryAt (site ++ [index]) = some entry) :
    locationAt root (site ++ [index]) =
      if locationAt root site = .services then .service
      else if locationAt root site = .root ∧ entry.key = "services" then .services else .other := by
  by_cases hservices : locationAt root site = .services
  · rw [if_pos hservices, locationAt_service, serviceChild_concat hentry]
    exact hservices
  · rw [if_neg hservices]
    by_cases hroot : site = []
    · subst hroot
      have hlocation : locationAt root [] = .root := rfl
      rw [hlocation]
      show (if (root.entryAt [index]).any _ then Location.services else .other) = _
      rw [List.nil_append] at hentry
      rw [hentry]
      by_cases hkey : entry.key = "services"
      · have hany : (some entry).any (fun entry => entry.key == "services") = true := beq_iff_eq.mpr hkey
        rw [if_pos hany, if_pos ⟨rfl, hkey⟩]
      · have hany : ¬ (some entry).any (fun entry => entry.key == "services") = true :=
          fun h => hkey (eq_of_beq h)
        rw [if_neg hany, if_neg (fun h => hkey h.2)]
    · rw [if_neg (fun h => hroot (locationAt_root.mp h.1))]
      have hnone := mt (serviceChild_concat hentry).mp hservices
      rw [← locationAt_service] at hnone
      cases hlocation : locationAt root (site ++ [index]) with
      | root => exact absurd (locationAt_root.mp hlocation) (by simp)
      | services =>
        obtain ⟨parent, -, hsite, -⟩ := locationAt_services.mp hlocation
        obtain ⟨hempty, -⟩ := List.append_inj' (show site ++ [index] = [] ++ [parent] from hsite) rfl
        exact absurd hempty hroot
      | service => exact absurd hlocation hnone
      | other => rfl

theorem locationAt_item (hentry : root.entryAt (site ++ [index]) = none) :
    locationAt root (site ++ [index]) = .other := by
  cases hlocation : locationAt root (site ++ [index]) with
  | root => exact absurd (locationAt_root.mp hlocation) (by simp)
  | services =>
    obtain ⟨-, services, -, hservices, -⟩ := locationAt_services.mp hlocation
    rw [hentry] at hservices
    cases hservices
  | service =>
    obtain ⟨-, -, -, -, -, -, hsome⟩ := locationAt_service.mp hlocation
    rw [hentry] at hsome
    cases hsome
  | other => rfl

end Locations
end Boxferry.Compose
