import Boxferry.Compose.MetadataSites

/-! # The walk over the other scopes

The loop over the stack is a walk whose items are labelled with their sites. It ends,
and comes by the sites with no extension on the way, each once. -/
namespace Boxferry.Compose
open Model StackWalk
set_option autoImplicit false

/-- One value on the stack and the site it comes from. -/
structure Visit where
  site : List Nat
  value : MergedValue
  location : Location

def Visit.forget (visit : Visit) : MergedValue × Location := (visit.value, visit.location)

/-- Where the walk takes up the value of an entry, if it does. -/
def childLocation (application : Application) (location : Location) (entry : MergedEntry) : Option Location :=
  if location = .services then if isService application entry.key then some .service else none
  else if isExtension entry then none
  else some (if location = .root ∧ entry.key = "services" then .services else .other)

def entryVisit (application : Application) (site : List Nat) (location : Location) (pair : MergedEntry × Nat) :
    Option Visit :=
  (childLocation application location pair.1).map fun child => ⟨site ++ [pair.2], pair.1.value, child⟩

def itemVisit (site : List Nat) (pair : MergedValue × Nat) : Visit := ⟨site ++ [pair.2], pair.1, .other⟩

def visits (application : Application) (visit : Visit) : List Visit :=
  match visit.value.kind with
  | .mapping entries => entries.zipIdx.filterMap (entryVisit application visit.site visit.location)
  | .sequence values => values.zipIdx.map (itemVisit visit.site)
  | .null | .scalar _ | .other => []

/-- The extensions among entries and their sites. -/
def extensions (site : List Nat) (entries : List (MergedEntry × Nat)) : List (List Nat × MergedEntry) :=
  (entries.filter fun pair => isExtension pair.1).map fun pair => (site ++ [pair.2], pair.1)

/-- The extensions the walk reports at a value, the last one first. -/
def reports (visit : Visit) : List (List Nat × MergedEntry) :=
  if visit.location = .other then (extensions visit.site visit.value.entries.zipIdx).reverse else []

/-! ## The loop is the walk -/

section Loop
variable {application : Application} {location : Location} {site : List Nat}

theorem push_reports (entries : List MergedEntry) (traversal : Traversal) (value : MergedValue)
    (location : Location) :
    (entries.foldl Traversal.report traversal).push value location =
      entries.foldl Traversal.report (traversal.push value location) := by
  induction entries generalizing traversal with
  | nil => rfl
  | cons entry rest ih => exact ih (traversal.report entry)

theorem foldl_report (entries : List MergedEntry) (stack : List (MergedValue × Location)) (index : Nat)
    (mapping : Mapping) :
    entries.foldl Traversal.report ⟨stack, index, mapping⟩ =
      { entries.foldl Traversal.report ⟨[], index, mapping⟩ with stack } := by
  induction entries generalizing index mapping with
  | nil => rfl
  | cons entry rest ih => exact ih _ _

theorem extensions_cons (pair : MergedEntry × Nat) (rest : List (MergedEntry × Nat)) :
    extensions site (pair :: rest) =
      if isExtension pair.1 then (site ++ [pair.2], pair.1) :: extensions site rest else extensions site rest := by
  unfold extensions
  rw [List.filter_cons]
  split <;> rfl

/-- The reports of a value are made and its children pushed, whatever the order among the two. -/
theorem visit_entries (entries : List MergedEntry) (first : Nat) (traversal : Traversal) :
    entries.reverse.foldl (visitEntry application location) traversal =
      ((if location = .other then (extensions site (entries.zipIdx first)).reverse else []).map Prod.snd).foldl
        Traversal.report
        { traversal with
          stack := ((entries.zipIdx first).filterMap (entryVisit application site location)).map Visit.forget ++
            traversal.stack } := by
  induction entries generalizing first with
  | nil =>
    rw [List.zipIdx_nil]
    cases location <;> rfl
  | cons entry rest ih =>
    have hvisit : entryVisit application site location (entry, first) =
        (childLocation application location entry).map fun child => ⟨site ++ [first], entry.value, child⟩ := rfl
    rw [List.reverse_cons, List.foldl_append, List.foldl_cons, List.foldl_nil, ih (first + 1),
      List.zipIdx_cons, List.filterMap_cons, extensions_cons, hvisit]
    unfold visitEntry childLocation
    by_cases hservices : location = .services
    · subst hservices
      rw [if_pos rfl, if_pos rfl]
      cases isService application entry.key <;> rfl
    · rw [if_neg hservices, if_neg hservices]
      by_cases hextension : isExtension entry = true
      · rw [if_pos hextension, if_pos hextension, if_pos hextension]
        cases location with
        | services => exact absurd rfl hservices
        | root | service => rfl
        | other =>
          rw [if_pos (by simp), if_pos rfl, if_pos rfl, List.reverse_cons, List.map_append, List.foldl_append]
          rfl
      · rw [if_neg hextension, if_neg hextension, if_neg hextension, push_reports]
        rfl

theorem push_items (site : List Nat) (values : List MergedValue) (first : Nat) (traversal : Traversal) :
    values.reverse.foldl (fun traversal value => traversal.push value .other) traversal =
      { traversal with
        stack := ((values.zipIdx first).map (itemVisit site)).map Visit.forget ++ traversal.stack } := by
  induction values generalizing first with
  | nil => rfl
  | cons value rest ih =>
    rw [List.reverse_cons, List.foldl_append, List.foldl_cons, List.foldl_nil, ih (first + 1), List.zipIdx_cons]
    rfl

theorem visitValue_eq (application : Application) (traversal : Traversal) (visit : Visit) :
    visitValue application traversal visit.value visit.location =
      ((reports visit).map Prod.snd).foldl Traversal.report
        { traversal with stack := (visits application visit).map Visit.forget ++ traversal.stack } := by
  unfold visitValue visits reports
  cases hkind : visit.value.kind with
  | mapping entries =>
    rw [MergedValue.entries_mapping hkind]
    exact visit_entries entries 0 traversal
  | sequence values =>
    have hnone : visit.value.entries = [] := MergedValue.entries_sequence hkind
    rw [hnone]
    have hpush := push_items visit.site values 0 traversal
    cases hlocation : visit.location <;> exact hpush
  | null | scalar | other =>
    have hnone : visit.value.entries = [] := by
      unfold MergedValue.entries MergedValue.asMapping
      rw [hkind]
      rfl
    rw [hnone]
    cases hlocation : visit.location <;> rfl

/-- What the loop over the stack reports is what the values of the walk report. -/
theorem visitStack_walk {fuel : Nat} {stack visited found : List Visit} (index : Nat) (mapping : Mapping)
    (h : walk (visits application) fuel stack visited = some found) :
    ∃ more, found = visited ++ more ∧
      visitStack application fuel ⟨stack.map Visit.forget, index, mapping⟩ =
        some (((more.flatMap reports).map Prod.snd).foldl Traversal.report ⟨[], index, mapping⟩).mapping := by
  induction fuel generalizing stack visited index mapping with
  | zero => cases h
  | succ fuel ih =>
    cases stack with
    | nil => exact ⟨[], by rw [List.append_nil]; exact (Option.some.inj h).symm, rfl⟩
    | cons visit stack =>
      have hvisit := visitValue_eq application ⟨stack.map Visit.forget, index, mapping⟩ visit
      rw [foldl_report, ← List.map_append] at hvisit
      obtain ⟨more, hfound, hrun⟩ := ih
        (((reports visit).map Prod.snd).foldl Traversal.report ⟨[], index, mapping⟩).index
        (((reports visit).map Prod.snd).foldl Traversal.report ⟨[], index, mapping⟩).mapping h
      refine ⟨visit :: more, by rw [hfound, List.append_assoc]; rfl, ?_⟩
      show visitStack application fuel
        (visitValue application ⟨stack.map Visit.forget, index, mapping⟩ visit.value visit.location) = _
      rw [hvisit, hrun, List.flatMap_cons, List.map_append, List.foldl_append, ← foldl_report]

end Loop

/-! ## The end of the walk -/

mutual
def MergedValue.size : MergedValue → Nat
  | .mk kind _ => kind.size + 1

def MergedValueKind.size : MergedValueKind → Nat
  | .null | .scalar _ | .other => 0
  | .sequence values => sizeOfItems values
  | .mapping entries => sizeOfEntries entries

def sizeOfItems : List MergedValue → Nat
  | [] => 0
  | value :: rest => value.size + sizeOfItems rest

def sizeOfEntries : List MergedEntry → Nat
  | [] => 0
  | .mk _ _ _ _ value :: rest => value.size + sizeOfEntries rest
end

def Visit.size (visit : Visit) : Nat := visit.value.size

theorem size_kind (value : MergedValue) : value.size = value.kind.size + 1 := by
  cases value
  rfl

theorem size_items (site : List Nat) (values : List MergedValue) (first : Nat) :
    (((values.zipIdx first).map (itemVisit site)).map Visit.size).sum = sizeOfItems values := by
  induction values generalizing first with
  | nil => rfl
  | cons value rest ih =>
    rw [List.zipIdx_cons, List.map_cons, List.map_cons, List.sum_cons, ih]
    rfl

theorem sizeOfEntries_cons (entry : MergedEntry) (rest : List MergedEntry) :
    sizeOfEntries (entry :: rest) = entry.value.size + sizeOfEntries rest := by
  cases entry
  rfl

theorem size_entries (application : Application) (site : List Nat) (location : Location)
    (entries : List MergedEntry) (first : Nat) :
    (((entries.zipIdx first).filterMap (entryVisit application site location)).map Visit.size).sum ≤
      sizeOfEntries entries := by
  induction entries generalizing first with
  | nil => exact Nat.le_refl 0
  | cons entry rest ih =>
    have hrest := ih (first + 1)
    have hvisit : entryVisit application site location (entry, first) =
        (childLocation application location entry).map fun child => ⟨site ++ [first], entry.value, child⟩ := rfl
    rw [List.zipIdx_cons, List.filterMap_cons, hvisit, sizeOfEntries_cons]
    cases childLocation application location entry with
    | none => exact Nat.le_add_left_of_le hrest
    | some child =>
      show (entry.value.size :: _).sum ≤ _
      rw [List.sum_cons]
      exact Nat.add_le_add_left hrest _

theorem size_visits (application : Application) (visit : Visit) :
    ((visits application visit).map Visit.size).sum < visit.size := by
  have hsize : visit.size = visit.value.kind.size + 1 := size_kind visit.value
  rw [hsize, Nat.lt_succ_iff]
  unfold visits
  cases hkind : visit.value.kind with
  | mapping entries => exact size_entries application visit.site visit.location entries 0
  | sequence values => exact Nat.le_of_eq (size_items visit.site values 0)
  | null | scalar | other => exact Nat.le_refl 0

/-! ## Which values the walk comes by -/

section Sites
variable {root : MergedValue} {application : Application} {site : List Nat} {entry : MergedEntry} {index : Nat}

/-- The value at an open site, with the location it is taken up at. -/
structure Located (root : MergedValue) (application : Application) (visit : Visit) : Prop where
  found : root.valueAt visit.site = some visit.value
  «open» : Open root application visit.site
  location : visit.location = locationAt root visit.site

theorem open_nil : Open root application [] := by
  constructor <;> intro above entry habove
  · intro hentry
    rw [List.prefix_nil.mp habove] at hentry
    cases hentry
  · rintro ⟨parent, index, services, hsite, -⟩
    rw [List.prefix_nil.mp habove] at hsite
    cases hsite

theorem Open.of_concat (h : Open root application (site ++ [index])) : Open root application site where
  outside := fun above entry habove => h.outside above entry (habove.trans (List.prefix_append _ _))
  declared := fun above entry habove => h.declared above entry (habove.trans (List.prefix_append _ _))

theorem open_entry (h : Open root application site) (hentry : root.entryAt (site ++ [index]) = some entry) :
    Open root application (site ++ [index]) ↔
      (isExtension entry = true → ServiceChild root (site ++ [index])) ∧
        (ServiceChild root (site ++ [index]) → isService application entry.key = true) := by
  constructor
  · intro hopen
    exact ⟨hopen.outside _ entry List.prefix_rfl hentry,
      fun hchild => hopen.declared _ entry List.prefix_rfl hchild hentry⟩
  · rintro ⟨hextension, hchild⟩
    constructor <;> intro above other habove
    · intro hother
      rcases List.prefix_concat_iff.mp habove with rfl | habove
      · rw [hentry, Option.some.injEq] at hother
        exact hother ▸ hextension
      · exact h.outside above other habove hother
    · intro habovechild hother
      rcases List.prefix_concat_iff.mp habove with rfl | habove
      · rw [hentry, Option.some.injEq] at hother
        exact hother ▸ hchild habovechild
      · exact h.declared above other habove habovechild hother

theorem open_item (h : Open root application site) (hentry : root.entryAt (site ++ [index]) = none) :
    Open root application (site ++ [index]) := by
  constructor <;> intro above other habove
  · intro hother
    rcases List.prefix_concat_iff.mp habove with rfl | habove
    · rw [hentry] at hother
      cases hother
    · exact h.outside above other habove hother
  · intro habovechild hother
    rcases List.prefix_concat_iff.mp habove with rfl | habove
    · rw [hentry] at hother
      cases hother
    · exact h.declared above other habove habovechild hother

/-- The walk takes up the value of an entry at an open site, at its own location. -/
theorem childLocation_eq_some (h : Open root application site)
    (hentry : root.entryAt (site ++ [index]) = some entry) (location : Location) :
    childLocation application (locationAt root site) entry = some location ↔
      Open root application (site ++ [index]) ∧ location = locationAt root (site ++ [index]) := by
  rw [open_entry h hentry, serviceChild_concat hentry, locationAt_concat hentry]
  unfold childLocation
  by_cases hservices : locationAt root site = .services
  · rw [if_pos hservices, if_pos hservices]
    by_cases hdeclared : isService application entry.key = true
    · rw [if_pos hdeclared, Option.some.injEq]
      exact ⟨fun hlocation => ⟨⟨fun _ => hservices, fun _ => hdeclared⟩, hlocation.symm⟩, fun h => h.2.symm⟩
    · rw [if_neg hdeclared]
      exact ⟨fun hnone => (by cases hnone), fun h => absurd (h.1.2 hservices) hdeclared⟩
  · rw [if_neg hservices, if_neg hservices]
    by_cases hextension : isExtension entry = true
    · rw [if_pos hextension]
      exact ⟨fun hnone => (by cases hnone), fun h => absurd (h.1.1 hextension) hservices⟩
    · rw [if_neg hextension, Option.some.injEq]
      exact ⟨fun hlocation => ⟨⟨fun h => absurd h hextension, fun h => absurd h hservices⟩, hlocation.symm⟩,
        fun h => h.2.symm⟩

theorem child_sequence {value : MergedValue} {values : List MergedValue} (h : value.kind = .sequence values) :
    value.child index = values[index]? := by
  unfold MergedValue.child
  rw [h]

theorem child_none {value : MergedValue} (hmapping : ∀ entries, value.kind ≠ .mapping entries)
    (hsequence : ∀ values, value.kind ≠ .sequence values) : value.child index = none := by
  unfold MergedValue.child
  cases hkind : value.kind with
  | mapping entries => exact absurd hkind (hmapping entries)
  | sequence values => exact absurd hkind (hsequence values)
  | null | scalar | other => rfl

variable {visit next : Visit}

theorem mem_visits_mapping {entries : List MergedEntry} (h : visit.value.kind = .mapping entries) :
    next ∈ visits application visit ↔ ∃ index entry location, entries[index]? = some entry ∧
      childLocation application visit.location entry = some location ∧
      next = ⟨visit.site ++ [index], entry.value, location⟩ := by
  unfold visits
  rw [h]
  constructor
  · intro hmem
    obtain ⟨⟨entry, index⟩, hpair, hvisit⟩ := List.mem_filterMap.mp hmem
    obtain ⟨location, hlocation, hsame⟩ := Option.map_eq_some_iff.mp hvisit
    exact ⟨index, entry, location, List.mk_mem_zipIdx_iff_getElem?.mp hpair, hlocation, hsame.symm⟩
  · rintro ⟨index, entry, location, hentry, hlocation, hsame⟩
    refine List.mem_filterMap.mpr ⟨(entry, index), List.mk_mem_zipIdx_iff_getElem?.mpr hentry, ?_⟩
    exact Option.map_eq_some_iff.mpr ⟨location, hlocation, hsame.symm⟩

theorem mem_visits_sequence {values : List MergedValue} (h : visit.value.kind = .sequence values) :
    next ∈ visits application visit ↔ ∃ index value, values[index]? = some value ∧
      next = ⟨visit.site ++ [index], value, .other⟩ := by
  unfold visits
  rw [h]
  constructor
  · intro hmem
    obtain ⟨⟨value, index⟩, hpair, hvisit⟩ := List.mem_map.mp hmem
    exact ⟨index, value, List.mk_mem_zipIdx_iff_getElem?.mp hpair, hvisit.symm⟩
  · rintro ⟨index, value, hvalue, hsame⟩
    exact List.mem_map.mpr ⟨(value, index), List.mk_mem_zipIdx_iff_getElem?.mpr hvalue, hsame.symm⟩

theorem entryAt_of_found {value : MergedValue} (h : root.valueAt site = some value) (index : Nat) :
    root.entryAt (site ++ [index]) = value.entries[index]? := by
  rw [MergedValue.entryAt_concat, h]
  rfl

theorem valueAt_of_found {value : MergedValue} (h : root.valueAt site = some value) (index : Nat) :
    root.valueAt (site ++ [index]) = value.child index := by
  rw [MergedValue.valueAt_concat, h]
  rfl

/-- The walk goes on from a located value exactly to the located values one index further down. -/
theorem mem_visits_iff (h : Located root application visit) (hsite : next.site = visit.site ++ [index]) :
    next ∈ visits application visit ↔ Located root application next := by
  have hnext : Located root application next ↔ visit.value.child index = some next.value ∧
      Open root application (visit.site ++ [index]) ∧ next.location = locationAt root (visit.site ++ [index]) := by
    rw [← valueAt_of_found h.found, ← hsite]
    exact ⟨fun h => ⟨h.found, h.open, h.location⟩, fun h => ⟨h.1, h.2.1, h.2.2⟩⟩
  rw [hnext]
  cases hkind : visit.value.kind with
  | mapping entries =>
    have hentries := MergedValue.entries_mapping hkind
    rw [mem_visits_mapping hkind, h.location]
    constructor
    · rintro ⟨position, entry, location, hentry, hlocation, rfl⟩
      obtain ⟨-, hindex⟩ := List.append_inj' hsite rfl
      rw [List.cons.injEq] at hindex
      rw [hindex.1, ← hentries] at hentry
      refine ⟨MergedValue.child_of_entry hentry, ?_⟩
      exact (childLocation_eq_some h.open ((entryAt_of_found h.found index).trans hentry) location).mp hlocation
    · rintro ⟨hchild, hlocated⟩
      unfold MergedValue.child at hchild
      rw [hkind] at hchild
      obtain ⟨entry, hentry, hvalue⟩ := Option.map_eq_some_iff.mp hchild
      refine ⟨index, entry, next.location, hentry, ?_, ?_⟩
      · rw [← hentries] at hentry
        exact (childLocation_eq_some h.open ((entryAt_of_found h.found index).trans hentry) _).mpr hlocated
      · rw [← hsite, hvalue]
  | sequence values =>
    have hentry : root.entryAt (visit.site ++ [index]) = none := by
      rw [entryAt_of_found h.found, MergedValue.entries_sequence hkind]
      rfl
    rw [mem_visits_sequence hkind, child_sequence hkind, locationAt_item hentry]
    constructor
    · rintro ⟨position, value, hvalue, rfl⟩
      obtain ⟨-, hindex⟩ := List.append_inj' hsite rfl
      rw [List.cons.injEq] at hindex
      exact ⟨hindex.1 ▸ hvalue, open_item h.open hentry, rfl⟩
    · rintro ⟨hvalue, -, hlocation⟩
      refine ⟨index, next.value, hvalue, ?_⟩
      rw [← hsite, ← hlocation]
  | null | scalar | other =>
    have hnone : visit.value.child index = none :=
      child_none (fun _ h => by rw [hkind] at h; cases h) (fun _ h => by rw [hkind] at h; cases h)
    unfold visits
    rw [hkind, hnone]
    exact ⟨fun h => absurd h List.not_mem_nil, fun h => by cases h.1⟩

theorem nodup_sites {α : Type} (site : List Nat) (list : List α) :
    (list.zipIdx.map fun pair => site ++ [pair.2]).Nodup := by
  have hindices : (list.zipIdx.map fun pair => site ++ [pair.2]) =
      (list.zipIdx.map Prod.snd).map fun index => site ++ [index] := by
    rw [List.map_map]
    rfl
  rw [hindices, List.zipIdx_map_snd]
  refine List.Nodup.map ?_ List.nodup_range'
  intro left right hsame
  exact (List.cons.inj (List.append_cancel_left hsame)).1

theorem sites_entries (location : Location) (pairs : List (MergedEntry × Nat)) :
    ((pairs.filterMap (entryVisit application site location)).map Visit.site).Sublist
      (pairs.map fun pair => site ++ [pair.2]) := by
  induction pairs with
  | nil => exact List.Sublist.slnil
  | cons pair rest ih =>
    have hvisit : entryVisit application site location pair =
        (childLocation application location pair.1).map fun child => ⟨site ++ [pair.2], pair.1.value, child⟩ := rfl
    rw [List.filterMap_cons, hvisit]
    cases childLocation application location pair.1 with
    | none => exact ih.cons _
    | some child => exact ih.cons_cons _

theorem labelled_visits (application : Application) : Labelled Visit.site (visits application) := by
  constructor
  · intro visit child hchild
    cases hkind : visit.value.kind with
    | mapping entries =>
      obtain ⟨index, entry, location, -, -, rfl⟩ := (mem_visits_mapping hkind).mp hchild
      exact ⟨index, rfl⟩
    | sequence values =>
      obtain ⟨index, value, -, rfl⟩ := (mem_visits_sequence hkind).mp hchild
      exact ⟨index, rfl⟩
    | null | scalar | other =>
      unfold visits at hchild
      rw [hkind] at hchild
      cases hchild
  · intro visit
    unfold visits
    cases hkind : visit.value.kind with
    | mapping entries =>
      exact (nodup_sites visit.site entries).sublist (sites_entries visit.location entries.zipIdx)
    | sequence values =>
      rw [List.map_map]
      exact nodup_sites visit.site values
    | null | scalar | other => exact List.nodup_nil

/-- The walk starts at the root. -/
def start (root : MergedValue) : Visit := ⟨[], root, .root⟩

theorem located_start : Located root application (start root) := ⟨rfl, open_nil, rfl⟩

theorem located_of_reached (h : Relation.ReflTransGen (Leads (visits application)) (start root) visit) :
    Located root application visit := by
  induction h with
  | refl => exact located_start
  | tail _ hnext ih =>
    obtain ⟨index, hindex⟩ := (labelled_visits application).below _ _ hnext
    exact (mem_visits_iff ih hindex).mp hnext

theorem reached_of_located (h : Located root application visit) :
    Relation.ReflTransGen (Leads (visits application)) (start root) visit := by
  obtain ⟨site, value, location⟩ := visit
  induction site using List.reverseRecOn generalizing value location with
  | nil =>
    have hvalue : root = value := Option.some.inj h.found
    have hlocation : location = .root := h.location
    rw [hlocation, ← hvalue]
    exact Relation.ReflTransGen.refl
  | append_singleton site index ih =>
    have hfound : root.valueAt (site ++ [index]) = some value := h.found
    rw [MergedValue.valueAt_concat] at hfound
    obtain ⟨parent, hparent, -⟩ := Option.bind_eq_some_iff.mp hfound
    have habove : Located root application ⟨site, parent, locationAt root site⟩ :=
      ⟨hparent, Open.of_concat h.open, rfl⟩
    exact (ih parent _ habove).tail ((mem_visits_iff habove rfl).mpr h)

/-- The walk from the root ends, and comes by the located values, each once. -/
theorem walk_located (root : MergedValue) (application : Application) {fuel : Nat} (hfuel : root.size < fuel) :
    ∃ found, walk (visits application) fuel [start root] [] = some found ∧
      (∀ visit, visit ∈ found ↔ Located root application visit) ∧ (found.map Visit.site).Nodup := by
  have hcost : ([start root].map Visit.size).sum < fuel := by
    rw [List.map_singleton, List.sum_singleton]
    exact hfuel
  obtain ⟨found, hfound⟩ : ∃ found, walk (visits application) fuel [start root] [] = some found :=
    walk_ends Visit.size (size_visits application) hcost
  refine ⟨found, hfound, ?_, nodup_walk (labelled_visits application) (fresh_start _) hfound⟩
  intro visit
  rw [mem_walk hfound]
  constructor
  · rintro (hnone | ⟨first, hfirst, hreach⟩)
    · cases hnone
    · rw [List.mem_singleton.mp hfirst] at hreach
      exact located_of_reached hreach
  · intro hlocated
    exact Or.inr ⟨start root, List.mem_singleton.mpr rfl, reached_of_located hlocated⟩

end Sites
end Boxferry.Compose
