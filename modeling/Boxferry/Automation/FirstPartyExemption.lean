import Mathlib.Data.List.Dedup
import Mathlib.Data.List.ReduceOption
import Boxferry.Automation.FirstPartyScope
import Boxferry.Library.Lookup

/-! # What the exemption covers

A scope that holds covers the closures of the dependencies whose versions changed, and
nothing else, as long as the changed strings stand in tables of dependencies. -/
namespace Boxferry.Automation.FirstParty
open Results Worklist Dependencies
set_option autoImplicit false

section
variable {α Content : Type} [BEq α]

/-! ## What is claimed of a scope that holds -/

/-- The tables of a Cargo manifest that hold dependencies. -/
def DependencyTable (table : List String) : Prop :=
  (∃ kind ∈ dependencySections, table = [kind]) ∨ table = ["workspace", "dependencies"] ∨
    ∃ target, ∃ kind ∈ dependencySections, table = ["target", target, kind]

/-- The site is that of the version of the dependency on the crate of the name. -/
def DependencyVersion (manifest : Value α) (name : String) (site : List String) : Prop :=
  ∃ table, DependencyTable table ∧ (site = table ++ [name] ∨ site = table ++ [name, "version"]) ∧
    ∀ package, Stands manifest (table ++ [name, "package"]) package → package = .text name

def FirstPartyVersion (manifest : Value α) (site : List String) : Prop :=
  ∃ name ∈ firstParty, DependencyVersion manifest name site

/-- The manifests that differ between two snapshots. -/
def changes (world : World α Content) (base head : Snapshot Content) : List (String × Table α × Table α) :=
  match manifests world base, manifests world head with
  | .ok old, .ok new => changedManifests old new
  | _, _ => []

/-- The version of a first-party dependency changed in a manifest. -/
def VersionChanged (world : World α Content) (base head : Snapshot Content) (name : String) : Prop :=
  name ∈ firstParty ∧ ∃ path before after, (path, before, after) ∈ changes world base head ∧
    ∃ site old new, Paired (.table before) (.table after) site (.text old) (.text new) ∧ old ≠ new ∧
      DependencyVersion (.table before) name site

def lockOf (world : World α Content) (snapshot : Snapshot Content) : Except Failure (List (Record α)) :=
  (snapshot.toml world "Cargo.lock" "Cargo.lock").bind (readRecords world.toRuntime)

/-- The record can be reached from one that a changed first-party dependency names. -/
def InClosure (world : World α Content) (base head : Snapshot Content) (records : List (Record α)) (index : Nat) :
    Prop :=
  ∃ name, VersionChanged world base head name ∧ Reachable world.toRuntime records [name] index

/-- Nothing but first-party versions and what lies in their closures has changed. -/
structure CoversClosure (world : World α Content) (base head : Snapshot Content) (before after : List Package) :
    Prop where
  introduced : ∀ package ∈ after, package ∉ before → package.ecosystem = .cargo ∧
    ∃ records index record, lockOf world head = .ok records ∧ records[index]? = some record ∧
      record.name = .text package.name ∧ record.version = .text package.version ∧
      InClosure world base head records index
  locked : ∃ old new, lockOf world base = .ok old ∧ lockOf world head = .ok new ∧
    ∀ (index : Nat) (record : Record α), old[index]? = some record →
      (¬ ∃ other ∈ new, sameIdentity record other = true ∧
        (Value.table record.item).same (.table other.item) = true) → InClosure world base head old index
  manifests : ∀ path old new, (path, old, new) ∈ changes world base head →
    OnlyAt (FirstPartyVersion (.table old)) [] (.table old) (.table new)
  transition : ∃ name version other, VersionChanged world base head name ∧ versionsOf before name = [version] ∧
    versionsOf after name = [other] ∧ version ≠ other

/-- Every closure ends, and one that succeeds is the set of what can be reached. -/
def ClosuresExact (runtime : Runtime α) : Prop :=
  ∀ (lock : Except Failure (Table α)) (names : List String), ∃ bound, ∀ fuel, bound < fuel →
    ∃ result, cargoClosure runtime fuel lock names = some result ∧
      ∀ visited records, result = .ok (visited, records) → lock.bind (readRecords runtime) = .ok records ∧
        ∀ index, index ∈ visited ↔ Reachable runtime records names index

/-- Strings under the name of a first-party crate differ in tables of dependencies only, and
only where the dependency is not renamed. -/
def Anchored (world : World α Content) (base head : Snapshot Content) : Prop :=
  ∀ path before after, (path, before, after) ∈ changes world base head →
    ∀ site old new, Paired (.table before) (.table after) site (.text old) (.text new) → old ≠ new →
      VersionOf firstParty site → FirstPartyVersion (.table before) site

variable {world : World α Content} {base head : Snapshot Content} {before after : List Package}
  {context : DependencyContext} {fuel : Nat} {reason : String} {names : List String}
  {changed : List (String × Table α × Table α)}

/-! ## What a scope that holds has checked -/

theorem sameSet_iff {β : Type} [DecidableEq β] {left right : List β} :
    sameSet left right = true ↔ ∀ item, item ∈ left ↔ item ∈ right := by
  unfold sameSet
  rw [Bool.and_eq_true, List.all_eq_true, List.all_eq_true]
  simp only [decide_eq_true_eq]
  exact ⟨fun h item => ⟨h.1 item, h.2 item⟩, fun h => ⟨fun item => (h item).mp, fun item => (h item).mpr⟩⟩

theorem isolation_true (h : isolation world fuel base head before after changed = some (.ok (true, reason))) :
    ∃ names oldClosure old newClosure new, updatedNames world changed = .ok names ∧
      (∀ name ∈ names, isTransition before after name = true) ∧
      cargoClosure world.toRuntime fuel (base.toml world "Cargo.lock" "Cargo.lock") names =
        some (.ok (oldClosure, old)) ∧
      cargoClosure world.toRuntime fuel (head.toml world "Cargo.lock" "Cargo.lock") names =
        some (.ok (newClosure, new)) ∧
      ∀ pair ∈ identityPairs old new, outside old new oldClosure newClosure pair = none := by
  unfold isolation at h
  split at h
  · cases h
  · next names hnames =>
    split at h
    · cases h
    · next htransitions =>
      split at h
      · cases h
      · cases h
      · next oldClosure old hold =>
        split at h
        · cases h
        · cases h
        · next newClosure new hnew =>
          split at h
          · cases h
          · next hnone =>
            refine ⟨names, oldClosure, old, newClosure, new, hnames, ?_, hold, hnew, ?_⟩
            · intro name hname
              by_contra hbad
              refine htransitions (List.any_eq_true.mpr ⟨name, hname, ?_⟩)
              rw [Bool.not_eq_true] at hbad
              rw [hbad]
              rfl
            · intro pair hpair
              exact List.findSome?_eq_none_iff.mp hnone pair ((world.identities_perm _).mem_iff.mpr hpair)

theorem unavailable_true {result : Except Failure (Bool × String)}
    (h : unavailable result = .ok (true, reason)) : result = .ok (true, reason) := by
  cases result with
  | ok verdict => exact h
  | error failure =>
    by_cases hcaught : failure.caught = true
    · simp [unavailable, hcaught] at h
    · simp [unavailable, hcaught] at h

theorem scope_true
    (h : firstPartyScope world fuel base head before after (some context) = some (.ok (true, reason))) :
    sameSet (tools before) (tools after) = true ∧ changes world base head ≠ [] ∧
      sameSet context.changedPaths ((changes world base head).map Prod.fst ++ ["Cargo.lock"]) = true ∧
      isolation world fuel base head before after (changes world base head) = some (.ok (true, reason)) := by
  unfold firstPartyScope at h
  split at h
  · cases h
  · next htools =>
    simp only at h
    split at h
    · cases h
    · split at h
      · cases h
      · split at h
        · cases h
        · cases h
        · next old new hold hnew =>
          have hchanges : changes world base head = changedManifests old new := by
            unfold changes
            rw [hold, hnew]
          rw [← hchanges] at h
          split at h
          · cases h
          · split at h
            · cases h
            · next hpaths =>
              obtain ⟨hnonempty, hpaths⟩ := not_or.mp hpaths
              obtain ⟨result, hresult, htrue⟩ := Option.map_eq_some_iff.mp h
              refine ⟨by simpa using htools, hnonempty, by simpa using hpaths, ?_⟩
              rw [hresult, unavailable_true htrue]

/-! ## The names and the manifests -/

theorem dependencyName_of_version {name other : String} {site table : List String} (htable : DependencyTable table)
    (hname : name ∈ firstParty) (hsite : site = table ++ [name] ∨ site = table ++ [name, "version"])
    (h : dependencyName site.reverse = some other) : name = other := by
  have hkind : ∃ above, ∃ kind ∈ dependencySections, table = above ++ [kind] := by
    rcases htable with ⟨kind, hkind, rfl⟩ | rfl | ⟨target, kind, hkind, rfl⟩
    · exact ⟨[], kind, hkind, rfl⟩
    · exact ⟨["workspace"], "dependencies", by decide, rfl⟩
    · exact ⟨["target", target], kind, hkind, rfl⟩
  obtain ⟨above, kind, hkind, rfl⟩ := hkind
  have hsection : name ∉ dependencySections := by
    have hnone : ∀ name ∈ firstParty, name ∉ dependencySections := by decide
    exact hnone name hname
  rcases hsite with rfl | rfl
  · rw [List.reverse_append, List.reverse_append] at h
    simp only [List.reverse_singleton, List.singleton_append, dependencyName, if_pos hkind] at h
    exact Option.some.inj h
  · rw [List.reverse_append, List.reverse_append] at h
    have hthird : ((kind :: above.reverse).head?.any fun third => decide (third ∈ dependencySections)) = true := by
      simpa using hkind
    have hreversed : ([name, "version"] : List String).reverse = ["version", name] := rfl
    rw [hreversed] at h
    simp only [List.reverse_singleton, List.cons_append, List.nil_append, dependencyName, if_neg hsection,
      hthird] at h
    simpa using h

omit [BEq α] in
theorem mem_manifests {snapshot : Snapshot Content} {tables : List (String × Table α)} {path : String}
    {table : Table α} (h : manifests world snapshot = .ok tables) (hmem : (path, table) ∈ tables) :
    snapshot.toml world path "Cargo.toml" = .ok table ∧ (path = "Cargo.toml" ∨ isCrateManifest path = true) := by
  unfold manifests at h
  split at h
  · cases h
  · obtain ⟨item, hitem, hstep⟩ := mem_of_forall₂ (mapM_eq_ok.mp h) hmem
    obtain ⟨read, hread, hpair⟩ := bind_eq_ok.mp hstep
    obtain ⟨rfl, rfl⟩ := Prod.mk.inj (Except.ok.inj hpair)
    refine ⟨hread, ?_⟩
    rcases List.mem_append.mp hitem with hroot | hcrate
    · split at hroot
      · exact Or.inl (List.mem_singleton.mp hroot)
      · cases hroot
    · exact Or.inr (List.mem_filter.mp hcrate).2

theorem mem_changes {path : String} {old new : Table α} (h : (path, old, new) ∈ changes world base head) :
    ∃ olds news, manifests world base = .ok olds ∧ manifests world head = .ok news ∧ (path, old) ∈ olds ∧
      news.lookup path = some new ∧ (Value.table old).same (.table new) = false := by
  unfold changes at h
  split at h
  · next olds news holds hnews =>
    obtain ⟨⟨name, table⟩, hentry, hpair⟩ := List.mem_filterMap.mp h
    simp only at hpair
    cases hlookup : news.lookup name with
    | none =>
      rw [hlookup] at hpair
      cases hpair
    | some other =>
      simp only [hlookup] at hpair
      by_cases hsame : (Value.table table).same (.table other) = true
      · rw [if_pos hsame] at hpair
        cases hpair
      · rw [if_neg hsame] at hpair
        obtain ⟨hname, htables⟩ := Prod.mk.inj (Option.some.inj hpair)
        obtain ⟨rfl, rfl⟩ := Prod.mk.inj htables
        subst hname
        exact ⟨olds, news, holds, hnews, hentry, hlookup, Bool.eq_false_iff.mpr hsame⟩
  · cases h

/-- The files of one path have one parse, so a path has one change. -/
theorem changes_unique {path : String} {old new other found : Table α}
    (h : (path, old, new) ∈ changes world base head) (hother : (path, other, found) ∈ changes world base head) :
    old = other ∧ new = found := by
  obtain ⟨olds, news, holds, hnews, hold, hnew, -⟩ := mem_changes h
  obtain ⟨others, founds, hothers, hfounds, hotherold, hothernew, -⟩ := mem_changes hother
  rw [holds, Except.ok.injEq] at hothers
  rw [hnews, Except.ok.injEq] at hfounds
  subst hothers hfounds
  have hfirst := (mem_manifests holds hold).1
  rw [(mem_manifests holds hotherold).1, Except.ok.injEq] at hfirst
  rw [hnew, Option.some.injEq] at hothernew
  exact ⟨hfirst.symm, hothernew⟩

theorem lookup_changes {path : String} {old new : Table α} (h : (path, old, new) ∈ changes world base head) :
    (changes world base head).lookup path = some (old, new) := by
  refine Lookup.lookup_of_unique h ?_
  rintro ⟨other, found⟩ hother
  obtain ⟨rfl, rfl⟩ := changes_unique h hother
  rfl

theorem updatedNames_spec (h : updatedNames world (changes world base head) = .ok names) :
    (∀ path old new, (path, old, new) ∈ changes world base head →
      ∃ part, (∀ name ∈ part, name ∈ names) ∧ Updates part [] (.table old) (.table new)) ∧
    ∀ name ∈ names, ∃ path old new part, (path, old, new) ∈ changes world base head ∧ name ∈ part ∧
      Updates part [] (.table old) (.table new) := by
  obtain ⟨parts, hparts, hnames⟩ := bind_eq_ok.mp h
  obtain rfl := Except.ok.inj hnames
  have hsteps := mapM_eq_ok.mp hparts
  constructor
  · intro path old new hmem
    have hpath : path ∈ world.strings ((changes world base head).map Prod.fst) :=
      (world.strings_perm _).mem_iff.mpr (List.mem_map.mpr ⟨_, hmem, rfl⟩)
    obtain ⟨part, hpart, hresult⟩ := exists_of_forall₂ hsteps hpath
    simp only [lookup_changes hmem] at hresult
    exact ⟨part, fun name hname => List.mem_flatten.mpr ⟨part, hpart, hname⟩, updates_spec _ _ [] part hresult⟩
  · intro name hname
    obtain ⟨part, hpart, hname⟩ := List.mem_flatten.mp hname
    obtain ⟨path, hpath, hresult⟩ := mem_of_forall₂ hsteps hpart
    obtain ⟨⟨_, old, new⟩, hmem, rfl⟩ := List.mem_map.mp ((world.strings_perm _).mem_iff.mp hpath)
    simp only [lookup_changes hmem] at hresult
    exact ⟨_, old, new, part, hmem, hname, updates_spec _ _ [] part hresult⟩

/-- Where the names are anchored, each of them is that of a first-party dependency whose version changed. -/
theorem versionChanged_of_name (hanchored : Anchored world base head)
    (h : updatedNames world (changes world base head) = .ok names) {name : String} (hname : name ∈ names) :
    VersionChanged world base head name := by
  obtain ⟨path, before, after, part, hmem, hpart, hupdates⟩ := (updatedNames_spec h).2 name hname
  obtain ⟨site, old, new, hpaired, hne, hfirst, hsite⟩ := hupdates.source name hpart
  rw [List.nil_append] at hsite
  obtain ⟨other, hother, table, htable, hends, hrenamed⟩ :=
    hanchored path before after hmem site old new hpaired hne ⟨name, hfirst, hfirst, hsite⟩
  obtain rfl := dependencyName_of_version htable hother hends hsite
  exact ⟨hfirst, path, before, after, hmem, site, old, new, hpaired, hne, table, htable, hends, hrenamed⟩

theorem manifests_of_anchored (hanchored : Anchored world base head)
    (h : updatedNames world (changes world base head) = .ok names) {path : String} {old new : Table α}
    (hmem : (path, old, new) ∈ changes world base head) :
    OnlyAt (FirstPartyVersion (.table old)) [] (.table old) (.table new) := by
  obtain ⟨part, -, hupdates⟩ := (updatedNames_spec h).1 path old new hmem
  refine hupdates.only.restrict fun site before after hpaired hne hversion => ?_
  obtain ⟨name, -, hfirst, hname⟩ := hversion
  rw [List.nil_append] at hname ⊢
  exact hanchored path old new hmem site before after hpaired hne ⟨name, hfirst, hfirst, hname⟩

theorem transition_of_anchored (hanchored : Anchored world base head) (hchanged : changes world base head ≠ [])
    (h : updatedNames world (changes world base head) = .ok names)
    (htransitions : ∀ name ∈ names, isTransition before after name = true) :
    ∃ name version other, VersionChanged world base head name ∧ versionsOf before name = [version] ∧
      versionsOf after name = [other] ∧ version ≠ other := by
  obtain ⟨⟨path, old, new⟩, hmem⟩ := List.exists_mem_of_ne_nil _ hchanged
  obtain ⟨-, -, -, -, -, -, hne⟩ := mem_changes hmem
  obtain ⟨part, hpart, hupdates⟩ := (updatedNames_spec h).1 path old new hmem
  obtain ⟨name, hname⟩ := List.exists_mem_of_ne_nil part (hupdates.found hne)
  have htransition := htransitions name (hpart name hname)
  unfold isTransition at htransition
  rw [Bool.and_eq_true, Bool.and_eq_true, beq_iff_eq, beq_iff_eq, bne_iff_ne] at htransition
  obtain ⟨⟨hbefore, hafter⟩, hdiffer⟩ := htransition
  obtain ⟨version, hversion⟩ := List.length_eq_one_iff.mp hbefore
  obtain ⟨other, hother⟩ := List.length_eq_one_iff.mp hafter
  refine ⟨name, version, other, versionChanged_of_name hanchored h (hpart name hname), hversion, hother, ?_⟩
  rintro rfl
  exact hdiffer (hversion.trans hother.symm)

/-! ## The locks -/

theorem mem_closure {records : List (Record α)} {index : Nat} (hanchored : Anchored world base head)
    (h : updatedNames world (changes world base head) = .ok names)
    (hreach : Reachable world.toRuntime records names index) : InClosure world base head records index := by
  obtain ⟨first, record, name, hname, hrecord, htext, hsteps⟩ := hreach
  exact ⟨name, versionChanged_of_name hanchored h hname, first, record, name, List.mem_singleton.mpr rfl,
    hrecord, htext, hsteps⟩

theorem sameRecord_some {old new : List (Record α)} {index : Nat} {second : Option Nat} {record : Record α}
    (hrecord : old[index]? = some record) (h : sameRecord old new (some index, second) = true) :
    ∃ position other, second = some position ∧ new[position]? = some other ∧
      (Value.table record.item).same (.table other.item) = true := by
  unfold sameRecord at h
  have hfirst : (some index).bind (old[·]?) = some record := hrecord
  simp only [hfirst] at h
  cases hsecond : second.bind (new[·]?) with
  | none =>
    rw [hsecond] at h
    cases h
  | some other =>
    rw [hsecond] at h
    obtain ⟨position, hposition, hother⟩ := Option.bind_eq_some_iff.mp hsecond
    exact ⟨position, other, hposition, hother, h⟩

/-- A record that is not in the closure is in the other lock as it is. -/
theorem outside_none {old new : List (Record α)} {oldClosure newClosure : List Nat}
    {pair : Option Nat × Option Nat} (h : outside old new oldClosure newClosure pair = none) :
    sameRecord old new pair = true ∨
      (∀ index ∈ pair.1, index ∈ oldClosure) ∧ ∀ index ∈ pair.2, index ∈ newClosure := by
  unfold outside at h
  split at h
  · next hsame => exact Or.inl hsame
  · split at h
    · cases h
    · next hold =>
      split at h
      · cases h
      · next hnew =>
        refine Or.inr ⟨fun index hindex => ?_, fun index hindex => ?_⟩
        · by_contra hout
          exact hold ((Option.any_eq_true ..).mpr ⟨index, hindex, by simpa using hout⟩)
        · by_contra hout
          exact hnew ((Option.any_eq_true ..).mpr ⟨index, hindex, by simpa using hout⟩)

theorem pair_of_old {old : List (Record α)} (new : List (Record α)) {index : Nat} {record : Record α}
    (hrecord : old[index]? = some record) : ∃ second, (some index, second) ∈ identityPairs old new ∧
      (∀ position ∈ second, ∃ other, new[position]? = some other ∧ sameIdentity record other = true) ∧
      (second = none → ∀ other ∈ new, sameIdentity record other = false) := by
  obtain ⟨hlt, -⟩ := List.getElem?_eq_some_iff.mp hrecord
  refine ⟨_, List.mem_append_left _ (List.mem_map.mpr ⟨index, List.mem_range.mpr hlt, rfl⟩), ?_, ?_⟩
  rotate_left
  · intro hnone other hother
    obtain ⟨position, hposition⟩ := List.getElem?_of_mem hother
    have hrange : position ∈ List.range new.length :=
      List.mem_range.mpr (List.getElem?_eq_some_iff.mp hposition).1
    have hbad := List.find?_eq_none.mp hnone position hrange
    simp only [hrecord, hposition, Bool.not_eq_true] at hbad
    exact hbad
  intro position hposition
  have hfound := List.find?_some hposition
  simp only [hrecord] at hfound
  cases hother : new[position]? with
  | none =>
    rw [hother] at hfound
    cases hfound
  | some other =>
    rw [hother] at hfound
    exact ⟨other, rfl, hfound⟩

/-- A record of the new lock has the identity of one of the old lock, or none of these has it. -/
theorem pair_of_new (old : List (Record α)) {new : List (Record α)} {index : Nat} {record : Record α}
    (hrecord : new[index]? = some record) :
    (∃ (position : Nat) (found : Record α), old[position]? = some found ∧ sameIdentity found record = true) ∨
      (none, some index) ∈ identityPairs old new := by
  by_cases hany : ∃ found ∈ old, sameIdentity found record = true
  · obtain ⟨found, hfound, hsame⟩ := hany
    obtain ⟨position, hposition⟩ := List.getElem?_of_mem hfound
    exact Or.inl ⟨position, found, hposition, hsame⟩
  · refine Or.inr (List.mem_append_right _ (List.mem_map.mpr ⟨index, List.mem_filter.mpr ⟨?_, ?_⟩, rfl⟩))
    · exact List.mem_range.mpr (List.getElem?_eq_some_iff.mp hrecord).1
    · rw [List.all_eq_true]
      intro found hfound
      simp only [hrecord, Bool.not_eq_true']
      rw [Bool.eq_false_iff]
      exact fun hsame => hany ⟨found, hfound, hsame⟩

/-! ## The inventory -/

theorem eq_text_of_same {value : Value α} {text : String} (h : value.same (.text text) = true) :
    value = .text text := by
  cases value with
  | text other => rw [eq_of_beq h]
  | scalar | array | table => cases h

/-- A table that is equal to one with a string has that string. -/
theorem get_of_same {entries others : Table α} (h : (Value.table entries).same (.table others) = true)
    {key text : String} (hget : others.get key = some (.text text)) : entries.get key = some (.text text) := by
  rw [Value.same, Bool.and_eq_true] at h
  have hmem : key ∈ Table.keys entries := by
    have hkeys := h.1
    unfold sameKeys at hkeys
    rw [Bool.and_eq_true, List.all_eq_true, List.all_eq_true] at hkeys
    exact List.contains_iff_mem.mp (hkeys.2 key (List.mem_map.mpr ⟨_, mem_of_get hget, rfl⟩))
  obtain ⟨value, hvalue⟩ := get_of_mem_keys hmem
  obtain ⟨other, hother, hsame⟩ := sameEntries_iff.mp h.2 key value (mem_of_get hvalue)
  rw [hget, Option.some.injEq] at hother
  rw [← hother] at hsame
  rw [hvalue, eq_text_of_same hsame]

omit [BEq α] in
theorem item_ok {runtime : Runtime α} {entries : Table α} {key : String} {value : Value α} :
    runtime.item entries key = .ok value ↔ entries.get key = some value := by
  unfold Runtime.item
  cases entries.get key with
  | none => exact ⟨fun h => (by cases h), fun h => (by cases h)⟩
  | some found => exact ⟨fun h => congrArg some (Except.ok.inj h), fun h => congrArg Except.ok (Option.some.inj h)⟩

omit [BEq α] in
theorem nameOf_ok {value : Value α} {name : String} (h : nameOf value = .ok name) : value = .text name := by
  cases value with
  | text other =>
    unfold nameOf at h
    exact congrArg Value.text (accept_eq_ok.mp h).2
  | scalar | array | table => cases h

omit [BEq α] in
theorem checksumOf_ok {value : Option (Value α)} {checksum : String} (h : checksumOf value = .ok checksum) :
    value = some (.text checksum) := by
  unfold checksumOf at h
  split at h
  · rw [(accept_eq_ok.mp h).2]
  · cases h

omit [BEq α] in
theorem eq_of_isText {value : Value α} {text : String} (h : isText value text = true) : value = .text text := by
  cases value with
  | text other => rw [eq_of_beq h]
  | scalar | array | table => cases h

/-- A registry package is read off four strings of its record. -/
structure ReadsPackage (runtime : Runtime α) (entries : Table α) (package : Package) : Prop where
  ecosystem : package.ecosystem = .cargo
  name : entries.get "name" = some (.text package.name)
  version : entries.get "version" = some (.text package.version)
  again : ∀ others : Table α, (Value.table others).same (.table entries) = true →
    cargoPackage runtime (.table others) = .ok (some package)

theorem readsPackage {runtime : Runtime α} {item : Value α} {package : Package}
    (h : cargoPackage runtime item = .ok (some package)) :
    ∃ entries, item = .table entries ∧ ReadsPackage runtime entries package := by
  cases item with
  | text | scalar | array => cases h
  | table entries =>
    refine ⟨entries, rfl, ?_⟩
    have hread := h
    cases hsource : Table.get entries "source" with
    | none =>
      simp only [cargoPackage, hsource] at h
      cases h
    | some source =>
      simp only [cargoPackage, hsource] at h
      by_cases htext : isText source cratesSource = true
      · rw [if_pos htext] at h
        obtain ⟨nameValue, hname, h⟩ := bind_eq_ok.mp h
        obtain ⟨name, hnameOf, h⟩ := bind_eq_ok.mp h
        obtain ⟨versionValue, hversion, h⟩ := bind_eq_ok.mp h
        obtain ⟨version, hversionOf, h⟩ := bind_eq_ok.mp h
        obtain ⟨checksum, hchecksum, h⟩ := bind_eq_ok.mp h
        obtain rfl := Option.some.inj (Except.ok.inj h)
        rw [item_ok, nameOf_ok hnameOf] at hname
        rw [item_ok, nameOf_ok hversionOf] at hversion
        have hchecksumtext := checksumOf_ok hchecksum
        rw [eq_of_isText htext] at hsource
        refine ⟨rfl, hname, hversion, fun others hsame => ?_⟩
        rw [← hread]
        simp only [cargoPackage, Runtime.item, get_of_same hsame hsource, get_of_same hsame hname,
          get_of_same hsame hversion, get_of_same hsame hchecksumtext, hsource, hname, hversion, hchecksumtext]
      · rw [if_neg htext] at h
        cases h

omit [BEq α] in
theorem readRecord_ok {runtime : Runtime α} {entries : Table α} {record : Record α}
    (h : readRecord runtime (.table entries) = .ok record) :
    record.item = entries ∧ entries.get "name" = some record.name ∧ entries.get "version" = some record.version := by
  obtain ⟨name, hname, h⟩ := bind_eq_ok.mp h
  obtain ⟨version, hversion, h⟩ := bind_eq_ok.mp h
  obtain ⟨-, -, h⟩ := bind_eq_ok.mp h
  obtain ⟨-, -, h⟩ := bind_eq_ok.mp h
  obtain rfl := Except.ok.inj h
  exact ⟨rfl, item_ok.mp hname, item_ok.mp hversion⟩

omit [BEq α] in
theorem readRecord_table {runtime : Runtime α} {item : Value α} {record : Record α}
    (h : readRecord runtime item = .ok record) : item = .table record.item := by
  cases item with
  | table entries => rw [(readRecord_ok h).1]
  | text | scalar | array => cases h

/-- The records of a lock are those of the items its packages are read from. -/
theorem lockOf_ok {snapshot : Snapshot Content} {records : List (Record α)} (h : lockOf world snapshot = .ok records) :
    ∃ content lock items, snapshot.file "Cargo.lock" = some content ∧ world.toml content = .ok lock ∧
      world.iterate ((lock.get "package").getD (.array [])) = .ok items ∧
      List.Forall₂ (fun item record => readRecord world.toRuntime item = .ok record) items records ∧
      distinct records = true := by
  obtain ⟨lock, hlock, h⟩ := bind_eq_ok.mp (show (snapshot.toml world "Cargo.lock" "Cargo.lock" >>= _) = _ from h)
  obtain ⟨items, hitems, h⟩ := bind_eq_ok.mp h
  obtain ⟨found, hfound, h⟩ := bind_eq_ok.mp h
  obtain ⟨hdistinct, rfl⟩ := accept_eq_ok.mp h
  unfold Snapshot.toml at hlock
  split at hlock
  · next content hcontent => exact ⟨content, lock, items, hcontent, hlock, hitems, mapM_eq_ok.mp hfound, hdistinct⟩
  · cases hlock

omit [BEq α] in
theorem cargoPackages_ok {content : Content} {lock : Table α} {items : List (Value α)} {found : List Package}
    (hlock : world.toml content = .ok lock)
    (hitems : world.iterate ((lock.get "package").getD (.array [])) = .ok items)
    (h : cargoPackages world content = .ok found) (package : Package) :
    package ∈ found ↔ ∃ item ∈ items, cargoPackage world.toRuntime item = .ok (some package) := by
  obtain ⟨other, hother, h⟩ := bind_eq_ok.mp h
  rw [hlock, Except.ok.injEq] at hother
  subst hother
  obtain ⟨others, hothers, h⟩ := bind_eq_ok.mp h
  rw [hitems, Except.ok.injEq] at hothers
  subst hothers
  obtain ⟨packages, hpackages, h⟩ := bind_eq_ok.mp h
  obtain rfl := Except.ok.inj h
  have hsteps := mapM_eq_ok.mp hpackages
  rw [List.reduceOption_mem_iff]
  constructor
  · exact fun hmem => mem_of_forall₂ hsteps hmem
  · rintro ⟨item, hitem, hpackage⟩
    obtain ⟨result, hresult, hstep⟩ := exists_of_forall₂ hsteps hitem
    rw [hpackage, Except.ok.injEq] at hstep
    exact hstep ▸ hresult

omit [BEq α] in
/-- A package is one of the lock files or of the declared tools. -/
theorem packages_ok {snapshot : Snapshot Content} {found : List Package} (h : packages world snapshot = .ok found) :
    ∃ cargo npm devcontainer uv automation declared,
      parsed snapshot "Cargo.lock" (cargoPackages world) = .ok cargo ∧
      parsed snapshot "package-lock.json" world.npm = .ok npm ∧
      parsed snapshot "automation/devcontainer/package-lock.json" world.npm = .ok devcontainer ∧
      parsed snapshot "uv.lock" world.uv = .ok uv ∧
      parsed snapshot "automation/uv.lock" world.uv = .ok automation ∧
      ∀ package, package ∈ found ↔ package ∈ cargo ∨ package ∈ npm ∨ package ∈ devcontainer ∨ package ∈ uv ∨
        package ∈ automation ∨ package ∈ List.map toolPackage declared := by
  obtain ⟨cargo, hcargo, h⟩ := bind_eq_ok.mp h
  obtain ⟨npm, hnpm, h⟩ := bind_eq_ok.mp h
  obtain ⟨devcontainer, hdevcontainer, h⟩ := bind_eq_ok.mp h
  obtain ⟨uv, huv, h⟩ := bind_eq_ok.mp h
  obtain ⟨automation, hautomation, h⟩ := bind_eq_ok.mp h
  obtain ⟨declared, -, h⟩ := bind_eq_ok.mp h
  simp only at h
  rw [guard_eq_ok] at h
  obtain rfl := Except.ok.inj h.2
  refine ⟨cargo, npm, devcontainer, uv, automation, declared, hcargo, hnpm, hdevcontainer, huv, hautomation, ?_⟩
  intro package
  simp only [List.mem_dedup, List.mem_append, or_assoc]

omit [BEq α] in
theorem parsed_congr {path : String} {parser : Content → Except Failure (List Package)}
    (h : base.file path = head.file path) : parsed base path parser = parsed head path parser := by
  unfold parsed
  rw [h]

/-- Only manifests and the Cargo lock are among the changed paths. -/
theorem not_mem_changedPaths {path : String} (hlock : path ≠ "Cargo.lock") (hroot : path ≠ "Cargo.toml")
    (hcrate : isCrateManifest path = false)
    (hpaths : sameSet context.changedPaths ((changes world base head).map Prod.fst ++ ["Cargo.lock"]) = true) :
    path ∉ context.changedPaths := by
  rw [sameSet_iff.mp hpaths, List.mem_append, List.mem_singleton, not_or]
  refine ⟨fun hmem => ?_, hlock⟩
  obtain ⟨⟨_, old, new⟩, hchange, rfl⟩ := List.mem_map.mp hmem
  obtain ⟨olds, news, holds, -, hold, -, -⟩ := mem_changes hchange
  rcases (mem_manifests holds hold).2 with heq | hmatch
  · exact hroot heq
  · rw [hcrate] at hmatch
    cases hmatch

theorem mem_tools {packages : List Package} {package : Package} :
    package ∈ tools packages ↔ package ∈ packages ∧ package.ecosystem = .cargoTool := by
  unfold tools
  rw [List.mem_filter, decide_eq_true_iff]

/-- A package that is introduced is one of the Cargo lock. -/
theorem cargo_of_introduced {found : List Package} {package : Package} (hbefore : packages world base = .ok before)
    (hafter : packages world head = .ok after)
    (hfiles : ∀ path, path ∉ context.changedPaths → base.file path = head.file path)
    (htools : sameSet (tools before) (tools after) = true)
    (hpaths : sameSet context.changedPaths ((changes world base head).map Prod.fst ++ ["Cargo.lock"]) = true)
    (hcargo : parsed head "Cargo.lock" (cargoPackages world) = .ok found) (hmem : package ∈ after)
    (hnew : package ∉ before) : package ∈ found := by
  obtain ⟨cargo, npm, devcontainer, uv, automation, declared, -, hnpm, hdevcontainer, huv, hautomation, hold⟩ :=
    packages_ok hbefore
  obtain ⟨cargo', npm', devcontainer', uv', automation', declared', hcargo', hnpm', hdevcontainer', huv',
    hautomation', hafterwards⟩ := packages_ok hafter
  have hsame : ∀ {path : String} {parser : Content → Except Failure (List Package)} {left right : List Package},
      path ≠ "Cargo.lock" → path ≠ "Cargo.toml" → isCrateManifest path = false →
      parsed base path parser = .ok left → parsed head path parser = .ok right → left = right := by
    intro path parser left right hlock hroot hcrate hleft hright
    rw [parsed_congr (hfiles path (not_mem_changedPaths hlock hroot hcrate hpaths)), hright] at hleft
    exact (Except.ok.inj hleft).symm
  obtain rfl := hsame (by decide) (by decide) (by decide) hnpm hnpm'
  obtain rfl := hsame (by decide) (by decide) (by decide) hdevcontainer hdevcontainer'
  obtain rfl := hsame (by decide) (by decide) (by decide) huv huv'
  obtain rfl := hsame (by decide) (by decide) (by decide) hautomation hautomation'
  rw [hcargo, Except.ok.injEq] at hcargo'
  rw [hold] at hnew
  rcases (hafterwards package).mp hmem with h | h | h | h | h | h
  · exact hcargo' ▸ h
  · exact absurd (Or.inr (Or.inl h)) hnew
  · exact absurd (Or.inr (Or.inr (Or.inl h))) hnew
  · exact absurd (Or.inr (Or.inr (Or.inr (Or.inl h)))) hnew
  · exact absurd (Or.inr (Or.inr (Or.inr (Or.inr (Or.inl h))))) hnew
  · obtain ⟨tool, -, rfl⟩ := List.mem_map.mp h
    have htool : toolPackage tool ∈ tools after := mem_tools.mpr ⟨hmem, rfl⟩
    have hbeforemem := (mem_tools.mp ((sameSet_iff.mp htools _).mpr htool)).1
    exact absurd ((hold _).mp hbeforemem) hnew

/-! ## The closures -/

theorem sameIdentity_text {record other : Record α} {name version : String} (hname : other.name = .text name)
    (hversion : other.version = .text version) (h : sameIdentity record other = true) :
    record.name = .text name ∧ record.version = .text version := by
  unfold sameIdentity at h
  rw [Bool.and_eq_true, hname, hversion] at h
  exact ⟨eq_text_of_same h.1, eq_text_of_same h.2⟩

theorem text_sameIdentity {record other : Record α} {name version : String} (hname : record.name = .text name)
    (hversion : record.version = .text version) (h : sameIdentity record other = true) :
    other.name = .text name ∧ other.version = .text version := by
  have htext : ∀ {value : Value α} {text : String}, (Value.text text).same value = true → value = .text text := by
    intro value text hsame
    cases value with
    | text found => rw [eq_of_beq hsame]
    | scalar | array | table => cases hsame
  unfold sameIdentity at h
  rw [Bool.and_eq_true, hname, hversion] at h
  exact ⟨htext h.1, htext h.2⟩

theorem sameIdentity_of_text {record other : Record α} {name version : String} (hname : record.name = .text name)
    (hversion : record.version = .text version) (hothername : other.name = .text name)
    (hotherversion : other.version = .text version) : sameIdentity record other = true := by
  unfold sameIdentity
  rw [hname, hversion, hothername, hotherversion, Value.same, Value.same, beq_self_eq_true, beq_self_eq_true]
  rfl

theorem distinct_iff {records : List (Record α)} :
    distinct records = true ↔ records.Pairwise fun record other => sameIdentity record other = false := by
  induction records with
  | nil => exact ⟨fun _ => List.Pairwise.nil, fun _ => rfl⟩
  | cons record rest ih =>
    rw [distinct, Bool.and_eq_true, ih, List.pairwise_cons, List.all_eq_true]
    simp only [Bool.not_eq_true']

/-- Two records of one identity of strings are the same one. -/
theorem index_unique {records : List (Record α)} (h : distinct records = true) {first second : Nat}
    {record other : Record α} (hrecord : records[first]? = some record) (hother : records[second]? = some other)
    {name version : String} (hname : record.name = .text name) (hversion : record.version = .text version)
    (hothername : other.name = .text name) (hotherversion : other.version = .text version) : first = second := by
  obtain ⟨hfirst, hrecord⟩ := List.getElem?_eq_some_iff.mp hrecord
  obtain ⟨hsecond, hother⟩ := List.getElem?_eq_some_iff.mp hother
  have hpairwise := List.pairwise_iff_getElem.mp (distinct_iff.mp h)
  rcases Nat.lt_trichotomy first second with hlt | heq | hgt
  · have hfalse := hpairwise first second hfirst hsecond hlt
    rw [hrecord, hother, sameIdentity_of_text hname hversion hothername hotherversion] at hfalse
    cases hfalse
  · exact heq
  · have hfalse := hpairwise second first hsecond hfirst hgt
    rw [hrecord, hother, sameIdentity_of_text hothername hotherversion hname hversion] at hfalse
    cases hfalse

/-- A closure that succeeds is that of the names among the records of the lock. -/
theorem closure_ok {snapshot : Snapshot Content} {visited : List Nat} {records : List (Record α)}
    (h : cargoClosure world.toRuntime fuel (snapshot.toml world "Cargo.lock" "Cargo.lock") names =
      some (.ok (visited, records))) :
    lockOf world snapshot = .ok records ∧
      ∀ index, index ∈ visited ↔ Reachable world.toRuntime records names index :=
  cargoClosure_ok h

/-- The record of a package of the Cargo lock. -/
theorem record_of_package {snapshot : Snapshot Content} {records : List (Record α)} {found : List Package}
    {package : Package} (hrecords : lockOf world snapshot = .ok records)
    (hfound : parsed snapshot "Cargo.lock" (cargoPackages world) = .ok found) (hmem : package ∈ found) :
    ∃ (index : Nat) (record : Record α), records[index]? = some record ∧
      record.name = .text package.name ∧ record.version = .text package.version ∧
      ReadsPackage world.toRuntime record.item package := by
  obtain ⟨content, lock, items, hcontent, hlock, hitems, hsteps, -⟩ := lockOf_ok hrecords
  unfold parsed at hfound
  rw [hcontent] at hfound
  obtain ⟨item, hitem, hpackage⟩ := (cargoPackages_ok hlock hitems hfound package).mp hmem
  obtain ⟨entries, rfl, hreads⟩ := readsPackage hpackage
  obtain ⟨record, hrecord, hread⟩ := exists_of_forall₂ hsteps hitem
  obtain ⟨rfl, hname, hversion⟩ := readRecord_ok hread
  obtain ⟨index, hindex⟩ := List.getElem?_of_mem hrecord
  rw [hreads.name, Option.some.injEq] at hname
  rw [hreads.version, Option.some.injEq] at hversion
  exact ⟨index, record, hindex, hname.symm, hversion.symm, hreads⟩

/-- A package whose record is in the other lock as it is, is in the other inventory. -/
theorem package_of_record {snapshot : Snapshot Content} {records : List (Record α)} {found : List Package}
    {package : Package} {record : Record α} {entries : Table α} (hrecords : lockOf world snapshot = .ok records)
    (hfound : parsed snapshot "Cargo.lock" (cargoPackages world) = .ok found) (hmem : record ∈ records)
    (hreads : ReadsPackage world.toRuntime entries package)
    (hsame : (Value.table record.item).same (.table entries) = true) : package ∈ found := by
  obtain ⟨content, lock, items, hcontent, hlock, hitems, hsteps, -⟩ := lockOf_ok hrecords
  unfold parsed at hfound
  rw [hcontent] at hfound
  obtain ⟨item, hitem, hread⟩ := mem_of_forall₂ hsteps hmem
  refine (cargoPackages_ok hlock hitems hfound package).mpr ⟨item, hitem, ?_⟩
  rw [readRecord_table hread]
  exact hreads.again record.item hsame

/-- The index of a new record whose package is not in the old inventory lies in the closure. -/
theorem mem_newClosure {old new : List (Record α)} {oldClosure newClosure : List Nat} {found : List Package}
    {package : Package} {index : Nat} {record : Record α} (hold : lockOf world base = .ok old)
    (hfound : parsed base "Cargo.lock" (cargoPackages world) = .ok found) (hnew : package ∉ found)
    (hdistinct : distinct new = true)
    (hinside : ∀ pair ∈ identityPairs old new, outside old new oldClosure newClosure pair = none)
    (hrecord : new[index]? = some record) (hname : record.name = .text package.name)
    (hversion : record.version = .text package.version)
    (hreads : ReadsPackage world.toRuntime record.item package) : index ∈ newClosure := by
  rcases pair_of_new old hrecord with ⟨position, before, hbefore, hsame⟩ | hpair
  · obtain ⟨hbeforename, hbeforeversion⟩ := sameIdentity_text hname hversion hsame
    obtain ⟨second, hpair, hsecond, hnone⟩ := pair_of_old new hbefore
    cases second with
    | none =>
      rw [hnone rfl record (List.mem_of_getElem? hrecord)] at hsame
      cases hsame
    | some place =>
      obtain ⟨other, hother, hidentity⟩ := hsecond place rfl
      obtain ⟨hothername, hotherversion⟩ := text_sameIdentity hbeforename hbeforeversion hidentity
      obtain rfl := index_unique hdistinct hrecord hother hname hversion hothername hotherversion
      rcases outside_none (hinside _ hpair) with hkept | ⟨-, hclosure⟩
      · obtain ⟨_, kept, hplace, hkeptrecord, hvalue⟩ := sameRecord_some hbefore hkept
        obtain rfl := Option.some.inj hplace
        rw [hrecord, Option.some.injEq] at hkeptrecord
        rw [← hkeptrecord] at hvalue
        exact absurd (package_of_record hold hfound (List.mem_of_getElem? hbefore) hreads hvalue) hnew
      · exact hclosure index rfl
  · rcases outside_none (hinside _ hpair) with hsame | ⟨-, hclosure⟩
    · cases hsame
    · exact hclosure index rfl

/-! ## The exemption -/

/-- A scope that holds is that of first-party versions and their closures exactly when the
strings that differ under a first-party name are versions of dependencies. -/
theorem first_party_exemption_iff (world : World α Content) (base head : Snapshot Content)
    (before after : List Package) (context : DependencyContext) (fuel : Nat) (reason : String)
    (hbefore : packages world base = .ok before) (hafter : packages world head = .ok after)
    (hfiles : ∀ path, path ∉ context.changedPaths → base.file path = head.file path)
    (hscope : firstPartyScope world fuel base head before after (some context) = some (.ok (true, reason))) :
    (CoversClosure world base head before after ∧ ClosuresExact world.toRuntime) ↔ Anchored world base head := by
  obtain ⟨htools, hchanged, hpaths, hisolation⟩ := scope_true hscope
  obtain ⟨names, oldClosure, old, newClosure, new, hnames, htransitions, holdClosure, hnewClosure, hinside⟩ :=
    isolation_true hisolation
  have hexact : ClosuresExact world.toRuntime := fun lock names => cargoClosure_spec world.toRuntime lock names
  constructor
  · rintro ⟨hcovers, -⟩ path before after hmem site first second hpaired hne -
    have hallowed := (hcovers.manifests path before after hmem).allowed_of_paired hpaired hne
    rwa [List.nil_append] at hallowed
  · intro hanchored
    refine ⟨?_, hexact⟩
    obtain ⟨hold, holdmem⟩ := closure_ok holdClosure
    obtain ⟨hnew, hnewmem⟩ := closure_ok hnewClosure
    obtain ⟨oldCargo, _, _, _, _, _, holdCargo, _, _, _, _, holdPackages⟩ := packages_ok hbefore
    obtain ⟨newCargo, _, _, _, _, _, hnewCargo, _⟩ := packages_ok hafter
    obtain ⟨_, _, _, _, _, _, _, hdistinct⟩ := lockOf_ok hnew
    refine ⟨?_, ?_, ?_, ?_⟩
    · intro package hmem hfresh
      have hcargo := cargo_of_introduced hbefore hafter hfiles htools hpaths hnewCargo hmem hfresh
      have hfreshCargo : package ∉ oldCargo := fun hbad => hfresh ((holdPackages package).mpr (Or.inl hbad))
      obtain ⟨index, record, hrecord, hname, hversion, hreads⟩ := record_of_package hnew hnewCargo hcargo
      have hindex := mem_newClosure hold holdCargo hfreshCargo hdistinct hinside hrecord hname hversion hreads
      exact ⟨hreads.ecosystem, new, index, record, hnew, hrecord, hname, hversion,
        mem_closure hanchored hnames ((hnewmem index).mp hindex)⟩
    · refine ⟨old, new, hold, hnew, ?_⟩
      intro index record hrecord hgone
      obtain ⟨second, hpair, hsecond, -⟩ := pair_of_old new hrecord
      rcases outside_none (hinside _ hpair) with hsame | ⟨hclosure, -⟩
      · obtain ⟨position, other, rfl, hother, hvalue⟩ := sameRecord_some hrecord hsame
        obtain ⟨found, hfound, hidentity⟩ := hsecond position rfl
        rw [hother, Option.some.injEq] at hfound
        exact absurd ⟨other, List.mem_of_getElem? hother, hfound ▸ hidentity, hvalue⟩ hgone
      · exact mem_closure hanchored hnames ((holdmem index).mp (hclosure index rfl))
    · exact fun path before after hmem => manifests_of_anchored hanchored hnames hmem
    · exact transition_of_anchored hanchored hchanged hnames htransitions

end

/-! ## Updates of one crate -/

def sampleChecksum : String := String.ofList (List.replicate 64 'a')

def lensRecord (version : String) : Value Unit :=
  .table [("name", .text "compose-lens"), ("version", .text version), ("source", .text cratesSource),
    ("checksum", .text sampleChecksum)]

def lensPackage (version : String) : Package := ⟨.cargo, "compose-lens", version, cratesSource, [sampleChecksum]⟩

/-- Files that are parsed already. -/
def parsedWorld : World Unit (Table Unit) where
  wording := Misuse.typeName
  toml := Except.ok
  npm := fun _ => .ok []
  uv := fun _ => .ok []
  declarations := fun _ => .ok []
  strings := id
  strings_perm := List.Perm.refl
  identities := id
  identities_perm := List.Perm.refl

def sampleTree (manifest : Table Unit) (version : String) : Snapshot (Table Unit) :=
  ⟨[("Cargo.toml", manifest), ("Cargo.lock", [("package", .array [lensRecord version])])]⟩

/-- `[workspace.dependencies]` with one version. -/
def sharedVersion (version : String) : Table Unit :=
  [("workspace", .table [("dependencies", .table [("compose-lens", .text version)])])]

/-- `[package.metadata.dependencies]` with one string. -/
def metadataString (text : String) : Table Unit :=
  [("package", .table [("metadata", .table [("dependencies", .table [("compose-lens", .text text)])])])]

def sampleContext : DependencyContext where
  repository := "Strukturpiloten/boxferry"
  actorLogin := "renovate[bot]"
  actorType := "Bot"
  baseRevision := String.ofList (List.replicate 40 'a')
  headRevision := String.ofList (List.replicate 40 'b')
  changedPaths := ["Cargo.toml", "Cargo.lock"]

theorem sampleTree_file (manifest other : Table Unit) (version next path : String)
    (h : path ∉ sampleContext.changedPaths) :
    (sampleTree manifest version).file path = (sampleTree other next).file path := by
  have hnone : ∀ manifest version, (sampleTree manifest version).file path = none := by
    intro manifest version
    refine List.lookup_eq_none_iff.mpr ?_
    rintro entry hentry
    rw [bne_iff_ne]
    rintro rfl
    rcases List.mem_cons.mp hentry with rfl | hentry
    · exact h List.mem_cons_self
    · rw [List.mem_singleton.mp hentry] at h
      exact h (List.mem_cons_of_mem _ List.mem_cons_self)
  rw [hnone manifest version, hnone other next]

theorem sampleTree_manifests (manifest : Table Unit) (version : String) :
    manifests parsedWorld (sampleTree manifest version) = .ok [("Cargo.toml", manifest)] := by
  have hcrates : ["Cargo.toml", "Cargo.lock"].filter isCrateManifest = [] := by decide
  have hpaths : manifestPaths (sampleTree manifest version) = ["Cargo.toml"] := congrArg (["Cargo.toml"] ++ ·) hcrates
  unfold manifests
  rw [hpaths]
  rfl

theorem paired_singleton {α : Type} {key : String} {value other first second : Value α} {site : List String}
    (h : Paired (.table [(key, value)]) (.table [(key, other)]) site first second) :
    site = [] ∧ first = .table [(key, value)] ∨ ∃ rest, site = key :: rest ∧ Paired value other rest first second := by
  cases h with
  | here => exact Or.inl ⟨rfl, rfl⟩
  | under hentry hother hpaired =>
    obtain ⟨rfl, rfl⟩ := Prod.mk.inj (List.mem_singleton.mp hentry)
    refine Or.inr ⟨_, rfl, ?_⟩
    unfold Table.get at hother
    rw [List.lookup_cons, beq_self_eq_true] at hother
    exact Option.some.inj hother ▸ hpaired

theorem stands_singleton {α : Type} {key step : String} {value found : Value α} {site : List String}
    (h : Stands (.table [(key, value)]) (step :: site) found) : Stands value site found := by
  cases h with
  | under hentry hfound =>
    obtain ⟨rfl, rfl⟩ := Prod.mk.inj (List.mem_singleton.mp hentry)
    exact hfound

/-- The one string of the workspace that can differ is a version. -/
theorem sharedVersion_anchored (version next : String) :
    Anchored parsedWorld (sampleTree (sharedVersion version) version) (sampleTree (sharedVersion next) next) := by
  intro path before after hmem site old new hpaired hne _
  obtain ⟨olds, news, holds, hnews, hold, hnew, -⟩ := mem_changes hmem
  rw [sampleTree_manifests, Except.ok.injEq] at holds hnews
  subst holds hnews
  obtain ⟨rfl, rfl⟩ := Prod.mk.inj (List.mem_singleton.mp hold)
  obtain rfl : sharedVersion next = after := Option.some.inj hnew
  rcases paired_singleton hpaired with ⟨-, hbad⟩ | ⟨_, rfl, hworkspace⟩
  · cases hbad
  rcases paired_singleton hworkspace with ⟨-, hbad⟩ | ⟨_, rfl, hsection⟩
  · cases hbad
  rcases paired_singleton hsection with ⟨-, hbad⟩ | ⟨_, rfl, hversion⟩
  · cases hbad
  cases hversion
  refine ⟨"compose-lens", by decide, ["workspace", "dependencies"], Or.inr (Or.inl rfl), Or.inl rfl, ?_⟩
  intro package hstands
  have hleaf := stands_singleton (stands_singleton (stands_singleton hstands))
  cases hleaf

/-- An update of a shared version covers nothing but the closure of its crate. -/
theorem first_party_exemption_shared :
    CoversClosure parsedWorld (sampleTree (sharedVersion "1.0.0") "1.0.0") (sampleTree (sharedVersion "1.1.0") "1.1.0")
        [lensPackage "1.0.0"] [lensPackage "1.1.0"] ∧ ClosuresExact parsedWorld.toRuntime :=
  (first_party_exemption_iff parsedWorld (sampleTree (sharedVersion "1.0.0") "1.0.0")
    (sampleTree (sharedVersion "1.1.0") "1.1.0") [lensPackage "1.0.0"] [lensPackage "1.1.0"] sampleContext 9
    "isolated first-party crates.io update and its dependency closure" rfl rfl
    (sampleTree_file _ _ _ _) rfl).mpr (sharedVersion_anchored "1.0.0" "1.1.0")

/-- A string of the metadata is no version of a dependency. -/
theorem metadata_string_exempt :
    firstPartyScope parsedWorld 9 (sampleTree (metadataString "1.0.0") "1.0.0")
        (sampleTree (metadataString "1.1.0") "1.1.0") [lensPackage "1.0.0"] [lensPackage "1.1.0"]
        (some sampleContext) =
      some (.ok (true, "isolated first-party crates.io update and its dependency closure")) ∧
    packages parsedWorld (sampleTree (metadataString "1.0.0") "1.0.0") = .ok [lensPackage "1.0.0"] ∧
    packages parsedWorld (sampleTree (metadataString "1.1.0") "1.1.0") = .ok [lensPackage "1.1.0"] ∧
    (∀ path, path ∉ sampleContext.changedPaths → (sampleTree (metadataString "1.0.0") "1.0.0").file path =
      (sampleTree (metadataString "1.1.0") "1.1.0").file path) ∧
    ¬ CoversClosure parsedWorld (sampleTree (metadataString "1.0.0") "1.0.0")
        (sampleTree (metadataString "1.1.0") "1.1.0") [lensPackage "1.0.0"] [lensPackage "1.1.0"] := by
  refine ⟨rfl, rfl, rfl, sampleTree_file _ _ _ _, fun hcovers => ?_⟩
  have honly := hcovers.manifests "Cargo.toml" (metadataString "1.0.0") (metadataString "1.1.0") List.mem_cons_self
  have hpaired : Paired (.table (metadataString "1.0.0")) (.table (metadataString "1.1.0"))
      ["package", "metadata", "dependencies", "compose-lens"] (.text "1.0.0") (.text "1.1.0") :=
    .under List.mem_cons_self rfl (.under List.mem_cons_self rfl (.under List.mem_cons_self rfl
      (.under List.mem_cons_self rfl (.here _ _))))
  obtain ⟨name, -, table, htable, hsite, -⟩ := honly.allowed_of_paired hpaired (by decide)
  have hshape : ∀ name : String, table ++ [name] ≠ ["package", "metadata", "dependencies", "compose-lens"] := by
    intro name heq
    rcases htable with ⟨kind, -, rfl⟩ | rfl | ⟨target, kind, -, rfl⟩
    · simp at heq
    · simp at heq
    · simp at heq
  rcases hsite with heq | heq
  · exact hshape name heq.symm
  · have hlast := congrArg List.getLast? heq
    simp at hlast

end Boxferry.Automation.FirstParty
