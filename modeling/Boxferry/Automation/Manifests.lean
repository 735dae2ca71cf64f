import Boxferry.Automation.Evidence
import Boxferry.Library.Results

/-! # Manifest updates

The difference of two parsed Cargo manifests: it is refused unless all of it is in the
version strings of named dependencies. -/
namespace Boxferry.Automation.FirstParty
open Results
set_option autoImplicit false

/-! ## Parsed documents -/

/-- A parsed TOML value. The scalars other than strings are numbers, booleans and times. -/
inductive Value (α : Type) where
  | text (value : String)
  | scalar (value : α)
  | array (values : List (Value α))
  | table (entries : List (String × Value α))

abbrev Table (α : Type) := List (String × Value α)

section
variable {α : Type}

/-- `dict.get`. -/
def Table.get (table : Table α) (key : String) : Option (Value α) := table.lookup key

def Table.keys (table : Table α) : List String := table.map Prod.fst

/-- `before.keys() == after.keys()`. -/
def sameKeys (before after : Table α) : Bool :=
  before.keys.all (fun key => after.keys.contains key) && after.keys.all fun key => before.keys.contains key

variable [BEq α]

mutual
/-- The equality of two parsed values; numbers and booleans compare by their own equality. -/
def Value.same : Value α → Value α → Bool
  | .text before, .text after => before == after
  | .scalar before, .scalar after => before == after
  | .array before, .array after => sameItems before after
  | .table before, .table after => sameKeys before after && sameEntries before after
  | _, _ => false

def sameItems : List (Value α) → List (Value α) → Bool
  | [], [] => true
  | before :: rest, after :: others => before.same after && sameItems rest others
  | _, _ => false

/-- Each entry has an equal one under its key in the other table. -/
def sameEntries : List (String × Value α) → Table α → Bool
  | [], _ => true
  | (key, before) :: rest, after =>
    (match after.get key with
      | some value => before.same value
      | none => false) && sameEntries rest after
end

/-! ## The difference -/

/-- The failures of the check: its own, and the ones the runtime raises for it. -/
structure Failure where
  typeName : String
  text : String
  /-- Its class is among those that the scope check catches. -/
  caught : Bool
deriving DecidableEq

def dependencyError (text : String) : Failure := ⟨"DependencyError", text, true⟩

def firstParty : List String :=
  ["boxferry", "boxferry-model", "boxferry-engine", "boxferry-compose", "boxferry-podman",
    "boxferry-quadlet", "compose-lens", "podman-lens", "quadlet-lens", "docker-lens", "kubernetes-lens"]

def dependencySections : List String := ["dependencies", "dev-dependencies", "build-dependencies"]

/-- The dependency whose version a path leads to; the last key of the path comes first. -/
def dependencyName : List String → Option String
  | last :: second :: rest =>
    if second ∈ dependencySections then some last
    else if (rest.head?.any fun third => third ∈ dependencySections) && last == "version" then some second
    else none
  | _ => none

def leafUpdate (before after : Value α) (path : List String) : Except Failure (List String) :=
  match dependencyName path with
  | none => .error (dependencyError "first-party scope includes a non-dependency-version manifest change")
  | some name =>
    match before, after with
    | .text _, .text _ =>
      if name ∈ firstParty then .ok [name]
      else .error (dependencyError "first-party scope includes an unrelated dependency change")
    | _, _ => .error (dependencyError "first-party scope includes an unrelated dependency change")

mutual
/-- The dependencies whose versions differ; the path has its last key first. -/
def manifestUpdates : Value α → Value α → List String → Except Failure (List String)
  | .table before, after, path =>
    if (Value.table before).same after then .ok []
    else
      match after with
      | .table entries =>
        if sameKeys before entries then entryUpdates before entries path
        else leafUpdate (.table before) after path
      | _ => leafUpdate (.table before) after path
  | before, after, path => if before.same after then .ok [] else leafUpdate before after path

def entryUpdates : List (String × Value α) → Table α → List String → Except Failure (List String)
  | [], _, _ => .ok []
  | (key, before) :: rest, after, path =>
    (match after.get key with
      | some value => if before.same value then .ok [] else manifestUpdates before value (key :: path)
      | none => .ok []) >>= fun names => do
      let others ← entryUpdates rest after path
      return names ++ others
end

/-! ## Tables -/

omit [BEq α] in
theorem mem_of_get {table : Table α} {key : String} {value : Value α} (h : table.get key = some value) :
    (key, value) ∈ table := by
  induction table with
  | nil => cases h
  | cons entry rest ih =>
    obtain ⟨first, found⟩ := entry
    unfold Table.get at h
    rw [List.lookup_cons] at h
    cases hsame : key == first with
    | true =>
      rw [hsame] at h
      rw [eq_of_beq hsame, ← Option.some.inj h]
      exact List.mem_cons_self
    | false =>
      rw [hsame] at h
      exact List.mem_cons_of_mem _ (ih h)

omit [BEq α] in
theorem get_of_mem_keys {table : Table α} {key : String} (h : key ∈ table.keys) :
    ∃ value, table.get key = some value := by
  induction table with
  | nil => cases h
  | cons entry rest ih =>
    obtain ⟨first, found⟩ := entry
    unfold Table.get
    rw [List.lookup_cons]
    cases hsame : key == first with
    | true => exact ⟨found, rfl⟩
    | false => exact ih ((List.mem_cons.mp h).resolve_left fun heq => by simp [heq] at hsame)

omit [BEq α] in
theorem mem_keys_of_sameKeys {before after : Table α} {key : String} {value : Value α}
    (h : sameKeys before after = true) (hentry : (key, value) ∈ before) : key ∈ after.keys := by
  unfold sameKeys at h
  rw [Bool.and_eq_true, List.all_eq_true] at h
  exact List.contains_iff_mem.mp (h.1 key (List.mem_map.mpr ⟨(key, value), hentry, rfl⟩))

/-! ## Where two documents differ -/

/-- The value stands at the path of the document. -/
inductive Stands : Value α → List String → Value α → Prop
  | here (value : Value α) : Stands value [] value
  | under {entries : Table α} {key : String} {value found : Value α} {path : List String}
      (hentry : (key, value) ∈ entries) (hfound : Stands value path found) :
      Stands (.table entries) (key :: path) found

/-- The two values stand at the same path of two documents. -/
inductive Paired : Value α → Value α → List String → Value α → Value α → Prop
  | here (before after : Value α) : Paired before after [] before after
  | under {before after : Table α} {key : String} {value other first second : Value α} {path : List String}
      (hentry : (key, value) ∈ before) (hother : after.get key = some other)
      (hpaired : Paired value other path first second) :
      Paired (.table before) (.table after) (key :: path) first second

/-- Two documents differ in strings at allowed paths only. -/
inductive OnlyAt (allowed : List String → Prop) : List String → Value α → Value α → Prop
  | same {path : List String} {before after : Value α} (h : before.same after = true) :
      OnlyAt allowed path before after
  | table {path : List String} {before after : Table α} (hkeys : sameKeys before after = true)
      (h : ∀ key value other, (key, value) ∈ before → after.get key = some other →
        OnlyAt allowed (path ++ [key]) value other) :
      OnlyAt allowed path (.table before) (.table after)
  | leaf {path : List String} {before after : String} (h : allowed path) :
      OnlyAt allowed path (.text before) (.text after)

variable {allowed others : List String → Prop} {before after : Value α} {path site names : List String}
  {old new : String}

theorem OnlyAt.mono (himp : ∀ path, allowed path → others path) (h : OnlyAt allowed path before after) :
    OnlyAt others path before after := by
  induction h with
  | same h => exact .same h
  | table hkeys _ ih => exact .table hkeys ih
  | leaf h => exact .leaf (himp _ h)

theorem sameEntries_iff {entries after : Table α} : sameEntries entries after = true ↔
    ∀ key value, (key, value) ∈ entries → ∃ other, after.get key = some other ∧ value.same other = true := by
  induction entries with
  | nil => exact ⟨fun _ _ _ h => absurd h List.not_mem_nil, fun _ => rfl⟩
  | cons entry rest ih =>
    obtain ⟨key, value⟩ := entry
    rw [sameEntries, Bool.and_eq_true, ih]
    constructor
    · rintro ⟨hfirst, hrest⟩ other found hmem
      rcases List.mem_cons.mp hmem with hsame | hmem
      · obtain ⟨rfl, rfl⟩ := Prod.mk.inj hsame
        cases hget : after.get other with
        | none =>
          rw [hget] at hfirst
          cases hfirst
        | some same =>
          rw [hget] at hfirst
          exact ⟨same, rfl, hfirst⟩
      · exact hrest other found hmem
    · intro h
      obtain ⟨other, hget, hsame⟩ := h key value List.mem_cons_self
      rw [hget]
      exact ⟨hsame, fun other found hmem => h other found (List.mem_cons_of_mem _ hmem)⟩

/-- Equal documents hold equal strings. -/
theorem Paired.text_eq {first second : Value α} (h : Paired before after site first second)
    (hsame : before.same after = true) : first.same second = true := by
  induction h with
  | here before after => exact hsame
  | under hentry hother _ ih =>
    rw [Value.same, Bool.and_eq_true] at hsame
    obtain ⟨value, hget, hvalue⟩ := sameEntries_iff.mp hsame.2 _ _ hentry
    rw [hother, Option.some.injEq] at hget
    exact ih (hget ▸ hvalue)

theorem text_of_same (h : (Value.text old : Value α).same (.text new) = true) : old = new := eq_of_beq h

/-- Strings that differ stand at allowed paths. -/
theorem OnlyAt.allowed_of_paired (h : OnlyAt allowed path before after)
    (hpaired : Paired before after site (.text old) (.text new)) (hne : old ≠ new) : allowed (path ++ site) := by
  induction h generalizing site with
  | same hsame => exact absurd (text_of_same (hpaired.text_eq hsame)) hne
  | table _ _ ih =>
    cases hpaired with
    | under hentry hother hpaired =>
      have hallowed := ih _ _ _ hentry hother hpaired
      rwa [List.append_assoc] at hallowed
  | leaf h =>
    cases hpaired
    rwa [List.append_nil]

/-- The differences are at the paths that are allowed where strings differ. -/
theorem OnlyAt.restrict (h : OnlyAt allowed path before after)
    (hothers : ∀ site old new, Paired before after site (.text old) (.text new) → old ≠ new →
      allowed (path ++ site) → others (path ++ site)) : OnlyAt others path before after := by
  induction h with
  | same hsame => exact .same hsame
  | table hkeys _ ih =>
    refine .table hkeys fun key value other hentry hother => ih key value other hentry hother ?_
    intro site old new hpaired hne hallowed
    rw [List.append_assoc] at hallowed ⊢
    exact hothers _ old new (.under hentry hother hpaired) hne hallowed
  | @leaf path before after h =>
    by_cases heq : before = after
    · exact .same (beq_iff_eq.mpr heq)
    · have hleaf := hothers [] before after (.here _ _) heq
      rw [List.append_nil] at hleaf
      exact .leaf (hleaf h)

/-! ## What an update says -/

/-- The path is one of a version string of one of the named first-party dependencies. -/
def VersionOf (names path : List String) : Prop :=
  ∃ name ∈ names, name ∈ firstParty ∧ dependencyName path.reverse = some name

/-- The documents differ in the version strings of the named dependencies, and in all of them. -/
structure Updates (names path : List String) (before after : Value α) : Prop where
  only : OnlyAt (VersionOf names) path before after
  source : ∀ name ∈ names, ∃ site old new, Paired before after site (.text old) (.text new) ∧ old ≠ new ∧
    name ∈ firstParty ∧ dependencyName (path ++ site).reverse = some name
  found : before.same after = false → names ≠ []

theorem updates_same (h : before.same after = true) : Updates [] path before after where
  only := .same h
  source := fun _ hname => absurd hname List.not_mem_nil
  found := fun hne => absurd (h.symm.trans hne) (by simp)

omit [BEq α] in
theorem leafUpdate_spec (h : leafUpdate before after path = .ok names) : ∃ name old new, names = [name] ∧
    name ∈ firstParty ∧ dependencyName path = some name ∧ before = .text old ∧ after = .text new := by
  unfold leafUpdate at h
  cases hname : dependencyName path with
  | none =>
    rw [hname] at h
    cases h
  | some name =>
    rw [hname] at h
    cases before with
    | text old =>
      cases after with
      | text new =>
        obtain ⟨hfirst, rfl⟩ := accept_eq_ok.mp h
        exact ⟨name, old, new, rfl, hfirst, rfl, rfl, rfl⟩
      | scalar | array | table => cases h
    | scalar | array | table => cases h

theorem updates_leaf (hne : before.same after = false) (h : leafUpdate before after path = .ok names) :
    Updates names path.reverse before after := by
  obtain ⟨name, old, new, rfl, hfirst, hname, rfl, rfl⟩ := leafUpdate_spec h
  have hdiffer : old ≠ new := by
    intro hsame
    rw [hsame, Value.same, beq_self_eq_true] at hne
    cases hne
  constructor
  · refine .leaf ⟨name, List.mem_singleton.mpr rfl, hfirst, ?_⟩
    rw [List.reverse_reverse]
    exact hname
  · intro other hother
    rw [List.mem_singleton.mp hother]
    refine ⟨[], old, new, .here _ _, hdiffer, hfirst, ?_⟩
    rw [List.append_nil, List.reverse_reverse]
    exact hname
  · exact fun _ => List.cons_ne_nil _ _

/-- What the entries of a table contribute to the names. -/
structure EntriesUpdate (names path : List String) (entries after : Table α) : Prop where
  each : ∀ key value other, (key, value) ∈ entries → after.get key = some other →
    ∃ part, (∀ name ∈ part, name ∈ names) ∧ Updates part (path ++ [key]) value other
  source : ∀ name ∈ names, ∃ key value other part, (key, value) ∈ entries ∧ after.get key = some other ∧
    name ∈ part ∧ Updates part (path ++ [key]) value other

theorem EntriesUpdate.updates {entries others : Table α} (hkeys : sameKeys entries others = true)
    (h : EntriesUpdate names path entries others) : Updates names path (.table entries) (.table others) := by
  constructor
  · refine .table hkeys fun key value other hentry hother => ?_
    obtain ⟨part, hpart, hupdates⟩ := h.each key value other hentry hother
    refine hupdates.only.mono ?_
    rintro site ⟨name, hname, hversion⟩
    exact ⟨name, hpart name hname, hversion⟩
  · intro name hname
    obtain ⟨key, value, other, part, hentry, hother, hmem, hupdates⟩ := h.source name hname
    obtain ⟨site, old, new, hpaired, hdiffer, hfirst, hsite⟩ := hupdates.source name hmem
    refine ⟨key :: site, old, new, .under hentry hother hpaired, hdiffer, hfirst, ?_⟩
    rw [List.append_assoc] at hsite
    exact hsite
  · intro hne
    rw [Value.same, hkeys, Bool.true_and, Bool.eq_false_iff, ne_eq, sameEntries_iff] at hne
    obtain ⟨key, value, hentry, hvalue⟩ : ∃ key value, (key, value) ∈ entries ∧
        ¬ ∃ other, others.get key = some other ∧ value.same other = true := by
      by_contra hnone
      refine hne fun key value hentry => ?_
      by_contra hvalue
      exact hnone ⟨key, value, hentry, hvalue⟩
    obtain ⟨other, hother⟩ := get_of_mem_keys (mem_keys_of_sameKeys hkeys hentry)
    obtain ⟨part, hpart, hupdates⟩ := h.each key value other hentry hother
    have hdiffer : value.same other = false := by
      rw [Bool.eq_false_iff]
      exact fun hsame => hvalue ⟨other, hother, hsame⟩
    obtain ⟨name, hname⟩ := List.exists_mem_of_ne_nil part (hupdates.found hdiffer)
    exact List.ne_nil_of_mem (hpart name hname)

theorem manifestUpdates_table (entries others : Table α) (path : List String) :
    manifestUpdates (.table entries) (.table others) path =
      if (Value.table entries).same (.table others) then .ok []
      else if sameKeys entries others then entryUpdates entries others path
      else leafUpdate (.table entries) (.table others) path := by
  rw [manifestUpdates]

theorem manifestUpdates_leaf (h : ∀ entries others, before = .table entries → after ≠ .table others)
    (path : List String) :
    manifestUpdates before after path = if before.same after then .ok [] else leafUpdate before after path := by
  cases before with
  | table entries =>
    rw [manifestUpdates]
    exact fun others => h entries others rfl
  | text | scalar | array =>
    rw [manifestUpdates]
    exact fun entries hbad => by cases hbad

theorem updates_of_leaf (hleaf : ∀ entries others, before = .table entries → after ≠ .table others)
    (h : manifestUpdates before after path = .ok names) : Updates names path.reverse before after := by
  rw [manifestUpdates_leaf hleaf] at h
  by_cases hsame : before.same after = true
  · rw [if_pos hsame, Except.ok.injEq] at h
    exact h ▸ updates_same hsame
  · rw [if_neg hsame] at h
    exact updates_leaf (Bool.eq_false_iff.mpr hsame) h

mutual
theorem updates_spec (before after : Value α) (path names : List String)
    (h : manifestUpdates before after path = .ok names) : Updates names path.reverse before after := by
  cases before with
  | table entries =>
    cases after with
    | table others =>
      rw [manifestUpdates_table] at h
      by_cases hsame : (Value.table entries).same (.table others) = true
      · rw [if_pos hsame, Except.ok.injEq] at h
        exact h ▸ updates_same hsame
      · rw [if_neg hsame] at h
        by_cases hkeys : sameKeys entries others = true
        · rw [if_pos hkeys] at h
          exact (entries_spec entries others path names h).updates hkeys
        · rw [if_neg hkeys] at h
          exact updates_leaf (Bool.eq_false_iff.mpr hsame) h
    | text | scalar | array => exact updates_of_leaf (fun _ _ _ hbad => by cases hbad) h
  | text | scalar | array => exact updates_of_leaf (fun _ _ hbad => by cases hbad) h

theorem entries_spec (entries after : Table α) (path names : List String)
    (h : entryUpdates entries after path = .ok names) : EntriesUpdate names path.reverse entries after := by
  cases entries with
  | nil =>
    rw [entryUpdates, Except.ok.injEq] at h
    subst h
    exact ⟨fun _ _ _ h => absurd h List.not_mem_nil, fun _ h => absurd h List.not_mem_nil⟩
  | cons entry rest =>
    obtain ⟨key, before⟩ := entry
    rw [entryUpdates] at h
    obtain ⟨first, hfirst, h⟩ := bind_eq_ok.mp h
    obtain ⟨others, hothers, h⟩ := bind_eq_ok.mp h
    obtain rfl := Except.ok.inj h
    have hrest := entries_spec rest after path others hothers
    have hkey : ∀ other, after.get key = some other → Updates first (path.reverse ++ [key]) before other := by
      intro other hother
      rw [hother] at hfirst
      by_cases hsame : before.same other = true
      · simp only [hsame, if_true, Except.ok.injEq] at hfirst
        exact hfirst ▸ updates_same hsame
      · simp only [hsame] at hfirst
        have hupdates := updates_spec before other (key :: path) first hfirst
        rw [List.reverse_cons] at hupdates
        exact hupdates
    constructor
    · intro found value other hentry hother
      rcases List.mem_cons.mp hentry with hsame | hentry
      · obtain ⟨rfl, rfl⟩ := Prod.mk.inj hsame
        exact ⟨first, fun _ hname => List.mem_append_left _ hname, hkey other hother⟩
      · obtain ⟨part, hpart, hupdates⟩ := hrest.each found value other hentry hother
        exact ⟨part, fun name hname => List.mem_append_right _ (hpart name hname), hupdates⟩
    · intro name hname
      rcases List.mem_append.mp hname with hname | hname
      · cases hother : after.get key with
        | none =>
          rw [hother] at hfirst
          obtain rfl := Except.ok.inj hfirst
          cases hname
        | some other => exact ⟨key, before, other, first, List.mem_cons_self, hother, hname, hkey other hother⟩
      · obtain ⟨found, value, other, part, hentry, hrest⟩ := hrest.source name hname
        exact ⟨found, value, other, part, List.mem_cons_of_mem _ hentry, hrest⟩
end

end
end Boxferry.Automation.FirstParty
