import Boxferry.Automation.Operational
import Boxferry.Library.Results
import Mathlib.Data.List.Perm.Basic
import Mathlib.Data.Set.List

/-! # Feature sources

The sources of Dev Container features, and what is checked of the lock entry of one source
without a look at the others. -/
namespace Boxferry.Automation.FeatureLocks
open Results Operational
set_option autoImplicit false

/-! ## References -/

def isRegistryChar (ch : Char) : Bool := ch.isDigit || ch.isLower || ch = '.' || ch = '-'

def isRepositoryChar (ch : Char) : Bool := isRegistryChar ch || ch = '_' || ch = '/'

/-- `[A-Za-z0-9_][A-Za-z0-9_.-]{0,127}` -/
def isTag : List Char → Bool
  | [] => false
  | first :: rest =>
    (first.isAlphanum || first = '_') && decide (rest.length ≤ 127) &&
      rest.all fun ch => ch.isAlphanum || ch = '_' || ch = '.' || ch = '-'

/-- The registry, the name up to the first `:` or `@`, and what follows the name. -/
def splitReference (text : List Char) : Option (List Char × List Char × List Char) :=
  let registry := text.takeWhile (· ≠ '/')
  match text.drop registry.length with
  | '/' :: rest =>
    let name := rest.takeWhile fun ch => ch ≠ ':' && ch ≠ '@'
    if registry ≠ [] && registry.all isRegistryChar && name ≠ [] && name.all isRepositoryChar then
      some (registry, name, rest.drop name.length)
    else none
  | _ => none

/-- `FEATURE_REF` -/
def featureRef (source : String) : Option (String × String × String) :=
  match splitReference source.toList with
  | some (registry, name, ':' :: version) =>
    if isTag version then some (String.ofList registry, String.ofList name, String.ofList version) else none
  | _ => none

/-- `REF`: the registry, the name, the version when there is one, and the digest. -/
def imageRef (value : String) : Option (String × String × Option String × String) :=
  match splitReference value.toList with
  | some (registry, name, '@' :: digest) =>
    if isDigest (String.ofList digest) then
      some (String.ofList registry, String.ofList name, none, String.ofList digest)
    else none
  | some (registry, name, ':' :: rest) =>
    let version := rest.takeWhile (· ≠ '@')
    match rest.drop version.length with
    | '@' :: digest =>
      if isTag version && isDigest (String.ofList digest) then
        some (String.ofList registry, String.ofList name, some (String.ofList version), String.ofList digest)
      else none
    | _ => none
  | _ => none

def hasDotPart (path : String) : Bool :=
  (path.toList.splitOn '/').any fun part => part = [] || part = ['.'] || part = ['.', '.']

/-- `_ref` -/
def refPin (value path : String) (line : Nat) : Except String Pin :=
  match imageRef value with
  | some (registry, name, version, digest) =>
    if hasDotPart name then .error "image needs a canonical repository and SHA-256 manifest"
    else .ok ⟨.oci, registry, name, digest, version.getD "", path, line⟩
  | none => .error "image needs a canonical repository and SHA-256 manifest"

/-! ## Versions -/

/-- `0|[1-9][0-9]*` -/
def isPlainNumber (part : List Char) : Bool :=
  part ≠ [] && part.all Char.isDigit && (part = ['0'] || part.head? ≠ some '0')

def parts (version : String) : List (List Char) := version.toList.splitOn '.'

/-- A major, minor or exact version. -/
def isSelector (version : String) : Bool := decide ((parts version).length ≤ 3) && (parts version).all isPlainNumber

/-- `[0-9]+\.[0-9]+\.[0-9]+` -/
def isExact (version : String) : Bool :=
  (parts version).length = 3 && (parts version).all fun part => part ≠ [] && part.all Char.isDigit

def isSemantic (version : String) : Bool := (parts version).length = 3 && (parts version).all isPlainNumber

/-! ## Sources -/

/-- `_feature_source`: the identity, and the selector or exact digest. -/
def featureSource (source : String) : Except String (String × String) := do
  let found ← match featureRef source with
    | some (registry, name, selector) =>
      if isSelector selector then .ok (registry ++ "/" ++ name, selector)
      else .error "feature selector needs a numeric major, minor or exact version"
    | none => do
      let pin ← refPin source featureLock 1
      if pin.version ≠ "" then .error "feature source cannot combine a tag and digest"
      else .ok (pin.source ++ "/" ++ pin.name, pin.digest)
  if ¬ "ghcr.io/".toList.isPrefixOf found.1.toList ∨ hasDotPart found.1 then
    .error "feature source is outside the reviewed public OCI registry"
  else .ok found

def isDigestSelector (selector : String) : Bool := "sha256:".toList.isPrefixOf selector.toList

/-! ## Lock entries -/

abbrev Pairs := List (String × Json)

def keysOf (pairs : Pairs) : List String := pairs.map Prod.fst

def sameMembers (left right : List String) : Bool :=
  left.all (fun name => right.contains name) && right.all fun name => left.contains name

def hasKeys (pairs : Pairs) (keys : List String) : Bool := sameMembers (keysOf pairs) keys

/-- The pairs of a lock entry that is an object with the fields of the official grammar. -/
def lockPairs : Option Json → Except String Pairs
  | some (.object pairs) =>
    if hasKeys pairs ["version", "resolved", "integrity"]
        ∨ hasKeys pairs ["version", "resolved", "integrity", "dependsOn"] then .ok pairs
    else .error "feature lock fields differ from official graph grammar"
  | _ => .error "changed feature requires its committed immutable feature lock"

/-- The text of the `KeyError` of a dictionary. -/
def missingKey (key : String) : String := "'" ++ key ++ "'"

def lockVersion (pairs : Pairs) : Except String String :=
  match Json.last? pairs "version" with
  | some (.str version) =>
    if isSemantic version then .ok version else .error "feature lock needs an exact semantic version"
  | some _ => .error "feature lock needs an exact semantic version"
  | none => .error (missingKey "version")

def lockPin (pairs : Pairs) : Except String Pin :=
  match Json.last? pairs "resolved" with
  | some (.str resolved) => refPin resolved featureLock 1
  | some value => .error ("expected string or bytes-like object, got '" ++ value.typeName ++ "'")
  | none => .error (missingKey "resolved")

/-- The version, the source and the integrity agree with the manifest that the entry resolves to. -/
def agrees (identity selector version : String) (integrity : Json) (pin : Pin) : Bool :=
  pin.version = "" && identity = pin.source ++ "/" ++ pin.name && integrity.isText pin.digest &&
    if isDigestSelector selector then selector = pin.digest
    else (parts version).take (parts selector).length = parts selector

def lockAgrees (found : String × String) (pairs : Pairs) (version : String) (pin : Pin) : Except String Unit :=
  match Json.last? pairs "integrity" with
  | some integrity =>
    if agrees found.1 found.2 version integrity pin then .ok ()
    else .error "feature version, source and lock integrity disagree"
  | none => .error (missingKey "integrity")

def strings : List Json → Option (List String)
  | [] => some []
  | .str text :: rest => (strings rest).map (text :: ·)
  | _ :: _ => none

/-- The sources that a lock entry depends on. -/
def lockDependencies (pairs : Pairs) : Except String (List String) :=
  match (Json.last? pairs "dependsOn").getD (.array []) with
  | .array items =>
    match strings items with
    | some dependencies =>
      if dependencies.Nodup ∧ dependencies.length ≤ maxFiles then .ok dependencies
      else .error "feature lock dependencies must be bounded unique source IDs"
    | none => .error "feature lock dependencies must be bounded unique source IDs"
  | _ => .error "feature lock dependencies must be bounded unique source IDs"

def declaredExact (isDeclared : Bool) (selector : String) : Except String Unit :=
  if isDeclared ∧ ¬ isExact selector then .error "feature declaration needs exact canonical version" else .ok ()

/-- The checks of one source and its lock entry, with the pin and the sources it depends on. -/
def checkSource (source : String) (isDeclared : Bool) (entry : Option Json) :
    Except String (Pin × List String) := do
  let found ← featureSource source
  declaredExact isDeclared found.2
  let pairs ← lockPairs entry
  let version ← lockVersion pairs
  let pin ← lockPin pairs
  lockAgrees found pairs version pin
  let dependencies ← lockDependencies pairs
  return ({ pin with version := version }, dependencies)

/-! ## What a lock entry has to be -/

/-- The lock entry of a source passes the checks that look at no other source. -/
inductive LocallyValid (source : String) (isDeclared : Bool) : Option Json → Pin → List String → Prop where
  | entry {identity selector version resolved : String} {integrity : Json} {pairs : Pairs} {pin : Pin}
      {dependencies : List String} (hsource : featureSource source = .ok (identity, selector))
      (hexact : isDeclared = true → isExact selector = true)
      (hkeys : hasKeys pairs ["version", "resolved", "integrity"] = true ∨
        hasKeys pairs ["version", "resolved", "integrity", "dependsOn"] = true)
      (hversion : Json.last? pairs "version" = some (.str version)) (hsemantic : isSemantic version = true)
      (hresolved : Json.last? pairs "resolved" = some (.str resolved)) (hpin : refPin resolved featureLock 1 = .ok pin)
      (hintegrity : Json.last? pairs "integrity" = some integrity)
      (hagrees : agrees identity selector version integrity pin = true)
      (hdepends : (Json.last? pairs "dependsOn").getD (.array []) = .array (dependencies.map Json.str))
      (hnodup : dependencies.Nodup) (hbound : dependencies.length ≤ maxFiles) :
      LocallyValid source isDeclared (some (.object pairs)) { pin with version := version } dependencies

/-- A value of a lock entry in both revisions; the items of an array may stand in another order. -/
inductive Shuffled : Option Json → Option Json → Prop where
  | same (value : Option Json) : Shuffled value value
  | items {first second : List Json} (h : first.Perm second) : Shuffled (some (.array first)) (some (.array second))

/-- Two lock entries with the same values, in whatever order they and their dependencies stand. -/
inductive SameEntry : Option Json → Option Json → Prop where
  | same (entry : Option Json) : SameEntry entry entry
  | entry {first second : Pairs} (hsame : ∀ key, key ≠ "dependsOn" → Json.last? first key = Json.last? second key)
      (hdepends : Shuffled (Json.last? first "dependsOn") (Json.last? second "dependsOn")) :
      SameEntry (some (.object first)) (some (.object second))

section
variable {source identity selector version : String} {isDeclared : Bool} {pairs : Pairs} {pin : Pin} {entry : Option Json}
  {dependencies : List String}

theorem strings_eq_some {items : List Json} : strings items = some dependencies ↔ items = dependencies.map Json.str := by
  induction items generalizing dependencies with
  | nil =>
    rw [strings, Option.some.injEq, eq_comm (a := []), eq_comm (a := []), List.map_eq_nil_iff]
  | cons item rest ih =>
    cases item with
    | str text =>
      rw [strings, Option.map_eq_some_iff]
      constructor
      · rintro ⟨others, hothers, rfl⟩
        rw [List.map_cons, ih.mp hothers]
      · intro h
        cases dependencies with
        | nil => cases h
        | cons first others =>
          rw [List.map_cons, List.cons.injEq, Json.str.injEq] at h
          exact ⟨others, ih.mpr h.2, by rw [h.1]⟩
    | _ =>
      constructor
      · intro h
        cases h
      · intro h
        cases dependencies with
        | nil => cases h
        | cons first others => cases (List.cons.inj h).1

theorem lockPairs_eq_ok : lockPairs entry = .ok pairs ↔ entry = some (.object pairs) ∧
    (hasKeys pairs ["version", "resolved", "integrity"] = true ∨
      hasKeys pairs ["version", "resolved", "integrity", "dependsOn"] = true) := by
  constructor
  · intro h
    unfold lockPairs at h
    split at h
    · next found =>
      rw [accept_eq_ok] at h
      obtain ⟨hkeys, rfl⟩ := h
      exact ⟨rfl, hkeys⟩
    · cases h
  · rintro ⟨rfl, hkeys⟩
    exact if_pos hkeys

theorem lockVersion_eq_ok : lockVersion pairs = .ok version ↔
    Json.last? pairs "version" = some (.str version) ∧ isSemantic version = true := by
  constructor
  · intro h
    unfold lockVersion at h
    split at h
    · next found hfound =>
      rw [accept_eq_ok] at h
      obtain ⟨hsemantic, rfl⟩ := h
      exact ⟨hfound, hsemantic⟩
    · cases h
    · cases h
  · rintro ⟨hversion, hsemantic⟩
    unfold lockVersion
    rw [hversion]
    exact if_pos hsemantic

theorem lockPin_eq_ok : lockPin pairs = .ok pin ↔
    ∃ resolved, Json.last? pairs "resolved" = some (.str resolved) ∧ refPin resolved featureLock 1 = .ok pin := by
  constructor
  · intro h
    unfold lockPin at h
    split at h
    · next resolved hresolved => exact ⟨resolved, hresolved, h⟩
    · cases h
    · cases h
  · rintro ⟨resolved, hresolved, hpin⟩
    unfold lockPin
    rw [hresolved]
    exact hpin

theorem lockAgrees_eq_ok {found : String × String} : lockAgrees found pairs version pin = .ok () ↔
    ∃ integrity, Json.last? pairs "integrity" = some integrity ∧
      agrees found.1 found.2 version integrity pin = true := by
  constructor
  · intro h
    unfold lockAgrees at h
    split at h
    · next integrity hintegrity => exact ⟨integrity, hintegrity, (accept_eq_ok.mp h).1⟩
    · cases h
  · rintro ⟨integrity, hintegrity, hagrees⟩
    unfold lockAgrees
    rw [hintegrity]
    exact if_pos hagrees

theorem lockDependencies_eq_ok : lockDependencies pairs = .ok dependencies ↔
    (Json.last? pairs "dependsOn").getD (.array []) = .array (dependencies.map Json.str) ∧
      dependencies.Nodup ∧ dependencies.length ≤ maxFiles := by
  constructor
  · intro h
    unfold lockDependencies at h
    split at h
    · next items hitems =>
      split at h
      · next found hfound =>
        rw [accept_eq_ok] at h
        obtain ⟨⟨hnodup, hbound⟩, rfl⟩ := h
        exact ⟨by rw [hitems, strings_eq_some.mp hfound], hnodup, hbound⟩
      · cases h
    · cases h
  · rintro ⟨hitems, hnodup, hbound⟩
    unfold lockDependencies
    rw [hitems]
    simp only [strings_eq_some.mpr rfl]
    exact if_pos ⟨hnodup, hbound⟩

theorem declaredExact_eq_ok : declaredExact isDeclared selector = .ok () ↔
    (isDeclared = true → isExact selector = true) := by
  unfold declaredExact
  rw [guard_eq_ok]
  simp

theorem checkSource_eq_ok :
    checkSource source isDeclared entry = .ok (pin, dependencies) ↔ LocallyValid source isDeclared entry pin dependencies := by
  constructor
  · intro h
    obtain ⟨⟨identity, selector⟩, hsource, h⟩ := bind_eq_ok.mp h
    obtain ⟨_, hexact, h⟩ := bind_eq_ok.mp h
    obtain ⟨pairs, hpairs, h⟩ := bind_eq_ok.mp h
    obtain ⟨version, hversion, h⟩ := bind_eq_ok.mp h
    obtain ⟨found, hfound, h⟩ := bind_eq_ok.mp h
    obtain ⟨_, hagrees, h⟩ := bind_eq_ok.mp h
    obtain ⟨others, hothers, h⟩ := bind_eq_ok.mp h
    obtain ⟨rfl, rfl⟩ := Prod.mk.inj (Except.ok.inj h)
    obtain ⟨rfl, hkeys⟩ := lockPairs_eq_ok.mp hpairs
    obtain ⟨hversion, hsemantic⟩ := lockVersion_eq_ok.mp hversion
    obtain ⟨resolved, hresolved, hpin⟩ := lockPin_eq_ok.mp hfound
    obtain ⟨integrity, hintegrity, hagrees⟩ := lockAgrees_eq_ok.mp hagrees
    obtain ⟨hdepends, hnodup, hbound⟩ := lockDependencies_eq_ok.mp hothers
    exact .entry hsource (declaredExact_eq_ok.mp hexact) hkeys hversion hsemantic hresolved hpin hintegrity hagrees
      hdepends hnodup hbound
  · intro h
    cases h with
    | entry hsource hexact hkeys hversion hsemantic hresolved hpin hintegrity hagrees hdepends hnodup hbound =>
      unfold checkSource
      rw [hsource]
      refine bind_eq_ok.mpr ⟨_, rfl, bind_eq_ok.mpr ⟨(), declaredExact_eq_ok.mpr hexact, ?_⟩⟩
      refine bind_eq_ok.mpr ⟨_, lockPairs_eq_ok.mpr ⟨rfl, hkeys⟩, ?_⟩
      refine bind_eq_ok.mpr ⟨_, lockVersion_eq_ok.mpr ⟨hversion, hsemantic⟩, ?_⟩
      refine bind_eq_ok.mpr ⟨_, lockPin_eq_ok.mpr ⟨_, hresolved, hpin⟩, ?_⟩
      refine bind_eq_ok.mpr ⟨(), lockAgrees_eq_ok.mpr ⟨_, hintegrity, hagrees⟩, ?_⟩
      exact bind_eq_ok.mpr ⟨_, lockDependencies_eq_ok.mpr ⟨hdepends, hnodup, hbound⟩, rfl⟩

/-! ## Another order -/

theorem sameMembers_iff {left right : List String} :
    sameMembers left right = true ↔ ∀ name, name ∈ left ↔ name ∈ right := by
  unfold sameMembers
  rw [Bool.and_eq_true, List.all_eq_true, List.all_eq_true]
  simp only [List.contains_iff_mem]
  exact ⟨fun h name => ⟨h.1 name, h.2 name⟩, fun h => ⟨fun name => (h name).mp, fun name => (h name).mpr⟩⟩

theorem mem_keysOf_iff {key : String} : key ∈ keysOf pairs ↔ ∃ value, Json.last? pairs key = some value := by
  unfold keysOf Json.last?
  rw [← Option.isSome_iff_exists, List.lookup_isSome_iff, List.mem_map]
  constructor
  · rintro ⟨pair, hpair, rfl⟩
    exact ⟨pair, List.mem_reverse.mpr hpair, beq_self_eq_true _⟩
  · rintro ⟨pair, hpair, hkey⟩
    exact ⟨pair, List.mem_reverse.mp hpair, (eq_of_beq hkey).symm⟩

theorem Shuffled.symm {first second : Option Json} (h : Shuffled first second) : Shuffled second first := by
  cases h with
  | same => exact .same _
  | items h => exact .items h.symm

theorem SameEntry.symm {other : Option Json} (h : SameEntry entry other) : SameEntry other entry := by
  cases h with
  | same => exact .same _
  | entry hsame hdepends => exact .entry (fun key hkey => (hsame key hkey).symm) hdepends.symm

theorem Shuffled.isSome {first second : Option Json} (h : Shuffled first second) :
    (∃ value, first = some value) ↔ ∃ value, second = some value := by
  cases h with
  | same => exact Iff.rfl
  | items => exact ⟨fun _ => ⟨_, rfl⟩, fun _ => ⟨_, rfl⟩⟩

theorem Shuffled.strings {first second : Option Json} (h : Shuffled first second)
    (hfirst : first.getD (.array []) = .array (dependencies.map Json.str)) :
    ∃ others, dependencies.Perm others ∧ second.getD (.array []) = .array (others.map Json.str) := by
  cases h with
  | same => exact ⟨dependencies, List.Perm.refl _, hfirst⟩
  | @items _ second h =>
    obtain rfl := Json.array.inj hfirst
    have hrange : second ∈ Set.range (List.map Json.str) := by
      rw [Set.range_list_map]
      intro item hitem
      obtain ⟨text, -, hitem⟩ := List.mem_map.mp (h.mem_iff.mpr hitem)
      exact ⟨text, hitem⟩
    obtain ⟨others, rfl⟩ := hrange
    exact ⟨others, (List.map_perm_map_iff fun _ _ => Json.str.inj).mp h, rfl⟩

theorem SameEntry.keys {first second : Pairs}
    (hsame : ∀ key, key ≠ "dependsOn" → Json.last? first key = Json.last? second key)
    (hdepends : Shuffled (Json.last? first "dependsOn") (Json.last? second "dependsOn")) (keys : List String) :
    hasKeys first keys = hasKeys second keys := by
  have hmem : ∀ key, key ∈ keysOf first ↔ key ∈ keysOf second := by
    intro key
    rw [mem_keysOf_iff, mem_keysOf_iff]
    by_cases hkey : key = "dependsOn"
    · rw [hkey]
      exact hdepends.isSome
    · rw [hsame key hkey]
  unfold hasKeys
  rw [Bool.eq_iff_iff, sameMembers_iff, sameMembers_iff]
  exact forall_congr' fun key => by rw [hmem key]

/-- A lock entry in another order passes the same checks, with its dependencies in another order. -/
theorem LocallyValid.reordered {other : Option Json} (h : LocallyValid source isDeclared entry pin dependencies)
    (hsame : SameEntry entry other) :
    ∃ others, dependencies.Perm others ∧ LocallyValid source isDeclared other pin others := by
  cases hsame with
  | same entry => exact ⟨dependencies, List.Perm.refl _, h⟩
  | @entry first second hsame hdepends =>
    cases h with
    | entry hsource hexact hkeys hversion hsemantic hresolved hpin hintegrity hagrees hitems hnodup hbound =>
      obtain ⟨others, hperm, hothers⟩ := hdepends.strings hitems
      rw [SameEntry.keys hsame hdepends, SameEntry.keys hsame hdepends] at hkeys
      rw [hsame "version" (by decide)] at hversion
      rw [hsame "resolved" (by decide)] at hresolved
      rw [hsame "integrity" (by decide)] at hintegrity
      exact ⟨others, hperm, .entry hsource hexact hkeys hversion hsemantic hresolved hpin hintegrity hagrees hothers
        (hperm.nodup_iff.mp hnodup) (hperm.length_eq ▸ hbound)⟩

end

end Boxferry.Automation.FeatureLocks
