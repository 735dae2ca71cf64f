import Boxferry.Automation.FeatureSources
import Boxferry.Library.Lookup
import Boxferry.Library.Visits
import Mathlib.Data.List.Dedup

/-! # Feature locks

Which Dev Container declarations and feature locks are reported without an error: each source
passes its own checks, and the sources that can be reached from the declared ones are exactly the
locked ones, without a cycle. -/
namespace Boxferry.Automation.FeatureLocks
open Results Operational Relation Worklist Visits
set_option autoImplicit false

/-! ## Documents -/

/-- The files of a snapshot as text, and `json.loads`. -/
structure Reader (Root : Type) where
  read : Root → String → Except Raised (Option String)
  loads : String → Except Raised Json

variable {Root : Type}

/-- `_json` -/
def readPairs (reader : Reader Root) (text : String) : Except Raised Pairs := do
  let value ← reader.loads text
  if ¬ value.distinct then .error (.rejected "duplicate JSON object key in operational evidence")
  else
    match value with
    | .object pairs => .ok pairs
    | _ => .error (.rejected "operational JSON document must be an object")

/-- The declared or locked sources. -/
def sources (declared locked : Pairs) : List String :=
  (keysOf declared ++ keysOf locked).dedup.insertionSort (· ≤ ·)

/-- The declared features and the locked ones. -/
def documents (reader : Reader Root) (root : Root) : Except Raised (Pairs × Pairs) := do
  let declaration ← reader.read root feature
  let lock ← reader.read root featureLock
  let declaration ← declaration.elim (.ok []) (readPairs reader)
  let lock ← lock.elim (.ok [("features", .object [])]) (readPairs reader)
  if ¬ hasKeys lock ["features"] then .error (.rejected "feature lock document has unsupported fields")
  else
    match (Json.last? declaration "features").getD (.object []), Json.last? lock "features" with
    | .object declared, some (.object locked) =>
      if maxFiles < (sources declared locked).length then
        .error (.rejected "feature graph exceeds its node bound")
      else .ok (declared, locked)
    | _, _ => .error (.rejected "Dev Container features and feature lock must be objects")

/-! ## The graph -/

def checkOf (declared locked : Pairs) (source : String) : Except String (Pin × List String) :=
  checkSource source ((keysOf declared).contains source) (Json.last? locked source)

/-- The sources that passed their checks, with their pins and the sources they depend on. -/
def checked (declared locked : Pairs) : List (String × Pin × List String) :=
  (sources declared locked).filterMap fun source =>
    match checkOf declared locked source with
    | .ok found => some (source, found)
    | .error _ => none

def localErrors (declared locked : Pairs) : List (String × String) :=
  (sources declared locked).filterMap fun source =>
    match checkOf declared locked source with
    | .ok _ => none
    | .error text => some (source, text)

def edges (checked : List (String × Pin × List String)) (source : String) : Except String (List String) :=
  match checked.lookup source with
  | some (_, dependencies) => .ok dependencies
  | none => .error ("feature dependency graph node is missing or unsupported: official selector " ++
      "alias collapse needs reviewed identity/options resolution; use explicit " ++
      "distinct dependency IDs until this shape is supported")

/-- The visit of the declared sources; there is no result when it runs out of fuel. -/
def graph (fuel : Nat) (declared locked : Pairs) : Option (Except String Unit) :=
  match visitAll (edges (checked declared locked)) fuel (keysOf declared) with
  | .error .unfinished => none
  | .error (.cycle _) => some (.error "feature dependency graph contains a cycle")
  | .error (.failed text _) => some (.error text)
  | .ok marks =>
    if sameMembers marks.reached (keysOf locked) then some (.ok ())
    else some (.error "feature lock contains an unreachable orphan node")

/-! ## Reports -/

structure Report where
  signatures : List (String × Bool × Option Json × Option Json)
  valid : List (String × Pin)
  errors : List (String × String)

/-- A failure of the graph is that of every source without an error of its own. -/
def allErrors (declared locked : Pairs) : Except String Unit → List (String × String)
  | .ok _ => localErrors declared locked
  | .error text =>
    localErrors declared locked ++
      ((sources declared locked).filter fun source =>
        ((localErrors declared locked).lookup source).isNone).map fun source => (source, text)

def report (declared locked : Pairs) (result : Except String Unit) : Report where
  signatures := (sources declared locked).map fun source =>
    (source, (keysOf declared).contains source, Json.last? declared source, Json.last? locked source)
  valid := (checked declared locked).map fun (source, pin, _) => (source, pin)
  errors := allErrors declared locked result

/-- `_features`; its visit makes at most as many nested calls as the fuel says. -/
def features (reader : Reader Root) (fuel : Nat) (root : Root) : Option (Except Raised Report) :=
  match documents reader root with
  | .error raised => some (.error raised)
  | .ok (declared, locked) => (graph fuel declared locked).map fun result => .ok (report declared locked result)

/-! ## What is accepted -/

/-- The lock entry of the source lists the target. -/
def DependsOn (locked : Pairs) (source target : String) : Prop :=
  ∃ pairs items, Json.last? locked source = some (.object pairs) ∧
    Json.last? pairs "dependsOn" = some (.array items) ∧ .str target ∈ items

/-- The source can be reached from a declared one. -/
def Needed (declared locked : Pairs) (source : String) : Prop :=
  ∃ first ∈ keysOf declared, ReflTransGen (DependsOn locked) first source

/-- The source has a lock entry that passes the checks of its own. -/
def Checked (declared locked : Pairs) (source : String) : Prop :=
  ∃ pin dependencies, LocallyValid source ((keysOf declared).contains source) (Json.last? locked source) pin dependencies

structure Accepted (declared locked : Pairs) : Prop where
  checked : ∀ source, source ∈ keysOf declared ∨ source ∈ keysOf locked → Checked declared locked source
  inside : ∀ source, Needed declared locked source → source ∈ keysOf locked
  acyclic : ∀ source, Needed declared locked source → ¬ TransGen (DependsOn locked) source source
  covered : ∀ source ∈ keysOf locked, Needed declared locked source

/-- The same declared sources and lock entries, in whatever order they and their dependencies stand. -/
structure Reordered (declared locked others entries : Pairs) : Prop where
  declared : ∀ source, source ∈ keysOf declared ↔ source ∈ keysOf others
  locked : ∀ source, SameEntry (Json.last? locked source) (Json.last? entries source)

variable {declared locked others entries : Pairs} {source target : String} {dependencies : List String} {pin : Pin}
  {fuel : Nat} {reader : Reader Root} {root : Root}

/-! ## Edges -/

theorem mem_sources : source ∈ sources declared locked ↔ source ∈ keysOf declared ∨ source ∈ keysOf locked := by
  unfold sources
  rw [List.mem_insertionSort, List.mem_dedup, List.mem_append]

theorem checkOf_eq_ok : checkOf declared locked source = .ok (pin, dependencies) ↔
    LocallyValid source ((keysOf declared).contains source) (Json.last? locked source) pin dependencies :=
  checkSource_eq_ok

theorem mem_checked {entry : String × Pin × List String} :
    entry ∈ checked declared locked ↔
      entry.1 ∈ sources declared locked ∧ checkOf declared locked entry.1 = .ok entry.2 := by
  unfold checked
  rw [List.mem_filterMap]
  constructor
  · rintro ⟨source, hsource, h⟩
    cases hcheck : checkOf declared locked source with
    | error text =>
      rw [hcheck] at h
      cases h
    | ok found =>
      rw [hcheck] at h
      obtain rfl := Option.some.inj h
      exact ⟨hsource, hcheck⟩
  · rintro ⟨hsource, hcheck⟩
    refine ⟨entry.1, hsource, ?_⟩
    rw [hcheck]

theorem locked_of_valid {isDeclared : Bool} (h : LocallyValid source isDeclared (Json.last? locked source) pin dependencies) :
    source ∈ keysOf locked := by
  refine mem_keysOf_iff.mpr ?_
  generalize Json.last? locked source = entry at h
  cases h
  exact ⟨_, rfl⟩

theorem lookup_checked {found : Pin × List String} :
    (checked declared locked).lookup source = some found ↔ checkOf declared locked source = .ok found := by
  constructor
  · intro h
    exact (mem_checked.mp (Lookup.mem_of_lookup h)).2
  · intro hcheck
    have hlocked : source ∈ keysOf locked := locked_of_valid (checkOf_eq_ok.mp hcheck)
    refine Lookup.lookup_of_unique (mem_checked.mpr ⟨mem_sources.mpr (Or.inr hlocked), hcheck⟩) fun other hother => ?_
    have hsame := (mem_checked.mp hother).2
    rw [hcheck, Except.ok.injEq] at hsame
    exact hsame.symm

/-- The edges of a source are those of its lock entry, when it passes its checks. -/
theorem edges_eq_ok : edges (checked declared locked) source = .ok dependencies ↔
    ∃ pin, LocallyValid source ((keysOf declared).contains source) (Json.last? locked source) pin dependencies := by
  unfold edges
  constructor
  · intro h
    cases hfound : (checked declared locked).lookup source with
    | none =>
      rw [hfound] at h
      cases h
    | some found =>
      rw [hfound] at h
      obtain ⟨pin, other⟩ := found
      obtain rfl := Except.ok.inj h
      exact ⟨pin, checkOf_eq_ok.mp (lookup_checked.mp hfound)⟩
  · rintro ⟨pin, h⟩
    rw [lookup_checked.mpr (checkOf_eq_ok.mpr h)]

theorem dependsOn_of_valid {isDeclared : Bool}
    (h : LocallyValid source isDeclared (Json.last? locked source) pin dependencies) :
    DependsOn locked source target ↔ target ∈ dependencies := by
  unfold DependsOn
  generalize Json.last? locked source = entry at h
  cases h with
  | @entry _ _ _ _ _ pairs _ _ _ _ _ _ _ _ _ _ _ hdepends _ _ =>
    have hmem : Json.str target ∈ dependencies.map Json.str ↔ target ∈ dependencies :=
      List.mem_map_of_injective fun _ _ => Json.str.inj
    constructor
    · rintro ⟨other, items, hother, hitems, htarget⟩
      obtain rfl := Json.object.inj (Option.some.inj hother)
      rw [hitems] at hdepends
      rw [Json.array.inj hdepends] at htarget
      exact hmem.mp htarget
    · intro htarget
      cases hitems : Json.last? pairs "dependsOn" with
      | none =>
        rw [hitems] at hdepends
        rw [← hmem, ← Json.array.inj hdepends] at htarget
        cases htarget
      | some value =>
        rw [hitems] at hdepends
        obtain rfl := hdepends
        exact ⟨pairs, _, rfl, hitems, hmem.mpr htarget⟩

theorem edge_iff {targets : List String} (h : edges (checked declared locked) source = .ok targets) :
    Edge (edges (checked declared locked)) source target ↔ DependsOn locked source target := by
  obtain ⟨pin, hvalid⟩ := edges_eq_ok.mp h
  rw [dependsOn_of_valid hvalid]
  constructor
  · rintro ⟨others, hothers, htarget⟩
    rw [h, Except.ok.injEq] at hothers
    exact hothers ▸ htarget
  · exact fun htarget => ⟨targets, h, htarget⟩

theorem dependsOn_of_edge (h : Edge (edges (checked declared locked)) source target) :
    DependsOn locked source target := by
  obtain ⟨targets, htargets, -⟩ := id h
  exact (edge_iff htargets).mp h

theorem needed_of_reached (h : Reached (edges (checked declared locked)) (keysOf declared) source) :
    Needed declared locked source := by
  obtain ⟨first, hfirst, hreach⟩ := h
  exact ⟨first, hfirst, ReflTransGen.mono (fun _ _ => dependsOn_of_edge) _ _ hreach⟩

section
variable (hfollowed : ∀ source, Reached (edges (checked declared locked)) (keysOf declared) source →
  ∃ targets, edges (checked declared locked) source = .ok targets)
include hfollowed

/-- Where every source that is reached can be followed, its lock entry leads to reached sources only. -/
theorem reached_of_dependsOn (hsource : Reached (edges (checked declared locked)) (keysOf declared) source)
    (h : DependsOn locked source target) : Edge (edges (checked declared locked)) source target ∧
      Reached (edges (checked declared locked)) (keysOf declared) target := by
  obtain ⟨targets, htargets⟩ := hfollowed source hsource
  have hedge := (edge_iff htargets).mpr h
  exact ⟨hedge, reached_tail hsource hedge⟩

theorem reached_of_needed (h : Needed declared locked source) :
    Reached (edges (checked declared locked)) (keysOf declared) source := by
  obtain ⟨first, hfirst, hreach⟩ := h
  induction hreach with
  | refl => exact ⟨first, hfirst, ReflTransGen.refl⟩
  | tail _ hstep ih => exact (reached_of_dependsOn hfollowed ih hstep).2

theorem cycle_of_dependsOn (hsource : Reached (edges (checked declared locked)) (keysOf declared) source)
    (h : TransGen (DependsOn locked) source target) :
    TransGen (Edge (edges (checked declared locked))) source target ∧
      Reached (edges (checked declared locked)) (keysOf declared) target := by
  induction h with
  | single hstep =>
    obtain ⟨hedge, htarget⟩ := reached_of_dependsOn hfollowed hsource hstep
    exact ⟨TransGen.single hedge, htarget⟩
  | tail _ hstep ih =>
    obtain ⟨hedge, htarget⟩ := reached_of_dependsOn hfollowed ih.2 hstep
    exact ⟨ih.1.tail hedge, htarget⟩

end

/-! ## The visit -/

theorem length_nodes (h : documents reader root = .ok (declared, locked)) :
    (sources declared locked).length ≤ maxFiles := by
  obtain ⟨_, -, h⟩ := bind_eq_ok.mp h
  obtain ⟨_, -, h⟩ := bind_eq_ok.mp h
  obtain ⟨_, -, h⟩ := bind_eq_ok.mp h
  obtain ⟨_, -, h⟩ := bind_eq_ok.mp h
  rw [guard_eq_ok] at h
  obtain ⟨-, h⟩ := h
  split at h
  · rw [guard_eq_ok] at h
    obtain ⟨hbound, hsame⟩ := h
    obtain ⟨rfl, rfl⟩ := Prod.mk.inj (Except.ok.inj hsame)
    omega
  · cases h

/-- What the visit says of the graph, when its fuel is more than the number of sources. -/
theorem graph_spec (hfuel : (sources declared locked).length < fuel) :
    ∃ result, graph fuel declared locked = some result ∧
      (result = .ok () ↔
        (∀ source, Needed declared locked source → Checked declared locked source) ∧
        (∀ source, Needed declared locked source → ¬ TransGen (DependsOn locked) source source) ∧
        ∀ source, Needed declared locked source ↔ source ∈ keysOf locked) := by
  have hnodes : ∀ source targets, edges (checked declared locked) source = .ok targets →
      source ∈ sources declared locked := by
    intro source targets h
    obtain ⟨pin, hvalid⟩ := edges_eq_ok.mp h
    exact mem_sources.mpr (Or.inr (locked_of_valid hvalid))
  have hvisit := visitAll_spec (keysOf declared) hnodes hfuel
  unfold graph
  cases hresult : visitAll (edges (checked declared locked)) fuel (keysOf declared) with
  | error stop =>
    rw [hresult] at hvisit
    cases stop with
    | unfinished => exact hvisit.elim
    | cycle node =>
      refine ⟨_, rfl, fun h => (nomatch h), fun h => ?_⟩
      exact absurd (TransGen.mono (fun _ _ => dependsOn_of_edge) _ _ hvisit.2) (h.2.1 node (needed_of_reached hvisit.1))
    | failed text node =>
      refine ⟨_, rfl, fun h => (nomatch h), fun h => ?_⟩
      obtain ⟨pin, targets, hvalid⟩ := h.1 node (needed_of_reached hvisit.1)
      have hedges := edges_eq_ok.mpr ⟨pin, hvalid⟩
      rw [hvisit.2] at hedges
      cases hedges
  | ok marks =>
    rw [hresult] at hvisit
    obtain ⟨hreached, hspec⟩ := hvisit
    have hfollowed := fun source h => (hspec source h).1
    have hneeded : ∀ source, Needed declared locked source ↔ source ∈ marks.reached := fun source =>
      ⟨fun h => (hreached source).mpr (reached_of_needed hfollowed h),
        fun h => needed_of_reached ((hreached source).mp h)⟩
    have hchecked : ∀ source, Needed declared locked source → Checked declared locked source := by
      intro source h
      obtain ⟨targets, htargets⟩ := hfollowed source (reached_of_needed hfollowed h)
      obtain ⟨pin, hvalid⟩ := edges_eq_ok.mp htargets
      exact ⟨pin, targets, hvalid⟩
    have hacyclic : ∀ source, Needed declared locked source → ¬ TransGen (DependsOn locked) source source := by
      intro source h hcycle
      have hsource := reached_of_needed hfollowed h
      exact (hspec source hsource).2 (cycle_of_dependsOn hfollowed hsource hcycle).1
    simp only
    by_cases hsame : sameMembers marks.reached (keysOf locked) = true
    · rw [if_pos hsame]
      refine ⟨_, rfl, fun _ => ⟨hchecked, hacyclic, fun source => ?_⟩, fun _ => rfl⟩
      rw [hneeded source]
      exact sameMembers_iff.mp hsame source
    · rw [if_neg hsame]
      refine ⟨_, rfl, fun h => (nomatch h), fun h => absurd (sameMembers_iff.mpr fun source => ?_) hsame⟩
      rw [← hneeded source]
      exact h.2.2 source

/-! ## Verdicts -/

theorem mem_localErrors {text : String} : (source, text) ∈ localErrors declared locked ↔
    source ∈ sources declared locked ∧ checkOf declared locked source = .error text := by
  unfold localErrors
  rw [List.mem_filterMap]
  constructor
  · rintro ⟨other, hother, h⟩
    cases hcheck : checkOf declared locked other with
    | ok found =>
      rw [hcheck] at h
      cases h
    | error text =>
      rw [hcheck] at h
      obtain ⟨rfl, rfl⟩ := Prod.mk.inj (Option.some.inj h)
      exact ⟨hother, hcheck⟩
  · rintro ⟨hsource, hcheck⟩
    refine ⟨source, hsource, ?_⟩
    rw [hcheck]

theorem localErrors_eq_nil : localErrors declared locked = [] ↔
    ∀ source, source ∈ keysOf declared ∨ source ∈ keysOf locked → Checked declared locked source := by
  rw [List.eq_nil_iff_forall_not_mem]
  constructor
  · intro h source hsource
    cases hcheck : checkOf declared locked source with
    | ok found => exact ⟨found.1, found.2, checkOf_eq_ok.mp hcheck⟩
    | error text => exact absurd (mem_localErrors.mpr ⟨mem_sources.mpr hsource, hcheck⟩) (h (source, text))
  · rintro h ⟨source, text⟩ hmem
    obtain ⟨hsource, hcheck⟩ := mem_localErrors.mp hmem
    obtain ⟨pin, dependencies, hvalid⟩ := h source (mem_sources.mp hsource)
    rw [checkOf_eq_ok.mpr hvalid] at hcheck
    cases hcheck

/-- A failure of the graph is an error of every source. -/
theorem allErrors_eq_nil {result : Except String Unit} : allErrors declared locked result = [] ↔
    localErrors declared locked = [] ∧ (result = .ok () ∨ sources declared locked = []) := by
  cases result with
  | ok value => exact ⟨fun h => ⟨h, Or.inl rfl⟩, fun h => h.1⟩
  | error text =>
    rw [allErrors, List.append_eq_nil_iff, List.map_eq_nil_iff, List.filter_eq_nil_iff]
    constructor
    · rintro ⟨hlocal, hfilter⟩
      refine ⟨hlocal, Or.inr (List.eq_nil_iff_forall_not_mem.mpr fun source hsource => hfilter source hsource ?_)⟩
      rw [hlocal]
      rfl
    · rintro ⟨hlocal, hresult | hsources⟩
      · cases hresult
      · refine ⟨hlocal, fun source hsource => ?_⟩
        rw [hsources] at hsource
        cases hsource

theorem not_needed_of_no_sources (h : sources declared locked = []) : ¬ Needed declared locked source := by
  rintro ⟨first, hfirst, -⟩
  have hmem : first ∈ sources declared locked := mem_sources.mpr (Or.inl hfirst)
  rw [h] at hmem
  cases hmem

/-- A report without an error is that of an accepted declaration and lock. -/
theorem errors_eq_nil {result : Except String Unit}
    (h : result = .ok () ↔
      (∀ source, Needed declared locked source → Checked declared locked source) ∧
      (∀ source, Needed declared locked source → ¬ TransGen (DependsOn locked) source source) ∧
      ∀ source, Needed declared locked source ↔ source ∈ keysOf locked) :
    (report declared locked result).errors = [] ↔ Accepted declared locked := by
  show allErrors declared locked result = [] ↔ _
  rw [allErrors_eq_nil, localErrors_eq_nil, h]
  constructor
  · rintro ⟨hchecked, ⟨-, hacyclic, hsame⟩ | hsources⟩
    · exact ⟨hchecked, fun source => (hsame source).mp, hacyclic, fun source => (hsame source).mpr⟩
    · have hnone : ∀ source, ¬ Needed declared locked source := fun _ => not_needed_of_no_sources hsources
      refine ⟨hchecked, fun source h => absurd h (hnone source), fun source h => absurd h (hnone source), ?_⟩
      intro source hsource
      have hmem : source ∈ sources declared locked := mem_sources.mpr (Or.inr hsource)
      rw [hsources] at hmem
      cases hmem
  · intro h
    refine ⟨h.checked, Or.inl ⟨fun source hneeded => h.checked source (Or.inr (h.inside source hneeded)), h.acyclic, ?_⟩⟩
    exact fun source => ⟨h.inside source, h.covered source⟩

/-! ## Another order -/

theorem Reordered.symm (h : Reordered declared locked others entries) : Reordered others entries declared locked :=
  ⟨fun source => (h.declared source).symm, fun source => (h.locked source).symm⟩

theorem DependsOn.reordered (h : DependsOn locked source target)
    (hsame : SameEntry (Json.last? locked source) (Json.last? entries source)) : DependsOn entries source target := by
  obtain ⟨pairs, items, hpairs, hitems, htarget⟩ := h
  rw [hpairs] at hsame
  generalize hentry : Json.last? entries source = entry at hsame
  cases hsame with
  | same => exact ⟨pairs, items, hentry, hitems, htarget⟩
  | @entry _ second _ hdepends =>
    rw [hitems] at hdepends
    generalize hother : Json.last? second "dependsOn" = value at hdepends
    cases hdepends with
    | same => exact ⟨second, items, hentry, hother, htarget⟩
    | items hperm => exact ⟨second, _, hentry, hother, hperm.mem_iff.mp htarget⟩

theorem Needed.reordered (h : Needed declared locked source) (hsame : Reordered declared locked others entries) :
    Needed others entries source := by
  obtain ⟨first, hfirst, hreach⟩ := h
  exact ⟨first, (hsame.declared first).mp hfirst, ReflTransGen.mono (fun _ _ hstep => hstep.reordered (hsame.locked _)) _ _ hreach⟩

theorem mem_keysOf_of_sameEntry (h : SameEntry (Json.last? locked source) (Json.last? entries source))
    (hsource : source ∈ keysOf locked) : source ∈ keysOf entries := by
  rw [mem_keysOf_iff] at hsource ⊢
  obtain ⟨value, hvalue⟩ := hsource
  rw [hvalue] at h
  generalize Json.last? entries source = entry at h
  cases h with
  | same => exact ⟨value, rfl⟩
  | entry => exact ⟨_, rfl⟩

theorem Accepted.reordered (h : Accepted declared locked) (hsame : Reordered declared locked others entries) :
    Accepted others entries := by
  have hkeys : ∀ source, source ∈ keysOf entries → source ∈ keysOf locked := fun source =>
    mem_keysOf_of_sameEntry (hsame.symm.locked source)
  constructor
  · intro source hsource
    have hlocked : source ∈ keysOf declared ∨ source ∈ keysOf locked :=
      hsource.imp (hsame.declared source).mpr (hkeys source)
    obtain ⟨pin, dependencies, hvalid⟩ := h.checked source hlocked
    obtain ⟨items, -, hitems⟩ := hvalid.reordered (hsame.locked source)
    refine ⟨pin, items, ?_⟩
    have hdeclared : (keysOf others).contains source = (keysOf declared).contains source := by
      rw [Bool.eq_iff_iff, List.contains_iff_mem, List.contains_iff_mem, hsame.declared source]
    rw [hdeclared]
    exact hitems
  · intro source hneeded
    exact mem_keysOf_of_sameEntry (hsame.locked source) (h.inside source (hneeded.reordered hsame.symm))
  · intro source hneeded hcycle
    refine h.acyclic source (hneeded.reordered hsame.symm) ?_
    exact TransGen.mono (fun _ _ hstep => hstep.reordered (hsame.symm.locked _)) _ _ hcycle
  · exact fun source hsource => (h.covered source (hkeys source hsource)).reordered hsame

/-! ## Feature locks -/

/-- Every declaration and feature lock that is read gets a report, by a visit of at most one nested
call more than there may be sources; the report has no error exactly when the declaration and the
lock are accepted, and the same holds for them in another order. -/
theorem features_exact (reader : Reader Root) (root : Root) (fuel : Nat) (hfuel : maxFiles < fuel)
    (declared locked : Pairs) (h : documents reader root = .ok (declared, locked)) :
    ∃ found, features reader fuel root = some (.ok found) ∧
      (found.errors = [] ↔ Accepted declared locked) ∧
      ∀ other others entries, documents reader other = .ok (others, entries) →
        Reordered declared locked others entries →
        ∃ second, features reader fuel other = some (.ok second) ∧ (second.errors = [] ↔ found.errors = []) := by
  have hreport : ∀ (root : Root) (declared locked : Pairs), documents reader root = .ok (declared, locked) →
      ∃ found, features reader fuel root = some (.ok found) ∧ (found.errors = [] ↔ Accepted declared locked) := by
    intro root declared locked h
    have hlength := length_nodes h
    obtain ⟨result, hgraph, hresult⟩ := graph_spec (show (sources declared locked).length < fuel by omega)
    refine ⟨report declared locked result, ?_, errors_eq_nil hresult⟩
    unfold features
    rw [h]
    simp only [hgraph, Option.map_some]
  obtain ⟨found, hfound, hverdict⟩ := hreport root declared locked h
  refine ⟨found, hfound, hverdict, fun other others entries hother hsame => ?_⟩
  obtain ⟨second, hsecond, hother⟩ := hreport other others entries hother
  refine ⟨second, hsecond, ?_⟩
  rw [hverdict, hother]
  exact ⟨fun hnew => hnew.reordered hsame.symm, fun hold => hold.reordered hsame⟩

/-! ## A declaration and its lock -/

def sampleDigest : String := "sha256:" ++ String.ofList (List.replicate 64 'a')

def sampleSource : String := "ghcr.io/devcontainers/features/node:1.0.0"

def sampleResolved : String := "ghcr.io/devcontainers/features/node@" ++ sampleDigest

def sampleDeclaration : String := "\x7b\"features\": \x7b\"" ++ sampleSource ++ "\": \x7b\x7d\x7d\x7d"

def sampleLock : String :=
  "\x7b\"features\": \x7b\"" ++ sampleSource ++ "\": \x7b\"version\": \"1.0.0\", \"resolved\": \"" ++ sampleResolved ++
    "\", \"integrity\": \"" ++ sampleDigest ++ "\"\x7d\x7d\x7d"

def sampleDeclared : Pairs := [(sampleSource, .object [])]

def sampleLocked : Pairs :=
  [(sampleSource, .object [("version", .str "1.0.0"), ("resolved", .str sampleResolved), ("integrity", .str sampleDigest)])]

/-- A snapshot with these two files. -/
def sampleReader : Reader Unit where
  read := fun _ path =>
    .ok (if path = feature then some sampleDeclaration else if path = featureLock then some sampleLock else none)
  loads := fun text =>
    if text = sampleDeclaration then .ok (.object [("features", .object sampleDeclared)])
    else if text = sampleLock then .ok (.object [("features", .object sampleLocked)])
    else .error (.rejected "Expecting value: line 1 column 1 (char 0)")

theorem loads_sampleLock : sampleReader.loads sampleLock = .ok (.object [("features", .object sampleLocked)]) := by
  have hother : sampleLock ≠ sampleDeclaration := by decide +kernel
  unfold sampleReader
  simp only [if_neg hother, if_true]

theorem documents_sample : documents sampleReader () = .ok (sampleDeclared, sampleLocked) := by
  have hlock : readPairs sampleReader sampleLock = .ok [("features", .object sampleLocked)] := by
    unfold readPairs
    rw [loads_sampleLock]
    rfl
  have hdeclaration : readPairs sampleReader sampleDeclaration = .ok [("features", .object sampleDeclared)] := by
    unfold readPairs
    unfold sampleReader
    simp only [if_true]
    rfl
  refine bind_eq_ok.mpr ⟨some sampleDeclaration, rfl, bind_eq_ok.mpr ⟨some sampleLock, rfl, ?_⟩⟩
  exact bind_eq_ok.mpr ⟨_, hdeclaration, bind_eq_ok.mpr ⟨_, hlock, rfl⟩⟩

theorem features_exact_sample : ∃ found, features sampleReader 257 () = some (.ok found) ∧
    (found.errors = [] ↔ Accepted sampleDeclared sampleLocked) := by
  obtain ⟨found, hfound, hverdict, -⟩ :=
    features_exact sampleReader () 257 (by decide) sampleDeclared sampleLocked documents_sample
  exact ⟨found, hfound, hverdict⟩

example : ((features sampleReader 257 ()).map fun found => found.toOption.map Report.errors) = some (some []) := by
  decide +kernel
end Boxferry.Automation.FeatureLocks
