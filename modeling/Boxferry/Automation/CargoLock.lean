import Boxferry.Automation.Manifests
import Boxferry.Library.Worklist

/-! # Cargo lock closures

The packages of a Cargo lock file and their dependency edges. The closure of a set of names
follows every edge from the packages of these names; an edge that does not lead to exactly
one package fails. -/
namespace Boxferry.Automation.FirstParty
open Results Worklist Relation
set_option autoImplicit false

/-! ## Untyped values -/

/-- What the runtime raises for when a value is not of the kind it is used as. -/
inductive Misuse (α : Type) where
  | missingKey (key : String)
  | subscript (value : Value α)
  | attribute (value : Value α) (name : String)
  | iteration (value : Value α)
  | unhashable (value : Value α)

def Misuse.typeName {α : Type} : Misuse α → String
  | .missingKey _ => "KeyError"
  | .attribute _ _ => "AttributeError"
  | .subscript _ | .iteration _ | .unhashable _ => "TypeError"

/-- The words the runtime has for a misuse. -/
structure Runtime (α : Type) where
  wording : Misuse α → String

namespace Runtime
variable {α : Type} (runtime : Runtime α)

def misuse (misuse : Misuse α) : Failure := ⟨misuse.typeName, runtime.wording misuse, true⟩

def item (entries : Table α) (key : String) : Except Failure (Value α) :=
  match entries.get key with
  | some value => .ok value
  | none => .error (runtime.misuse (.missingKey key))

def iterate : Value α → Except Failure (List (Value α))
  | .text value => .ok (value.toList.map fun ch => .text (String.singleton ch))
  | .scalar value => .error (runtime.misuse (.iteration (.scalar value)))
  | .array values => .ok values
  | .table entries => .ok ((Table.keys entries).map .text)

def hash : Value α → Except Failure Unit
  | .text _ | .scalar _ => .ok ()
  | .array values => .error (runtime.misuse (.unhashable (.array values)))
  | .table entries => .error (runtime.misuse (.unhashable (.table entries)))

/-- `str.split(" ")`. -/
def split : Value α → Except Failure (List String)
  | .text value => .ok ((value.toList.splitOn ' ').map String.ofList)
  | value => .error (runtime.misuse (.attribute value "split"))

end Runtime

/-! ## Records -/

/-- One package of the lock file; its name and its version identify it. -/
structure Record (α : Type) where
  name : Value α
  version : Value α
  item : Table α

section
variable {α : Type}

def isText (value : Value α) (text : String) : Bool :=
  match value with
  | .text found => found == text
  | _ => false

def readRecord (runtime : Runtime α) : Value α → Except Failure (Record α)
  | .table entries => do
    let name ← runtime.item entries "name"
    let version ← runtime.item entries "version"
    runtime.hash name
    runtime.hash version
    return ⟨name, version, entries⟩
  | value => .error (runtime.misuse (.subscript value))

def sameIdentity [BEq α] (record other : Record α) : Bool :=
  record.name.same other.name && record.version.same other.version

def distinct [BEq α] : List (Record α) → Bool
  | [] => true
  | record :: rest => rest.all (fun other => !sameIdentity record other) && distinct rest

def readRecords [BEq α] (runtime : Runtime α) (lock : Table α) : Except Failure (List (Record α)) := do
  let items ← runtime.iterate ((lock.get "package").getD (.array []))
  let records ← items.mapM (readRecord runtime)
  if distinct records then .ok records else .error (dependencyError "duplicate Cargo package identity")

/-! ## Edges -/

/-- The packages an edge can mean: all of the name, or the one of the version it adds. -/
def candidates (records : List (Record α)) (parts : List String) : List Nat :=
  (List.range records.length).filter fun index =>
    match records[index]? with
    | some record =>
      isText record.name (parts.headD "") && (parts.tail.head?.all fun version => isText record.version version)
    | none => false

def resolve (runtime : Runtime α) (records : List (Record α)) (dependency : Value α) : Except Failure Nat := do
  let parts ← runtime.split dependency
  match candidates records parts with
  | [index] => .ok index
  | _ => .error (dependencyError "ambiguous or missing Cargo dependency edge")

def dependencies (runtime : Runtime α) (record : Record α) : Except Failure (List (Value α)) :=
  runtime.iterate ((record.item.get "dependencies").getD (.array []))

def edges (runtime : Runtime α) (records : List (Record α)) (index : Nat) : Except Failure (List Nat) :=
  match records[index]? with
  | some record => do
    let found ← dependencies runtime record
    found.mapM (resolve runtime records)
  | none => .ok []

/-- The packages of the names. -/
def named (records : List (Record α)) (names : List String) : List Nat :=
  (List.range records.length).filter fun index =>
    (records[index]?.any fun record => names.any fun name => isText record.name name)

/-- The packages visited and all packages, in at most as many rounds as the fuel says. -/
def cargoClosure [BEq α] (runtime : Runtime α) (fuel : Nat) (lock : Except Failure (Table α)) (names : List String) :
    Option (Except Failure (List Nat × List (Record α))) :=
  match lock.bind (readRecords runtime) with
  | .error failure => some (.error failure)
  | .ok records =>
    (close (edges runtime records) fuel (named records names).reverse []).map fun visited =>
      visited.map fun visited => (visited, records)

/-! ## What the closure visits -/

variable {runtime : Runtime α} {records : List (Record α)} {names : List String} {index target : Nat}

/-- An edge of the package means exactly the target. -/
def DependsOn (runtime : Runtime α) (records : List (Record α)) (index target : Nat) : Prop :=
  ∃ record found dependency, records[index]? = some record ∧ dependencies runtime record = .ok found ∧
    dependency ∈ found ∧ resolve runtime records dependency = .ok target

/-- The package can be reached from one of the names. -/
def Reachable (runtime : Runtime α) (records : List (Record α)) (names : List String) (index : Nat) : Prop :=
  ∃ first record name, name ∈ names ∧ records[first]? = some record ∧ isText record.name name = true ∧
    ReflTransGen (DependsOn runtime records) first index

theorem mem_named : index ∈ named records names ↔
    ∃ record name, name ∈ names ∧ records[index]? = some record ∧ isText record.name name = true := by
  unfold named
  rw [List.mem_filter, List.mem_range, Option.any_eq_true]
  constructor
  · rintro ⟨-, record, hrecord, hany⟩
    obtain ⟨name, hname, htext⟩ := List.any_eq_true.mp hany
    exact ⟨record, name, hname, hrecord, htext⟩
  · rintro ⟨record, name, hname, hrecord, htext⟩
    obtain ⟨hlt, -⟩ := List.getElem?_eq_some_iff.mp hrecord
    exact ⟨hlt, record, hrecord, List.any_eq_true.mpr ⟨name, hname, htext⟩⟩

theorem mem_of_forall₂ {β γ : Type} {relation : β → γ → Prop} {list : List β} {results : List γ}
    (h : List.Forall₂ relation list results) {result : γ} (hmem : result ∈ results) :
    ∃ item ∈ list, relation item result := by
  induction h with
  | nil => cases hmem
  | cons hfirst _ ih =>
    rcases List.mem_cons.mp hmem with rfl | hmem
    · exact ⟨_, List.mem_cons_self, hfirst⟩
    · obtain ⟨item, hitem, hrelation⟩ := ih hmem
      exact ⟨item, List.mem_cons_of_mem _ hitem, hrelation⟩

theorem exists_of_forall₂ {β γ : Type} {relation : β → γ → Prop} {list : List β} {results : List γ}
    (h : List.Forall₂ relation list results) {item : β} (hmem : item ∈ list) :
    ∃ result ∈ results, relation item result := by
  obtain ⟨result, hresult, hrelation⟩ := mem_of_forall₂ h.flip hmem
  exact ⟨result, hresult, hrelation⟩

theorem dependsOn_of_edge (h : Edge (edges runtime records) index target) :
    DependsOn runtime records index target := by
  obtain ⟨targets, htargets, hmem⟩ := h
  unfold edges at htargets
  cases hrecord : records[index]? with
  | none =>
    rw [hrecord] at htargets
    obtain rfl := Except.ok.inj htargets
    cases hmem
  | some record =>
    rw [hrecord] at htargets
    obtain ⟨found, hfound, hresolved⟩ := bind_eq_ok.mp htargets
    obtain ⟨dependency, hdependency, hresolve⟩ := mem_of_forall₂ (mapM_eq_ok.mp hresolved) hmem
    exact ⟨record, found, dependency, hrecord, hfound, hdependency, hresolve⟩

theorem edge_of_dependsOn {targets : List Nat} (htargets : edges runtime records index = .ok targets)
    (h : DependsOn runtime records index target) : Edge (edges runtime records) index target := by
  obtain ⟨record, found, dependency, hrecord, hfound, hdependency, hresolve⟩ := h
  refine ⟨targets, htargets, ?_⟩
  unfold edges at htargets
  rw [hrecord] at htargets
  obtain ⟨others, hothers, hresolved⟩ := bind_eq_ok.mp htargets
  rw [hfound, Except.ok.injEq] at hothers
  subst hothers
  obtain ⟨result, hresult, hstep⟩ := exists_of_forall₂ (mapM_eq_ok.mp hresolved) hdependency
  rw [hresolve, Except.ok.injEq] at hstep
  exact hstep ▸ hresult

theorem lt_of_resolve {dependency : Value α} (h : resolve runtime records dependency = .ok target) :
    target < records.length := by
  obtain ⟨parts, -, hparts⟩ := bind_eq_ok.mp h
  have hmem : target ∈ candidates records parts := by
    split at hparts
    · next index hindex =>
      rw [hindex, ← Except.ok.inj hparts]
      exact List.mem_singleton.mpr rfl
    · cases hparts
  exact List.mem_range.mp (List.mem_filter.mp hmem).1

theorem reached_of_reachable {start visited : List Nat}
    (hvisited : ∀ node, node ∈ visited ↔ Reached (edges runtime records) start node)
    (hedges : ∀ node ∈ visited, ∃ targets, edges runtime records node = .ok targets) {first : Nat}
    (hfirst : first ∈ start) (h : ReflTransGen (DependsOn runtime records) first index) : index ∈ visited := by
  induction h with
  | refl => exact (hvisited first).mpr ⟨first, hfirst, ReflTransGen.refl⟩
  | tail _ hstep ih =>
    obtain ⟨targets, htargets⟩ := hedges _ ih
    obtain ⟨other, hother, hreach⟩ := (hvisited _).mp ih
    exact (hvisited _).mpr ⟨other, hother, hreach.tail (edge_of_dependsOn htargets hstep)⟩

/-- A closure that succeeds visits exactly what the names reach. -/
theorem cargoClosure_ok [BEq α] {fuel : Nat} {lock : Except Failure (Table α)} {visited : List Nat}
    (h : cargoClosure runtime fuel lock names = some (.ok (visited, records))) :
    lock.bind (readRecords runtime) = .ok records ∧
      ∀ index, index ∈ visited ↔ Reachable runtime records names index := by
  unfold cargoClosure at h
  cases hrecords : lock.bind (readRecords runtime) with
  | error failure =>
    rw [hrecords] at h
    cases h
  | ok read =>
    rw [hrecords] at h
    obtain ⟨result, hresult, hpair⟩ := Option.map_eq_some_iff.mp h
    cases result with
    | error failure => cases hpair
    | ok found =>
      obtain ⟨rfl, rfl⟩ := Prod.mk.inj (Except.ok.inj hpair)
      refine ⟨rfl, fun index => ?_⟩
      obtain ⟨hvisited, hedges⟩ := close_spec (closing_start _) hresult
      constructor
      · intro hindex
        obtain ⟨first, hfirst, hreach⟩ := (hvisited index).mp hindex
        obtain ⟨record, name, hname, hrecord, htext⟩ := mem_named.mp (List.mem_reverse.mp hfirst)
        exact ⟨first, record, name, hname, hrecord, htext,
          ReflTransGen.mono (fun _ _ => dependsOn_of_edge) _ _ hreach⟩
      · rintro ⟨first, record, name, hname, hrecord, htext, hreach⟩
        exact reached_of_reachable hvisited hedges
          (List.mem_reverse.mpr (mem_named.mpr ⟨record, name, hname, hrecord, htext⟩)) hreach

/-- Every closure ends, also on cyclic edges. -/
theorem cargoClosure_ends [BEq α] (runtime : Runtime α) (lock : Except Failure (Table α)) (names : List String) :
    ∃ bound, ∀ fuel, bound < fuel → ∃ result, cargoClosure runtime fuel lock names = some result := by
  unfold cargoClosure
  cases hrecords : lock.bind (readRecords runtime) with
  | error failure => exact ⟨0, fun _ _ => ⟨.error failure, rfl⟩⟩
  | ok records =>
    refine ⟨left (edges runtime records) (List.range records.length) (named records names).reverse [], ?_⟩
    intro fuel hfuel
    have hqueue : ∀ node ∈ (named records names).reverse, node ∈ List.range records.length :=
      fun node hnode => (List.mem_filter.mp (List.mem_reverse.mp hnode)).1
    have hclosed : ∀ node ∈ List.range records.length, ∀ targets, edges runtime records node = .ok targets →
        ∀ target ∈ targets, target ∈ List.range records.length := by
      intro node _ targets htargets target htarget
      obtain ⟨_, _, _, _, _, _, hresolve⟩ := dependsOn_of_edge ⟨targets, htargets, htarget⟩
      exact List.mem_range.mpr (lt_of_resolve hresolve)
    obtain ⟨result, hresult⟩ := close_ends hqueue hclosed hfuel
    exact ⟨_, Option.map_eq_some_iff.mpr ⟨result, hresult, rfl⟩⟩

/-- Every closure ends, and one that succeeds visits exactly what the names reach. -/
theorem cargoClosure_spec [BEq α] (runtime : Runtime α) (lock : Except Failure (Table α)) (names : List String) :
    ∃ bound, ∀ fuel, bound < fuel → ∃ result, cargoClosure runtime fuel lock names = some result ∧
      ∀ visited records, result = .ok (visited, records) → lock.bind (readRecords runtime) = .ok records ∧
        ∀ index, index ∈ visited ↔ Reachable runtime records names index := by
  obtain ⟨bound, hends⟩ := cargoClosure_ends runtime lock names
  refine ⟨bound, fun fuel hfuel => ?_⟩
  obtain ⟨result, hresult⟩ := hends fuel hfuel
  refine ⟨result, hresult, ?_⟩
  rintro visited records rfl
  exact cargoClosure_ok hresult

end
end Boxferry.Automation.FirstParty
