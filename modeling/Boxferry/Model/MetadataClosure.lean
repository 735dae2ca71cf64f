import Boxferry.Model.MetadataTrees
import Boxferry.Model.Numbers
import Mathlib.Data.List.Nodup
import Mathlib.Logic.Relation

/-! # Closure of metadata trees

A tree that was built bottom-up by the checked constructor is bounded, has distinct keys and
grammatical numbers, and is sensitive below each sensitive node. -/
namespace Boxferry.Model
open Results
set_option autoImplicit false

/-! ## Depth -/

mutual
def MetadataNode.depth : MetadataNode → Nat
  | .mk value _ _ => value.depth + 1

/-- The depth of what is below a value. -/
def MetadataValue.depth : MetadataValue → Nat
  | .sequence values => depthSequence values
  | .mapping entries => depthEntries entries
  | _ => 0

def depthSequence : List (Sourced MetadataNode) → Nat
  | [] => 0
  | ⟨node, _⟩ :: rest => max node.depth (depthSequence rest)

def depthEntries : List MetadataEntry → Nat
  | [] => 0
  | .mk _ ⟨node, _⟩ :: rest => max node.depth (depthEntries rest)
end

mutual
/-- A node that is measured at a depth has no descendant below the maximum. -/
theorem depth_of_measure (node : MetadataNode) (depth size : Nat) (h : node.measure depth = .ok size) :
    depth + node.depth ≤ metadataMaxDepth + 1 := by
  match node with
  | .mk value sensitive folded =>
    obtain ⟨hbound, h⟩ := guard_eq_ok.mp h
    obtain ⟨bytes, hbytes, -⟩ := bind_eq_ok.mp h
    have hdepth : depth ≤ metadataMaxDepth := by
      simp only [Bool.or_eq_true, not_or] at hbound
      simpa using hbound.1
    have hvalue := depth_of_measure_value value depth bytes hdepth hbytes
    rw [MetadataNode.depth]
    omega

theorem depth_of_measure_value (value : MetadataValue) (depth size : Nat) (hdepth : depth ≤ metadataMaxDepth)
    (h : value.measure depth = .ok size) : depth + value.depth ≤ metadataMaxDepth := by
  match value with
  | .null | .boolean _ | .number _ | .string _ => exact hdepth
  | .sequence values =>
    have hrest := depth_of_measure_sequence values (depth + 1) 32 size (by omega) h
    rw [MetadataValue.depth]
    omega
  | .mapping entries =>
    have hrest := depth_of_measure_entries entries (depth + 1) [] 32 size (by omega) h
    rw [MetadataValue.depth]
    omega

theorem depth_of_measure_sequence (values : List (Sourced MetadataNode)) (depth bytes size : Nat)
    (hdepth : depth ≤ metadataMaxDepth + 1) (h : measureSequence values depth bytes = .ok size) :
    depth + depthSequence values ≤ metadataMaxDepth + 1 := by
  match values with
  | [] => exact hdepth
  | ⟨node, _⟩ :: rest =>
    obtain ⟨found, hfound, h⟩ := bind_eq_ok.mp h
    split at h
    · cases h
    · next total _ =>
      have hnode := depth_of_measure node depth found hfound
      have hrest := depth_of_measure_sequence rest depth total size hdepth h
      rw [depthSequence]
      omega

theorem depth_of_measure_entries (entries : List MetadataEntry) (depth : Nat) (keys : List String) (bytes size : Nat)
    (hdepth : depth ≤ metadataMaxDepth + 1) (h : measureEntries entries depth keys bytes = .ok size) :
    depth + depthEntries entries ≤ metadataMaxDepth + 1 := by
  match entries with
  | [] => exact hdepth
  | .mk key ⟨node, _⟩ :: rest =>
    obtain ⟨-, h⟩ := guard_eq_ok.mp h
    split at h
    · cases h
    · obtain ⟨found, hfound, h⟩ := bind_eq_ok.mp h
      split at h
      · cases h
      · next total _ =>
        have hnode := depth_of_measure node depth found hfound
        have hrest := depth_of_measure_entries rest depth _ total size hdepth h
        rw [depthEntries]
        omega
end

/-! ## Keys and numbers -/

/-- The keys of a mapping, in order. -/
def MetadataValue.keys : MetadataValue → List ProtectedString
  | .mapping entries => entries.map fun entry => entry.key.value
  | _ => []

theorem keys_of_measureEntries {entries : List MetadataEntry} {depth : Nat} {keys : List String} {bytes size : Nat}
    (h : measureEntries entries depth keys bytes = .ok size) :
    (entries.map fun entry => entry.key.value.expose).Nodup ∧ ∀ entry ∈ entries, entry.key.value.expose ∉ keys := by
  induction entries generalizing keys bytes with
  | nil => exact ⟨List.nodup_nil, fun _ h => absurd h List.not_mem_nil⟩
  | cons entry rest ih =>
    obtain ⟨key, node, origins⟩ := entry
    obtain ⟨hnew, h⟩ := guard_eq_ok.mp h
    split at h
    · cases h
    · obtain ⟨found, -, h⟩ := bind_eq_ok.mp h
      split at h
      · cases h
      · obtain ⟨hnodup, hothers⟩ := ih h
        constructor
        · refine List.nodup_cons.mpr ⟨fun hmem => ?_, hnodup⟩
          obtain ⟨other, hother, hsame⟩ := List.mem_map.mp hmem
          exact hothers other hother (hsame ▸ List.mem_cons_self)
        · intro other hother
          rcases List.mem_cons.mp hother with rfl | hother
          · exact hnew
          · exact fun hmem => hothers other hother (List.mem_cons_of_mem _ hmem)

/-- A measured node is within the byte bound, its keys are distinct and its number is grammatical. -/
theorem measure_ok {node : MetadataNode} {depth size : Nat} (h : node.measure depth = .ok size) :
    size ≤ metadataMaxBytes ∧ (node.value.keys.map ProtectedString.expose).Nodup ∧
      ∀ text, node.value = .number text → JsonNumber.Number text.expose.toList := by
  obtain ⟨value, sensitive, folded⟩ := node
  obtain ⟨-, h⟩ := guard_eq_ok.mp h
  obtain ⟨bytes, hbytes, h⟩ := bind_eq_ok.mp h
  obtain ⟨hsize, h⟩ := guard_eq_ok.mp h
  obtain rfl := Except.ok.inj h
  refine ⟨Nat.le_of_not_lt hsize, ?_, ?_⟩
  · cases value with
    | null | boolean | number | string | sequence => exact List.nodup_nil
    | mapping entries =>
      have hkeys := (keys_of_measureEntries (show measureEntries entries (depth + 1) [] 32 = .ok bytes from hbytes)).1
      show ((entries.map fun entry => entry.key.value).map ProtectedString.expose).Nodup
      rw [List.map_map]
      exact hkeys
  · rintro text rfl
    rw [MetadataValue.measure] at hbytes
    exact (validNumber_iff _).mp (accept_eq_ok.mp hbytes).1

/-! ## Sensitivity -/

def MetadataNode.Child (node child : MetadataNode) : Prop := child ∈ node.value.children

/-- The node itself, or one below it. -/
def MetadataNode.Descends : MetadataNode → MetadataNode → Prop := Relation.ReflTransGen MetadataNode.Child

theorem MetadataNode.Sound.descends {node lower : MetadataNode} (h : node.Sound) (hlower : node.Descends lower) :
    lower.Sound := by
  induction hlower with
  | refl => exact h
  | tail _ hchild ih =>
    obtain ⟨children, -, -⟩ := ih
    exact children _ hchild

theorem isSensitive_protectContents (node : MetadataNode) : node.protectContents.isSensitive = true := by
  obtain ⟨value, sensitive, folded⟩ := node
  rfl

theorem protectEntries_keys {entries : List MetadataEntry} {entry : MetadataEntry} (h : entry ∈ protectEntries entries) :
    entry.key.value.isSensitive = true := by
  induction entries with
  | nil => cases h
  | cons head rest ih =>
    obtain ⟨⟨text, keyOrigins⟩, ⟨node, origins⟩⟩ := head
    rcases List.mem_cons.mp h with rfl | h
    · rfl
    · exact ih h

theorem keys_protectContents (node : MetadataNode) :
    ∀ key ∈ node.protectContents.value.keys, key.isSensitive = true := by
  obtain ⟨value, sensitive, folded⟩ := node
  cases value with
  | null | boolean | number | string | sequence => exact fun _ h => absurd h List.not_mem_nil
  | mapping entries =>
    intro key hkey
    obtain ⟨entry, hentry, rfl⟩ := List.mem_map.mp hkey
    exact protectEntries_keys hentry

/-- Everything below a protected node is protected. -/
theorem protected_descends {node lower : MetadataNode} (h : node.protectContents = node) (hlower : node.Descends lower) :
    lower.protectContents = lower := by
  induction hlower with
  | refl => exact h
  | tail _ hchild ih =>
    rw [← ih] at hchild
    obtain ⟨original, -, rfl⟩ := mem_children_protectContents hchild
    exact protectContents_idem original

/-! ## Closed trees -/

structure MetadataNode.Closed (node : MetadataNode) : Prop where
  depth_le : node.depth ≤ metadataMaxDepth
  measured : ∃ size, node.measure 1 = .ok size ∧ size ≤ metadataMaxBytes
  distinct : ∀ lower, node.Descends lower → (lower.value.keys.map ProtectedString.expose).Nodup
  numbers : ∀ lower, node.Descends lower → ∀ text, lower.value = .number text →
    JsonNumber.Number text.expose.toList
  sensitive : ∀ lower, node.Descends lower → lower.isSensitive = true → ∀ lowest, lower.Descends lowest →
    lowest.isSensitive = true ∧ ∀ key ∈ lowest.value.keys, key.isSensitive = true

theorem MetadataNode.Sound.closed_tree {node : MetadataNode} (h : node.Sound) : node.Closed := by
  have hmeasured : ∀ lower, node.Descends lower → ∃ size, lower.measure 1 = .ok size := by
    intro lower hlower
    obtain ⟨-, measured, -⟩ := h.descends hlower
    exact measured
  refine ⟨?_, ?_, ?_, ?_, ?_⟩
  · obtain ⟨size, hsize⟩ := hmeasured node .refl
    have hdepth := depth_of_measure node 1 size hsize
    omega
  · obtain ⟨size, hsize⟩ := hmeasured node .refl
    exact ⟨size, hsize, (measure_ok hsize).1⟩
  · intro lower hlower
    obtain ⟨size, hsize⟩ := hmeasured lower hlower
    exact (measure_ok hsize).2.1
  · intro lower hlower
    obtain ⟨size, hsize⟩ := hmeasured lower hlower
    exact (measure_ok hsize).2.2
  · intro lower hlower hsensitive lowest hlowest
    obtain ⟨-, -, closed⟩ := h.descends hlower
    have hprotected := protected_descends (closed hsensitive) hlowest
    rw [← hprotected]
    exact ⟨isSensitive_protectContents lowest, keys_protectContents lowest⟩

/-- The tree without its marks of sensitivity. -/
def MetadataNode.unmarked (node : MetadataNode) : MetadataNode :=
  node.relabel ⟨fun _ => false, fun text => .plain text.expose, id⟩

theorem unmarked_protectContents (node : MetadataNode) : node.protectContents.unmarked = node.unmarked := by
  rw [protectContents_eq]
  unfold MetadataNode.unmarked
  rw [relabel_relabel]
  rfl

/-- A node that is built from built nodes is closed, and differs from what it was given in marks
of sensitivity only; one that is not sensitive is as it was given. -/
theorem metadata_node_closed (value : MetadataValue) (sensitive folded : Bool) (node : MetadataNode)
    (hchildren : ∀ child ∈ value.children, child.Built) (h : MetadataNode.new value sensitive folded = .ok node) :
    node.Closed ∧ node.unmarked = (MetadataNode.mk value sensitive folded).unmarked ∧
      (node.isSensitive = false → node = .mk value sensitive folded) := by
  refine ⟨(MetadataNode.Built.new hchildren h).sound.closed_tree, ?_⟩
  obtain ⟨-, rfl⟩ := MetadataNode.new_eq_ok.mp h
  split
  · refine ⟨unmarked_protectContents _, fun hplain => ?_⟩
    rw [isSensitive_protectContents] at hplain
    cases hplain
  · exact ⟨rfl, fun _ => rfl⟩

/-- A sensitive mapping with one entry. -/
theorem metadata_node_closed_mapping :
    let inner := MetadataNode.mk (.string (.plain "a")) false false
    let entry := MetadataEntry.mk ⟨.plain "key", []⟩ ⟨inner, []⟩
    let node := (MetadataNode.mk (.mapping [entry]) true false).protectContents
    node.Closed ∧ node.unmarked = (MetadataNode.mk (.mapping [entry]) true false).unmarked ∧
      (node.isSensitive = false → node = .mk (.mapping [entry]) true false) := by
  intro inner entry node
  have hinner : inner.Built := .new (fun _ h => absurd h List.not_mem_nil)
    (show MetadataNode.new (.string (.plain "a")) false false = .ok inner from by rfl)
  refine metadata_node_closed (.mapping [entry]) true false node (fun child hchild => ?_) (by rfl)
  rw [List.mem_singleton.mp hchild]
  exact hinner

end Boxferry.Model
