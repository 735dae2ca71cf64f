import Boxferry.Model.Metadata
import Boxferry.Library.Results

/-! # Metadata trees

Trees built by the checked constructor alone: each subtree is within its
budget, and below a protected node everything is protected. Contents are
compared up to the provenance of their parts. -/
namespace Boxferry.Model
open Results
set_option autoImplicit false

/-! ## Relabelling -/

/-- A uniform change of node flags, texts and provenance that keeps the shape of a tree. -/
structure Relabel where
  flag : Bool → Bool
  text : ProtectedString → ProtectedString
  origins : List Provenance → List Provenance

def Relabel.comp (second first : Relabel) : Relabel :=
  ⟨second.flag ∘ first.flag, second.text ∘ first.text, second.origins ∘ first.origins⟩

mutual
def MetadataNode.relabel (change : Relabel) : MetadataNode → MetadataNode
  | .mk value sensitive folded => .mk (value.relabel change) (change.flag sensitive) folded

def MetadataValue.relabel (change : Relabel) : MetadataValue → MetadataValue
  | .null => .null
  | .boolean value => .boolean value
  | .number value => .number (change.text value)
  | .string value => .string (change.text value)
  | .sequence values => .sequence (relabelSequence change values)
  | .mapping entries => .mapping (relabelEntries change entries)

def relabelSequence (change : Relabel) : List (Sourced MetadataNode) → List (Sourced MetadataNode)
  | [] => []
  | ⟨node, origins⟩ :: rest =>
    ⟨node.relabel change, change.origins origins⟩ :: relabelSequence change rest

def relabelEntries (change : Relabel) : List MetadataEntry → List MetadataEntry
  | [] => []
  | .mk ⟨key, keyOrigins⟩ ⟨node, origins⟩ :: rest =>
    .mk ⟨change.text key, change.origins keyOrigins⟩
      ⟨node.relabel change, change.origins origins⟩ :: relabelEntries change rest
end

section Relabel
variable (second first : Relabel)

mutual
theorem relabel_relabel (node : MetadataNode) :
    (node.relabel first).relabel second = node.relabel (second.comp first) := by
  cases node with
  | mk value sensitive folded =>
    simp only [MetadataNode.relabel, relabel_relabel_value value]
    rfl

theorem relabel_relabel_value (value : MetadataValue) :
    (value.relabel first).relabel second = value.relabel (second.comp first) := by
  cases value with
  | null => rfl
  | boolean value => rfl
  | number value => rfl
  | string value => rfl
  | sequence values => exact congrArg MetadataValue.sequence (relabel_relabel_sequence values)
  | mapping entries => exact congrArg MetadataValue.mapping (relabel_relabel_entries entries)

theorem relabel_relabel_sequence (values : List (Sourced MetadataNode)) :
    relabelSequence second (relabelSequence first values) =
      relabelSequence (second.comp first) values := by
  match values with
  | [] => rfl
  | ⟨node, _⟩ :: rest =>
    simp only [relabelSequence, relabel_relabel node, relabel_relabel_sequence rest]
    rfl

theorem relabel_relabel_entries (entries : List MetadataEntry) :
    relabelEntries second (relabelEntries first entries) =
      relabelEntries (second.comp first) entries := by
  match entries with
  | [] => rfl
  | .mk ⟨key, _⟩ ⟨node, _⟩ :: rest =>
    simp only [relabelEntries, relabel_relabel node, relabel_relabel_entries rest]
    rfl
end

def Relabel.KeepsText (change : Relabel) : Prop := ∀ text, (change.text text).expose = text.expose

variable {change : Relabel}

mutual
/-- Budgets depend on exposed texts and shapes only. -/
theorem measure_relabel (htext : change.KeepsText) (node : MetadataNode) (depth : Nat) :
    (node.relabel change).measure depth = node.measure depth := by
  cases node with
  | mk value sensitive folded =>
    have hvalue := measure_relabel_value htext value depth
    have hstring : (value.relabel change).isString = value.isString := by cases value <;> rfl
    simp only [MetadataNode.relabel, MetadataNode.measure, hvalue, hstring]

theorem measure_relabel_value (htext : change.KeepsText) (value : MetadataValue) (depth : Nat) :
    (value.relabel change).measure depth = value.measure depth := by
  cases value with
  | null => rfl
  | boolean value => rfl
  | number value => simp only [MetadataValue.relabel, MetadataValue.measure, htext _]
  | string value => simp only [MetadataValue.relabel, MetadataValue.measure, htext _]
  | sequence values => exact measure_relabel_sequence htext values (depth + 1) 32
  | mapping entries => exact measure_relabel_entries htext entries (depth + 1) [] 32

theorem measure_relabel_sequence (htext : change.KeepsText)
    (values : List (Sourced MetadataNode)) (depth bytes : Nat) :
    measureSequence (relabelSequence change values) depth bytes =
      measureSequence values depth bytes := by
  match values with
  | [] => rfl
  | ⟨node, _⟩ :: rest =>
    have hrest := fun total => measure_relabel_sequence htext rest depth total
    simp only [relabelSequence, measureSequence, measure_relabel htext node depth, hrest]

theorem measure_relabel_entries (htext : change.KeepsText) (entries : List MetadataEntry)
    (depth : Nat) (keys : List String) (bytes : Nat) :
    measureEntries (relabelEntries change entries) depth keys bytes =
      measureEntries entries depth keys bytes := by
  match entries with
  | [] => rfl
  | .mk ⟨key, _⟩ ⟨node, _⟩ :: rest =>
    have hrest := fun keys total => measure_relabel_entries htext rest depth keys total
    simp only [relabelEntries, measureEntries, measure_relabel htext node depth, hrest, htext _]
end
end Relabel

/-! ## Contents up to provenance -/

/-- The tree without any provenance. -/
def MetadataNode.erase (node : MetadataNode) : MetadataNode := node.relabel ⟨id, id, fun _ => []⟩

/-- Equal metadata but for the provenance of namespace, payload and their parts. -/
def VendorMetadata.SameContent (left right : VendorMetadata) : Prop :=
  left.scope = right.scope ∧ left.nameSpace.value = right.nameSpace.value ∧
    left.payload.value.erase = right.payload.value.erase

theorem measure_of_erase {left right : MetadataNode} (h : left.erase = right.erase) (depth : Nat) :
    left.measure depth = right.measure depth := by
  have herase : ∀ node : MetadataNode, node.erase.measure depth = node.measure depth :=
    fun node => measure_relabel (fun _ => rfl) node depth
  rw [← herase left, ← herase right, h]

/-! ## Protected contents -/

def Relabel.protect : Relabel := ⟨fun _ => true, fun text => .sensitive text.expose, id⟩

mutual
theorem protectContents_eq (node : MetadataNode) : node.protectContents = node.relabel .protect := by
  cases node with
  | mk value sensitive folded =>
    simp only [MetadataNode.protectContents, MetadataNode.relabel, protect_value_eq value]
    rfl

theorem protect_value_eq (value : MetadataValue) : value.protectContents = value.relabel .protect := by
  cases value with
  | null => rfl
  | boolean value => rfl
  | number value => rfl
  | string value => rfl
  | sequence values => exact congrArg MetadataValue.sequence (protectSequence_eq values)
  | mapping entries => exact congrArg MetadataValue.mapping (protectEntries_eq entries)

theorem protectSequence_eq (values : List (Sourced MetadataNode)) :
    protectSequence values = relabelSequence .protect values := by
  match values with
  | [] => rfl
  | ⟨node, _⟩ :: rest =>
    simp only [protectSequence, relabelSequence, protectContents_eq node, protectSequence_eq rest]
    rfl

theorem protectEntries_eq (entries : List MetadataEntry) :
    protectEntries entries = relabelEntries .protect entries := by
  match entries with
  | [] => rfl
  | .mk ⟨key, _⟩ ⟨node, _⟩ :: rest =>
    simp only [protectEntries, relabelEntries, protectContents_eq node, protectEntries_eq rest]
    rfl
end

theorem measure_protectContents (node : MetadataNode) (depth : Nat) :
    node.protectContents.measure depth = node.measure depth := by
  rw [protectContents_eq]
  exact measure_relabel (fun _ => rfl) node depth

theorem protectContents_idem (node : MetadataNode) :
    node.protectContents.protectContents = node.protectContents := by
  rw [protectContents_eq, protectContents_eq, relabel_relabel]
  rfl

theorem erase_protectContents (node : MetadataNode) :
    node.protectContents.erase = node.erase.protectContents := by
  rw [protectContents_eq, protectContents_eq, MetadataNode.erase, MetadataNode.erase,
    relabel_relabel, relabel_relabel]
  rfl

/-! ## Trees of the checked constructor -/

/-- The nodes directly below a value, in order. -/
def MetadataValue.children : MetadataValue → List MetadataNode
  | .sequence values => values.map Sourced.value
  | .mapping entries => entries.map fun entry => entry.value.value
  | _ => []

/-- Every node of the tree came out of `MetadataNode::new`. -/
inductive MetadataNode.Built : MetadataNode → Prop
  | new {value : MetadataValue} {sensitive folded : Bool} {node : MetadataNode}
      (children : ∀ child ∈ value.children, Built child)
      (built : MetadataNode.new value sensitive folded = .ok node) : Built node

/-- Every subtree is within its budget, and protected entirely if its root is. -/
inductive MetadataNode.Sound : MetadataNode → Prop
  | intro {node : MetadataNode} (children : ∀ child ∈ node.value.children, Sound child)
      (measured : ∃ size, node.measure 1 = .ok size)
      (closed : node.isSensitive = true → node.protectContents = node) : Sound node

theorem value_relabel (change : Relabel) (node : MetadataNode) :
    (node.relabel change).value = node.value.relabel change := by
  cases node
  rfl

theorem children_relabel (change : Relabel) (value : MetadataValue) :
    (value.relabel change).children = value.children.map (MetadataNode.relabel change) := by
  cases value with
  | null => rfl
  | boolean value => rfl
  | number value => rfl
  | string value => rfl
  | sequence values =>
    simp only [MetadataValue.relabel, MetadataValue.children]
    induction values with
    | nil => rfl
    | cons head rest ih =>
      obtain ⟨node, origins⟩ := head
      rw [relabelSequence, List.map_cons, List.map_cons, List.map_cons, ih]
  | mapping entries =>
    simp only [MetadataValue.relabel, MetadataValue.children]
    induction entries with
    | nil => rfl
    | cons head rest ih =>
      obtain ⟨⟨key, keyOrigins⟩, ⟨node, origins⟩⟩ := head
      rw [relabelEntries, List.map_cons, List.map_cons, List.map_cons, ih]
      rfl

theorem mem_children_protectContents {node child : MetadataNode}
    (h : child ∈ node.protectContents.value.children) :
    ∃ original ∈ node.value.children, child = original.protectContents := by
  rw [protectContents_eq, value_relabel, children_relabel] at h
  obtain ⟨original, horiginal, rfl⟩ := List.mem_map.mp h
  exact ⟨original, horiginal, (protectContents_eq original).symm⟩

theorem MetadataNode.Sound.protectContents {node : MetadataNode} (h : node.Sound) :
    node.protectContents.Sound := by
  induction h with
  | @intro node _ measured _ ih =>
    refine .intro ?_ ?_ ?_
    · intro child hchild
      obtain ⟨original, horiginal, rfl⟩ := mem_children_protectContents hchild
      exact ih original horiginal
    · rw [measure_protectContents]
      exact measured
    · exact fun _ => protectContents_idem node

theorem MetadataNode.new_eq_ok {value : MetadataValue} {sensitive folded : Bool}
    {node : MetadataNode} : MetadataNode.new value sensitive folded = .ok node ↔
      (∃ size, (MetadataNode.mk value sensitive folded).measure 1 = .ok size) ∧
        node = if (MetadataNode.mk value sensitive folded).isSensitive then
          (MetadataNode.mk value sensitive folded).protectContents
        else .mk value sensitive folded := by
  unfold MetadataNode.new
  rw [bind_eq_ok]
  constructor
  · rintro ⟨size, hsize, h⟩
    refine ⟨⟨size, hsize⟩, ?_⟩
    split at h
    · next hsensitive =>
      rw [if_pos hsensitive]
      exact (Except.ok.inj h).symm
    · next hplain =>
      rw [if_neg hplain]
      exact (Except.ok.inj h).symm
  · rintro ⟨⟨size, hsize⟩, rfl⟩
    refine ⟨size, hsize, ?_⟩
    split <;> rfl

theorem MetadataNode.Built.sound {node : MetadataNode} (h : node.Built) : node.Sound := by
  induction h with
  | @new value sensitive folded node _ built ih =>
    obtain ⟨hmeasured, rfl⟩ := MetadataNode.new_eq_ok.mp built
    split
    · refine .intro ?_ ?_ ?_
      · intro child hchild
        obtain ⟨original, horiginal, rfl⟩ := mem_children_protectContents hchild
        exact (ih original horiginal).protectContents
      · rw [measure_protectContents]
        exact hmeasured
      · exact fun _ => protectContents_idem _
    · next hplain => exact .intro ih hmeasured fun hsensitive => absurd hsensitive hplain

end Boxferry.Model
