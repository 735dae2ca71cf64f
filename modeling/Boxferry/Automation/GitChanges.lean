import Boxferry.Automation.Planner
import Boxferry.Library.Terminated

/-! # Changes that Git lists

The reader of a comparison in the `--name-status -z` form: a status, then the one or two
paths it is about, every field with a NUL after it. Git prints the similarity of a rename or
a copy with three digits. -/
namespace Boxferry.Automation
open Contracts
set_option autoImplicit false

/-! ## Reading -/

namespace Planner

def maxOutputBytes : Nat := 2000000

/-- `bytes.decode("ascii")` -/
def asciiText (field : List UInt8) : Option (List Char) :=
  if field.all (· < 128) then some (field.map fun byte => Char.ofNat byte.toNat) else none

def changeKind? : Char → Option ChangeKind
  | 'A' => some .added
  | 'M' => some .modified
  | 'D' => some .deleted
  | 'T' => some .typeChanged
  | 'R' => some .renamed
  | 'C' => some .copied
  | _ => none

/-- `100|[0-9]{1,2}` -/
def isSimilarity (digits : List Char) : Bool :=
  digits = ['1', '0', '0'] || ((digits.length = 1 || digits.length = 2) && digits.all Char.isDigit)

/-- The kind of change that a status stands for. -/
def readStatus (status : List Char) : Option ChangeKind :=
  match status with
  | [] => none
  | mark :: similarity =>
    match changeKind? mark with
    | none => none
    | some kind =>
      if (if kind.arity = 2 then isSimilarity similarity else similarity.isEmpty) then some kind else none

section Reading
variable (text : PythonText)

def malformed : ContractError := ⟨"Git change paths or statuses are malformed"⟩

def unsupportedStatus (status : List Char) : ContractError :=
  ⟨"unsupported Git change status " ++ text.repr (String.ofList status)⟩

def changedPath (field : List UInt8) : Checked String :=
  match Utf8Text.ofBytes field with
  | none => .error malformed
  | some path => relativePath (.str path) "changed path" false

/-- The change whose status is the first of the fields. -/
def readChange (status : List UInt8) (rest : List (List UInt8)) : Checked ChangeRecord :=
  match asciiText status with
  | none => .error malformed
  | some letters =>
    match readStatus letters with
    | none => .error (unsupportedStatus text letters)
    | some kind => do
      let names ← (rest.take kind.arity).mapM changedPath
      if h : names.length = kind.arity then pure ⟨kind, names, h⟩
      else .error ⟨"Git change record is incomplete"⟩

/-- The changes from the field at the index on; every field is read below the number of fields. -/
def readChanges (fields : List (List UInt8)) (index : Nat) (records : List ChangeRecord) :
    Checked (List ChangeRecord) :=
  if h : index < fields.length then
    match readChange text fields[index] (fields.drop (index + 1)) with
    | .error error => .error error
    | .ok record =>
      if pathCount (records ++ [record]) ≤ maxPaths then
        readChanges fields (index + 1 + record.kind.arity) (records ++ [record])
      else .error ⟨"Git comparison exceeded its changed-path bound"⟩
  else .ok records
termination_by fields.length - index
decreasing_by omega

def parseDiff (raw : List UInt8) : Checked (List ChangeRecord) :=
  if raw.length > maxOutputBytes ∨ (raw ≠ [] ∧ raw.getLast? ≠ some 0) then
    .error ⟨"Git comparison was truncated or exceeded its output bound"⟩
  else readChanges text (Terminated.fields 0 raw) 0 []

end Reading

/-! ## Writing -/

end Planner

def ChangeKind.letter : ChangeKind → Char
  | .added => 'A'
  | .modified => 'M'
  | .deleted => 'D'
  | .typeChanged => 'T'
  | .renamed => 'R'
  | .copied => 'C'

namespace Planner

/-- One listed change: its record, and the similarity that stands after the letter of a rename or copy. -/
structure Entry where
  record : ChangeRecord
  similarity : List Char

namespace Entry

def status (entry : Entry) : List Char :=
  entry.record.kind.letter :: if entry.record.kind.arity = 2 then entry.similarity else []

def fields (entry : Entry) : List (List UInt8) :=
  entry.status.map (fun ch => UInt8.ofNat ch.toNat) :: entry.record.names.map Utf8Text.bytes

/-- The paths are accepted as changed paths. -/
def Located (entry : Entry) : Prop :=
  ∀ name ∈ entry.record.names, relativePath (.str name) "changed path" false = .ok name

/-- Git prints the similarity, as three digits. -/
def Printed (entry : Entry) : Prop :=
  entry.record.kind.arity = 2 → ∃ similarity ≤ 100, entry.similarity =
    [Nat.digitChar (similarity / 100), Nat.digitChar (similarity / 10 % 10), Nat.digitChar (similarity % 10)]

/-- The similarity that the status grammar has. -/
def Read (entry : Entry) : Prop := entry.record.kind.arity = 2 → isSimilarity entry.similarity = true

/-- Nothing but the name is changed. -/
def Whole (entry : Entry) : Prop := entry.record.kind.arity = 2 → entry.similarity = ['1', '0', '0']

end Entry

/-- The listing of the changes. -/
def listing (entries : List Entry) : List UInt8 := Terminated.join 0 (entries.flatMap Entry.fields)

def records (entries : List Entry) : List ChangeRecord := entries.map Entry.record


/-! ## Statuses -/

section Statuses
variable {entry other : Entry} {letters : List Char} {kind : ChangeKind}

theorem changeKind_letter (kind : ChangeKind) : changeKind? kind.letter = some kind := by
  cases kind <;> rfl

theorem letter_of_changeKind {mark : Char} (h : changeKind? mark = some kind) : mark = kind.letter := by
  unfold changeKind? at h
  split at h <;> cases h <;> rfl

/-- ASCII text without a NUL. -/
def Ascii (chars : List Char) : Prop := ∀ ch ∈ chars, 0 < ch.toNat ∧ ch.toNat < 128

theorem isSimilarity_ascii {digits : List Char} (h : isSimilarity digits = true) : Ascii digits := by
  unfold isSimilarity at h
  rw [Bool.or_eq_true, decide_eq_true_eq, Bool.and_eq_true] at h
  rcases h with rfl | ⟨-, hdigits⟩
  · exact List.forall_iff_forall_mem.mp (by decide)
  · intro ch hch
    have hdigit := List.all_eq_true.mp hdigits ch hch
    have hbounds : 48 ≤ ch.toNat ∧ ch.toNat ≤ 57 := by
      unfold Char.isDigit at hdigit
      simpa [UInt32.le_iff_toNat_le] using hdigit
    omega

theorem digitChar_ascii :
    ∀ {digit : Nat}, digit < 10 → 0 < (Nat.digitChar digit).toNat ∧ (Nat.digitChar digit).toNat < 128 := by
  decide

/-- A printed similarity has three digits. -/
theorem Entry.Printed.digits (h : entry.Printed) (harity : entry.record.kind.arity = 2) :
    entry.similarity.length = 3 ∧ Ascii entry.similarity := by
  obtain ⟨similarity, hbound, hdigits⟩ := h harity
  rw [hdigits]
  refine ⟨rfl, ?_⟩
  intro ch hch
  simp only [List.mem_cons, List.not_mem_nil, or_false] at hch
  rcases hch with rfl | rfl | rfl <;> exact digitChar_ascii (by omega)

theorem Entry.ascii_status (h : entry.record.kind.arity = 2 → Ascii entry.similarity) : Ascii entry.status := by
  refine List.forall_mem_cons.mpr ⟨?_, ?_⟩
  · cases entry.record.kind <;> decide
  · split
    · next harity => exact h harity
    · exact fun ch hch => absurd hch List.not_mem_nil

theorem Entry.Printed.ascii (h : entry.Printed) : Ascii entry.status :=
  ascii_status fun harity => (h.digits harity).2

theorem Entry.Read.ascii (h : entry.Read) : Ascii entry.status :=
  ascii_status fun harity => isSimilarity_ascii (h harity)

/-- Of the printed similarities only the whole one is read. -/
theorem Entry.Printed.read_iff (h : entry.Printed) : entry.Read ↔ entry.Whole := by
  refine forall_congr' fun harity => ?_
  have hlength := (h.digits harity).1
  unfold isSimilarity
  rw [hlength]
  simp

theorem Entry.Whole.read (h : entry.Whole) : entry.Read := by
  intro harity
  rw [h harity]
  decide

theorem Entry.Whole.printed (h : entry.Whole) : entry.Printed := by
  intro harity
  exact ⟨100, le_refl 100, h harity⟩

theorem asciiText_map {chars : List Char} (h : Ascii chars) :
    asciiText (chars.map fun ch => UInt8.ofNat ch.toNat) = some chars := by
  have hback : ∀ ch ∈ chars, (UInt8.ofNat ch.toNat).toNat = ch.toNat := fun ch hch =>
    UInt8.toNat_ofNat_of_lt' (Nat.lt_trans (h ch hch).2 (by decide))
  have hall : (chars.map fun ch => UInt8.ofNat ch.toNat).all (· < 128) = true := by
    rw [List.all_map, List.all_eq_true]
    intro ch hch
    rw [Function.comp_apply, decide_eq_true_eq, UInt8.lt_iff_toNat_lt, hback ch hch]
    exact (h ch hch).2
  unfold asciiText
  rw [if_pos hall, List.map_map]
  congr 1
  refine (List.map_congr_left fun ch hch => ?_).trans (List.map_id chars)
  rw [Function.comp_apply, hback ch hch, Char.ofNat_toNat]
  rfl

theorem map_of_asciiText {field : List UInt8} (h : asciiText field = some letters) :
    field = letters.map fun ch => UInt8.ofNat ch.toNat := by
  unfold asciiText at h
  obtain ⟨hall, hmap⟩ := Option.ite_none_right_eq_some.mp h
  rw [← Option.some.inj hmap, List.map_map]
  refine ((List.map_congr_left fun byte _ => ?_).trans (List.map_id field)).symm
  rw [Function.comp_apply, Utf8Text.byte_of_char]
  rfl

/-- A status is read as the kind of its entry exactly when its similarity is read. -/
theorem readStatus_status : readStatus entry.status = some entry.record.kind ↔ entry.Read := by
  unfold readStatus Entry.status Entry.Read
  simp only [changeKind_letter]
  by_cases harity : entry.record.kind.arity = 2
  · simp [harity]
  · simp [harity]

theorem kind_of_readStatus (h : readStatus entry.status = some kind) : kind = entry.record.kind := by
  unfold readStatus Entry.status at h
  simp only [changeKind_letter] at h
  exact (Option.some.inj (Option.ite_none_right_eq_some.mp h).2).symm

/-- What is read as a kind is the status of an entry. -/
theorem status_of_readStatus (h : readStatus letters = some kind) :
    ∃ similarity, letters = kind.letter :: (if kind.arity = 2 then similarity else []) ∧
      (kind.arity = 2 → isSimilarity similarity = true) := by
  cases letters with
  | nil => cases h
  | cons mark similarity =>
    unfold readStatus at h
    dsimp only at h
    cases hmark : changeKind? mark with
    | none =>
      rw [hmark] at h
      cases h
    | some found =>
      rw [hmark] at h
      obtain ⟨hread, hfound⟩ := Option.ite_none_right_eq_some.mp h
      obtain rfl := Option.some.inj hfound
      refine ⟨similarity, ?_, fun harity => by rwa [if_pos harity] at hread⟩
      rw [letter_of_changeKind hmark]
      by_cases harity : found.arity = 2
      · rw [if_pos harity]
      · rw [if_neg harity, List.isEmpty_iff] at hread
        rw [if_neg harity, hread]

end Statuses

/-! ## One change -/

section Changes
variable {text : PythonText} {entry : Entry} {field : List UInt8} {rest : List (List UInt8)} {record : ChangeRecord}

theorem relativePath_eq_ok {path result : String} (h : relativePath (.str path) "changed path" false = .ok result) :
    result = path ∧ '\x00' ∉ path.toList := by
  unfold relativePath nonemptyText at h
  dsimp only at h
  split at h
  · cases h
  · next found hfound =>
    obtain rfl : path = found := (Option.some.inj (Option.ite_none_left_eq_some.mp hfound).2)
    obtain ⟨_, hmarks, h⟩ := Results.bind_eq_ok.mp h
    obtain ⟨_, -, h⟩ := Results.bind_eq_ok.mp h
    obtain ⟨_, -, h⟩ := Results.bind_eq_ok.mp h
    refine ⟨(Except.ok.inj h).symm, fun hnul => ?_⟩
    have hclean := require_eq_ok.mp hmarks
    rw [Bool.not_eq_true', Bool.or_eq_false_iff] at hclean
    have hcontains : Model.containsChar path '\x00' = true := List.contains_iff_mem.mpr hnul
    rw [hcontains] at hclean
    exact Bool.noConfusion hclean.1

theorem changedPath_eq_ok {path : String} :
    changedPath field = .ok path ↔
      field = Utf8Text.bytes path ∧ relativePath (.str path) "changed path" false = .ok path := by
  unfold changedPath
  constructor
  · intro h
    cases hdecoded : Utf8Text.ofBytes field with
    | none =>
      rw [hdecoded] at h
      cases h
    | some found =>
      rw [hdecoded] at h
      obtain rfl := (relativePath_eq_ok h).1
      exact ⟨(Utf8Text.bytes_of_ofBytes hdecoded).symm, h⟩
  · intro ⟨hfield, hpath⟩
    rw [hfield, Utf8Text.ofBytes_bytes]
    exact hpath

theorem mapM_changedPath {names : List String} {fields : List (List UInt8)} :
    fields.mapM changedPath = .ok names ↔ fields = names.map Utf8Text.bytes ∧
      ∀ name ∈ names, relativePath (.str name) "changed path" false = .ok name := by
  induction fields generalizing names with
  | nil =>
    constructor
    · intro h
      obtain rfl := Except.ok.inj h
      exact ⟨rfl, fun _ hname => absurd hname List.not_mem_nil⟩
    · intro ⟨hfields, _⟩
      obtain rfl := List.map_eq_nil_iff.mp hfields.symm
      rfl
  | cons field fields ih =>
    rw [List.mapM_cons, Results.bind_eq_ok]
    constructor
    · intro ⟨name, hname, h⟩
      obtain ⟨others, hothers, h⟩ := Results.bind_eq_ok.mp h
      obtain rfl := Except.ok.inj h
      obtain ⟨hfield, hpath⟩ := changedPath_eq_ok.mp hname
      obtain ⟨hfields, hpaths⟩ := ih.mp hothers
      exact ⟨by rw [List.map_cons, hfield, hfields], List.forall_mem_cons.mpr ⟨hpath, hpaths⟩⟩
    · intro ⟨hfields, hpaths⟩
      cases names with
      | nil => cases hfields
      | cons name names =>
        obtain ⟨hfield, hrest⟩ := List.cons.inj hfields
        obtain ⟨hpath, hothers⟩ := List.forall_mem_cons.mp hpaths
        refine ⟨name, changedPath_eq_ok.mpr ⟨hfield, hpath⟩, ?_⟩
        rw [ih.mpr ⟨hrest, hothers⟩]
        rfl

/-- The change of an entry is read from its fields exactly when its similarity is. -/
theorem readChange_entry (hascii : Ascii entry.status) (hlocated : entry.Located) :
    readChange text (entry.status.map fun ch => UInt8.ofNat ch.toNat)
      (entry.record.names.map Utf8Text.bytes ++ rest) = .ok record ↔ entry.Read ∧ record = entry.record := by
  unfold readChange
  rw [asciiText_map hascii]
  dsimp only
  constructor
  · intro h
    cases hstatus : readStatus entry.status with
    | none =>
      rw [hstatus] at h
      cases h
    | some kind =>
      obtain rfl := kind_of_readStatus hstatus
      refine ⟨readStatus_status.mp hstatus, ?_⟩
      rw [hstatus] at h
      obtain ⟨names, hnames, h⟩ := Results.bind_eq_ok.mp h
      have hlength : (entry.record.names.map Utf8Text.bytes).length = entry.record.kind.arity := by
        rw [List.length_map, entry.record.complete]
      rw [List.take_left' hlength] at hnames
      have hsame : names = entry.record.names := by
        have hfound := mapM_changedPath.mpr ⟨rfl, hlocated⟩
        rw [hfound] at hnames
        exact (Except.ok.inj hnames).symm
      subst hsame
      rw [dif_pos entry.record.complete] at h
      exact (Except.ok.inj h).symm
  · intro ⟨hread, hrecord⟩
    rw [readStatus_status.mpr hread]
    have hlength : (entry.record.names.map Utf8Text.bytes).length = entry.record.kind.arity := by
      rw [List.length_map, entry.record.complete]
    dsimp only
    rw [List.take_left' hlength, mapM_changedPath.mpr ⟨rfl, hlocated⟩]
    show dite _ _ _ = _
    rw [dif_pos entry.record.complete, hrecord]
    rfl

/-- What is read as a change are the fields of one entry of it. -/
theorem entry_of_readChange (h : readChange text field rest = .ok record) :
    ∃ entry : Entry, entry.record = record ∧ entry.Read ∧ entry.Located ∧
      field :: rest = entry.fields ++ rest.drop record.kind.arity := by
  unfold readChange at h
  cases hascii : asciiText field with
  | none =>
    rw [hascii] at h
    cases h
  | some letters =>
    rw [hascii] at h
    dsimp only at h
    cases hstatus : readStatus letters with
    | none =>
      rw [hstatus] at h
      cases h
    | some kind =>
      rw [hstatus] at h
      obtain ⟨names, hnames, h⟩ := Results.bind_eq_ok.mp h
      split at h
      · next hcomplete =>
        obtain rfl := Except.ok.inj h
        obtain ⟨similarity, hletters, hread⟩ := status_of_readStatus hstatus
        obtain ⟨hfields, hlocated⟩ := mapM_changedPath.mp hnames
        refine ⟨⟨⟨kind, names, hcomplete⟩, similarity⟩, rfl, hread, hlocated, ?_⟩
        rw [map_of_asciiText hascii, hletters]
        show _ = (_ :: names.map Utf8Text.bytes) ++ rest.drop kind.arity
        rw [← hfields, List.cons_append, List.take_append_drop]
        rfl
      · cases h

end Changes

/-! ## All changes -/

section Listings
variable {text : PythonText} {status : List UInt8} {fields rest : List (List UInt8)} {index : Nat}
  {done result : List ChangeRecord} {entries others : List Entry} {raw : List UInt8}

theorem pathCount_append (first second : List ChangeRecord) :
    pathCount (first ++ second) = pathCount first + pathCount second := by
  unfold pathCount
  rw [List.map_append, List.sum_append]

theorem readChanges_end (h : fields.drop index = []) : readChanges text fields index done = .ok done := by
  rw [readChanges, dif_neg]
  rw [List.drop_eq_nil_iff] at h
  omega

theorem readChanges_next (h : fields.drop index = status :: rest) :
    readChanges text fields index done = readChange text status rest >>= fun record =>
      if pathCount (done ++ [record]) ≤ maxPaths then
        readChanges text fields (index + 1 + record.kind.arity) (done ++ [record])
      else .error ⟨"Git comparison exceeded its changed-path bound"⟩ := by
  have hindex : index < fields.length := by
    by_contra houtside
    rw [List.drop_eq_nil_iff.mpr (Nat.le_of_not_lt houtside)] at h
    cases h
  rw [List.drop_eq_getElem_cons hindex] at h
  obtain ⟨hstatus, hrest⟩ := List.cons.inj h
  rw [readChanges, dif_pos hindex, hstatus, hrest]
  cases readChange text status rest <;> rfl

/-- Aligned with the entries, the reader goes from one status to the next. -/
theorem readChanges_entries (hfields : fields.drop index = entries.flatMap Entry.fields)
    (hentries : ∀ entry ∈ entries, Ascii entry.status ∧ entry.Located)
    (hbound : pathCount (done ++ records entries) ≤ maxPaths) :
    readChanges text fields index done = .ok result ↔
      (∀ entry ∈ entries, entry.Read) ∧ result = done ++ records entries := by
  induction entries generalizing index done with
  | nil =>
    rw [readChanges_end hfields]
    unfold records
    rw [List.map_nil, List.append_nil]
    constructor
    · intro h
      exact ⟨fun _ hentry => absurd hentry List.not_mem_nil, (Except.ok.inj h).symm⟩
    · intro ⟨_, hresult⟩
      rw [hresult]
  | cons entry entries ih =>
    obtain ⟨⟨hascii, hlocated⟩, hothers⟩ := List.forall_mem_cons.mp hentries
    have hsplit : done ++ records (entry :: entries) = (done ++ [entry.record]) ++ records entries :=
      (List.append_assoc done [entry.record] (records entries)).symm
    have hstep : pathCount (done ++ [entry.record]) ≤ maxPaths := by
      rw [hsplit, pathCount_append] at hbound
      omega
    rw [hsplit] at hbound ⊢
    rw [List.flatMap_cons] at hfields
    have hnext : fields.drop (index + 1 + entry.record.kind.arity) = entries.flatMap Entry.fields := by
      have hlength : entry.fields.length = 1 + entry.record.kind.arity := by
        unfold Entry.fields
        rw [List.length_cons, List.length_map, entry.record.complete, Nat.add_comm]
      rw [Nat.add_assoc, ← hlength, ← List.drop_drop, hfields, List.drop_left]
    rw [readChanges_next hfields, Results.bind_eq_ok, List.forall_mem_cons]
    constructor
    · intro ⟨record, hrecord, h⟩
      obtain ⟨hread, rfl⟩ := (readChange_entry hascii hlocated).mp hrecord
      rw [if_pos hstep] at h
      obtain ⟨hreads, hresult⟩ := (ih hnext hothers hbound).mp h
      exact ⟨⟨hread, hreads⟩, hresult⟩
    · intro ⟨⟨hread, hreads⟩, hresult⟩
      refine ⟨entry.record, (readChange_entry hascii hlocated).mpr ⟨hread, rfl⟩, ?_⟩
      rw [if_pos hstep]
      exact (ih hnext hothers hbound).mpr ⟨hreads, hresult⟩

/-- What the reader accepts are the fields of entries. -/
theorem entries_of_readChanges (h : readChanges text fields index done = .ok result)
    (hdone : pathCount done ≤ maxPaths) :
    ∃ entries, fields.drop index = entries.flatMap Entry.fields ∧ result = done ++ records entries ∧
      pathCount result ≤ maxPaths ∧ ∀ entry ∈ entries, entry.Read ∧ entry.Located := by
  generalize hleft : fields.length - index = left
  induction left using Nat.strongRecOn generalizing index done with
  | ind left ih =>
    cases hfields : fields.drop index with
    | nil =>
      rw [readChanges_end hfields] at h
      obtain rfl := Except.ok.inj h
      exact ⟨[], rfl, (List.append_nil done).symm, hdone, fun _ hentry => absurd hentry List.not_mem_nil⟩
    | cons status rest =>
      rw [readChanges_next hfields] at h
      obtain ⟨record, hrecord, h⟩ := Results.bind_eq_ok.mp h
      obtain ⟨entry, rfl, hread, hlocated, hentry⟩ := entry_of_readChange hrecord
      split at h
      · next hstep =>
        have hindex : index < fields.length := by
          by_contra houtside
          rw [List.drop_eq_nil_iff.mpr (Nat.le_of_not_lt houtside)] at hfields
          cases hfields
        obtain ⟨entries, hnext, hresult, hbound, hentries⟩ := ih _ (by omega) h hstep rfl
        refine ⟨entry :: entries, ?_, ?_, hbound, List.forall_mem_cons.mpr ⟨⟨hread, hlocated⟩, hentries⟩⟩
        · have hrest : rest.drop entry.record.kind.arity = entries.flatMap Entry.fields := by
            rw [← hnext, Nat.add_assoc, ← List.drop_drop, hfields, Nat.add_comm, List.drop_succ_cons]
          rw [hentry, hrest, List.flatMap_cons]
        · rw [hresult, List.append_assoc]
          rfl
      · cases h

end Listings

/-! ## Round trips -/

section RoundTrips
variable {text : PythonText} {entry : Entry} {entries others : List Entry} {raw : List UInt8}
  {result : List ChangeRecord}

/-- Accepted paths hold no NUL, and neither does a status. -/
theorem nul_not_mem_fields (hascii : Ascii entry.status) (hlocated : entry.Located) {field : List UInt8}
    (h : field ∈ entry.fields) : 0 ∉ field := by
  rcases List.mem_cons.mp h with rfl | hpath
  · rw [← Utf8Text.bytes_ascii fun ch hch => (hascii ch hch).2]
    exact Utf8Text.zero_not_mem_bytes fun hnul => absurd (hascii _ hnul).1 (by decide)
  · obtain ⟨name, hname, rfl⟩ := List.mem_map.mp hpath
    have hnul := (relativePath_eq_ok (hlocated name hname)).2
    rw [← String.ofList_toList (s := name)]
    exact Utf8Text.zero_not_mem_bytes hnul

theorem fields_listing (h : ∀ entry ∈ entries, Ascii entry.status ∧ entry.Located) :
    Terminated.fields 0 (listing entries) = entries.flatMap Entry.fields := by
  refine Terminated.fields_join fun field hfield => ?_
  obtain ⟨entry, hentry, hfield⟩ := List.mem_flatMap.mp hfield
  exact nul_not_mem_fields (h entry hentry).1 (h entry hentry).2 hfield

/-- Within the byte and path bounds. -/
structure Bounded (entries : List Entry) : Prop where
  bytes : (listing entries).length ≤ maxOutputBytes
  paths : pathCount (records entries) ≤ maxPaths

/-- A bounded listing is read back exactly when each of its similarities is read. -/
theorem parseDiff_listing (hbounded : Bounded entries)
    (h : ∀ entry ∈ entries, Ascii entry.status ∧ entry.Located) :
    parseDiff text (listing entries) = .ok result ↔
      (∀ entry ∈ entries, entry.Read) ∧ result = records entries := by
  have hbytes := hbounded.bytes
  have hended : Terminated.Ended 0 (listing entries) := Terminated.ended_join
  have haccepted : ¬ ((listing entries).length > maxOutputBytes ∨
      (listing entries ≠ [] ∧ (listing entries).getLast? ≠ some 0)) := by
    intro hrejected
    rcases hrejected with hlong | ⟨hnonempty, hlast⟩
    · omega
    · exact hended.elim hnonempty hlast
  unfold parseDiff
  rw [if_neg haccepted, fields_listing h]
  exact readChanges_entries List.drop_zero h hbounded.paths

/-- What is accepted is the listing of entries that are read. -/
theorem listing_of_parseDiff (h : parseDiff text raw = .ok result) :
    ∃ entries, raw = listing entries ∧ result = records entries ∧ Bounded entries ∧
      ∀ entry ∈ entries, entry.Read ∧ entry.Located := by
  unfold parseDiff at h
  split at h
  · cases h
  · next haccepted =>
    obtain ⟨hbytes, hended⟩ := not_or.mp haccepted
    have hraw : Terminated.Ended 0 raw := by
      by_contra hnone
      obtain ⟨hnonempty, hlast⟩ := not_or.mp hnone
      exact hended ⟨hnonempty, hlast⟩
    obtain ⟨entries, hfields, hresult, hbound, hentries⟩ := entries_of_readChanges h (Nat.zero_le maxPaths)
    rw [List.drop_zero] at hfields
    have hlisting : raw = listing entries := by
      unfold listing
      rw [← hfields, Terminated.join_fields hraw]
    rw [List.nil_append] at hresult
    refine ⟨entries, hlisting, hresult, ⟨?_, ?_⟩, hentries⟩
    · rw [← hlisting]
      exact Nat.le_of_not_lt hbytes
    · rw [← hresult]
      exact hbound

/-- The same records with the same fields have the same similarities. -/
theorem whole_of_fields (hrecords : records entries = records others)
    (hfields : entries.flatMap Entry.fields = others.flatMap Entry.fields)
    (hread : ∀ entry ∈ entries, entry.Read) (hwhole : ∀ other ∈ others, other.Whole) :
    ∀ entry ∈ entries, entry.Whole := by
  induction entries generalizing others with
  | nil => exact fun entry hentry => absurd hentry List.not_mem_nil
  | cons entry entries ih =>
    cases others with
    | nil => cases hrecords
    | cons other others =>
      obtain ⟨hrecord, hrest⟩ := List.cons.inj hrecords
      obtain ⟨hthis, hreads⟩ := List.forall_mem_cons.mp hread
      obtain ⟨hother, hwholes⟩ := List.forall_mem_cons.mp hwhole
      rw [List.flatMap_cons, List.flatMap_cons] at hfields
      obtain ⟨hstatus, hnext⟩ := List.cons.inj hfields
      have hlater : entries.flatMap Entry.fields = others.flatMap Entry.fields := by
        rw [show entry.record = other.record from hrecord] at hnext
        exact List.append_cancel_left hnext
      refine List.forall_mem_cons.mpr ⟨fun harity => ?_, ih hrest hlater hreads hwholes⟩
      have hsame : entry.status = other.status := by
        have hletters := asciiText_map hthis.ascii
        rw [hstatus, asciiText_map hother.printed.ascii] at hletters
        exact (Option.some.inj hletters).symm
      have harityOther : other.record.kind.arity = 2 := by
        rw [← show entry.record = other.record from hrecord]
        exact harity
      unfold Entry.status at hsame
      rw [if_pos harity, if_pos harityOther, hother harityOther] at hsame
      exact (List.cons.inj hsame).2

/-- What Git prints is read exactly when every similarity is the whole one, and what is read is what
Git prints exactly then. -/
theorem parse_diff_name_status (text : PythonText) :
    (∀ entries, Bounded entries → (∀ entry ∈ entries, entry.Printed ∧ entry.Located) →
      (parseDiff text (listing entries) = .ok (records entries) ↔ ∀ entry ∈ entries, entry.Whole)) ∧
    ∀ raw result, parseDiff text raw = .ok result →
      ∃ entries, raw = listing entries ∧ result = records entries ∧ Bounded entries ∧
        (∀ entry ∈ entries, entry.Read ∧ entry.Located) ∧
        ((∃ others, raw = listing others ∧ result = records others ∧
          ∀ other ∈ others, other.Printed ∧ other.Located) ↔ ∀ entry ∈ entries, entry.Whole) := by
  constructor
  · intro entries hbounded hentries
    have hascii : ∀ entry ∈ entries, Ascii entry.status ∧ entry.Located := fun entry hentry =>
      ⟨(hentries entry hentry).1.ascii, (hentries entry hentry).2⟩
    rw [parseDiff_listing hbounded hascii]
    constructor
    · intro ⟨hread, _⟩ entry hentry
      exact (hentries entry hentry).1.read_iff.mp (hread entry hentry)
    · intro hwhole
      exact ⟨fun entry hentry => (hwhole entry hentry).read, rfl⟩
  · intro raw result h
    obtain ⟨entries, hraw, hresult, hbounded, hentries⟩ := listing_of_parseDiff h
    refine ⟨entries, hraw, hresult, hbounded, hentries, ?_⟩
    have hascii : ∀ entry ∈ entries, Ascii entry.status ∧ entry.Located := fun entry hentry =>
      ⟨(hentries entry hentry).1.ascii, (hentries entry hentry).2⟩
    constructor
    · intro ⟨others, hlisted, hrecords, hothers⟩
      have hotherAscii : ∀ other ∈ others, Ascii other.status ∧ other.Located := fun other hother =>
        ⟨(hothers other hother).1.ascii, (hothers other hother).2⟩
      have hfields : entries.flatMap Entry.fields = others.flatMap Entry.fields := by
        rw [← fields_listing hascii, ← fields_listing hotherAscii, ← hraw, ← hlisted]
      have hotherBounded : Bounded others := by
        refine ⟨?_, ?_⟩
        · rw [← hlisted, hraw]
          exact hbounded.bytes
        · rw [← hrecords, hresult]
          exact hbounded.paths
      rw [hlisted, parseDiff_listing hotherBounded hotherAscii] at h
      exact whole_of_fields (hresult.symm.trans hrecords) hfields (fun entry hentry => (hentries entry hentry).1)
        fun other hother => (hothers other hother).1.read_iff.mp (h.1 other hother)
    · intro hwhole
      exact ⟨entries, hraw, hresult, fun entry hentry =>
        ⟨(hwhole entry hentry).printed, (hentries entry hentry).2⟩⟩

/-- An addition, a deletion and a rename of unchanged contents. -/
def plainChanges : List Entry :=
  [⟨⟨.added, ["new.md"], rfl⟩, []⟩, ⟨⟨.deleted, ["old.md"], rfl⟩, []⟩,
    ⟨⟨.renamed, ["a.md", "b.md"], rfl⟩, ['1', '0', '0']⟩]

theorem parse_diff_name_status_plain :
    parseDiff ⟨id, Char.isAlphanum⟩ (listing plainChanges) = .ok (records plainChanges) := by
  have hwhole : ∀ entry ∈ plainChanges, entry.Whole := by
    unfold plainChanges Entry.Whole
    decide
  have hlocated : ∀ entry ∈ plainChanges, entry.Located := by
    unfold plainChanges Entry.Located
    decide +kernel
  exact ((parse_diff_name_status ⟨id, Char.isAlphanum⟩).1 plainChanges ⟨by decide +kernel, by decide +kernel⟩
    fun entry hentry => ⟨(hwhole entry hentry).printed, hlocated entry hentry⟩).mpr hwhole

/-- A rename with half of its contents changed. -/
def editedRename : Entry := ⟨⟨.renamed, ["a.md", "b.md"], rfl⟩, ['0', '5', '0']⟩

theorem edited_rename_is_refused :
    (Bounded [editedRename] ∧ ∀ entry ∈ [editedRename], entry.Printed ∧ entry.Located) ∧
      ∀ result, parseDiff ⟨id, Char.isAlphanum⟩ (listing [editedRename]) ≠ .ok result := by
  have hprinted : editedRename.Printed := fun _ => ⟨50, by decide, rfl⟩
  have hlocated : editedRename.Located := by
    unfold editedRename Entry.Located
    decide +kernel
  have hbounded : Bounded [editedRename] := ⟨by decide +kernel, by decide +kernel⟩
  refine ⟨⟨hbounded, List.forall_mem_singleton.mpr ⟨hprinted, hlocated⟩⟩, fun result h => ?_⟩
  have hascii : ∀ entry ∈ [editedRename], Ascii entry.status ∧ entry.Located :=
    List.forall_mem_singleton.mpr ⟨hprinted.ascii, hlocated⟩
  have hread := ((parseDiff_listing hbounded hascii).mp h).1 editedRename List.mem_cons_self
  exact absurd (hread rfl) (by decide)

end RoundTrips
end Planner
end Boxferry.Automation
