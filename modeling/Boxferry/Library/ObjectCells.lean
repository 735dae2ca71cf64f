import Mathlib.Data.List.AList
import Mathlib.Logic.Function.Basic
import Boxferry.Library.Interruptible

/-! # Cells of objects

A cell for each object that was made, written in place. A step that writes only at or above
a mark spares every object below it, however it ends; and a loop over objects follows the
loop over the values that they hold. -/
namespace ObjectCells
open Interruptible
set_option autoImplicit false

universe u
variable {α ε σ τ : Type u}

structure Cells (α : Type u) where
  read : Nat → α
  next : Nat

def Cells.alloc (cells : Cells α) (value : α) : Cells α where
  read := Function.update cells.read cells.next value
  next := cells.next + 1

def Cells.write (cells : Cells α) (address : Nat) (value : α) : Cells α :=
  { cells with read := Function.update cells.read address value }

variable {cells first middle last : Cells α} {mark address : Nat} {value : α}

@[simp] theorem read_alloc : (cells.alloc value).read cells.next = value := Function.update_self _ _ _

@[simp] theorem read_write : (cells.write address value).read address = value := Function.update_self _ _ _

@[simp] theorem next_alloc : (cells.alloc value).next = cells.next + 1 := rfl

@[simp] theorem next_write : (cells.write address value).next = cells.next := rfl

theorem read_alloc_of_lt (h : address < cells.next) : (cells.alloc value).read address = cells.read address :=
  Function.update_of_ne (Nat.ne_of_lt h) _ _

/-- No cell below the mark is written, and none is taken back. -/
structure Spares (mark : Nat) (first last : Cells α) : Prop where
  grows : first.next ≤ last.next
  same : ∀ address < mark, last.read address = first.read address

theorem Spares.refl (mark : Nat) (cells : Cells α) : Spares mark cells cells := ⟨le_refl _, fun _ _ => rfl⟩

theorem Spares.trans (h : Spares mark first middle) (hnext : Spares mark middle last) : Spares mark first last where
  grows := Nat.le_trans h.grows hnext.grows
  same address hbelow := (hnext.same address hbelow).trans (h.same address hbelow)

theorem spares_alloc (h : mark ≤ cells.next) : Spares mark cells (cells.alloc value) where
  grows := Nat.le_succ _
  same _ hbelow := read_alloc_of_lt (Nat.lt_of_lt_of_le hbelow h)

theorem spares_write (h : mark ≤ address) : Spares mark cells (cells.write address value) where
  grows := le_refl _
  same _ hbelow := Function.update_of_ne (Nat.ne_of_lt (Nat.lt_of_lt_of_le hbelow h)) _ _

/-! ## Tables of objects -/

variable {κ : Type u}

/-- What a table of objects holds, each object by what is in its cell. -/
def resolve (read : Nat → α) (table : AList fun _ : κ => Nat) : AList fun _ : κ => α where
  entries := table.entries.map (Sigma.map id fun _ => read)
  nodupKeys := table.nodupKeys.map₂ fun _ => read

theorem entries_resolve (read : Nat → α) (table : AList fun _ : κ => Nat) :
    (resolve read table).entries = table.entries.map (Sigma.map id fun _ => read) := rfl

theorem resolve_congr {read other : Nat → α} {table : AList fun _ : κ => Nat}
    (h : ∀ entry ∈ table.entries, read entry.2 = other entry.2) : resolve read table = resolve other table := by
  apply AList.ext
  apply List.map_congr_left
  intro entry hentry
  rw [Sigma.map, Sigma.map, h entry hentry]

variable {table copy : AList fun _ : κ => Nat}

/-- Every object of the table was made. -/
def Made (cells : Cells α) (table : AList fun _ : κ => Nat) : Prop := ∀ entry ∈ table.entries, entry.2 < cells.next

theorem Made.resolve_eq (h : Made first table) (hspares : Spares first.next first last) :
    resolve last.read table = resolve first.read table :=
  resolve_congr fun entry hentry => hspares.same entry.2 (h entry hentry)

variable [DecidableEq κ] {key : κ} {read : Nat → α}

theorem lookup_resolve : (resolve read table).lookup key = (table.lookup key).map read :=
  List.dlookup_map₂ key

theorem resolve_insert : resolve read (table.insert key address) = (resolve read table).insert key (read address) := by
  apply AList.ext
  apply (entries_resolve read (table.insert key address)).trans
  rw [AList.entries_insert, AList.entries_insert, List.map_cons, entries_resolve, List.kerase, List.kerase,
    List.eraseP_map]
  rfl

theorem mem_insert_entries {entry : Sigma fun _ : κ => Nat} (h : entry ∈ (table.insert key address).entries) :
    entry.2 = address ∨ entry ∈ table.entries := by
  rw [AList.entries_insert] at h
  rcases List.mem_cons.mp h with rfl | hkept
  · exact Or.inl rfl
  · exact Or.inr ((List.kerase_sublist _ _).subset hkept)

theorem Made.insert_alloc (h : Made cells table) :
    Made (cells.alloc value) (table.insert key cells.next) ∧
      resolve (cells.alloc value).read (table.insert key cells.next) = (resolve cells.read table).insert key value := by
  constructor
  · intro entry hentry
    rw [next_alloc]
    rcases mem_insert_entries hentry with hnew | hold
    · omega
    · exact Nat.lt_succ_of_lt (h entry hold)
  · rw [resolve_insert, read_alloc, h.resolve_eq (spares_alloc (le_refl _))]

def copyEntry (state : Cells α × AList fun _ : κ => Nat) (entry : Sigma fun _ : κ => Nat) :
    Cells α × AList fun _ : κ => Nat :=
  (state.1.alloc (state.1.read entry.2), state.2.insert entry.1 state.1.next)

/-- A copy of a table whose objects are copies too. -/
def copyTable (cells : Cells α) (table : AList fun _ : κ => Nat) : Cells α × AList fun _ : κ => Nat :=
  table.entries.reverse.foldl copyEntry (cells, ∅)

theorem foldl_copyEntry (entries : List (Sigma fun _ : κ => Nat)) (hentries : ∀ entry ∈ entries, entry.2 < mark)
    (hmark : mark ≤ cells.next) (hcopy : Made cells copy) :
    Spares mark cells (entries.foldl copyEntry (cells, copy)).1 ∧
    Made (entries.foldl copyEntry (cells, copy)).1 (entries.foldl copyEntry (cells, copy)).2 ∧
    resolve (entries.foldl copyEntry (cells, copy)).1.read (entries.foldl copyEntry (cells, copy)).2 =
      entries.foldl (fun table entry => table.insert entry.1 (cells.read entry.2)) (resolve cells.read copy) := by
  induction entries generalizing cells copy with
  | nil => exact ⟨Spares.refl _ _, hcopy, rfl⟩
  | cons entry entries ih =>
    obtain ⟨hentry, hrest⟩ := List.forall_mem_cons.mp hentries
    have hspares : Spares mark cells (cells.alloc (cells.read entry.2)) := spares_alloc hmark
    obtain ⟨hmade, hresolve⟩ : Made (cells.alloc (cells.read entry.2)) (copy.insert entry.1 cells.next) ∧ _ :=
      hcopy.insert_alloc
    obtain ⟨hlast, hcopied, hequal⟩ := ih hrest (Nat.le_trans hmark hspares.grows) hmade
    refine ⟨hspares.trans hlast, hcopied, hequal.trans ?_⟩
    rw [hresolve, List.foldl_cons]
    apply List.foldl_ext
    intro held other hother
    rw [hspares.same other.2 (hrest other hother)]

/-- Entering the entries of a table, the oldest first, gives the table. -/
theorem foldl_insert_entries (table : AList fun _ : κ => α) :
    table.entries.reverse.foldl (fun held entry => held.insert entry.1 entry.2) ∅ = table := by
  induction table using AList.insertRec with
  | H0 => rfl
  | IH key value table hfresh ih =>
    rw [AList.entries_insert_of_notMem hfresh, List.reverse_cons, List.foldl_concat, ih]

theorem copyTable_spec (h : Made cells table) : Spares cells.next cells (copyTable cells table).1 ∧
    Made (copyTable cells table).1 (copyTable cells table).2 ∧
    resolve (copyTable cells table).1.read (copyTable cells table).2 = resolve cells.read table := by
  have hall : ∀ entry ∈ table.entries.reverse, entry.2 < cells.next :=
    fun entry hentry => h entry (List.mem_reverse.mp hentry)
  have hempty : Made cells (∅ : AList fun _ : κ => Nat) := fun entry hentry => absurd hentry List.not_mem_nil
  obtain ⟨hspares, hmade, hequal⟩ := foldl_copyEntry _ hall (le_refl _) hempty
  refine ⟨hspares, hmade, hequal.trans ?_⟩
  rw [← foldl_insert_entries (resolve cells.read table), entries_resolve, ← List.map_reverse, List.foldl_map]
  rfl

/-! ## Steps that follow a function on values -/

/-- The step ends as the outcome says, in a state that holds the outcome's value; and the state
it ends in is framed, also where it is interrupted. -/
def Arrives (holds : τ → σ → Prop) (framed : σ → Prop) (step : Step ε σ PUnit) (outcome : Except ε τ)
    (start : σ) : Prop :=
  Leads step start fun answer last => framed last ∧ answer = outcome.map (fun _ => ⟨⟩) ∧
    ∀ next, outcome = .ok next → holds next last

/-- From states that hold a value the step arrives where the function does. -/
def Tracks (holds : τ → σ → Prop) (framed : σ → Prop) (step : Step ε σ PUnit) (function : τ → Except ε τ) : Prop :=
  ∀ value start, holds value start → Arrives holds framed step (function value) start

variable {holds : τ → σ → Prop} {framed : σ → Prop} {step : Step ε σ PUnit} {function : τ → Except ε τ}
  {outcome : Except ε τ} {start : σ}

theorem arrives_ok {next : τ} (houtcome : outcome = .ok next)
    (hframed : ∀ {value state}, holds value state → framed state)
    (h : Leads step start fun answer last => answer = .ok ⟨⟩ ∧ holds next last) :
    Arrives holds framed step outcome start := by
  refine h.mono fun answer last hlast => ⟨hframed hlast.2, ?_, ?_⟩
  · rw [houtcome, hlast.1]
    rfl
  · intro other hother
    rw [houtcome] at hother
    exact Except.ok.inj hother ▸ hlast.2

theorem arrives_error {failure : ε} (houtcome : outcome = .error failure)
    (h : Leads step start fun answer last => answer = .error failure ∧ framed last) :
    Arrives holds framed step outcome start := by
  refine h.mono fun answer last hlast => ⟨hlast.2, ?_, ?_⟩
  · rw [houtcome, hlast.1]
    rfl
  · intro other hother
    rw [houtcome] at hother
    cases hother

theorem Tracks.bind {other : Step ε σ PUnit} {follow : τ → Except ε τ} (h : Tracks holds framed step function)
    (hother : Tracks holds framed other follow) :
    Tracks holds framed (step >>= fun _ => other) fun value => function value >>= follow := by
  intro value start hstart
  unfold Arrives
  rw [leads_bind]
  refine Leads.mono (h value start hstart) ?_
  rintro answer last ⟨hframed, hanswer, hholds⟩
  cases hfunction : function value with
  | error failure =>
    rw [hfunction] at hanswer
    have hbind : (function value >>= follow) = .error failure := by rw [hfunction]; rfl
    subst hanswer
    dsimp only
    rw [hbind]
    refine ⟨hframed, rfl, fun next hnext => ?_⟩
    cases hnext
  | ok middle =>
    rw [hfunction] at hanswer
    have hbind : (function value >>= follow) = follow middle := by rw [hfunction]; rfl
    subst hanswer
    dsimp only
    rw [hbind]
    exact hother middle last (hholds middle hfunction)

theorem tracks_pure (h : ∀ value state, holds value state → framed state) :
    Tracks holds framed (pure ⟨⟩ : Step ε σ PUnit) .ok := by
  intro value start hstart
  refine ⟨h value start hstart, rfl, fun next hnext => ?_⟩
  cases hnext
  exact hstart

theorem tracks_forM {ι : Type u} {steps : ι → Step ε σ PUnit} {functions : τ → ι → Except ε τ} (entries : List ι)
    (hframed : ∀ value state, holds value state → framed state)
    (h : ∀ entry ∈ entries, Tracks holds framed (steps entry) fun value => functions value entry) :
    Tracks holds framed (entries.forM steps) fun value => entries.foldlM functions value := by
  induction entries with
  | nil => exact tracks_pure hframed
  | cons entry entries ih =>
    have hfirst := h entry List.mem_cons_self
    exact hfirst.bind (ih fun other hother => h other (List.mem_cons_of_mem entry hother))

/-- What is read off a state that holds a value is known. -/
theorem tracks_get {next : σ → Step ε σ PUnit} (other : Step ε σ PUnit)
    (hsame : ∀ value state, holds value state → next state = other) (h : Tracks holds framed other function) :
    Tracks holds framed ((get : Step ε σ σ) >>= next) function := by
  intro value start hstart
  unfold Arrives
  rw [leads_bind, leads_get]
  show Leads (next start) start _
  rw [hsame value start hstart]
  exact h value start hstart

/-! ## Loops over a part -/

/-- A loop that changes one part only is the loop over that part. -/
theorem foldlM_part {ι ν : Type u} (part : τ → ν) (replace : τ → ν → τ) (entries : List ι) (step : ν → ι → Except ε ν)
    (hpart : ∀ whole changed, part (replace whole changed) = changed)
    (hself : ∀ whole, replace whole (part whole) = whole)
    (htwice : ∀ whole changed other, replace (replace whole changed) other = replace whole other) (whole : τ) :
    entries.foldlM (fun whole entry => (step (part whole) entry).map (replace whole)) whole =
      (entries.foldlM step (part whole)).map (replace whole) := by
  induction entries generalizing whole with
  | nil => exact congrArg Except.ok (hself whole).symm
  | cons entry entries ih =>
    rw [List.foldlM_cons, List.foldlM_cons]
    cases step (part whole) entry with
    | error failure => rfl
    | ok changed =>
      apply (ih (replace whole changed)).trans
      rw [hpart, funext (htwice whole changed)]
      rfl

end ObjectCells
