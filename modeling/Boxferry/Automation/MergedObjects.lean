import Boxferry.Automation.MergedBudgets
import Boxferry.Library.ObjectCells

/-! # Budgets merged in place

The merge as the interpreter runs it: the dictionaries of the states are objects, the result is
a deep copy of the selected state, and its dictionaries are written entry by entry. It gives the
union of the values, and writes nothing that was there before, not even when it raises. -/
namespace Boxferry.Automation.Eligibility
open Interruptible ObjectCells
set_option autoImplicit false

/-- The dictionaries of the states; an entry of `recoveries` is an object of its own. -/
structure Store where
  reruns : Cells Reruns
  recoveries : Cells (AList fun _ : String => Nat)
  reservations : Cells Reservation
  firstSeen : Cells FirstSeen

/-- Where the dictionaries of a state are; the first two may be absent. -/
structure Objects where
  reruns : Option Nat
  recoveries : Option Nat
  firstSeen : Nat
  /-- What the merge neither reads nor writes. -/
  rest : Payload

abbrev Merging (α : Type) : Type := Step Interrupt Store α

/-! ## The merge -/

/-- The copy of the dictionary, or the default that is set in the copied state. -/
def ownReruns (address : Option Nat) : Merging Nat := do
  let store ← get
  modify fun store => { store with reruns := store.reruns.alloc (address.elim ∅ store.reruns.read) }
  return store.reruns.next

def ownRecoveries (address : Option Nat) : Merging Nat := do
  let store ← get
  modify fun store => { store with
    reservations := (copyTable store.reservations (address.elim ∅ store.recoveries.read)).1
    recoveries := store.recoveries.alloc (copyTable store.reservations (address.elim ∅ store.recoveries.read)).2 }
  return store.recoveries.next

def ownSeen (address : Nat) : Merging Nat := do
  let store ← get
  modify fun store => { store with firstSeen := store.firstSeen.alloc (store.firstSeen.read address) }
  return store.firstSeen.next

theorem rerunsConflict_ne : "same-C history has conflicting normal retry budgets" ≠ "" := by decide

theorem recoveriesConflict_ne : "same-C history has conflicting original recovery bindings" ≠ "" := by decide

def mergeRerunAt (reruns : Nat) (entry : Sigma fun _ : String => Nat) : Merging PUnit := do
  let store ← get
  let table := store.reruns.read reruns
  if (table.lookup entry.1).any (· ≠ entry.2) then
    throw (.refused (text "same-C history has conflicting normal retry budgets" rerunsConflict_ne))
  else modify fun store => { store with reruns := store.reruns.write reruns (table.insert entry.1 entry.2) }

/-- Enters a copy of the reservation. -/
def reserveCopy (recoveries : Nat) (entry : Sigma fun _ : String => Nat) : Merging PUnit :=
  modify fun store => { store with
    reservations := store.reservations.alloc (store.reservations.read entry.2)
    recoveries := store.recoveries.write recoveries
      ((store.recoveries.read recoveries).insert entry.1 store.reservations.next) }

def mergeRecoveryAt (recoveries : Nat) (entry : Sigma fun _ : String => Nat) : Merging PUnit := do
  let store ← get
  match (store.recoveries.read recoveries).lookup entry.1 with
  | none => reserveCopy recoveries entry
  | some existing =>
    if (store.reservations.read existing).bindings ≠ (store.reservations.read entry.2).bindings then
      throw (.refused (text "same-C history has conflicting original recovery bindings" recoveriesConflict_ne))
    else if (store.reservations.read existing).phase ≠ .prepared then return ⟨⟩
    else reserveCopy recoveries entry

def mergeSeenAt (firstSeen : Nat) (entry : Sigma fun _ : String => Moment) : Merging PUnit := do
  let store ← get
  let table := store.firstSeen.read firstSeen
  if (table.lookup entry.1).all (entry.2 < ·) then
    modify fun store => { store with firstSeen := store.firstSeen.write firstSeen (table.insert entry.1 entry.2) }
  else return ⟨⟩

def mergeRerunsAt (reruns : Nat) (payload : Objects) : Merging PUnit := do
  let store ← get
  (payload.reruns.elim ∅ store.reruns.read).entries.reverse.forM (mergeRerunAt reruns)

def mergeRecoveriesAt (recoveries : Nat) (payload : Objects) : Merging PUnit := do
  let store ← get
  (payload.recoveries.elim ∅ store.recoveries.read).entries.reverse.forM (mergeRecoveryAt recoveries)

def mergeFirstSeenAt (firstSeen : Nat) (payload : Objects) : Merging PUnit := do
  let store ← get
  (store.firstSeen.read payload.firstSeen).entries.reverse.forM (mergeSeenAt firstSeen)

def mergeBudgetAt (reruns recoveries firstSeen : Nat) (payload : Objects) : Merging PUnit := do
  mergeRerunsAt reruns payload
  mergeRecoveriesAt recoveries payload
  mergeFirstSeenAt firstSeen payload

def mergeBudgetsAt (selected : Objects) (evidence : List Objects) : Merging Objects := do
  let reruns ← ownReruns selected.reruns
  let recoveries ← ownRecoveries selected.recoveries
  let firstSeen ← ownSeen selected.firstSeen
  evidence.forM (mergeBudgetAt reruns recoveries firstSeen)
  return { reruns := some reruns, recoveries := some recoveries, firstSeen := firstSeen, rest := selected.rest }

/-! ## What the objects hold -/

def Store.recovered (store : Store) (address : Nat) : Recoveries :=
  resolve store.reservations.read (store.recoveries.read address)

/-- The state as a value. -/
def Store.payload (store : Store) (objects : Objects) : Payload :=
  { objects.rest with
    reruns := objects.reruns.elim ∅ store.reruns.read
    recoveries := objects.recoveries.elim ∅ store.recovered
    firstSeen := store.firstSeen.read objects.firstSeen }

/-- The dictionaries of the state, and the reservations in them, were made. -/
structure Allocated (store : Store) (objects : Objects) : Prop where
  reruns : ∀ address ∈ objects.reruns, address < store.reruns.next
  recoveries : ∀ address ∈ objects.recoveries, address < store.recoveries.next
  reservations : ∀ address ∈ objects.recoveries, Made store.reservations (store.recoveries.read address)
  firstSeen : objects.firstSeen < store.firstSeen.next

/-- No object of the first store was written. -/
structure Untouched (origin store : Store) : Prop where
  reruns : Spares origin.reruns.next origin.reruns store.reruns
  recoveries : Spares origin.recoveries.next origin.recoveries store.recoveries
  reservations : Spares origin.reservations.next origin.reservations store.reservations
  firstSeen : Spares origin.firstSeen.next origin.firstSeen store.firstSeen

variable {origin store last : Store} {objects selected : Objects}

theorem Untouched.recovered (h : Untouched origin store) {address : Nat} (hmade : address < origin.recoveries.next)
    (hentries : Made origin.reservations (origin.recoveries.read address)) :
    store.recovered address = origin.recovered address := by
  rw [Store.recovered, h.recoveries.same address hmade, hentries.resolve_eq h.reservations]
  rfl

theorem Untouched.elim_reruns (h : Untouched origin store) (hallocated : Allocated origin objects) :
    objects.reruns.elim ∅ store.reruns.read = objects.reruns.elim ∅ origin.reruns.read := by
  cases hobjects : objects.reruns with
  | none => rfl
  | some address => exact h.reruns.same address (hallocated.reruns address hobjects)

theorem Untouched.elim_recoveries (h : Untouched origin store) (hallocated : Allocated origin objects) :
    objects.recoveries.elim ∅ store.recoveries.read = objects.recoveries.elim ∅ origin.recoveries.read := by
  cases hobjects : objects.recoveries with
  | none => rfl
  | some address => exact h.recoveries.same address (hallocated.recoveries address hobjects)

theorem Untouched.payload (h : Untouched origin store) (hallocated : Allocated origin objects) :
    store.payload objects = origin.payload objects := by
  have hrecoveries : objects.recoveries.elim ∅ store.recovered = objects.recoveries.elim ∅ origin.recovered := by
    cases hobjects : objects.recoveries with
    | none => rfl
    | some address =>
      exact h.recovered (hallocated.recoveries address hobjects) (hallocated.reservations address hobjects)
  rw [Store.payload, h.elim_reruns hallocated, hrecoveries, h.firstSeen.same _ hallocated.firstSeen]
  rfl

/-! ## The result under construction -/

/-- The result's dictionaries were made after the first store, hold the value, and nothing that
was there before is written. -/
structure Building (origin : Store) (rest : Payload) (reruns recoveries firstSeen : Nat) (value : Payload)
    (store : Store) : Prop where
  untouched : Untouched origin store
  ownReruns : origin.reruns.next ≤ reruns
  ownRecoveries : origin.recoveries.next ≤ recoveries
  ownSeen : origin.firstSeen.next ≤ firstSeen
  made : Made store.reservations (store.recoveries.read recoveries)
  holds : store.payload ⟨some reruns, some recoveries, firstSeen, rest⟩ = value

variable {rest value : Payload} {reruns recoveries firstSeen : Nat}

theorem Building.writeReruns (h : Building origin rest reruns recoveries firstSeen value store) (table : Reruns) :
    Building origin rest reruns recoveries firstSeen { value with reruns := table }
      { store with reruns := store.reruns.write reruns table } where
  untouched := { h.untouched with reruns := h.untouched.reruns.trans (spares_write h.ownReruns) }
  ownReruns := h.ownReruns
  ownRecoveries := h.ownRecoveries
  ownSeen := h.ownSeen
  made := h.made
  holds := by
    rw [← h.holds]
    simp only [Store.payload, Option.elim, read_write]
    rfl

theorem Building.writeSeen (h : Building origin rest reruns recoveries firstSeen value store) (table : FirstSeen) :
    Building origin rest reruns recoveries firstSeen { value with firstSeen := table }
      { store with firstSeen := store.firstSeen.write firstSeen table } where
  untouched := { h.untouched with firstSeen := h.untouched.firstSeen.trans (spares_write h.ownSeen) }
  ownReruns := h.ownReruns
  ownRecoveries := h.ownRecoveries
  ownSeen := h.ownSeen
  made := h.made
  holds := by
    rw [← h.holds]
    simp only [Store.payload, Option.elim, read_write]
    rfl

theorem Building.reserve (h : Building origin rest reruns recoveries firstSeen value store) (key : String)
    (entry : Reservation) : Building origin rest reruns recoveries firstSeen
      { value with recoveries := value.recoveries.insert key entry }
      { store with
        reservations := store.reservations.alloc entry
        recoveries := store.recoveries.write recoveries
          ((store.recoveries.read recoveries).insert key store.reservations.next) } where
  untouched := { h.untouched with
    reservations := h.untouched.reservations.trans (spares_alloc h.untouched.reservations.grows)
    recoveries := h.untouched.recoveries.trans (spares_write h.ownRecoveries) }
  ownReruns := h.ownReruns
  ownRecoveries := h.ownRecoveries
  ownSeen := h.ownSeen
  made := by
    rw [read_write]
    exact h.made.insert_alloc.1
  holds := by
    rw [← h.holds]
    simp only [Store.payload, Option.elim, Store.recovered, read_write, h.made.insert_alloc.2]

/-! ## Each step follows the merge of values -/

theorem mergeRerunAt_tracks (entry : Sigma fun _ : String => Nat) :
    Tracks (Building origin rest reruns recoveries firstSeen) (Untouched origin) (mergeRerunAt reruns entry)
      fun value => (mergeRerun value.reruns entry).map fun table => { value with reruns := table } := by
  intro value store hstore
  have hread : value.reruns = store.reruns.read reruns := by rw [← hstore.holds]; rfl
  have hwritten := hstore.writeReruns ((store.reruns.read reruns).insert entry.1 entry.2)
  by_cases hclash : ((store.reruns.read reruns).lookup entry.1).any (· ≠ entry.2)
  · have hpure : mergeRerun value.reruns entry =
        .error (.refused (text "same-C history has conflicting normal retry budgets" rerunsConflict_ne)) := by
      unfold mergeRerun
      rw [hread]
      cases hlookup : (store.reruns.read reruns).lookup entry.1 with
      | none => rw [hlookup] at hclash; cases hclash
      | some identifier =>
        rw [hlookup] at hclash
        exact if_pos (of_decide_eq_true hclash)
    refine arrives_error (congrArg (Except.map _) hpure) ?_
    unfold mergeRerunAt
    rw [leads_bind, leads_get]
    dsimp only
    rw [if_pos hclash]
    exact ⟨rfl, hstore.untouched⟩
  · have hpure : mergeRerun value.reruns entry = .ok ((store.reruns.read reruns).insert entry.1 entry.2) := by
      unfold mergeRerun
      rw [hread]
      cases hlookup : (store.reruns.read reruns).lookup entry.1 with
      | none => rfl
      | some identifier =>
        rw [hlookup] at hclash
        exact if_neg fun hother => hclash (decide_eq_true hother)
    refine arrives_ok (congrArg (Except.map _) hpure) Building.untouched ?_
    unfold mergeRerunAt
    rw [leads_bind, leads_get]
    dsimp only
    rw [if_neg hclash]
    exact ⟨rfl, hwritten⟩

theorem reserveCopy_leads (hstore : Building origin rest reruns recoveries firstSeen value store)
    (entry : Sigma fun _ : String => Nat) :
    Leads (reserveCopy recoveries entry) store fun answer last => answer = .ok ⟨⟩ ∧
      Building origin rest reruns recoveries firstSeen
        { value with recoveries := value.recoveries.insert entry.1 (store.reservations.read entry.2) } last :=
  ⟨rfl, hstore.reserve entry.1 (store.reservations.read entry.2)⟩

theorem mergeRecoveryAt_tracks (entry : Sigma fun _ : String => Nat) (hentry : entry.2 < origin.reservations.next) :
    Tracks (Building origin rest reruns recoveries firstSeen) (Untouched origin) (mergeRecoveryAt recoveries entry)
      fun value => (mergeRecovery value.recoveries ⟨entry.1, origin.reservations.read entry.2⟩).map
        fun table => { value with recoveries := table } := by
  intro value store hstore
  have hread : value.recoveries = store.recovered recoveries := by rw [← hstore.holds]; rfl
  have hincoming := hstore.untouched.reservations.same entry.2 hentry
  have hcopied := reserveCopy_leads hstore entry
  have hlookup : value.recoveries.lookup entry.1 =
      ((store.recoveries.read recoveries).lookup entry.1).map store.reservations.read := by
    rw [hread, Store.recovered, lookup_resolve]
  rw [← hincoming]
  cases hexisting : (store.recoveries.read recoveries).lookup entry.1 with
  | none =>
    rw [hexisting] at hlookup
    have hpure : mergeRecovery value.recoveries ⟨entry.1, store.reservations.read entry.2⟩ =
        .ok (value.recoveries.insert entry.1 (store.reservations.read entry.2)) := by
      unfold mergeRecovery
      rw [hlookup]
      rfl
    refine arrives_ok (congrArg (Except.map _) hpure) Building.untouched ?_
    unfold mergeRecoveryAt
    rw [leads_bind, leads_get]
    dsimp only
    rw [hexisting]
    exact hcopied
  | some existing =>
    rw [hexisting, Option.map_some] at hlookup
    by_cases hother : (store.reservations.read existing).bindings ≠ (store.reservations.read entry.2).bindings
    · have hpure : mergeRecovery value.recoveries ⟨entry.1, store.reservations.read entry.2⟩ =
          .error (.refused
            (text "same-C history has conflicting original recovery bindings" recoveriesConflict_ne)) := by
        unfold mergeRecovery
        rw [hlookup]
        exact if_pos hother
      refine arrives_error (congrArg (Except.map _) hpure) ?_
      unfold mergeRecoveryAt
      rw [leads_bind, leads_get]
      dsimp only
      rw [hexisting]
      dsimp only
      rw [if_pos hother]
      exact ⟨rfl, hstore.untouched⟩
    · by_cases hspent : (store.reservations.read existing).phase ≠ .prepared
      · have hpure : mergeRecovery value.recoveries ⟨entry.1, store.reservations.read entry.2⟩ =
            .ok value.recoveries := by
          unfold mergeRecovery
          rw [hlookup]
          dsimp only
          rw [if_neg hother, if_pos hspent]
        refine arrives_ok (congrArg (Except.map _) hpure) Building.untouched ?_
        unfold mergeRecoveryAt
        rw [leads_bind, leads_get]
        dsimp only
        rw [hexisting]
        dsimp only
        rw [if_neg hother, if_pos hspent]
        exact ⟨rfl, hstore⟩
      · have hpure : mergeRecovery value.recoveries ⟨entry.1, store.reservations.read entry.2⟩ =
            .ok (value.recoveries.insert entry.1 (store.reservations.read entry.2)) := by
          unfold mergeRecovery
          rw [hlookup]
          dsimp only
          rw [if_neg hother, if_neg hspent]
        refine arrives_ok (congrArg (Except.map _) hpure) Building.untouched ?_
        unfold mergeRecoveryAt
        rw [leads_bind, leads_get]
        dsimp only
        rw [hexisting]
        dsimp only
        rw [if_neg hother, if_neg hspent]
        exact hcopied

theorem mergeSeenAt_tracks (entry : Sigma fun _ : String => Moment) :
    Tracks (Building origin rest reruns recoveries firstSeen) (Untouched origin) (mergeSeenAt firstSeen entry)
      fun value => (.ok (mergeSeen value.firstSeen entry) : Except Interrupt FirstSeen).map
        fun table => { value with firstSeen := table } := by
  intro value store hstore
  have hread : value.firstSeen = store.firstSeen.read firstSeen := by rw [← hstore.holds]; rfl
  have hwritten := hstore.writeSeen ((store.firstSeen.read firstSeen).insert entry.1 entry.2)
  by_cases hearlier : ((store.firstSeen.read firstSeen).lookup entry.1).all (entry.2 < ·)
  · have hpure : mergeSeen value.firstSeen entry = (store.firstSeen.read firstSeen).insert entry.1 entry.2 := by
      unfold mergeSeen
      rw [hread]
      cases hlookup : (store.firstSeen.read firstSeen).lookup entry.1 with
      | none => rfl
      | some earlier =>
        rw [hlookup] at hearlier
        exact if_pos (of_decide_eq_true hearlier)
    refine arrives_ok (congrArg (Except.map _) (congrArg Except.ok hpure)) Building.untouched ?_
    unfold mergeSeenAt
    rw [leads_bind, leads_get]
    dsimp only
    rw [if_pos hearlier]
    exact ⟨rfl, hwritten⟩
  · have hpure : mergeSeen value.firstSeen entry = value.firstSeen := by
      unfold mergeSeen
      rw [hread]
      cases hlookup : (store.firstSeen.read firstSeen).lookup entry.1 with
      | none => rw [hlookup] at hearlier; exact absurd rfl hearlier
      | some earlier =>
        rw [hlookup] at hearlier
        exact if_neg fun hbefore => hearlier (decide_eq_true hbefore)
    refine arrives_ok (congrArg (Except.map _) (congrArg Except.ok hpure)) Building.untouched ?_
    unfold mergeSeenAt
    rw [leads_bind, leads_get]
    dsimp only
    rw [if_neg hearlier]
    exact ⟨rfl, hstore⟩

theorem foldlM_reruns (entries : List (Sigma fun _ : String => Nat)) (value : Payload) :
    entries.foldlM (fun (value : Payload) entry =>
        (mergeRerun value.reruns entry).map fun table => { value with reruns := table }) value =
      (entries.foldlM mergeRerun value.reruns).map fun table => { value with reruns := table } :=
  foldlM_part Payload.reruns (fun value table => { value with reruns := table }) entries mergeRerun
    (fun _ _ => rfl) (fun _ => rfl) (fun _ _ _ => rfl) value

theorem foldlM_recoveries (entries : List (Sigma fun _ : String => Reservation)) (value : Payload) :
    entries.foldlM (fun (value : Payload) entry =>
        (mergeRecovery value.recoveries entry).map fun table => { value with recoveries := table }) value =
      (entries.foldlM mergeRecovery value.recoveries).map fun table => { value with recoveries := table } :=
  foldlM_part Payload.recoveries (fun value table => { value with recoveries := table }) entries mergeRecovery
    (fun _ _ => rfl) (fun _ => rfl) (fun _ _ _ => rfl) value

theorem foldlM_seen (entries : List (Sigma fun _ : String => Moment)) (value : Payload) :
    entries.foldlM (fun (value : Payload) entry =>
        (.ok (mergeSeen value.firstSeen entry) : Except Interrupt FirstSeen).map
          fun table => { value with firstSeen := table }) value =
      .ok { value with firstSeen := entries.foldl mergeSeen value.firstSeen } := by
  have hpart := foldlM_part Payload.firstSeen (fun value table => { value with firstSeen := table }) entries
    (fun table entry => (.ok (mergeSeen table entry) : Except Interrupt FirstSeen))
    (fun _ _ => rfl) (fun _ => rfl) (fun _ _ _ => rfl) value
  rw [foldlM_mergeSeen] at hpart
  exact hpart

/-- The merge of one state, ledger after ledger. -/
theorem mergeBudget_eq (payload value : Payload) : mergeBudget value payload =
    (do
      let value ← payload.reruns.entries.reverse.foldlM (fun (value : Payload) entry =>
        (mergeRerun value.reruns entry).map fun table => { value with reruns := table }) value
      let value ← payload.recoveries.entries.reverse.foldlM (fun (value : Payload) entry =>
        (mergeRecovery value.recoveries entry).map fun table => { value with recoveries := table }) value
      payload.firstSeen.entries.reverse.foldlM (fun (value : Payload) entry =>
        (.ok (mergeSeen value.firstSeen entry) : Except Interrupt FirstSeen).map
          fun table => { value with firstSeen := table }) value) := by
  unfold mergeBudget
  simp only [foldlM_reruns, foldlM_recoveries, foldlM_seen]
  cases payload.reruns.entries.reverse.foldlM mergeRerun value.reruns with
  | error failure => rfl
  | ok reruns =>
    cases hrecoveries : payload.recoveries.entries.reverse.foldlM mergeRecovery value.recoveries with
    | error failure => simp [bind, Except.bind, Except.map, hrecoveries]
    | ok recoveries => simp [bind, Except.bind, Except.map, pure, Except.pure, hrecoveries]

theorem Building.framed : ∀ value store, Building origin rest reruns recoveries firstSeen value store →
    Untouched origin store :=
  fun _ _ hstore => hstore.untouched

variable {payload : Objects}

theorem mergeRerunsAt_tracks (hallocated : Allocated origin payload) :
    Tracks (Building origin rest reruns recoveries firstSeen) (Untouched origin) (mergeRerunsAt reruns payload)
      fun value => (origin.payload payload).reruns.entries.reverse.foldlM (fun (value : Payload) entry =>
        (mergeRerun value.reruns entry).map fun table => { value with reruns := table }) value := by
  refine tracks_get _ ?_ (tracks_forM _ Building.framed fun entry _ => mergeRerunAt_tracks entry)
  intro value store hstore
  rw [hstore.untouched.elim_reruns hallocated]
  rfl

theorem mergeRecoveriesAt_tracks (hallocated : Allocated origin payload) :
    Tracks (Building origin rest reruns recoveries firstSeen) (Untouched origin) (mergeRecoveriesAt recoveries payload)
      fun value => (origin.payload payload).recoveries.entries.reverse.foldlM (fun (value : Payload) entry =>
        (mergeRecovery value.recoveries entry).map fun table => { value with recoveries := table }) value := by
  have hentries : (origin.payload payload).recoveries.entries.reverse =
      (payload.recoveries.elim ∅ origin.recoveries.read).entries.reverse.map
        (Sigma.map id fun _ => origin.reservations.read) := by
    rw [List.map_reverse, ← entries_resolve]
    unfold Store.payload
    cases payload.recoveries <;> rfl
  have hmade : ∀ entry ∈ (payload.recoveries.elim ∅ origin.recoveries.read).entries.reverse,
      entry.2 < origin.reservations.next := by
    intro entry hentry
    cases hobjects : payload.recoveries with
    | none =>
      rw [hobjects] at hentry
      cases hentry
    | some address =>
      rw [hobjects] at hentry
      exact hallocated.reservations address hobjects entry (List.mem_reverse.mp hentry)
  rw [hentries]
  simp only [List.foldlM_map]
  refine tracks_get _ ?_ (tracks_forM _ Building.framed fun entry hentry =>
    mergeRecoveryAt_tracks entry (hmade entry hentry))
  intro value store hstore
  rw [hstore.untouched.elim_recoveries hallocated]

theorem mergeFirstSeenAt_tracks (hallocated : Allocated origin payload) :
    Tracks (Building origin rest reruns recoveries firstSeen) (Untouched origin) (mergeFirstSeenAt firstSeen payload)
      fun value => (origin.payload payload).firstSeen.entries.reverse.foldlM (fun (value : Payload) entry =>
        (.ok (mergeSeen value.firstSeen entry) : Except Interrupt FirstSeen).map
          fun table => { value with firstSeen := table }) value := by
  refine tracks_get _ ?_ (tracks_forM _ Building.framed fun entry _ => mergeSeenAt_tracks entry)
  intro value store hstore
  rw [hstore.untouched.firstSeen.same _ hallocated.firstSeen]
  rfl

theorem mergeBudgetAt_tracks (hallocated : Allocated origin payload) :
    Tracks (Building origin rest reruns recoveries firstSeen) (Untouched origin)
      (mergeBudgetAt reruns recoveries firstSeen payload) fun value => mergeBudget value (origin.payload payload) := by
  rw [funext (mergeBudget_eq (origin.payload payload))]
  exact (mergeRerunsAt_tracks hallocated).bind
    ((mergeRecoveriesAt_tracks hallocated).bind (mergeFirstSeenAt_tracks hallocated))

/-! ## The copy that is written -/

/-- The store with the copied dictionaries of a state. -/
def Store.owned (store : Store) (objects : Objects) : Store where
  reruns := store.reruns.alloc (objects.reruns.elim ∅ store.reruns.read)
  recoveries := store.recoveries.alloc
    (copyTable store.reservations (objects.recoveries.elim ∅ store.recoveries.read)).2
  reservations := (copyTable store.reservations (objects.recoveries.elim ∅ store.recoveries.read)).1
  firstSeen := store.firstSeen.alloc (store.firstSeen.read objects.firstSeen)

/-- The copy holds what the selected state holds. -/
theorem building_owned (h : Allocated origin selected) :
    Building origin selected.rest origin.reruns.next origin.recoveries.next origin.firstSeen.next
      (origin.payload selected) (origin.owned selected) := by
  have hmade : Made origin.reservations (selected.recoveries.elim ∅ origin.recoveries.read) := by
    cases hobjects : selected.recoveries with
    | none => exact fun entry hentry => absurd hentry List.not_mem_nil
    | some address => exact h.reservations address hobjects
  obtain ⟨hspares, hcopied, hequal⟩ := copyTable_spec hmade
  have hrecovered : selected.recoveries.elim ∅ origin.recovered =
      resolve origin.reservations.read (selected.recoveries.elim ∅ origin.recoveries.read) := by
    cases selected.recoveries <;> rfl
  refine ⟨⟨spares_alloc (le_refl _), spares_alloc (le_refl _), hspares, spares_alloc (le_refl _)⟩,
    le_refl _, le_refl _, le_refl _, ?_, ?_⟩
  · show Made _ ((origin.recoveries.alloc _).read origin.recoveries.next)
    rw [read_alloc]
    exact hcopied
  · simp only [Store.payload, Option.elim_some, Store.recovered, Store.owned, read_alloc, hequal]
    rw [← hrecovered]

/-- The merge in place gives the merge of the values, and leaves every object that was there. -/
theorem mergeBudgetsAt_leads {evidence : List Objects} (hselected : Allocated origin selected)
    (hevidence : ∀ payload ∈ evidence, Allocated origin payload) :
    Leads (mergeBudgetsAt selected evidence) origin fun answer last => Untouched origin last ∧
      answer.map last.payload = mergeBudgets (origin.payload selected) (evidence.map origin.payload) := by
  have hloop := tracks_forM evidence Building.framed (fun payload hpayload =>
    mergeBudgetAt_tracks (hevidence payload hpayload)) _ _ (building_owned hselected)
  have hcopied : Leads (mergeBudgetsAt selected evidence) origin = Leads (do
      evidence.forM (mergeBudgetAt origin.reruns.next origin.recoveries.next origin.firstSeen.next)
      return ⟨some origin.reruns.next, some origin.recoveries.next, origin.firstSeen.next, selected.rest⟩)
      (origin.owned selected) := rfl
  rw [hcopied, leads_bind]
  refine Leads.mono hloop ?_
  rintro answer last ⟨hframed, hanswer, hholds⟩
  dsimp only at hanswer hholds
  unfold mergeBudgets
  rw [List.foldlM_map]
  cases houtcome : evidence.foldlM (fun value payload => mergeBudget value (origin.payload payload))
      (origin.payload selected) with
  | error failure =>
    rw [houtcome] at hanswer
    subst hanswer
    exact ⟨hframed, rfl⟩
  | ok merged =>
    rw [houtcome] at hanswer
    subst hanswer
    exact ⟨hframed, congrArg Except.ok (hholds merged houtcome).holds⟩

/-- A merge ends well exactly when the merge of the values does, and with its value. -/
theorem mergeBudgetsAt_result {evidence : List Objects} (hselected : Allocated origin selected)
    (hevidence : ∀ payload ∈ evidence, Allocated origin payload) :
    ((∃ failure, result (mergeBudgetsAt selected evidence) origin = .error failure) ↔
      ¬ ∃ merged, mergeBudgets (origin.payload selected) (evidence.map origin.payload) = .ok merged) ∧
    ∀ merged, result (mergeBudgetsAt selected evidence) origin = .ok merged →
      mergeBudgets (origin.payload selected) (evidence.map origin.payload) =
        .ok ((after (mergeBudgetsAt selected evidence) origin).payload merged) := by
  obtain ⟨-, hmap⟩ := mergeBudgetsAt_leads hselected hevidence
  rw [← hmap]
  cases result (mergeBudgetsAt selected evidence) origin with
  | error failure =>
    refine ⟨⟨fun _ ⟨merged, hmerged⟩ => ?_, fun _ => ⟨failure, rfl⟩⟩, fun merged hmerged => ?_⟩
    · cases hmerged
    · cases hmerged
  | ok objects =>
    refine ⟨⟨fun ⟨failure, hfailure⟩ => ?_, fun hnone => absurd ⟨_, rfl⟩ hnone⟩, fun merged hmerged => ?_⟩
    · cases hfailure
    · rw [← Except.ok.inj hmerged]
      rfl

/-- The merge raises exactly when two of the states clash; otherwise it unites them, whatever the order
and the repetition of the evidence, and it writes none of them. -/
theorem merge_budgets_union {evidence : List Objects} (hselected : Allocated store selected)
    (hevidence : ∀ payload ∈ evidence, Allocated store payload) :
    ((∃ failure, result (mergeBudgetsAt selected evidence) store = .error failure) ↔
      Clashing (store.payload selected :: evidence.map store.payload)) ∧
    (∀ merged, result (mergeBudgetsAt selected evidence) store = .ok merged →
      Unites (store.payload selected :: evidence.map store.payload)
        ((after (mergeBudgetsAt selected evidence) store).payload merged)) ∧
    (∀ others : List Objects, (∀ payload ∈ others, Allocated store payload) →
      (∀ payload, payload ∈ others.map store.payload ↔ payload ∈ evidence.map store.payload) →
      ((∃ failure, result (mergeBudgetsAt selected others) store = .error failure) ↔
        ∃ failure, result (mergeBudgetsAt selected evidence) store = .error failure) ∧
      ∀ merged, result (mergeBudgetsAt selected evidence) store = .ok merged →
        ∀ other, result (mergeBudgetsAt selected others) store = .ok other →
          SameLedgers ((after (mergeBudgetsAt selected evidence) store).payload merged)
            ((after (mergeBudgetsAt selected others) store).payload other)) ∧
    ∀ payload ∈ selected :: evidence,
      (after (mergeBudgetsAt selected evidence) store).payload payload = store.payload payload := by
  have hunion : ∀ others : List Objects, (∀ payload ∈ others, Allocated store payload) →
      ((∃ failure, result (mergeBudgetsAt selected others) store = .error failure) ↔
        Clashing (store.payload selected :: others.map store.payload)) ∧
      ∀ merged, result (mergeBudgetsAt selected others) store = .ok merged →
        Unites (store.payload selected :: others.map store.payload)
          ((after (mergeBudgetsAt selected others) store).payload merged) := by
    intro others hothers
    obtain ⟨hraises, hvalue⟩ := mergeBudgetsAt_result hselected hothers
    have hself : ¬ Clashing [store.payload selected] := by
      rintro ⟨first, hfirst, second, hsecond, hclash⟩
      rw [List.mem_singleton.mp hfirst, List.mem_singleton.mp hsecond] at hclash
      exact not_clash_self hclash
    have hsingle : Unites [store.payload selected] (store.payload selected) := unites_singleton
    obtain ⟨hmerges, hunites⟩ :
        ((∃ merged, (others.map store.payload).foldlM mergeBudget (store.payload selected) = .ok merged) ↔ _) ∧ _ :=
      hsingle.foldlM hself
    exact ⟨hraises.trans (not_iff_comm.mp hmerges.symm), fun merged hmerged => hunites _ (hvalue merged hmerged)⟩
  obtain ⟨hraises, hunites⟩ := hunion evidence hevidence
  refine ⟨hraises, hunites, fun others hothers hsame => ?_, fun payload hpayload => ?_⟩
  · obtain ⟨hothersRaise, hothersUnite⟩ := hunion others hothers
    have hmembers : ∀ payload, payload ∈ store.payload selected :: others.map store.payload ↔
        payload ∈ store.payload selected :: evidence.map store.payload := by
      intro payload
      rw [List.mem_cons, List.mem_cons, hsame]
    refine ⟨?_, fun merged hmerged other hother => ?_⟩
    · rw [hraises, hothersRaise]
      exact ⟨fun h => clashing_of_subset h fun payload => (hmembers payload).mp,
        fun h => clashing_of_subset h fun payload => (hmembers payload).mpr⟩
    · exact (hunites merged hmerged).sameLedgers ((hothersUnite other hother).congr hmembers)
  · have hallocated : Allocated store payload := by
      rcases List.mem_cons.mp hpayload with rfl | hmem
      · exact hselected
      · exact hevidence payload hmem
    exact (mergeBudgetsAt_leads hselected hevidence).1.payload hallocated

namespace Spent

def fields : Payload where
  repository := "demo"
  workflowPath := workflowPath
  runId := 1
  runAttempt := some 1
  implementationRevision := "demo"
  observedAt := 0
  firstSeen := ∅
  reruns := ∅
  recoveries := ∅
  frontier := none
  reports := ∅

/-- One state, whose head has been run again, and which has no reservation. -/
def heap : Store where
  reruns := ⟨fun _ => AList.singleton "head" 7, 1⟩
  recoveries := ⟨fun _ => ∅, 0⟩
  reservations := ⟨fun _ => ⟨⟨.handoff, 1, 1, "", "", none, none, none, none, none⟩, .prepared, 0, 1, "", none, none,
    none, none⟩, 0⟩
  firstSeen := ⟨fun _ => ∅, 1⟩

def state : Objects := ⟨some 0, none, 0, fields⟩

theorem allocated_state : Allocated heap state := by
  refine ⟨?_, ?_, ?_, Nat.zero_lt_one⟩
  · rintro address ⟨⟩
    exact Nat.zero_lt_one
  · rintro address ⟨⟩
  · rintro address ⟨⟩

end Spent

/-- A state merged with itself is accepted, and stays as it is. -/
theorem merge_budgets_union_self :
    (¬ ∃ failure, result (mergeBudgetsAt Spent.state [Spent.state]) Spent.heap = .error failure) ∧
    (after (mergeBudgetsAt Spent.state [Spent.state]) Spent.heap).payload Spent.state =
      Spent.heap.payload Spent.state := by
  have hevidence : List.Forall (Allocated Spent.heap) [Spent.state] := Spent.allocated_state
  obtain ⟨hraises, -, -, hkept⟩ := merge_budgets_union Spent.allocated_state (List.forall_iff_forall_mem.mp hevidence)
  refine ⟨?_, hkept Spent.state List.mem_cons_self⟩
  rw [hraises]
  rintro ⟨first, hfirst, second, hsecond, hclash⟩
  simp only [List.map_cons, List.map_nil, List.mem_cons, List.not_mem_nil, or_false, or_self] at hfirst hsecond
  rw [hfirst, hsecond] at hclash
  exact not_clash_self hclash

end Boxferry.Automation.Eligibility
