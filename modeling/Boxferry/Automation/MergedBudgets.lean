import Boxferry.Automation.Checkpoints
import Boxferry.Library.KeyedUnions

/-! # Merged budgets

The union of the ledgers of several states. It is refused exactly where two states contradict
each other; otherwise nothing that was spent in one of them is unspent in the union, and the
order in which the states are merged does not show. -/
namespace Boxferry.Automation.Eligibility
open KeyedUnions
set_option autoImplicit false

/-! ## The rules of the ledgers -/

def pickRerun (identifier incoming : Nat) : Option Nat := if identifier ≠ incoming then none else some incoming

def pickReservation (existing incoming : Reservation) : Option Reservation :=
  if existing.bindings ≠ incoming.bindings then none
  else if existing.phase ≠ .prepared then some existing else some incoming

def pickSeen (earlier incoming : Moment) : Option Moment := some (if incoming < earlier then incoming else earlier)

theorem follows_mergeRerun : Follows pickRerun mergeRerun where
  refuses := by
    intro table key value h
    unfold Agrees at h
    push Not at h
    obtain ⟨old, hold, hpick⟩ := h
    have hother : old ≠ value := by
      intro hsame
      rw [pickRerun, if_neg (not_not.mpr hsame)] at hpick
      cases hpick
    unfold mergeRerun
    rw [hold]
    exact ⟨_, if_pos hother⟩
  accepts := by
    intro table key value h
    refine ⟨table.insert key value, ?_, ?_, fun other hother => AList.lookup_insert_ne hother⟩
    · unfold mergeRerun
      cases hold : table.lookup key with
      | none => rfl
      | some old =>
        have hsame : ¬ old ≠ value := by
          intro hother
          exact h old hold (if_pos hother)
        exact if_neg hsame
    · rw [AList.lookup_insert]
      cases hold : table.lookup key with
      | none => rfl
      | some old =>
        have hpick := h old hold
        unfold pickRerun at hpick
        rw [combine, pickRerun, if_neg fun hother => hpick (if_pos hother)]

theorem follows_mergeRecovery : Follows pickReservation mergeRecovery where
  refuses := by
    intro table key value h
    unfold Agrees at h
    push Not at h
    obtain ⟨old, hold, hpick⟩ := h
    have hother : old.bindings ≠ value.bindings := by
      intro hsame
      unfold pickReservation at hpick
      rw [if_neg (not_not.mpr hsame)] at hpick
      split at hpick <;> cases hpick
    unfold mergeRecovery
    rw [hold]
    exact ⟨_, if_pos hother⟩
  accepts := by
    intro table key value h
    unfold mergeRecovery
    cases hold : table.lookup key with
    | none =>
      exact ⟨table.insert key value, rfl, AList.lookup_insert table, fun other hother => AList.lookup_insert_ne hother⟩
    | some old =>
      have hsame : ¬ old.bindings ≠ value.bindings := by
        intro hother
        exact h old hold (if_pos hother)
      by_cases hspent : old.phase ≠ .prepared
      · refine ⟨table, ?_, ?_, fun _ _ => rfl⟩
        · dsimp only
          rw [if_neg hsame, if_pos hspent]
        · rw [hold, combine, pickReservation, if_neg hsame, if_pos hspent]
      · refine ⟨table.insert key value, ?_, ?_, fun other hother => AList.lookup_insert_ne hother⟩
        · dsimp only
          rw [if_neg hsame, if_neg hspent]
        · rw [AList.lookup_insert, combine, pickReservation, if_neg hsame, if_neg hspent]

theorem follows_mergeSeen :
    Follows pickSeen fun table entry => (.ok (mergeSeen table entry) : Except Interrupt FirstSeen) where
  refuses := by
    intro table key value h
    exfalso
    apply h
    intro old _ hpick
    cases hpick
  accepts := by
    intro table key value _
    unfold mergeSeen
    cases hold : table.lookup key with
    | none =>
      exact ⟨table.insert key value, rfl, AList.lookup_insert table, fun other hother => AList.lookup_insert_ne hother⟩
    | some old =>
      by_cases hearlier : value < old
      · refine ⟨table.insert key value, ?_, ?_, fun other hother => AList.lookup_insert_ne hother⟩
        · dsimp only
          rw [if_pos hearlier]
        · rw [AList.lookup_insert, combine, pickSeen, if_pos hearlier]
      · refine ⟨table, ?_, ?_, fun _ _ => rfl⟩
        · dsimp only
          rw [if_neg hearlier]
        · rw [hold, combine, pickSeen, if_neg hearlier]

/-! ## One state -/

variable {selected payload merged result : Payload} {payloads evidence : List Payload}

/-- The two states hold a head or a reservation in different ways. -/
def Clash (first second : Payload) : Prop :=
  (∃ head identifier other, first.reruns.lookup head = some identifier ∧ second.reruns.lookup head = some other ∧
    identifier ≠ other) ∨
  ∃ key entry other, first.recoveries.lookup key = some entry ∧ second.recoveries.lookup key = some other ∧
    entry.bindings ≠ other.bindings

/-- The ledgers of the result are, key by key, those of the two states by the rules. -/
structure Combines (result payload merged : Payload) : Prop where
  reruns : ∀ head, merged.reruns.lookup head =
    combine pickRerun (result.reruns.lookup head) (payload.reruns.lookup head)
  recoveries : ∀ key, merged.recoveries.lookup key =
    combine pickReservation (result.recoveries.lookup key) (payload.recoveries.lookup key)
  firstSeen : ∀ key, merged.firstSeen.lookup key =
    combine pickSeen (result.firstSeen.lookup key) (payload.firstSeen.lookup key)

theorem pickRerun_ne_none {identifier other : Nat} : pickRerun identifier other ≠ none ↔ identifier = other := by
  unfold pickRerun
  by_cases hsame : identifier = other
  · simp [hsame]
  · simp [hsame]

theorem pickReservation_ne_none {entry other : Reservation} :
    pickReservation entry other ≠ none ↔ entry.bindings = other.bindings := by
  unfold pickReservation
  by_cases hsame : entry.bindings = other.bindings
  · rw [if_neg (not_not.mpr hsame)]
    split <;> simp [hsame]
  · simp [hsame]

theorem foldlM_mergeSeen (entries : List (Sigma fun _ : String => Moment)) (table : FirstSeen) :
    entries.foldlM (fun table entry => (.ok (mergeSeen table entry) : Except Interrupt FirstSeen)) table
      = .ok (entries.foldl mergeSeen table) := by
  induction entries generalizing table with
  | nil => rfl
  | cons entry entries ih => exact ih (mergeSeen table entry)

theorem mergeBudget_combines (h : mergeBudget result payload = .ok merged) : Combines result payload merged := by
  obtain ⟨reruns, hreruns, h⟩ := Results.bind_eq_ok.mp h
  obtain ⟨recoveries, hrecoveries, h⟩ := Results.bind_eq_ok.mp h
  rw [← Except.ok.inj h]
  exact ⟨follows_mergeRerun.lookup_union hreruns, follows_mergeRecovery.lookup_union hrecoveries,
    follows_mergeSeen.lookup_union (foldlM_mergeSeen _ _)⟩

/-- A state is merged exactly when it does not clash with the result so far. -/
theorem exists_mergeBudget : (∃ merged, mergeBudget result payload = .ok merged) ↔ ¬ Clash result payload := by
  have hruns : (∃ last, payload.reruns.entries.reverse.foldlM mergeRerun result.reruns = .ok last) ↔ _ :=
    follows_mergeRerun.exists_union
  have hrecoveries :
      (∃ last, payload.recoveries.entries.reverse.foldlM mergeRecovery result.recoveries = .ok last) ↔ _ :=
    follows_mergeRecovery.exists_union
  unfold Agrees at hruns hrecoveries
  simp only [pickRerun_ne_none, pickReservation_ne_none] at hruns hrecoveries
  constructor
  · intro ⟨merged, hmerged⟩ hclash
    obtain ⟨reruns, hreruns, hmerged⟩ := Results.bind_eq_ok.mp hmerged
    obtain ⟨recoveries, hrecovered, _⟩ := Results.bind_eq_ok.mp hmerged
    rcases hclash with ⟨head, identifier, other, hold, hnew, hne⟩ | ⟨key, entry, other, hold, hnew, hne⟩
    · exact hne (hruns.mp ⟨reruns, hreruns⟩ head other hnew identifier hold)
    · exact hne (hrecoveries.mp ⟨recoveries, hrecovered⟩ key other hnew entry hold)
  · intro hclash
    unfold Clash at hclash
    push Not at hclash
    obtain ⟨reruns, hreruns⟩ := hruns.mpr fun head other hnew identifier hold =>
      hclash.1 head identifier other hold hnew
    obtain ⟨recoveries, hrecovered⟩ := hrecoveries.mpr fun key other hnew entry hold =>
      hclash.2 key entry other hold hnew
    refine ⟨_, Results.bind_eq_ok.mpr ⟨reruns, hreruns, Results.bind_eq_ok.mpr ⟨recoveries, hrecovered, rfl⟩⟩⟩

/-! ## All states -/

/-- The result holds what the states hold: every budget, the earliest instants and the common bindings. -/
structure Unites (payloads : List Payload) (merged : Payload) : Prop where
  reruns : ∀ head identifier, merged.reruns.lookup head = some identifier ↔
    ∃ payload ∈ payloads, payload.reruns.lookup head = some identifier
  earliest : ∀ payload ∈ payloads, ∀ key instant, payload.firstSeen.lookup key = some instant →
    ∃ earliest ≤ instant, merged.firstSeen.lookup key = some earliest
  seen : ∀ key instant, merged.firstSeen.lookup key = some instant →
    ∃ payload ∈ payloads, payload.firstSeen.lookup key = some instant
  reserved : ∀ key, (merged.recoveries.lookup key).isSome ↔
    ∃ payload ∈ payloads, (payload.recoveries.lookup key).isSome
  bindings : ∀ key entry, merged.recoveries.lookup key = some entry → ∀ payload ∈ payloads, ∀ held,
    payload.recoveries.lookup key = some held → held.bindings = entry.bindings
  prepared : ∀ key entry, merged.recoveries.lookup key = some entry → (entry.phase = .prepared ↔
    ∀ payload ∈ payloads, ∀ held, payload.recoveries.lookup key = some held → held.phase = .prepared)

theorem unites_singleton : Unites [selected] selected where
  reruns _ _ := by simp
  earliest := by
    simp only [List.mem_singleton, forall_eq]
    exact fun key instant hinstant => ⟨instant, le_refl instant, hinstant⟩
  seen key instant hinstant := ⟨selected, List.mem_singleton_self selected, hinstant⟩
  reserved _ := by simp
  bindings key entry hentry := by
    simp only [List.mem_singleton, forall_eq]
    intro held hheld
    rw [hentry] at hheld
    rw [Option.some.inj hheld]
  prepared key entry hentry := by
    simp [hentry]

/-- The result clashes with a state exactly when one of the united states does. -/
theorem Unites.clash_iff (h : Unites payloads merged) :
    Clash merged payload ↔ ∃ other ∈ payloads, Clash other payload := by
  constructor
  · rintro (⟨head, identifier, found, hold, hnew, hne⟩ | ⟨key, entry, found, hold, hnew, hne⟩)
    · obtain ⟨other, hother, hlookup⟩ := (h.reruns head identifier).mp hold
      exact ⟨other, hother, Or.inl ⟨head, identifier, found, hlookup, hnew, hne⟩⟩
    · obtain ⟨other, hother, hsome⟩ := (h.reserved key).mp (Option.isSome_of_eq_some hold)
      obtain ⟨held, hheld⟩ := Option.isSome_iff_exists.mp hsome
      refine ⟨other, hother, Or.inr ⟨key, held, found, hheld, hnew, ?_⟩⟩
      rw [h.bindings key entry hold other hother held hheld]
      exact hne
  · rintro ⟨other, hother, ⟨head, identifier, found, hold, hnew, hne⟩ | ⟨key, held, found, hheld, hnew, hne⟩⟩
    · exact Or.inl ⟨head, identifier, found, (h.reruns head identifier).mpr ⟨other, hother, hold⟩, hnew, hne⟩
    · obtain ⟨entry, hentry⟩ := Option.isSome_iff_exists.mp
        ((h.reserved key).mpr ⟨other, hother, Option.isSome_of_eq_some hheld⟩)
      refine Or.inr ⟨key, entry, found, hentry, hnew, ?_⟩
      rw [← h.bindings key entry hentry other hother held hheld]
      exact hne

theorem exists_mem_concat {holds : Payload → Prop} :
    (∃ other ∈ payloads ++ [payload], holds other) ↔ (∃ other ∈ payloads, holds other) ∨ holds payload := by
  simp [or_and_right, exists_or]

theorem forall_mem_concat {holds : Payload → Prop} :
    (∀ other ∈ payloads ++ [payload], holds other) ↔ (∀ other ∈ payloads, holds other) ∧ holds payload := by
  simp [or_imp, forall_and]

/-- What the rule makes of a reservation that both hold. -/
theorem pickReservation_eq_some {existing incoming kept : Reservation}
    (h : pickReservation existing incoming = some kept) :
    existing.bindings = incoming.bindings ∧ kept.bindings = existing.bindings ∧
      (kept.phase = .prepared ↔ existing.phase = .prepared ∧ incoming.phase = .prepared) := by
  unfold pickReservation at h
  obtain ⟨hbindings, h⟩ := Option.ite_none_left_eq_some.mp h
  rw [not_not] at hbindings
  by_cases hspent : existing.phase ≠ .prepared
  · rw [if_pos hspent] at h
    cases h
    exact ⟨hbindings, rfl, fun hphase => absurd hphase hspent, fun hboth => hboth.1⟩
  · rw [if_neg hspent] at h
    cases h
    rw [not_not] at hspent
    exact ⟨hbindings, hbindings.symm, fun hphase => ⟨hspent, hphase⟩, fun hboth => hboth.2⟩

theorem Unites.reruns_concat (h : Unites payloads result) (hcombines : Combines result payload merged)
    (hagrees : ¬ Clash result payload) (head : String) (identifier : Nat) :
    merged.reruns.lookup head = some identifier ↔
      ∃ other ∈ payloads ++ [payload], other.reruns.lookup head = some identifier := by
  rw [exists_mem_concat, ← h.reruns, hcombines.reruns]
  cases hold : result.reruns.lookup head with
  | none => simp
  | some existing =>
    cases hnew : payload.reruns.lookup head with
    | none => simp
    | some incoming =>
      have hsame : existing = incoming := by
        by_contra hne
        exact hagrees (Or.inl ⟨head, existing, incoming, hold, hnew, hne⟩)
      subst hsame
      simp [combine, pickRerun]

/-- The earlier of two instants is kept, whichever was there first. -/
theorem Combines.earlier (hcombines : Combines result payload merged) {key : String} :
    (∀ instant, result.firstSeen.lookup key = some instant ∨ payload.firstSeen.lookup key = some instant →
      ∃ earliest ≤ instant, merged.firstSeen.lookup key = some earliest) ∧
    ∀ instant, merged.firstSeen.lookup key = some instant →
      result.firstSeen.lookup key = some instant ∨ payload.firstSeen.lookup key = some instant := by
  rw [hcombines.firstSeen]
  cases result.firstSeen.lookup key with
  | none =>
    refine ⟨fun instant h => ?_, fun instant h => Or.inr h⟩
    rcases h with hold | hnew
    · cases hold
    · exact ⟨instant, le_refl instant, hnew⟩
  | some old =>
    cases payload.firstSeen.lookup key with
    | none =>
      refine ⟨fun instant h => ?_, fun instant h => Or.inl h⟩
      rcases h with hold | hnew
      · exact ⟨instant, le_refl instant, hold⟩
      · cases hnew
    | some new =>
      by_cases hearlier : new < old
      · rw [combine, pickSeen, if_pos hearlier]
        refine ⟨fun instant h => ⟨new, ?_, rfl⟩, fun instant h => Or.inr h⟩
        rcases h with hold | hnew
        · cases hold
          exact hearlier.le
        · cases hnew
          exact le_refl new
      · rw [combine, pickSeen, if_neg hearlier]
        refine ⟨fun instant h => ⟨old, ?_, rfl⟩, fun instant h => Or.inl h⟩
        rcases h with hold | hnew
        · cases hold
          exact le_refl old
        · cases hnew
          exact not_lt.mp hearlier

/-- A reservation of the result, by what the two states hold of it. -/
theorem Combines.kept (hcombines : Combines result payload merged)
    {key : String} {entry : Reservation} (hentry : merged.recoveries.lookup key = some entry) :
    (∀ held, result.recoveries.lookup key = some held ∨ payload.recoveries.lookup key = some held →
      held.bindings = entry.bindings) ∧
    (entry.phase = .prepared ↔ ∀ held, result.recoveries.lookup key = some held ∨
      payload.recoveries.lookup key = some held → held.phase = .prepared) := by
  rw [hcombines.recoveries] at hentry
  cases hold : result.recoveries.lookup key with
  | none =>
    rw [hold, combine_none_left] at hentry
    simp [hentry]
  | some existing =>
    rw [hold] at hentry
    cases hnew : payload.recoveries.lookup key with
    | none =>
      rw [hnew, combine_none_right] at hentry
      simp [Option.some.inj hentry]
    | some incoming =>
      rw [hnew] at hentry
      obtain ⟨hsame, hbindings, hphase⟩ := pickReservation_eq_some hentry
      refine ⟨fun held h => ?_, ?_⟩
      · rcases h with h | h
        · cases h
          exact hbindings.symm
        · cases h
          exact (hbindings.trans hsame).symm
      · rw [hphase]
        constructor
        · intro ⟨hfirst, hsecond⟩ held h
          rcases h with h | h
          · cases h
            exact hfirst
          · cases h
            exact hsecond
        · exact fun h => ⟨h existing (Or.inl rfl), h incoming (Or.inr rfl)⟩

theorem Combines.isSome (hcombines : Combines result payload merged) (hagrees : ¬ Clash result payload)
    (key : String) : (merged.recoveries.lookup key).isSome ↔
      (result.recoveries.lookup key).isSome ∨ (payload.recoveries.lookup key).isSome := by
  rw [hcombines.recoveries]
  cases hold : result.recoveries.lookup key with
  | none => simp
  | some existing =>
    cases hnew : payload.recoveries.lookup key with
    | none => simp
    | some incoming =>
      have hkept : pickReservation existing incoming ≠ none := by
        rw [pickReservation_ne_none]
        by_contra hne
        exact hagrees (Or.inr ⟨key, existing, incoming, hold, hnew, hne⟩)
      simpa [combine] using Option.ne_none_iff_isSome.mp hkept

theorem Unites.combines (h : Unites payloads result) (hcombines : Combines result payload merged)
    (hagrees : ¬ Clash result payload) : Unites (payloads ++ [payload]) merged where
  reruns := h.reruns_concat hcombines hagrees
  earliest := by
    rw [forall_mem_concat]
    constructor
    · intro other hother key instant hinstant
      obtain ⟨earlier, hearlier, hlookup⟩ := h.earliest other hother key instant hinstant
      obtain ⟨earliest, hbefore, hmerged⟩ := hcombines.earlier.1 earlier (Or.inl hlookup)
      exact ⟨earliest, hbefore.trans hearlier, hmerged⟩
    · intro key instant hinstant
      exact hcombines.earlier.1 instant (Or.inr hinstant)
  seen key instant hinstant := by
    rw [exists_mem_concat]
    exact (hcombines.earlier.2 instant hinstant).imp (h.seen key instant) id
  reserved key := by
    rw [exists_mem_concat, ← h.reserved, hcombines.isSome hagrees]
  bindings key entry hentry := by
    obtain ⟨hkept, -⟩ := hcombines.kept hentry
    rw [forall_mem_concat]
    refine ⟨fun other hother held hheld => ?_, fun held hheld => hkept held (Or.inr hheld)⟩
    obtain ⟨existing, hexisting⟩ := Option.isSome_iff_exists.mp
      ((h.reserved key).mpr ⟨other, hother, Option.isSome_of_eq_some hheld⟩)
    rw [h.bindings key existing hexisting other hother held hheld]
    exact hkept existing (Or.inl hexisting)
  prepared key entry hentry := by
    obtain ⟨-, hphase⟩ := hcombines.kept hentry
    rw [forall_mem_concat, hphase]
    constructor
    · intro hall
      refine ⟨fun other hother held hheld => ?_, fun held hheld => hall held (Or.inr hheld)⟩
      obtain ⟨existing, hexisting⟩ := Option.isSome_iff_exists.mp
        ((h.reserved key).mpr ⟨other, hother, Option.isSome_of_eq_some hheld⟩)
      exact (h.prepared key existing hexisting).mp (hall existing (Or.inl hexisting)) other hother held hheld
    · intro ⟨hothers, hnew⟩ held hheld
      rcases hheld with hexisting | hincoming
      · exact (h.prepared key held hexisting).mpr fun other hother => hothers other hother
      · exact hnew held hincoming

/-- Two of the states hold a head or a reservation in different ways. -/
def Clashing (payloads : List Payload) : Prop := ∃ first ∈ payloads, ∃ second ∈ payloads, Clash first second

theorem Clash.symm {first second : Payload} (h : Clash first second) : Clash second first := by
  rcases h with ⟨head, identifier, other, hold, hnew, hne⟩ | ⟨key, entry, other, hold, hnew, hne⟩
  · exact Or.inl ⟨head, other, identifier, hnew, hold, hne.symm⟩
  · exact Or.inr ⟨key, other, entry, hnew, hold, hne.symm⟩

theorem not_clash_self : ¬ Clash payload payload := by
  rintro (⟨head, identifier, other, hold, hnew, hne⟩ | ⟨key, entry, other, hold, hnew, hne⟩)
  · exact hne (Option.some.inj (hold.symm.trans hnew))
  · exact hne (congrArg Reservation.bindings (Option.some.inj (hold.symm.trans hnew)))

theorem clashing_concat (h : ¬ Clashing payloads) (hnew : ¬ ∃ other ∈ payloads, Clash other payload) :
    ¬ Clashing (payloads ++ [payload]) := by
  intro ⟨first, hfirst, second, hsecond, hclash⟩
  simp only [List.mem_append, List.mem_singleton] at hfirst hsecond
  rcases hfirst with hfirst | rfl
  · rcases hsecond with hsecond | rfl
    · exact h ⟨first, hfirst, second, hsecond, hclash⟩
    · exact hnew ⟨first, hfirst, hclash⟩
  · rcases hsecond with hsecond | rfl
    · exact hnew ⟨second, hsecond, hclash.symm⟩
    · exact not_clash_self hclash

theorem clashing_of_subset {others : List Payload} (h : Clashing payloads) (hsubset : payloads ⊆ others) :
    Clashing others := by
  obtain ⟨first, hfirst, second, hsecond, hclash⟩ := h
  exact ⟨first, hsubset hfirst, second, hsubset hsecond, hclash⟩

/-- Merging goes on as long as no two states clash, and unites what was merged. -/
theorem Unites.foldlM (h : Unites payloads result) (hagree : ¬ Clashing payloads) :
    ((∃ merged, evidence.foldlM mergeBudget result = .ok merged) ↔ ¬ Clashing (payloads ++ evidence)) ∧
      ∀ merged, evidence.foldlM mergeBudget result = .ok merged → Unites (payloads ++ evidence) merged := by
  induction evidence generalizing payloads result with
  | nil =>
    rw [List.append_nil]
    refine ⟨⟨fun _ => hagree, fun _ => ⟨result, rfl⟩⟩, fun merged hmerged => ?_⟩
    rw [← Except.ok.inj hmerged]
    exact h
  | cons payload evidence ih =>
    by_cases hclash : Clash result payload
    · have hrefused : ¬ ∃ merged, (payload :: evidence).foldlM mergeBudget result = .ok merged := by
        intro ⟨merged, hmerged⟩
        obtain ⟨middle, hmiddle, _⟩ := Results.bind_eq_ok.mp hmerged
        exact exists_mergeBudget.mp ⟨middle, hmiddle⟩ hclash
      obtain ⟨other, hother, hpair⟩ := h.clash_iff.mp hclash
      have hclashing : Clashing (payloads ++ payload :: evidence) :=
        ⟨other, List.mem_append_left _ hother, payload, List.mem_append_right _ List.mem_cons_self, hpair⟩
      refine ⟨⟨fun haccepted => absurd haccepted hrefused, fun hnone => absurd hclashing hnone⟩, ?_⟩
      exact fun merged hmerged => absurd ⟨merged, hmerged⟩ hrefused
    · obtain ⟨middle, hmiddle⟩ := exists_mergeBudget.mpr hclash
      have hagrees : ¬ Clashing (payloads ++ [payload]) :=
        clashing_concat hagree fun hexists => hclash (h.clash_iff.mpr hexists)
      have hnext := ih (h.combines (mergeBudget_combines hmiddle) hclash) hagrees
      rw [List.append_assoc, List.singleton_append] at hnext
      have hfold : (payload :: evidence).foldlM mergeBudget result = evidence.foldlM mergeBudget middle := by
        rw [List.foldlM_cons, hmiddle]
        rfl
      rw [hfold]
      exact hnext

/-- The same budgets, instants and reservations, with the same bindings and still prepared alike. -/
structure SameLedgers (first second : Payload) : Prop where
  reruns : ∀ head, first.reruns.lookup head = second.reruns.lookup head
  firstSeen : ∀ key, first.firstSeen.lookup key = second.firstSeen.lookup key
  recoveries : ∀ key,
    (first.recoveries.lookup key).map (fun entry => (entry.bindings, decide (entry.phase = .prepared)))
    = (second.recoveries.lookup key).map fun entry => (entry.bindings, decide (entry.phase = .prepared))

theorem Unites.congr {others : List Payload} (h : Unites payloads merged)
    (hsame : ∀ payload, payload ∈ payloads ↔ payload ∈ others) : Unites others merged where
  reruns head identifier := by
    rw [h.reruns]
    exact exists_congr fun payload => and_congr_left' (hsame payload)
  earliest payload hpayload := h.earliest payload ((hsame payload).mpr hpayload)
  seen key instant hinstant := by
    obtain ⟨payload, hpayload, hlookup⟩ := h.seen key instant hinstant
    exact ⟨payload, (hsame payload).mp hpayload, hlookup⟩
  reserved key := by
    rw [h.reserved]
    exact exists_congr fun payload => and_congr_left' (hsame payload)
  bindings key entry hentry payload hpayload := h.bindings key entry hentry payload ((hsame payload).mpr hpayload)
  prepared key entry hentry := by
    rw [h.prepared key entry hentry]
    exact forall_congr' fun payload => imp_congr_left (hsame payload)

/-- Unions of the same states hold the same. -/
theorem Unites.sameLedgers {other : Payload} (h : Unites payloads merged) (hother : Unites payloads other) :
    SameLedgers merged other where
  reruns head := by
    apply Option.ext
    intro identifier
    rw [h.reruns, hother.reruns]
  firstSeen key := by
    have hbelow : ∀ {first second : Payload}, Unites payloads first → Unites payloads second → ∀ instant,
        first.firstSeen.lookup key = some instant →
          ∃ earliest ≤ instant, second.firstSeen.lookup key = some earliest := by
      intro first second hfirst hsecond instant hinstant
      obtain ⟨payload, hpayload, hlookup⟩ := hfirst.seen key instant hinstant
      exact hsecond.earliest payload hpayload key instant hlookup
    have hsame : ∀ {first second : Payload}, Unites payloads first → Unites payloads second → ∀ instant,
        first.firstSeen.lookup key = some instant → second.firstSeen.lookup key = some instant := by
      intro first second hfirst hsecond instant hinstant
      obtain ⟨earliest, hbefore, hlookup⟩ := hbelow hfirst hsecond instant hinstant
      obtain ⟨again, hagain, hback⟩ := hbelow hsecond hfirst earliest hlookup
      rw [hinstant] at hback
      rw [← Option.some.inj hback] at hagain
      rw [hlookup, le_antisymm hbefore hagain]
    apply Option.ext
    exact fun instant => ⟨hsame h hother instant, hsame hother h instant⟩
  recoveries key := by
    have hreserved := (h.reserved key).trans (hother.reserved key).symm
    cases hfirst : merged.recoveries.lookup key with
    | none =>
      rw [hfirst] at hreserved
      have hnone : other.recoveries.lookup key = none := by
        rw [← Option.not_isSome_iff_eq_none]
        exact fun hsome => absurd (hreserved.mpr hsome) Bool.noConfusion
      rw [hnone]
    | some entry =>
      obtain ⟨second, hsecond⟩ := Option.isSome_iff_exists.mp (hreserved.mp (Option.isSome_of_eq_some hfirst))
      obtain ⟨payload, hpayload, hsome⟩ := (h.reserved key).mp (Option.isSome_of_eq_some hfirst)
      obtain ⟨held, hheld⟩ := Option.isSome_iff_exists.mp hsome
      have hbindings : entry.bindings = second.bindings :=
        (h.bindings key entry hfirst payload hpayload held hheld).symm.trans
          (hother.bindings key second hsecond payload hpayload held hheld)
      have hphase : entry.phase = .prepared ↔ second.phase = .prepared :=
        (h.prepared key entry hfirst).trans (hother.prepared key second hsecond).symm
      rw [hsecond, Option.map_some, Option.map_some, hbindings, decide_eq_decide.mpr hphase]

end Boxferry.Automation.Eligibility
