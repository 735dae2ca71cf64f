import Boxferry.Automation.Fences

/-! # Recovery budgets

A reservation that a run persisted is kept, with its bindings, by every later run that
has no fence: it is in its checkpoint, and once it is used up it stays so. -/
namespace Boxferry.Automation.Eligibility
open Interruptible
set_option autoImplicit false

variable {api : ServiceApi} {sha256 : ByteArray → Vector UInt8 32} {actor : Actor}
  {context : ServiceContext} {first last : Session} {numbers : List Nat}

/-! ## Preserved reservations -/

/-- Every reservation is still there with its bindings, and none is prepared again. -/
def Preserved (recoveries later : Recoveries) : Prop :=
  ∀ key reservation, recoveries.lookup key = some reservation →
    ∃ after, later.lookup key = some after ∧ after.bindings = reservation.bindings
      ∧ (reservation.phase ≠ .prepared → after.phase ≠ .prepared)

theorem Preserved.refl (recoveries : Recoveries) : Preserved recoveries recoveries :=
  fun _ reservation h => ⟨reservation, h, rfl, id⟩

theorem Preserved.trans {recoveries middle later : Recoveries} (h : Preserved recoveries middle)
    (hnext : Preserved middle later) : Preserved recoveries later := by
  intro key reservation hlookup
  obtain ⟨between, hbetween, hbindings, hphase⟩ := h key reservation hlookup
  obtain ⟨after, hafter, hsame, hstill⟩ := hnext key between hbetween
  exact ⟨after, hafter, hsame.trans hbindings, fun hspent => hstill (hphase hspent)⟩

/-- What the later state has prepared was prepared with the same bindings. -/
theorem Preserved.prepared {recoveries later : Recoveries} (h : Preserved recoveries later) {key : String}
    {reservation after : Reservation} (hlookup : recoveries.lookup key = some reservation)
    (hafter : later.lookup key = some after) (hphase : after.phase = .prepared) :
    reservation.phase = .prepared ∧ after.bindings = reservation.bindings := by
  obtain ⟨found, hfound, hbindings, hspent⟩ := h key reservation hlookup
  rw [hafter] at hfound
  obtain rfl := Option.some.inj hfound
  refine ⟨?_, hbindings⟩
  by_contra hprepared
  exact hspent hprepared hphase

/-! ## Merging -/

/-- A reservation of another state is preserved where it is there under its key. -/
def Holds (later : Recoveries) (entry : Sigma fun _ : String => Reservation) : Prop :=
  ∃ after, later.lookup entry.1 = some after ∧ after.bindings = entry.2.bindings
    ∧ (entry.2.phase ≠ .prepared → after.phase ≠ .prepared)

theorem Holds.mono {recoveries later : Recoveries} {entry : Sigma fun _ : String => Reservation}
    (h : Holds recoveries entry) (hlater : Preserved recoveries later) : Holds later entry := by
  obtain ⟨between, hbetween, hbindings, hphase⟩ := h
  obtain ⟨after, hafter, hsame, hstill⟩ := hlater entry.1 between hbetween
  exact ⟨after, hafter, hsame.trans hbindings, fun hspent => hstill (hphase hspent)⟩

theorem preserved_insert {recoveries : Recoveries} {key : String} {entry : Reservation}
    (h : ∀ existing, recoveries.lookup key = some existing →
      existing.bindings = entry.bindings ∧ existing.phase = .prepared) :
    Preserved recoveries (recoveries.insert key entry) := by
  intro other reservation hlookup
  by_cases hsame : other = key
  · subst hsame
    obtain ⟨hbindings, hphase⟩ := h reservation hlookup
    exact ⟨entry, AList.lookup_insert _, hbindings.symm, fun hspent => absurd hphase hspent⟩
  · exact ⟨reservation, (AList.lookup_insert_ne hsame).trans hlookup, rfl, id⟩

theorem mergeRecovery_ok {recoveries merged : Recoveries} {entry : Sigma fun _ : String => Reservation}
    (h : mergeRecovery recoveries entry = .ok merged) :
    Preserved recoveries merged ∧ Holds merged entry
      ∧ ∀ key, merged.lookup key ≠ none → recoveries.lookup key ≠ none ∨ key = entry.1 := by
  have hinsert : ∀ key, (recoveries.insert entry.1 entry.2).lookup key ≠ none →
      recoveries.lookup key ≠ none ∨ key = entry.1 := by
    intro key hkey
    by_cases hsame : key = entry.1
    · exact Or.inr hsame
    · rw [AList.lookup_insert_ne hsame] at hkey
      exact Or.inl hkey
  unfold mergeRecovery at h
  split at h
  · next hnone =>
    rw [← Except.ok.inj h]
    refine ⟨preserved_insert fun existing hexisting => ?_,
      ⟨entry.2, AList.lookup_insert _, rfl, id⟩, hinsert⟩
    rw [hnone] at hexisting
    exact nomatch hexisting
  · next existing hexisting =>
    obtain ⟨hbindings, h⟩ := Results.guard_eq_ok.mp h
    rw [not_not] at hbindings
    split at h
    · next hspent =>
      rw [← Except.ok.inj h]
      exact ⟨Preserved.refl _, ⟨existing, hexisting, hbindings, fun _ => hspent⟩, fun _ hkey => Or.inl hkey⟩
    · next hprepared =>
      rw [not_not] at hprepared
      rw [← Except.ok.inj h]
      refine ⟨preserved_insert fun other hother => ?_, ⟨entry.2, AList.lookup_insert _, rfl, id⟩, hinsert⟩
      rw [hexisting] at hother
      rw [← Option.some.inj hother]
      exact ⟨hbindings, hprepared⟩

theorem mergeRecoveries_ok {entries : List (Sigma fun _ : String => Reservation)}
    {recoveries merged : Recoveries} (h : entries.foldlM mergeRecovery recoveries = .ok merged) :
    Preserved recoveries merged ∧ (∀ entry ∈ entries, Holds merged entry)
      ∧ ∀ key, merged.lookup key ≠ none → recoveries.lookup key ≠ none ∨ key ∈ entries.map Sigma.fst := by
  induction entries generalizing recoveries with
  | nil =>
    obtain rfl := Except.ok.inj h
    exact ⟨Preserved.refl _, fun _ hentry => (nomatch hentry), fun _ hkey => Or.inl hkey⟩
  | cons entry rest ih =>
    rw [List.foldlM_cons] at h
    obtain ⟨middle, hmiddle, h⟩ := Results.bind_eq_ok.mp h
    obtain ⟨hfirst, hentry, horigin⟩ := mergeRecovery_ok hmiddle
    obtain ⟨hrest, hholds, horigins⟩ := ih h
    refine ⟨hfirst.trans hrest, fun other hother => ?_, fun key hkey => ?_⟩
    · rcases List.mem_cons.mp hother with rfl | hother
      · exact hentry.mono hrest
      · exact hholds other hother
    · rw [List.map_cons, List.mem_cons]
      rcases horigins key hkey with hmiddle | hrest
      · rcases horigin key hmiddle with hbefore | hsame
        · exact Or.inl hbefore
        · exact Or.inr (Or.inl hsame)
      · exact Or.inr (Or.inr hrest)

theorem mergeBudget_ok {result payload merged : Payload} (h : mergeBudget result payload = .ok merged) :
    Preserved result.recoveries merged.recoveries ∧ Preserved payload.recoveries merged.recoveries
      ∧ ∀ key, merged.recoveries.lookup key ≠ none →
        result.recoveries.lookup key ≠ none ∨ payload.recoveries.lookup key ≠ none := by
  obtain ⟨reruns, -, h⟩ := Results.bind_eq_ok.mp h
  obtain ⟨recoveries, hrecoveries, h⟩ := Results.bind_eq_ok.mp h
  rw [← Except.ok.inj h]
  obtain ⟨hresult, hentries, horigin⟩ := mergeRecoveries_ok hrecoveries
  refine ⟨hresult, fun key reservation hlookup => ?_, fun key hkey => ?_⟩
  · exact hentries ⟨key, reservation⟩ (List.mem_reverse.mpr (AList.mem_lookup_iff.mp hlookup))
  · refine (horigin key hkey).imp id fun hmember => ?_
    obtain ⟨⟨found, reservation⟩, hentry, rfl⟩ := List.mem_map.mp hmember
    have hlookup := AList.mem_lookup_iff.mpr (List.mem_reverse.mp hentry)
    rw [hlookup]
    exact Option.some_ne_none _

/-- The merged budget preserves each of the states, and has nothing that none of them has. -/
theorem mergeBudgets_ok {selected merged : Payload} {evidence : List Payload}
    (h : mergeBudgets selected evidence = .ok merged) :
    Preserved selected.recoveries merged.recoveries
      ∧ (∀ payload ∈ evidence, Preserved payload.recoveries merged.recoveries)
      ∧ ∀ key, merged.recoveries.lookup key ≠ none → selected.recoveries.lookup key ≠ none
        ∨ ∃ payload ∈ evidence, payload.recoveries.lookup key ≠ none := by
  unfold mergeBudgets at h
  induction evidence generalizing selected with
  | nil =>
    obtain rfl := Except.ok.inj h
    exact ⟨Preserved.refl _, fun _ hpayload => (nomatch hpayload), fun _ hkey => Or.inl hkey⟩
  | cons payload rest ih =>
    rw [List.foldlM_cons] at h
    obtain ⟨middle, hmiddle, h⟩ := Results.bind_eq_ok.mp h
    obtain ⟨hselected, hpayload, horigin⟩ := mergeBudget_ok hmiddle
    obtain ⟨hrest, hevidence, horigins⟩ := ih h
    refine ⟨hselected.trans hrest, fun other hother => ?_, fun key hkey => ?_⟩
    · rcases List.mem_cons.mp hother with rfl | hother
      · exact hpayload.trans hrest
      · exact hevidence other hother
    · rcases horigins key hkey with hmiddle | ⟨other, hother, hkey⟩
      · exact (horigin key hmiddle).imp id fun hkey => ⟨payload, List.mem_cons_self, hkey⟩
      · exact Or.inr ⟨other, List.mem_cons_of_mem _ hother, hkey⟩

/-! ## One run -/

theorem Touches.preserved {key : String} (h : Touches key first last)
    (hkey : ∀ reservation, first.recoveries.lookup key = some reservation →
      reservation.phase = .prepared ∧ ∃ after, last.recoveries.lookup key = some after
        ∧ after.bindings = reservation.bindings) :
    Preserved first.recoveries last.recoveries := by
  intro other reservation hlookup
  by_cases hsame : other = key
  · subst hsame
    obtain ⟨hphase, after, hafter, hbindings⟩ := hkey reservation hlookup
    exact ⟨after, hafter, hbindings, fun hspent => absurd hphase hspent⟩
  · exact ⟨reservation, (h.others other hsame).trans hlookup, rfl, id⟩

theorem Step.preserved (h : Step api sha256 actor context numbers first last) :
    Preserved first.recoveries last.recoveries := by
  have hsame : last.recoveries = first.recoveries → Preserved first.recoveries last.recoveries :=
    fun h => h ▸ Preserved.refl _
  cases h with
  | quiet h => exact hsame h.recoveries
  | ordinary candidate identifier hcan hlisted hnew h => exact hsame h.recoveries
  | recovered number h =>
    cases h with
    | quiet h => exact hsame h.recoveries
    | prepared identifier head hcan hlinked hnew h =>
      refine h.touches.preserved fun reservation hlookup => ?_
      rw [hnew] at hlookup
      exact nomatch hlookup
    | suspended key prepared hlookup hphase h =>
      refine h.touches.preserved fun reservation hreservation => ?_
      rw [hlookup] at hreservation
      obtain rfl := Option.some.inj hreservation
      obtain ⟨after, hafter, hbindings, -, -⟩ := h.spent
      exact ⟨hphase, after, hafter, hbindings⟩
    | requested identifier head prepared hlinked hlookup hphase hid hledger h =>
      refine h.touches.preserved fun reservation hreservation => ?_
      rw [hlookup] at hreservation
      obtain rfl := Option.some.inj hreservation
      obtain ⟨after, hafter, hbindings, -, -⟩ := h.after
      exact ⟨hphase, after, hafter, hbindings⟩

theorem Steps.preserved (h : Steps api sha256 actor context numbers first last) :
    Preserved first.recoveries last.recoveries := by
  induction h with
  | start => exact Preserved.refl _
  | step _ hnext ih => exact ih.trans hnext.preserved

/-! ## The newest checkpoint -/

/-- The second checkpoint is the first one or comes after it. -/
def Checkpoint.UpTo (first second : Checkpoint) : Prop :=
  first.created < second.created ∨ first.created = second.created ∧ first.id ≤ second.id

theorem upTo_refl (checkpoint : Checkpoint) : checkpoint.UpTo checkpoint := Or.inr ⟨rfl, le_refl _⟩

theorem Checkpoint.UpTo.trans {first second third : Checkpoint} (h : first.UpTo second)
    (hnext : second.UpTo third) : first.UpTo third := by
  rcases h with hlt | ⟨hsame, hid⟩
  · rcases hnext with hnext | ⟨hnext, -⟩
    · exact Or.inl (hlt.trans hnext)
    · exact Or.inl (hlt.trans_eq hnext)
  · rcases hnext with hnext | ⟨hnext, hlast⟩
    · exact Or.inl (hsame.trans_lt hnext)
    · exact Or.inr ⟨hsame.trans hnext, hid.trans hlast⟩

theorem upTo_of_after (first second : Checkpoint) :
    if first.after second = true then second.UpTo first else first.UpTo second := by
  have hafter : first.after second = true ↔ second.created < first.created
      ∨ second.created = first.created ∧ second.id < first.id := by
    simp [Checkpoint.after]
  by_cases hfirst : first.after second = true
  · rw [if_pos hfirst]
    exact (hafter.mp hfirst).imp id fun hsame => ⟨hsame.1, hsame.2.le⟩
  · rw [if_neg hfirst]
    rw [hafter, not_or, not_and] at hfirst
    rcases lt_or_eq_of_le (not_lt.mp hfirst.1) with hlt | hsame
    · exact Or.inl hlt
    · exact Or.inr ⟨hsame, not_lt.mp (hfirst.2 hsame.symm)⟩

theorem latest_upTo {candidates : List Checkpoint} {checkpoint : Checkpoint}
    (h : latest candidates = some checkpoint) :
    checkpoint ∈ candidates ∧ ∀ candidate ∈ candidates, candidate.UpTo checkpoint := by
  induction candidates generalizing checkpoint with
  | nil => exact nomatch h
  | cons candidate rest ih =>
    unfold latest at h
    cases hrest : latest rest with
    | none =>
      rw [hrest] at h
      obtain rfl := Option.some.inj h
      have hempty : rest = [] := by
        cases rest with
        | nil => rfl
        | cons other rest =>
          unfold latest at hrest
          split at hrest <;> exact nomatch hrest
      subst hempty
      refine ⟨List.mem_cons_self, fun other hother => ?_⟩
      rw [List.mem_singleton.mp hother]
      exact upTo_refl _
    | some later =>
      rw [hrest] at h
      obtain ⟨hmember, hall⟩ := ih hrest
      have horder := upTo_of_after later candidate
      split at horder
      · next hafter =>
        simp only [hafter, if_true] at h
        obtain rfl := Option.some.inj h
        refine ⟨List.mem_cons_of_mem _ hmember, fun other hother => ?_⟩
        rcases List.mem_cons.mp hother with rfl | hother
        · exact horder
        · exact hall other hother
      · next hafter =>
        simp only [hafter] at h
        obtain rfl := Option.some.inj h
        refine ⟨List.mem_cons_self, fun other hother => ?_⟩
        rcases List.mem_cons.mp hother with rfl | hother
        · exact upTo_refl _
        · exact (hall other hother).trans horder

theorem latest_of_mem {candidates : List Checkpoint} {candidate : Checkpoint}
    (h : candidate ∈ candidates) : ∃ checkpoint, latest candidates = some checkpoint := by
  cases candidates with
  | nil => exact nomatch h
  | cons first rest =>
    unfold latest
    split
    · exact ⟨_, rfl⟩
    · exact ⟨_, rfl⟩

/-! ## The history -/

variable {implementation : String} {floor lower : Moment} {history : List Execution}
  {index other : Nat} {execution past : Execution} {found : Gathered} {payload : Payload}
  {before : ServiceContext}

/-- A run persists what its checkpoint held. -/
theorem View.persisted (h : View sha256 implementation floor history index execution context lower found)
    (hcontext : (execution.result sha256).context = some context)
    (hpersisted : execution.persisted sha256 = some payload) {checkpoint : Checkpoint}
    (hcheckpoint : context.checkpoint = some checkpoint) :
    Preserved checkpoint.payload.recoveries payload.recoveries := by
  obtain ⟨ran, last, hran, hends, hpayload⟩ := persisted_ran hpersisted
  rw [hcontext] at hran
  obtain rfl := Option.some.inj hran
  obtain ⟨numbers, -, hsteps⟩ := hends.steps
  obtain ⟨merged, hmerged⟩ := Option.isSome_iff_exists.mp (h.present (by rw [hcheckpoint]; rfl))
  obtain ⟨selected, hmerges, hselected⟩ := h.previous merged hmerged
  obtain rfl := hselected checkpoint (h.checkpoint.symm.trans hcheckpoint)
  have hstart : (Session.start context).recoveries = merged.recoveries := by
    show (context.previous.map Payload.recoveries).getD ∅ = _
    rw [hmerged]
    rfl
  have hlast := hsteps.preserved
  rw [hstart] at hlast
  rw [hpayload]
  exact (mergeBudgets_ok hmerges).1.trans hlast

theorem canPrepare_of {api : ContextApi} {previous : Option Payload}
    (h : serviceContext api actor previous = .ok context) (hauthority : context.frontier.authority = true)
    (hfence : context.frontier.fence = none) : context.canPrepare = true := by
  have hattempt := (serviceContext_unfenced h hfence).1
  obtain ⟨fence, rfl⟩ := serviceContext_eq h
  simp only [Gathered.context, hattempt] at hauthority hfence ⊢
  simp only [hauthority, Bool.true_and]
  simpa using hfence

/-- The checkpoint of an unfenced run at a place preserves what was persisted before it. -/
def PreservesAt (sha256 : ByteArray → Vector UInt8 32) (implementation : String)
    (history : List Execution) (index : Nat) : Prop :=
  ∀ execution context, Runs history implementation index execution →
    (execution.result sha256).context = some context → context.frontier.fence = none →
    ∀ other past before payload, other < index → Runs history implementation other past →
      (past.result sha256).context = some before → before.canPrepare = true →
      past.persisted sha256 = some payload → ∃ checkpoint, context.checkpoint = some checkpoint
        ∧ Preserved payload.recoveries checkpoint.payload.recoveries

/-- A state in the window of an unfenced run is preserved by its checkpoint. -/
theorem Truthful.preserved_window (h : Truthful sha256 implementation floor history)
    (hview : View sha256 implementation floor history index execution context lower found)
    (hearlier : ∀ place, place < index → PreservesAt sha256 implementation history place)
    (hlt : other < index) (hpast : Runs history implementation other past)
    (hbefore : (past.result sha256).context = some before) (hcan : before.canPrepare = true)
    (hpersisted : past.persisted sha256 = some payload) (hlower : lower ≤ past.actor.createdAt) :
    ∃ checkpoint, context.checkpoint = some checkpoint
      ∧ Preserved payload.recoveries checkpoint.payload.recoveries := by
  obtain ⟨⟨previous, -, hservice⟩, -⟩ := result_context hbefore
  obtain ⟨hauthority, hclean⟩ := canPrepare_eq hservice hcan
  obtain ⟨candidate, hsame, hcreated, hid, -, hcandidate⟩ :=
    (hview.seen other past hlt hpast hlower).persisted
  rw [hpersisted] at hsame
  obtain rfl := Option.some.inj hsame
  have hmember := hcandidate ((authoritative_eq hbefore hpersisted).trans hauthority)
  obtain ⟨checkpoint, hlatest⟩ := latest_of_mem hmember
  obtain ⟨hnewest, hall⟩ := latest_upTo hlatest
  refine ⟨checkpoint, hview.checkpoint.trans hlatest, ?_⟩
  obtain ⟨hevidence, hauthoritative, place, writer, hplace, hwriter, hwritten, hwriterId, hwriterPersisted⟩ :=
    hview.candidates checkpoint hnewest
  obtain ⟨between, last, hbetween, -, -⟩ := persisted_ran hwriterPersisted
  have hunfenced := fenceOf_eq_none_of_context hbetween hwriterPersisted (hview.evidence _ hevidence).1
  rcases Nat.lt_trichotomy place other with hbeforePast | hsame | hafterPast
  · -- an older execution that is the newest checkpoint would precede itself
    exfalso
    obtain ⟨bound, seen, hpastView⟩ := h.view hpast hbefore hclean
    have hprecedes :=
      h.ordered_before hpastView hauthority hbeforePast hwriter hwriterPersisted hauthoritative
    have hupTo := hall candidate hmember
    unfold Checkpoint.UpTo at hupTo
    rw [hcreated, hid, ← hwritten, ← hwriterId] at hupTo
    unfold Execution.Precedes at hprecedes
    rcases hprecedes with hlater | ⟨hequal, hsmaller⟩
    · rcases hupTo with hearlier | ⟨hequal, -⟩
      · exact lt_asymm hlater hearlier
      · exact absurd hlater (hequal ▸ lt_irrefl _)
    · rcases hupTo with hearlier | ⟨-, hlarger⟩
      · exact absurd hearlier (hequal ▸ lt_irrefl _)
      · exact absurd hsmaller (not_lt.mpr hlarger)
  · subst hsame
    have hsame := Option.some.inj (hwriter.at_index.symm.trans hpast.at_index)
    rw [hsame, hpersisted] at hwriterPersisted
    rw [Option.some.inj hwriterPersisted]
    exact Preserved.refl _
  · obtain ⟨earlier, hearlierCheckpoint, hpreserved⟩ :=
      hearlier place hplace writer between hwriter hbetween hunfenced other past before _ hafterPast
        hpast hbefore hcan hpersisted
    obtain ⟨bound, seen, hwriterView⟩ := h.view hwriter hbetween hunfenced
    exact hpreserved.trans (hwriterView.persisted hbetween hwriterPersisted hearlierCheckpoint)

/-- What a run that could prepare persisted is preserved by the checkpoint of every unfenced run. -/
theorem Truthful.preserves (h : Truthful sha256 implementation floor history) (index : Nat) :
    PreservesAt sha256 implementation history index := by
  induction index using Nat.strong_induction_on with
  | h index ih =>
    intro execution context hexecution hcontext hfence other past before payload hlt hpast hbefore hcan
      hpersisted
    obtain ⟨lower, found, hview⟩ := h.view hexecution hcontext hfence
    obtain ⟨⟨previous, -, hservice⟩, -⟩ := result_context hbefore
    obtain ⟨hauthority, hclean⟩ := canPrepare_eq hservice hcan
    by_cases hlower : lower ≤ past.actor.createdAt
    · exact h.preserved_window hview ih hlt hpast hbefore hcan hpersisted hlower
    · rcases hview.anchored with hfloor | ⟨anchor, hanchor, hcreated⟩
      · obtain ⟨date, hdate, hactive⟩ := serviceContext_floor hservice hauthority
        rw [hpast.implementation] at hdate
        have hsame := h.dated past (List.mem_of_getElem? hpast.at_index) hpast.implementation date hdate
        exact absurd ((hfloor.trans hsame.symm).trans_le hactive) hlower
      · obtain ⟨hevidence, hauthoritative, place, writer, hplace, hwriter, hwritten, -, hwrote⟩ :=
          hview.candidates anchor hanchor
        have holder : past.actor.createdAt < writer.actor.createdAt := by
          rw [hwritten, hcreated]
          exact not_le.mp hlower
        obtain ⟨between, last, hbetween, -, -⟩ := persisted_ran hwrote
        have hunfenced := fenceOf_eq_none_of_context hbetween hwrote (hview.evidence _ hevidence).1
        obtain ⟨⟨restored, -, hwriterService⟩, -⟩ := result_context hbetween
        rw [authoritative_eq hbetween hwrote] at hauthoritative
        have hwriterCan := canPrepare_of hwriterService hauthoritative hunfenced
        rcases Nat.lt_trichotomy place other with hbeforePast | hsame | hafterPast
        · obtain ⟨bound, seen, hpastView⟩ := h.view hpast hbefore hclean
          have hprecedes := h.ordered_before hpastView hauthority hbeforePast hwriter hwrote
            ((authoritative_eq hbetween hwrote).trans hauthoritative)
          exact absurd holder (not_lt.mpr hprecedes.le)
        · subst hsame
          rw [Option.some.inj (hwriter.at_index.symm.trans hpast.at_index)] at holder
          exact absurd holder (lt_irrefl _)
        · -- the anchor preserves it, and the window preserves the anchor
          obtain ⟨earlier, hearlier, hpreserved⟩ := ih place hplace writer between hwriter hbetween
            hunfenced other past before payload hafterPast hpast hbefore hcan hpersisted
          obtain ⟨bound, seen, hwriterView⟩ := h.view hwriter hbetween hunfenced
          have hanchored := hwriterView.persisted hbetween hwrote hearlier
          have hlowerWriter : lower ≤ writer.actor.createdAt := (hwritten.trans hcreated).ge
          obtain ⟨checkpoint, hcheckpoint, hlast⟩ :=
            h.preserved_window hview ih hplace hwriter hbetween hwriterCan hwrote hlowerWriter
          exact ⟨checkpoint, hcheckpoint, (hpreserved.trans hanchored).trans hlast⟩

end Boxferry.Automation.Eligibility
