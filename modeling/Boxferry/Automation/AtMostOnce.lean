import Boxferry.Automation.Budgets
import Boxferry.Automation.Reruns

/-! # One effect for each reservation

A run consumes only what its checkpoint holds prepared, and what a run has consumed no
later run finds prepared. So each reservation is consumed once over the whole history. -/
namespace Boxferry.Automation.Eligibility
open Interruptible
set_option autoImplicit false

variable {sha256 : ByteArray → Vector UInt8 32} {context : ServiceContext} {key : String}

/-! ## Where reservations come from -/

section
variable {api : ContextApi} {actor : Actor} {floor lower : Moment} {previous : Option Payload}
  {found start : Gathered} {payload : Payload}

/-- A key of the selected state is one of the previous state or of the evidence. -/
def Sourced (previous : Option Payload) (evidence : List Payload) (payload : Payload) : Prop :=
  ∀ key, payload.recoveries.lookup key ≠ none →
    ∃ source ∈ previous.toList ++ evidence, source.recoveries.lookup key ≠ none

theorem sourced_of_mem {evidence : List Payload} (h : payload ∈ previous.toList ++ evidence) :
    Sourced previous evidence payload :=
  fun _ hkey => ⟨payload, h, hkey⟩

theorem sourced_merged {merged : Payload} {evidence : List Payload}
    (h : payload ∈ previous.toList ++ evidence) (hmerged : mergeBudgets payload evidence = .ok merged) :
    Sourced previous evidence merged := by
  intro key hkey
  rcases (mergeBudgets_ok hmerged).2.2 key hkey with hselected | ⟨source, hsource, hkey⟩
  · exact ⟨payload, h, hselected⟩
  · exact ⟨source, List.mem_append_right _ hsource, hkey⟩

theorem choose_sourced (hevidence : ∀ checkpoint ∈ found.candidates, checkpoint.payload ∈ found.evidence)
    (h : (choose previous found).1.selected = some payload) :
    Sourced found.selected found.evidence payload := by
  unfold choose at h
  cases hlatest : latest found.candidates with
  | none =>
    simp only [hlatest] at h
    cases hselected : found.selected.or found.evidence.getLast? with
    | none =>
      simp only [hselected] at h
      exact nomatch h
    | some selected =>
      have hmember : selected ∈ found.selected.toList ++ found.evidence := by
        cases hfound : found.selected with
        | none =>
          rw [hfound, Option.none_or] at hselected
          exact List.mem_append_right _ (List.mem_of_getLast? hselected)
        | some state =>
          rw [hfound, Option.some_or] at hselected
          rw [Option.some.inj hselected]
          exact List.mem_append_left _ (List.mem_singleton.mpr rfl)
      simp only [hselected] at h
      cases hmerged : mergeBudgets selected found.evidence with
      | error interrupt =>
        simp only [hmerged] at h
        rw [← Option.some.inj h]
        exact sourced_of_mem hmember
      | ok merged =>
        simp only [hmerged] at h
        rw [← Option.some.inj h]
        exact sourced_merged hmember hmerged
  | some checkpoint =>
    have hmember : checkpoint.payload ∈ found.selected.toList ++ found.evidence :=
      List.mem_append_right _ (hevidence checkpoint (latest_upTo hlatest).1)
    simp only [hlatest] at h
    cases hmerged : mergeBudgets checkpoint.payload found.evidence with
    | error interrupt =>
      simp only [hmerged] at h
      rw [← Option.some.inj h]
      exact sourced_of_mem hmember
    | ok merged =>
      simp only [hmerged] at h
      rw [← Option.some.inj h]
      exact sourced_merged hmember hmerged

theorem scanRuns_selected {window : List Run} {interrupt : Option Interrupt}
    (h : scanRuns api actor floor lower window start = (found, interrupt)) :
    found.selected = start.selected := by
  induction window generalizing start with
  | nil =>
    obtain ⟨rfl, -⟩ := Prod.mk.inj h
    rfl
  | cons run rest ih =>
    unfold scanRuns at h
    split at h
    · obtain ⟨rfl, -⟩ := Prod.mk.inj h
      rfl
    · next middle hmiddle => exact (ih h).trans (scanRun_ok hmiddle).1.more.selected

/-- A key of the state that a run starts from is one of the previous state or of a verified checkpoint. -/
theorem serviceContext_sourced (h : serviceContext api actor previous = .ok context)
    (hpayload : context.previous = some payload) (hkey : payload.recoveries.lookup key ≠ none) :
    (∃ state, previous = some state ∧ state.recoveries.lookup key ≠ none)
      ∨ ∃ moment checkpoint, Verified api actor moment checkpoint
        ∧ checkpoint.payload.recoveries.lookup key ≠ none := by
  obtain ⟨fence, rfl⟩ := serviceContext_eq h
  have hselected : (gather api actor previous).1.selected = some payload := hpayload
  have hprevious : previous = some payload →
      (∃ state, previous = some state ∧ state.recoveries.lookup key ≠ none)
        ∨ ∃ moment checkpoint, Verified api actor moment checkpoint
          ∧ checkpoint.payload.recoveries.lookup key ≠ none :=
    fun hsame => Or.inl ⟨payload, hsame, hkey⟩
  unfold gather at hselected
  split at hselected
  · exact hprevious hselected
  split at hselected
  · exact hprevious hselected
  next date hdate =>
  split at hselected
  · exact hprevious hselected
  next anchor hanchor =>
  simp only at hselected
  split at hselected
  · exact hprevious hselected
  next window hwindow =>
  split at hselected
  · exact hprevious hselected
  split at hselected
  · next found _ hfound => exact hprevious ((scanRuns_selected hfound).symm.trans hselected)
  · next found hfound =>
    obtain ⟨listing, entries, -, -, -, hread⟩ := historyRuns_ok hwindow
    obtain ⟨hmore, hsound, -⟩ := scanRuns_ok hfound (sound_anchored hanchor) hread
    obtain ⟨source, hsource, hkey⟩ := choose_sourced
      (fun checkpoint hmember => (hsound.candidates checkpoint hmember).2.1) hselected key hkey
    rcases List.mem_append.mp hsource with hbefore | hevidence
    · rw [hmore.selected] at hbefore
      exact Or.inl ⟨source, Option.mem_toList.mp hbefore, hkey⟩
    · obtain ⟨checkpoint, hverified, rfl⟩ := hsound.evidence source hevidence
      exact Or.inr ⟨date, checkpoint, hverified, hkey⟩

/-- What a state that was restored with reservations was read from. -/
def Restored (api : ContextApi) (actor : Actor) (payload : Payload) : Prop :=
  ∃ id run, api.run .restored id = .ok run ∧ serviceRevision run = some actor.implementation
    ∧ run.conclusion = some (some "success") ∧ api.artifact .restored id = .ok payload

theorem restoreRun_ok {id : Nat} (h : restoreRun api actor id = .ok (some payload))
    (hkey : payload.recoveries.lookup key ≠ none) : Restored api actor payload := by
  obtain ⟨run, hrun, h⟩ := Results.bind_eq_ok.mp h
  obtain ⟨trusted, htrusted, h⟩ := Results.bind_eq_ok.mp h
  split at h
  · exact nomatch Except.ok.inj h
  next hguard =>
  rw [not_not] at hguard
  rw [hguard] at htrusted
  split at h
  · exact nomatch Except.ok.inj h
  next source hsource =>
  obtain ⟨artifact, hartifact, h⟩ := Results.bind_eq_ok.mp h
  obtain ⟨state, hstate, h⟩ := Results.bind_eq_ok.mp h
  have hpayload := Option.some.inj (Except.ok.inj h)
  by_cases hsame : source = actor.implementation
  · rw [if_pos hsame, (validateState_ok hstate).1] at hpayload
    exact ⟨id, run, hrun, hsame ▸ hsource, trustedRun_ok htrusted, hpayload ▸ hartifact⟩
  · rw [if_neg hsame] at hpayload
    rw [← hpayload] at hkey
    exact absurd (AList.lookup_empty key) hkey

theorem restoreFirst_ok {summaries : List (Option Nat)}
    (h : restoreFirst api actor summaries = .ok (some payload))
    (hkey : payload.recoveries.lookup key ≠ none) : Restored api actor payload := by
  induction summaries with
  | nil => exact nomatch Except.ok.inj h
  | cons summary rest ih =>
    cases summary with
    | none => exact ih h
    | some id =>
      unfold restoreFirst at h
      split at h
      · next state hstate =>
        rw [Option.some.inj (Except.ok.inj h)] at hstate
        exact restoreRun_ok hstate hkey
      · exact ih h
      · exact ih h
      · exact nomatch h

theorem previousState_ok (h : previousState api actor = .ok (some payload))
    (hkey : payload.recoveries.lookup key ≠ none) : Restored api actor payload := by
  obtain ⟨summaries, -, h⟩ := Results.bind_eq_ok.mp h
  split at h
  · exact nomatch Except.ok.inj h
  · exact restoreFirst_ok h hkey

end

variable {implementation : String} {floor lower : Moment} {history : List Execution}
  {index other : Nat} {execution past : Execution} {found : Gathered} {payload : Payload}
  {first last : Session} {numbers : List Nat} {api : ServiceApi} {actor : Actor}

/-- A step enters no reservation unless it may prepare. -/
theorem Step.entered (h : Step api sha256 actor context numbers first last)
    (hkey : last.recoveries.lookup key ≠ none) :
    first.recoveries.lookup key ≠ none ∨ first.canPrepare = true := by
  cases h with
  | quiet h => exact Or.inl (h.recoveries ▸ hkey)
  | ordinary candidate identifier hcan hlisted hnew h =>
    have hsame : last.recoveries = first.recoveries := h.recoveries
    exact Or.inl (hsame ▸ hkey)
  | recovered number h =>
    cases h with
    | quiet h => exact Or.inl (h.recoveries ▸ hkey)
    | prepared identifier head hcan hlinked hnew h => exact Or.inr hcan
    | suspended changed reservation hlookup hphase h =>
      left
      by_cases hsame : key = changed
      · rw [hsame, hlookup]
        exact Option.some_ne_none _
      · rwa [h.touches.others key hsame] at hkey
    | requested identifier head reservation hlinked hlookup hphase hid hledger h =>
      left
      by_cases hsame : key = reservationKey sha256 actor identifier head
      · rw [hsame, hlookup]
        exact Option.some_ne_none _
      · rwa [h.touches.others key hsame] at hkey

theorem Steps.entered (h : Steps api sha256 actor context numbers first last)
    (hkey : last.recoveries.lookup key ≠ none) :
    first.recoveries.lookup key ≠ none ∨ first.canPrepare = true := by
  induction h with
  | start => exact Or.inl hkey
  | step hsteps hnext ih =>
    rcases hnext.entered hkey with hmiddle | hcan
    · exact ih hmiddle
    · exact Or.inr (hsteps.guards.canPrepare hcan)

/-- A reservation that a run persisted was persisted by a run that could prepare, then or before. -/
theorem Truthful.prepared_by (h : Truthful sha256 implementation floor history)
    (hexecution : Runs history implementation index execution)
    (hpersisted : execution.persisted sha256 = some payload)
    (hkey : payload.recoveries.lookup key ≠ none) :
    ∃ place writer before state, place ≤ index ∧ Runs history implementation place writer
      ∧ (writer.result sha256).context = some before ∧ before.canPrepare = true
      ∧ writer.persisted sha256 = some state ∧ state.recoveries.lookup key ≠ none := by
  induction index using Nat.strong_induction_on generalizing execution payload with
  | h index ih =>
    obtain ⟨context, last, hcontext, hran, hpayload⟩ := persisted_ran hpersisted
    obtain ⟨numbers, -, hsteps⟩ := hran.steps
    rw [hpayload] at hkey
    rcases hsteps.entered hkey with hstart | hcan
    · obtain ⟨⟨previous, hprevious, hservice⟩, -⟩ := result_context hcontext
      have hknows := h.knows index execution hexecution.at_index hexecution.implementation
      cases hselected : context.previous with
      | none =>
        have hempty : (Session.start context).recoveries = ∅ := by
          show (context.previous.map Payload.recoveries).getD ∅ = _
          rw [hselected]
          rfl
        rw [hempty] at hstart
        exact absurd (AList.lookup_empty key) hstart
      | some selected =>
        have hsame : (Session.start context).recoveries = selected.recoveries := by
          show (context.previous.map Payload.recoveries).getD ∅ = _
          rw [hselected]
          rfl
        rw [hsame] at hstart
        have horigin : ∃ place writer state, place < index ∧ Runs history implementation place writer
            ∧ writer.persisted sha256 = some state ∧ state.recoveries.lookup key ≠ none := by
          rcases serviceContext_sourced hservice hselected hstart with
            ⟨state, rfl, hkey⟩ | ⟨moment, checkpoint, hverified, hkey⟩
          · obtain ⟨id, run, hrun, hsource, hsuccess, hartifact⟩ := previousState_ok hprevious hkey
            obtain ⟨writer, hmember, himplementation, -, hwrote⟩ :=
              hknows.artifact .restored id run state hrun hsource hsuccess hartifact
            obtain ⟨place, hlt, hat⟩ := exists_of_mem_take hmember
            exact ⟨place, writer, state, hlt, ⟨hat, himplementation.trans hexecution.implementation⟩,
              hwrote, hkey⟩
          · obtain ⟨place, writer, hlt, hwriter, -, -, hwrote⟩ := h.origin hexecution hverified
            exact ⟨place, writer, _, hlt, hwriter, hwrote, hkey⟩
        obtain ⟨place, writer, state, hlt, hwriter, hwrote, hkey⟩ := horigin
        obtain ⟨first, preparer, before, entered, hle, hresult⟩ := ih place hlt hwriter hwrote hkey
        exact ⟨first, preparer, before, entered, hle.trans hlt.le, hresult⟩
    · exact ⟨index, execution, context, payload, le_refl _, hexecution, hcontext, hcan, hpersisted,
        by rw [hpayload]; exact hkey⟩

/-! ## What one run requests -/

def Post.key? : Post → Option String
  | label _ key => some key
  | rerun _ key => key

/-- The requests that consume the reservation of a key. -/
def keyed (key : String) (posts : List Post) : List Post := posts.filter fun effect => effect.key? = some key

theorem keyed_append (posts others : List Post) :
    keyed key (posts ++ others) = keyed key posts ++ keyed key others :=
  List.filter_append ..

theorem key_effectOf (number identifier : Nat) (key : String) (labels : Bool) :
    (effectOf number identifier key labels).key? = some key := by
  cases labels <;> rfl

theorem keyed_effectOf (number identifier : Nat) (labels : Bool) :
    keyed key [effectOf number identifier key labels] = [effectOf number identifier key labels] := by
  unfold keyed
  rw [List.filter_singleton, key_effectOf]
  simp

theorem keyed_effectOf_ne {other : String} (h : key ≠ other) (number identifier : Nat) (labels : Bool) :
    keyed key [effectOf number identifier other labels] = [] := by
  unfold keyed
  rw [List.filter_singleton, key_effectOf]
  simp [h.symm]

/-- Each CI run belongs to one pull request. -/
def AgreeOnPulls (api : ServiceApi) : Prop :=
  ∀ identifier number other head otherHead, Linked api identifier number head →
    Linked api identifier other otherHead → number = other

/-- How far a run is with one key: nothing is requested yet, or what was prepared has been. -/
inductive Spending (api : ServiceApi) (start : Session) (key : String) (numbers : List Nat)
    (session : Session) : Prop
  | idle (hposts : keyed key session.posts = [])
      (hprepared : ∀ reservation, session.recoveries.lookup key = some reservation →
        reservation.phase = .prepared →
          (∃ before, start.recoveries.lookup key = some before ∧ before.phase = .prepared
            ∧ before.bindings = reservation.bindings)
          ∨ ∃ number ∈ numbers, ∃ head, Linked api reservation.bindings.originalRunId number head)
  | spent (reservation : Reservation) (number : Nat)
      (hstart : start.recoveries.lookup key = some reservation) (hphase : reservation.phase = .prepared)
      (hcan : start.canEffect = true)
      (hposts : keyed key session.posts = [effectOf number reservation.bindings.originalRunId key
        reservation.bindings.kind.labels])
      (hafter : ∃ after, session.recoveries.lookup key = some after ∧ after.phase ≠ .prepared
        ∧ after.bindings = reservation.bindings)

theorem Spending.congr {start : Session} {others : List Nat} (h : Spending api start key numbers first)
    (hposts : keyed key last.posts = keyed key first.posts)
    (hlookup : last.recoveries.lookup key = first.recoveries.lookup key) :
    Spending api start key (numbers ++ others) last := by
  cases h with
  | idle hnone hprepared =>
    refine .idle (hposts.trans hnone) fun reservation hreservation hphase => ?_
    rw [hlookup] at hreservation
    refine (hprepared reservation hreservation hphase).imp id ?_
    rintro ⟨number, hnumber, head, hlinked⟩
    exact ⟨number, List.mem_append_left _ hnumber, head, hlinked⟩
  | spent reservation number hstart hphase hcan hone hafter =>
    exact .spent reservation number hstart hphase hcan (hposts.trans hone) (hlookup ▸ hafter)

theorem Spending.recovered {start : Session} {number : Nat} (h : Spending api start key numbers first)
    (hguards : Guards start first) (hpulls : AgreeOnPulls api) (hnew : number ∉ numbers)
    (hrecovered : Recovered api sha256 actor context number first last) :
    Spending api start key (numbers ++ [number]) last := by
  cases hrecovered with
  | quiet hquiet => exact h.congr (by rw [hquiet.posts]) (by rw [hquiet.recoveries])
  | prepared identifier head hcan hlinked hnone hprepared =>
    by_cases hsame : key = reservationKey sha256 actor identifier head
    · rw [← hsame] at hnone hprepared
      cases h with
      | idle hposts _ =>
        refine .idle (by rw [hprepared.posts]; exact hposts) fun reservation hreservation _ => ?_
        obtain ⟨entry, hentry, -, hid, -⟩ := hprepared.entry
        rw [hentry] at hreservation
        obtain rfl := Option.some.inj hreservation
        refine Or.inr ⟨number, List.mem_append_right _ (List.mem_singleton.mpr rfl), head, ?_⟩
        rw [hid]
        exact hlinked
      | spent _ _ _ _ _ _ hafter =>
        obtain ⟨after, hafter, -⟩ := hafter
        rw [hnone] at hafter
        exact nomatch hafter
    · exact h.congr (by rw [hprepared.posts]) (hprepared.touches.others key hsame)
  | suspended changed prepared hlookup hphase hsuspended =>
    by_cases hsame : key = changed
    · subst hsame
      cases h with
      | idle hposts _ =>
        refine .idle (by rw [hsuspended.posts]; exact hposts) fun reservation hreservation hstill => ?_
        obtain ⟨after, hafter, -, hspent, -⟩ := hsuspended.spent
        rw [hafter] at hreservation
        obtain rfl := Option.some.inj hreservation
        exact absurd hstill hspent
      | spent _ _ _ _ _ _ hafter =>
        obtain ⟨after, hafter, hspent, -⟩ := hafter
        rw [hlookup] at hafter
        exact absurd (Option.some.inj hafter ▸ hphase) hspent
    · exact h.congr (by rw [hsuspended.posts]) (hsuspended.touches.others key hsame)
  | requested identifier head prepared hlinked hlookup hphase hid hledger hrequested =>
    by_cases hsame : key = reservationKey sha256 actor identifier head
    · rw [← hsame] at hlookup hrequested
      obtain ⟨after, hafter, hbindings, hspent, -⟩ := hrequested.after
      cases h with
      | idle hposts hprepared =>
        rcases hprepared prepared hlookup hphase with
          ⟨before, hbefore, hwas, hsameBindings⟩ | ⟨earlier, hearlier, earlierHead, hearlierLinked⟩
        · refine .spent before number hbefore hwas (hguards.canEffect hrequested.canEffect) ?_
            ⟨after, hafter, hspent, hbindings.trans hsameBindings.symm⟩
          rw [hrequested.posts, keyed_append, hposts, List.nil_append, keyed_effectOf, hsameBindings, hid]
        · -- prepared in this run for a pull request that the CI run also belongs to
          rw [hid] at hearlierLinked
          have hpull := hpulls identifier earlier number earlierHead head hearlierLinked hlinked
          exact absurd (hpull ▸ hearlier) hnew
      | spent _ _ _ _ _ _ hearlier =>
        obtain ⟨between, hbetween, hgone, -⟩ := hearlier
        rw [hlookup] at hbetween
        exact absurd (Option.some.inj hbetween ▸ hphase) hgone
    · refine h.congr ?_ (hrequested.touches.others key hsame)
      rw [hrequested.posts, keyed_append, keyed_effectOf_ne hsame, List.append_nil]

theorem Spending.steps {start : Session} (hposts : start.posts = []) (hpulls : AgreeOnPulls api)
    (hsteps : Steps api sha256 actor context numbers start last) (hnodup : numbers.Nodup) :
    Spending api start key numbers last := by
  induction hsteps with
  | start session =>
    refine .idle (by rw [hposts]; rfl) fun reservation hreservation hphase => Or.inl ?_
    exact ⟨reservation, hreservation, hphase, rfl⟩
  | @step numbers others start middle last hsteps hnext ih =>
    have hmiddle := ih hposts hnodup.of_append_left
    cases hnext with
    | quiet hquiet => exact hmiddle.congr (by rw [hquiet.posts]) (by rw [hquiet.recoveries])
    | ordinary candidate identifier hcan hlisted hnew hreran =>
      have hlast : last.posts = middle.posts ++ [.rerun identifier none] := hreran.posts
      have hsame : last.recoveries = middle.recoveries := hreran.recoveries
      refine hmiddle.congr ?_ (by rw [hsame])
      rw [hlast, keyed_append]
      exact List.append_nil _
    | recovered number hrecovered =>
      refine hmiddle.recovered hsteps.guards hpulls (fun hmember => ?_) hrecovered
      exact (List.nodup_append.mp hnodup).2.2 number hmember number (List.mem_singleton.mpr rfl) rfl

/-! ## One run of the history -/

variable {before : ServiceContext} {reservation : Reservation}

theorem Ran.spending (h : Ran sha256 execution context last) (honce : ListsOnce execution.api)
    (hpulls : AgreeOnPulls execution.api) (key : String) :
    ∃ numbers, Spending execution.api (Session.start context) key numbers last := by
  obtain ⟨numbers, hnodup, hsteps⟩ := h.steps
  exact ⟨numbers, Spending.steps rfl hpulls hsteps (hnodup honce)⟩

/-- The checkpoint has the key prepared, and an earlier run that ended with success persisted it. -/
structure PreparedBy (sha256 : ByteArray → Vector UInt8 32) (history : List Execution)
    (implementation : String) (index : Nat) (checkpoint : Checkpoint) (key : String)
    (bindings : Bindings) : Prop where
  prepared : ∃ reservation, checkpoint.payload.recoveries.lookup key = some reservation
    ∧ reservation.phase = .prepared ∧ reservation.bindings = bindings
  persisted : ∃ place writer, place < index ∧ Runs history implementation place writer
    ∧ writer.conclusion = "success" ∧ writer.persisted sha256 = some checkpoint.payload

/-- What a run that can effect starts with as prepared, its checkpoint holds as prepared. -/
theorem Truthful.preparation (h : Truthful sha256 implementation floor history)
    (hexecution : Runs history implementation index execution)
    (hcontext : (execution.result sha256).context = some context) (hcan : context.canEffect = true)
    (hlookup : (Session.start context).recoveries.lookup key = some reservation)
    (hphase : reservation.phase = .prepared) :
    ∃ checkpoint, context.checkpoint = some checkpoint
      ∧ PreparedBy sha256 history implementation index checkpoint key reservation.bindings := by
  obtain ⟨⟨previous, -, hservice⟩, -⟩ := result_context hcontext
  obtain ⟨hprepare, hsome⟩ := canEffect_canPrepare hservice hcan
  have hfence := (canPrepare_eq hservice hprepare).2
  obtain ⟨lower, found, hview⟩ := h.view hexecution hcontext hfence
  obtain ⟨checkpoint, hcheckpoint⟩ := Option.isSome_iff_exists.mp hsome
  obtain ⟨merged, hmerged⟩ := Option.isSome_iff_exists.mp (hview.present hsome)
  obtain ⟨selected, hmerges, hselected⟩ := hview.previous merged hmerged
  obtain rfl := hselected checkpoint (hview.checkpoint.symm.trans hcheckpoint)
  have hstart : (Session.start context).recoveries = merged.recoveries := by
    show (context.previous.map Payload.recoveries).getD ∅ = _
    rw [hmerged]
    rfl
  rw [hstart] at hlookup
  obtain ⟨hpreserves, -, horigin⟩ := mergeBudgets_ok hmerges
  obtain ⟨hnewest, -⟩ := latest_upTo (hview.checkpoint.symm.trans hcheckpoint)
  obtain ⟨hevidence, hauthoritative, place, writer, hplace, hwriter, -, -, hwrote⟩ :=
    hview.candidates checkpoint hnewest
  -- the key was persisted by a run that could prepare, which the checkpoint preserves
  have hsource : ∃ payload ∈ found.evidence, payload.recoveries.lookup key ≠ none := by
    have hkey : merged.recoveries.lookup key ≠ none := by
      rw [hlookup]
      exact Option.some_ne_none _
    rcases horigin key hkey with hselectedKey | hevidenceKey
    · exact ⟨checkpoint.payload, hevidence, hselectedKey⟩
    · exact hevidenceKey
  obtain ⟨source, hsource, hkey⟩ := hsource
  obtain ⟨-, other, past, hlt, hpast, hpersisted⟩ := hview.evidence source hsource
  obtain ⟨entered, preparer, before, state, hle, hpreparer, hbefore, hcanPrepare, hstate, hentered⟩ :=
    h.prepared_by hpast hpersisted hkey
  obtain ⟨held, hheld, hpreserved⟩ := h.preserves index execution context hexecution hcontext hfence
    entered preparer before state (hle.trans_lt hlt) hpreparer hbefore hcanPrepare hstate
  obtain rfl := Option.some.inj (hcheckpoint.symm.trans hheld)
  obtain ⟨first, hfirst⟩ := Option.ne_none_iff_exists'.mp hentered
  obtain ⟨kept, hkept, -, -⟩ := hpreserved key first hfirst
  obtain ⟨hstill, hbindings⟩ := hpreserves.prepared hkept hlookup hphase
  -- and the run that persisted the checkpoint ended clean, as no fence is left
  obtain ⟨between, last, hbetween, -, -⟩ := persisted_ran hwrote
  have hunfenced := fenceOf_eq_none_of_context hbetween hwrote (hview.evidence _ hevidence).1
  obtain ⟨⟨restored, -, hwriterService⟩, -⟩ := result_context hbetween
  rw [authoritative_eq hbetween hwrote] at hauthoritative
  have hends : EndsClean sha256 writer := by
    by_contra hunclean
    exact h.fenced hwriter hbetween (canPrepare_of hwriterService hauthoritative hunfenced) hunclean
      hplace hexecution hcontext hfence
  exact ⟨checkpoint, hcheckpoint, ⟨kept, hkept, hstill, hbindings.symm⟩,
    ⟨place, writer, hplace, hwriter, hends.1, hwrote⟩⟩

/-! ## All runs of the history -/

/-- The requests of one execution that consume the reservation of a key. -/
def keyedOf (sha256 : ByteArray → Vector UInt8 32) (key : String) (execution : Execution) : List Post :=
  keyed key (execution.result sha256).posts

theorem keyed_requests (thread : List Execution) :
    keyed key (requests sha256 thread) = thread.flatMap (keyedOf sha256 key) :=
  List.filter_flatMap ..

/-- What the listings and the CI runs of the repository are like. -/
structure Consistent (api : ServiceApi) : Prop where
  listsOnce : ListsOnce api
  agreeOnPulls : AgreeOnPulls api

/-- What a run that consumes a reservation was allowed by, and what it leaves behind. -/
structure Consumes (sha256 : ByteArray → Vector UInt8 32) (history : List Execution)
    (implementation : String) (index : Nat) (execution : Execution) (key : String) : Prop where
  consumed : ∃ context last checkpoint number after,
    (execution.result sha256).context = some context ∧ context.canEffect = true
    ∧ (execution.result sha256).session = some last
    ∧ last.recoveries.lookup key = some after ∧ after.phase ≠ .prepared
    ∧ keyedOf sha256 key execution
      = [effectOf number after.bindings.originalRunId key after.bindings.kind.labels]
    ∧ context.checkpoint = some checkpoint
    ∧ PreparedBy sha256 history implementation index checkpoint key after.bindings

theorem Truthful.consumes (h : Truthful sha256 implementation floor history)
    (hexecution : Runs history implementation index execution) (hconsistent : Consistent execution.api)
    (hkeyed : keyedOf sha256 key execution ≠ []) :
    Consumes sha256 history implementation index execution key := by
  cases hcontext : (execution.result sha256).context with
  | none =>
    exfalso
    refine hkeyed ?_
    have hsession : (execution.result sha256).session = none := by
      unfold Execution.result service at hcontext ⊢
      split at hcontext
      · rfl
      · split at hcontext
        · rfl
        · rw [serviceFrom_context] at hcontext
          exact nomatch hcontext
    unfold keyedOf Result.posts
    rw [hsession]
    rfl
  | some context =>
    obtain ⟨last, hran⟩ := result_ran hcontext
    obtain ⟨numbers, hspending⟩ := hran.spending hconsistent.listsOnce hconsistent.agreeOnPulls key
    have hposts : keyedOf sha256 key execution = keyed key last.posts := by
      unfold keyedOf
      rw [hran.posts]
    cases hspending with
    | idle hnone _ => exact absurd (hposts.trans hnone) hkeyed
    | spent reservation number hstart hphase hcan hone hafter =>
      obtain ⟨after, hafter, hspent, hbindings⟩ := hafter
      obtain ⟨checkpoint, hcheckpoint, hprepared⟩ :=
        h.preparation hexecution hcontext hcan hstart hphase
      rw [← hbindings] at hprepared hone
      exact ⟨context, last, checkpoint, number, after, hcontext, hcan, hran.session, hafter, hspent,
        hposts.trans hone, hcheckpoint, hprepared⟩

/-- After a run that consumed a reservation, no later one consumes it. -/
theorem Truthful.consumed_once (h : Truthful sha256 implementation floor history)
    (hconsistent : ∀ execution ∈ history, execution.actor.implementation = implementation →
      Consistent execution.api)
    (hpast : Runs history implementation other past) (hlt : other < index)
    (hexecution : Runs history implementation index execution) (hkeyed : keyedOf sha256 key past ≠ []) :
    keyedOf sha256 key execution = [] := by
  by_contra hlater
  have hearlier := h.consumes hpast
    (hconsistent past (List.mem_of_getElem? hpast.at_index) hpast.implementation) hkeyed
  obtain ⟨before, last, -, -, after, hbefore, hcanBefore, hlast, hafter, hspent, -⟩ := hearlier.consumed
  have hagain := h.consumes hexecution
    (hconsistent execution (List.mem_of_getElem? hexecution.at_index) hexecution.implementation) hlater
  obtain ⟨context, -, checkpoint, -, again, hcontext, hcan, -, -, -, -, hcheckpoint, hprepared⟩ :=
    hagain.consumed
  obtain ⟨⟨previous, -, hservice⟩, -⟩ := result_context hcontext
  have hfence := (canPrepare_eq hservice (canEffect_canPrepare hservice hcan).1).2
  obtain ⟨⟨restored, -, hpastService⟩, -⟩ := result_context hbefore
  have hcanPrepare := (canEffect_canPrepare hpastService hcanBefore).1
  have hends : EndsClean sha256 past := by
    by_contra hunclean
    exact h.fenced hpast hbefore hcanPrepare hunclean hlt hexecution hcontext hfence
  obtain ⟨-, payload, hpersisted, -⟩ := hends
  obtain ⟨found, final, -, hran, hpayload⟩ := persisted_ran hpersisted
  obtain rfl := Option.some.inj (hlast.symm.trans hran.session)
  have hentered : payload.recoveries.lookup key = some after := by
    rw [hpayload]
    exact hafter
  obtain ⟨held, hheld, hpreserved⟩ := h.preserves index execution context hexecution hcontext hfence
    other past before payload hlt hpast hbefore hcanPrepare hpersisted
  obtain rfl := Option.some.inj (hcheckpoint.symm.trans hheld)
  obtain ⟨kept, hkept, -, hstays⟩ := hpreserved key after hentered
  obtain ⟨reservation, hreservation, hphase, -⟩ := hprepared.prepared
  rw [hkept] at hreservation
  exact hstays hspent (Option.some.inj hreservation ▸ hphase)

theorem length_flatMap_le_one {α β : Type*} {f : α → List β} {l : List α}
    (hone : ∀ x ∈ l, (f x).length ≤ 1) (h : l.Pairwise fun x y => f x ≠ [] → f y = []) :
    (l.flatMap f).length ≤ 1 := by
  induction l with
  | nil => exact Nat.zero_le 1
  | cons x rest ih =>
    obtain ⟨hfirst, hrest⟩ := List.pairwise_cons.mp h
    rw [List.flatMap_cons]
    by_cases hempty : f x = []
    · rw [hempty, List.nil_append]
      exact ih (fun y hy => hone y (List.mem_cons_of_mem x hy)) hrest
    · rw [List.flatMap_eq_nil_iff.mpr fun y hy => hfirst y hy hempty, List.append_nil]
      exact hone x List.mem_cons_self

end Boxferry.Automation.Eligibility
