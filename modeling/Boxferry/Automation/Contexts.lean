import Boxferry.Automation.Checkpoints

/-! # Clean contexts

A context without a fence has read its whole history: its anchor, every run that was
created since, and the state of each of them that succeeded. -/
namespace Boxferry.Automation.Eligibility
set_option autoImplicit false

variable {api : ContextApi} {actor : Actor} {site : Site} {floor lower : Moment} {run : Run}
  {checkpoint : Checkpoint} {previous : Option Payload} {found start : Gathered}

/-! ## Verified checkpoints -/

theorem immutableServiceSource_ok {source : String} (h : immutableServiceSource run = .ok source) :
    serviceRevision run = some source := by
  unfold immutableServiceSource at h
  split at h
  · exact nomatch h
  · split at h
    · exact nomatch h
    · split at h
      · exact nomatch h
      · next found hfound =>
        rw [hfound, Except.ok.inj h]

theorem trustedRun_ok {allow : Bool} (h : trustedRun api actor allow run = .ok true) :
    run.conclusion = some (some "success") := by
  unfold trustedRun at h
  split at h
  · exact nomatch h
  · next hmetadata =>
    simp only [not_or, not_not] at hmetadata
    exact hmetadata.2.2.2.2.1

theorem trustedSource_ok {source : String} (h : trustedSource api actor source run = .ok true) :
    source = actor.implementation ∧ run.conclusion = some (some "success") := by
  unfold trustedSource at h
  split at h
  · next hsame => exact ⟨hsame, trustedRun_ok h⟩
  · exact nomatch h

/-- What a checkpoint's state was verified by. -/
structure Verifies (api : ContextApi) (site : Site) (actor : Actor) (floor : Moment)
    (checkpoint : Checkpoint) : Prop where
  id : checkpoint.run.id = some checkpoint.id
  created : checkpoint.run.createdAt = some checkpoint.created
  attempt : checkpoint.payload.runAttempt = checkpoint.run.attempt
  source : serviceRevision checkpoint.run = some actor.implementation
  conclusion : checkpoint.run.conclusion = some (some "success")
  artifact : api.artifact site checkpoint.id = .ok checkpoint.payload
  floor : floor ≤ checkpoint.created

theorem utc_ok {value : Option Moment} {moment : Moment} (h : utc value = .ok moment) :
    value = some moment := by
  cases value with
  | none => exact nomatch h
  | some value => rw [Except.ok.inj h]

theorem checkpointPayload_ok (h : checkpointPayload api site actor run floor = .ok checkpoint) :
    checkpoint.run = run ∧ Verifies api site actor floor checkpoint := by
  obtain ⟨source, hsource, h⟩ := Results.bind_eq_ok.mp h
  obtain ⟨trusted, htrusted, h⟩ := Results.bind_eq_ok.mp h
  obtain ⟨⟨⟩, hguard, h⟩ := Results.bind_eq_ok.mp h
  have hguard := refusedWhen_ok hguard
  rw [not_not] at hguard
  rw [hguard] at htrusted
  obtain ⟨hsame, hconclusion⟩ := trustedSource_ok htrusted
  rw [hsame] at hsource
  split at h
  · next id attempt hid hattempt =>
    obtain ⟨created, hcreated, h⟩ := Results.bind_eq_ok.mp h
    obtain ⟨artifact, hartifact, h⟩ := Results.bind_eq_ok.mp h
    obtain ⟨payload, hpayload, h⟩ := Results.bind_eq_ok.mp h
    obtain ⟨⟨⟩, hbinds, h⟩ := Results.bind_eq_ok.mp h
    have hbinds := refusedWhen_ok hbinds
    simp only [not_or, not_not, not_lt] at hbinds
    rw [← Except.ok.inj h, (validateState_ok hpayload).1] at *
    exact ⟨rfl, hid, utc_ok hcreated, hbinds.1.trans hattempt.symm, immutableServiceSource_ok hsource,
      hconclusion, hartifact, hbinds.2.2⟩
  · exact nomatch h

/-- A checkpoint that the run read where the API has its run. -/
def Verified (api : ContextApi) (actor : Actor) (floor : Moment) (checkpoint : Checkpoint) : Prop :=
  ∃ site, Verifies api site actor floor checkpoint ∧ api.run site checkpoint.id = .ok checkpoint.run

/-- What was gathered comes from verified checkpoints. -/
structure Sound (api : ContextApi) (actor : Actor) (floor : Moment) (found : Gathered) : Prop where
  evidence : ∀ payload ∈ found.evidence, ∃ checkpoint, Verified api actor floor checkpoint
    ∧ checkpoint.payload = payload
  candidates : ∀ checkpoint ∈ found.candidates, Verified api actor floor checkpoint
    ∧ checkpoint.payload ∈ found.evidence ∧ authoritative checkpoint.payload = true

/-! ## Scanning the window -/

/-- How a run of the window is taken into account when it leaves no fence. -/
inductive Accounted (api : ContextApi) (actor : Actor) (floor : Moment) (run : Run)
    (found : Gathered) : Prop
  | current (hid : run.id = some actor.runId) (hattempt : run.attempt = some actor.attempt)
  | foreign (h : serviceRevision run ≠ some actor.implementation)
  | unfinished (hattempt : run.attempt = some 1) (h : run.status ≠ some "completed")
  | skipped (hattempt : run.attempt = some 1) (h : run.conclusion = some (some "skipped"))
  | evident (hattempt : run.attempt = some 1) (checkpoint : Checkpoint) (hrun : checkpoint.run = run)
      (h : Verifies api .window actor floor checkpoint)
      (hevidence : checkpoint.payload ∈ found.evidence)
      (hcandidate : authoritative checkpoint.payload = true → checkpoint ∈ found.candidates)

/-- What is known stays known, and a fence stays a fence. -/
structure Extends (start found : Gathered) : Prop where
  evidence : start.evidence ⊆ found.evidence
  candidates : start.candidates ⊆ found.candidates
  fence : found.fence = start.fence ∨ ∃ reason : Text, found.fence = some reason.value
  floor : found.floor = start.floor
  selected : found.selected = start.selected
  checkpoint : found.checkpoint = start.checkpoint

theorem Extends.refl (found : Gathered) : Extends found found :=
  ⟨List.Subset.refl _, List.Subset.refl _, Or.inl rfl, rfl, rfl, rfl⟩

theorem Extends.unfenced (h : Extends start found) (hfence : found.fence = none) : start.fence = none := by
  rcases h.fence with hsame | ⟨reason, hreason⟩
  · rw [← hsame, hfence]
  · rw [hfence] at hreason
    exact nomatch hreason

theorem Extends.trans {middle : Gathered} (h : Extends start middle) (hnext : Extends middle found) :
    Extends start found := by
  refine ⟨List.Subset.trans h.evidence hnext.evidence, List.Subset.trans h.candidates hnext.candidates,
    ?_, hnext.floor.trans h.floor, hnext.selected.trans h.selected,
    hnext.checkpoint.trans h.checkpoint⟩
  rcases hnext.fence with hsame | hreason
  · rw [hsame]
    exact h.fence
  · exact Or.inr hreason

theorem Accounted.extends (h : Accounted api actor floor run start) (hfound : Extends start found) :
    Accounted api actor floor run found := by
  cases h with
  | current hid hattempt => exact .current hid hattempt
  | foreign h => exact .foreign h
  | unfinished hattempt h => exact .unfinished hattempt h
  | skipped hattempt h => exact .skipped hattempt h
  | evident hattempt checkpoint hrun h hevidence hcandidate =>
    exact .evident hattempt checkpoint hrun h (hfound.evidence hevidence)
      fun hauthoritative => hfound.candidates (hcandidate hauthoritative)

theorem unstartedService_ok (h : unstartedService api run = .ok true) :
    run.status ≠ some "completed" := by
  unfold unstartedService at h
  split at h
  · exact nomatch h
  · split at h
    · exact nomatch h
    · next hqueued =>
      simp only [not_or, not_not] at hqueued
      intro hcompleted
      rw [hcompleted] at hqueued
      exact absurd hqueued.2.2.1 (by decide)

theorem skippedService_ok (h : skippedService api actor run = .ok true) :
    run.conclusion = some (some "skipped") := by
  unfold skippedService at h
  split at h
  · exact nomatch h
  · split at h
    · exact nomatch h
    · next hskipped =>
      simp only [not_or, not_not] at hskipped
      exact hskipped.2.2.2.2.1

/-- A run adds at most its own verified state. -/
structure Gains (api : ContextApi) (actor : Actor) (floor : Moment) (run : Run)
    (start found : Gathered) : Prop where
  more : Extends start found
  evidence : ∀ payload ∈ found.evidence, payload ∈ start.evidence
    ∨ ∃ checkpoint, checkpoint.run = run ∧ Verifies api .window actor floor checkpoint
      ∧ checkpoint.payload = payload
  candidates : ∀ checkpoint ∈ found.candidates, checkpoint ∈ start.candidates
    ∨ checkpoint.run = run ∧ Verifies api .window actor floor checkpoint
      ∧ checkpoint.payload ∈ found.evidence ∧ authoritative checkpoint.payload = true

theorem Gains.none (h : Extends start found) (hevidence : found.evidence = start.evidence)
    (hcandidates : found.candidates = start.candidates) : Gains api actor floor run start found :=
  ⟨h, fun _ hpayload => Or.inl (hevidence ▸ hpayload), fun _ hcheckpoint => Or.inl (hcandidates ▸ hcheckpoint)⟩

/-- A fence that is set, with everything else as it was. -/
theorem Gains.fenced (reason : Text) :
    Gains api actor floor run start { start with fence := some reason.value } :=
  Gains.none ⟨List.Subset.refl _, List.Subset.refl _, Or.inr ⟨reason, rfl⟩, rfl, rfl, rfl⟩ rfl rfl

theorem scanCheckpoint_ok (hattempt : run.attempt = some 1)
    (hcheckpoint : checkpointPayload api .window actor run floor = .ok checkpoint)
    (hevidence : found.evidence = start.evidence ++ [checkpoint.payload])
    (hcandidates : found.candidates
      = if authoritative checkpoint.payload then start.candidates ++ [checkpoint] else start.candidates)
    (hfence : found.fence = start.fence) (hfloor : found.floor = start.floor)
    (hselected : found.selected = start.selected) (hchosen : found.checkpoint = start.checkpoint) :
    Gains api actor floor run start found
      ∧ (found.fence = none → Accounted api actor floor run found) := by
  obtain ⟨hrun, hverifies⟩ := checkpointPayload_ok hcheckpoint
  have hmember : checkpoint.payload ∈ found.evidence := by
    rw [hevidence]
    exact List.mem_append_right _ (List.mem_singleton.mpr rfl)
  have hsubset : start.candidates ⊆ found.candidates := by
    rw [hcandidates]
    split
    · exact List.subset_append_left _ _
    · exact List.Subset.refl _
  refine ⟨⟨⟨?_, hsubset, Or.inl hfence, hfloor, hselected, hchosen⟩, ?_, ?_⟩,
    fun _ => .evident hattempt checkpoint hrun hverifies hmember fun hauthoritative => ?_⟩
  · rw [hevidence]
    exact List.subset_append_left _ _
  · intro payload hpayload
    rw [hevidence, List.mem_append, List.mem_singleton] at hpayload
    exact hpayload.imp id fun hsame => ⟨checkpoint, hrun, hverifies, hsame.symm⟩
  · intro other hother
    rw [hcandidates] at hother
    split at hother
    · next hauthoritative =>
      rw [List.mem_append, List.mem_singleton] at hother
      refine hother.imp id fun hsame => ?_
      rw [hsame]
      exact ⟨hrun, hverifies, hmember, hauthoritative⟩
    · exact Or.inl hother
  · rw [hcandidates, if_pos hauthoritative]
    exact List.mem_append_right _ (List.mem_singleton.mpr rfl)

theorem scanRun_ok (h : scanRun api actor floor lower run start = .ok found) :
    Gains api actor floor run start found
      ∧ (found.fence = none → Accounted api actor floor run found) := by
  have hsame : Gains api actor floor run start start := Gains.none (Extends.refl start) rfl rfl
  unfold scanRun at h
  split at h
  · next hcurrent =>
    rw [← Except.ok.inj h]
    exact ⟨hsame, fun _ => .current hcurrent.1 hcurrent.2⟩
  obtain ⟨-, -, h⟩ := Results.bind_eq_ok.mp h
  obtain ⟨source, hsource, h⟩ := Results.bind_eq_ok.mp h
  split at h
  · next hforeign =>
    rw [← Except.ok.inj h]
    refine ⟨hsame, fun _ => .foreign ?_⟩
    rw [immutableServiceSource_ok hsource]
    exact fun hsource => hforeign (Option.some.inj hsource)
  obtain ⟨created, hcreated, h⟩ := Results.bind_eq_ok.mp h
  obtain ⟨-, -, h⟩ := Results.bind_eq_ok.mp h
  split at h
  · rw [← Except.ok.inj h]
    exact ⟨Gains.fenced ⟨_, by decide⟩, fun hfence => nomatch hfence⟩
  next hattempt =>
  rw [not_not] at hattempt
  split at h
  · next hstatus =>
    obtain ⟨unstarted, hunstarted, h⟩ := Results.bind_eq_ok.mp h
    split at h
    · rw [← Except.ok.inj h]
      exact ⟨hsame, fun _ => .unfinished hattempt hstatus⟩
    · rw [← Except.ok.inj h]
      exact ⟨Gains.none ⟨List.Subset.refl _, List.Subset.refl _, Or.inl rfl, rfl, rfl, rfl⟩ rfl rfl,
        fun _ => .unfinished hattempt hstatus⟩
  next hstatus =>
  rw [not_not] at hstatus
  split at h
  · obtain ⟨unstarted, hunstarted, h⟩ := Results.bind_eq_ok.mp h
    split at h
    · next hunstart =>
      rw [hunstart] at hunstarted
      exact absurd hstatus (unstartedService_ok hunstarted)
    · obtain ⟨skipped, hskipped, h⟩ := Results.bind_eq_ok.mp h
      split at h
      · next hskip =>
        rw [hskip] at hskipped
        rw [← Except.ok.inj h]
        exact ⟨hsame, fun _ => .skipped hattempt (skippedService_ok hskipped)⟩
      · rw [← Except.ok.inj h]
        exact ⟨Gains.fenced ⟨_, by decide⟩, fun hfence => nomatch hfence⟩
  · split at h
    · split at h
      · next reason _ =>
        rw [← Except.ok.inj h]
        exact ⟨Gains.fenced reason, fun hfence => nomatch hfence⟩
      · exact nomatch h
    · next checkpoint hcheckpoint =>
      split at h
      · next hauthoritative =>
        rw [← Except.ok.inj h]
        refine scanCheckpoint_ok hattempt hcheckpoint rfl ?_ rfl rfl rfl rfl
        rw [if_pos hauthoritative]
      · next hauthoritative =>
        rw [← Except.ok.inj h]
        refine scanCheckpoint_ok hattempt hcheckpoint rfl ?_ rfl rfl rfl rfl
        rw [if_neg hauthoritative]

theorem Sound.gains (h : Sound api actor floor start) (hgains : Gains api actor floor run start found)
    (hrun : ∀ id, run.id = some id → api.run .window id = .ok run) : Sound api actor floor found := by
  have hverified : ∀ checkpoint : Checkpoint, checkpoint.run = run →
      Verifies api .window actor floor checkpoint → Verified api actor floor checkpoint := by
    intro checkpoint hsame hverifies
    refine ⟨.window, hverifies, ?_⟩
    rw [hsame]
    exact hrun checkpoint.id (hsame ▸ hverifies.id)
  constructor
  · intro payload hpayload
    rcases hgains.evidence payload hpayload with hstart | ⟨checkpoint, hsame, hverifies, hpayload⟩
    · exact h.evidence payload hstart
    · exact ⟨checkpoint, hverified checkpoint hsame hverifies, hpayload⟩
  · intro checkpoint hcheckpoint
    rcases hgains.candidates checkpoint hcheckpoint with hstart | ⟨hsame, hverifies, hevidence, hauthoritative⟩
    · obtain ⟨hverified, hevidence, hauthoritative⟩ := h.candidates checkpoint hstart
      exact ⟨hverified, hgains.more.evidence hevidence, hauthoritative⟩
    · exact ⟨hverified checkpoint hsame hverifies, hevidence, hauthoritative⟩

theorem scanRuns_ok {window : List Run}
    (h : scanRuns api actor floor lower window start = (found, none))
    (hsound : Sound api actor floor start)
    (hwindow : ∀ run ∈ window, ∀ id, run.id = some id → api.run .window id = .ok run) :
    Extends start found ∧ Sound api actor floor found
      ∧ (found.fence = none → ∀ run ∈ window, Accounted api actor floor run found) := by
  induction window generalizing start with
  | nil =>
    obtain ⟨rfl, -⟩ := Prod.mk.inj h
    exact ⟨Extends.refl _, hsound, fun _ _ hrun => (nomatch hrun)⟩
  | cons run rest ih =>
    unfold scanRuns at h
    split at h
    · exact nomatch h
    · next middle hmiddle =>
      obtain ⟨hgains, haccounted⟩ := scanRun_ok hmiddle
      have hmiddle := hsound.gains hgains (hwindow run List.mem_cons_self)
      obtain ⟨hmore, hfound, hrest⟩ :=
        ih h hmiddle fun run hrun => hwindow run (List.mem_cons_of_mem _ hrun)
      refine ⟨hgains.more.trans hmore, hfound, fun hfence other hother => ?_⟩
      rcases List.mem_cons.mp hother with rfl | hother
      · exact (haccounted (hmore.unfenced hfence)).extends hmore
      · exact hrest hfence other hother

/-! ## The history since the anchor -/

theorem anchorOf_ok (h : anchorOf api actor previous floor = .ok (some checkpoint)) :
    Verified api actor floor checkpoint ∧ authoritative checkpoint.payload = true := by
  unfold anchorOf at h
  split at h
  · exact nomatch Except.ok.inj h
  · next identifier _ =>
    obtain ⟨run, hrun, h⟩ := Results.bind_eq_ok.mp h
    obtain ⟨⟨⟩, hid, h⟩ := Results.bind_eq_ok.mp h
    obtain ⟨found, hfound, h⟩ := Results.bind_eq_ok.mp h
    obtain ⟨⟨⟩, hauthoritative, h⟩ := Results.bind_eq_ok.mp h
    have hid := refusedWhen_ok hid
    have hauthoritative := refusedWhen_ok hauthoritative
    rw [not_not] at hid hauthoritative
    obtain rfl := Option.some.inj (Except.ok.inj h)
    obtain ⟨hsame, hverifies⟩ := checkpointPayload_ok hfound
    refine ⟨⟨.anchor, hverifies, ?_⟩, hauthoritative⟩
    have hidentifier : found.id = identifier := by
      have hboth := hverifies.id
      rw [hsame, hid] at hboth
      exact (Option.some.inj hboth).symm
    rw [hidentifier, hsame]
    exact hrun

theorem mem_identities {entries : List (Option Nat)} {id : Nat}
    (hlength : (identities entries).length = entries.length) (hid : some id ∈ entries) :
    id ∈ identities entries := by
  have hall := List.filterMap_length_eq_length.mp hlength (some id) hid
  refine List.mem_filterMap.mpr ⟨some id, hid, ?_⟩
  by_cases hpositive : 0 < id
  · simp [Option.filter, hpositive]
  · simp [Option.filter, hpositive] at hall

theorem readBack_of_forall₂ {ids : List Nat} {runs : List Run}
    (h : List.Forall₂ (fun id run => api.run .window id = .ok run) ids runs)
    (hids : runs.map Run.id = ids.map some) :
    ∀ run ∈ runs, ∀ id, run.id = some id → api.run .window id = .ok run := by
  induction h with
  | nil => exact fun _ hrun => nomatch hrun
  | cons hread hrest ih =>
    obtain ⟨hid, hids⟩ := List.cons.inj hids
    intro run hrun id hsame
    rcases List.mem_cons.mp hrun with rfl | hrun
    · rw [hid] at hsame
      rw [← Option.some.inj hsame]
      exact hread
    · exact ih hids run hrun id hsame

/-- Every listed run is in the window, and each run of it was read by its own identifier. -/
theorem historyRuns_ok {window : List Run} (h : historyRuns api lower = .ok window) :
    ∃ listing entries, api.listing lower = .ok listing ∧ listing.runs = some entries
      ∧ (∀ id, some id ∈ entries → ∃ run ∈ window, run.id = some id)
      ∧ ∀ run ∈ window, ∀ id, run.id = some id → api.run .window id = .ok run := by
  obtain ⟨listing, hlisting, h⟩ := Results.bind_eq_ok.mp h
  split at h
  · exact nomatch h
  · next entries hentries =>
    obtain ⟨-, -, h⟩ := Results.bind_eq_ok.mp h
    obtain ⟨⟨⟩, hlength, h⟩ := Results.bind_eq_ok.mp h
    obtain ⟨runs, hruns, h⟩ := Results.bind_eq_ok.mp h
    obtain ⟨⟨⟩, hids, h⟩ := Results.bind_eq_ok.mp h
    have hlength := refusedWhen_ok hlength
    have hids := refusedWhen_ok hids
    simp only [not_or, not_not] at hlength hids
    obtain rfl := Except.ok.inj h
    refine ⟨listing, entries, hlisting, hentries, fun id hid => ?_, ?_⟩
    · have hmember : some id ∈ runs.map Run.id := by
        rw [hids]
        exact List.mem_map_of_mem (mem_identities hlength.1 hid)
      obtain ⟨run, hrun, hsame⟩ := List.mem_map.mp hmember
      exact ⟨run, hrun, hsame⟩
    · exact readBack_of_forall₂ (Results.mapM_eq_ok.mp hruns) hids

/-! ## The choice -/

theorem inherit_eq_none {fence : Option String} {states : List Payload} :
    inherit fence states = none ↔ fence = none ∧ ∀ payload ∈ states, fenceOf payload = none := by
  induction states generalizing fence with
  | nil => simp [inherit]
  | cons state rest ih =>
    show inherit ((fenceOf state).or fence) rest = none ↔ _
    rw [ih, Option.or_eq_none_iff]
    simp only [List.mem_cons, forall_eq_or_imp]
    constructor
    · rintro ⟨⟨hstate, hfence⟩, hrest⟩
      exact ⟨hfence, hstate, hrest⟩
    · rintro ⟨hfence, hstate, hrest⟩
      exact ⟨⟨hstate, hfence⟩, hrest⟩

/-- What the chosen state was merged from. -/
structure Chooses (previous : Option Payload) (found chosen : Gathered) : Prop where
  fence : chosen.fence = inherit found.fence (found.evidence ++ previous.toList)
  candidates : chosen.candidates = found.candidates
  floor : chosen.floor = found.floor
  checkpoint : chosen.checkpoint = (latest found.candidates).or found.checkpoint
  selected : ∀ merged, chosen.selected = some merged → ∃ selected,
    mergeBudgets selected found.evidence = .ok merged
      ∧ ((latest found.candidates).map Checkpoint.payload).or
        (found.selected.or found.evidence.getLast?) = some selected
  present : (latest found.candidates).isSome = true → chosen.selected.isSome = true

theorem choose_ok {chosen : Gathered} (h : choose previous found = (chosen, none)) :
    Chooses previous found chosen := by
  unfold choose at h
  cases hlatest : latest found.candidates with
  | none =>
    simp only [hlatest] at h
    cases hselected : found.selected.or found.evidence.getLast? with
    | none =>
      simp only [hselected] at h
      obtain rfl := (Prod.mk.inj h).1
      refine ⟨rfl, rfl, rfl, by rw [hlatest]; rfl, fun merged hmerged => ?_, fun hsome => ?_⟩
      · exact nomatch hmerged
      · rw [hlatest] at hsome
        exact nomatch hsome
    | some selected =>
      simp only [hselected] at h
      cases hmerged : mergeBudgets selected found.evidence with
      | error interrupt =>
        simp only [hmerged] at h
        exact nomatch (Prod.mk.inj h).2
      | ok merged =>
        simp only [hmerged] at h
        obtain rfl := (Prod.mk.inj h).1
        refine ⟨rfl, rfl, rfl, by rw [hlatest]; rfl, fun result hresult => ⟨selected, ?_, ?_⟩,
          fun _ => rfl⟩
        · rw [hmerged, Option.some.inj hresult]
        · rw [hlatest, hselected]
          rfl
  | some checkpoint =>
    simp only [hlatest] at h
    cases hmerged : mergeBudgets checkpoint.payload found.evidence with
    | error interrupt =>
      simp only [hmerged] at h
      exact nomatch (Prod.mk.inj h).2
    | ok merged =>
      simp only [hmerged] at h
      obtain rfl := (Prod.mk.inj h).1
      refine ⟨rfl, rfl, rfl, by rw [hlatest]; rfl, fun result hresult => ⟨checkpoint.payload, ?_, ?_⟩,
        fun _ => rfl⟩
      · rw [hmerged, Option.some.inj hresult]
      · rw [hlatest]
        rfl

/-! ## Contexts -/

/-- What a context without a fence was gathered from. -/
structure Gathers (api : ContextApi) (actor : Actor) (previous : Option Payload) (floor : Moment)
    (anchor : Option Checkpoint) (window : List Run) (found : Gathered) : Prop where
  dated : effectFloor api actor.implementation = .ok floor
  verified : anchorOf api actor previous floor = .ok anchor
  read : historyRuns api ((anchor.map Checkpoint.created).getD floor) = .ok window
  anchored : ∀ checkpoint, anchor = some checkpoint → checkpoint ∈ found.candidates
  selected : found.selected = previous
  sound : Sound api actor floor found
  accounted : ∀ run ∈ window, Accounted api actor floor run found
  unfenced : ∀ payload ∈ found.evidence ++ previous.toList, fenceOf payload = none

/-- What is there once the anchor is known. -/
def Gathered.anchored (floor : Moment) (anchor : Option Checkpoint) (previous : Option Payload) :
    Gathered where
  floor := some floor
  evidence := anchor.toList.map Checkpoint.payload
  candidates := anchor.toList
  selected := previous

theorem sound_anchored {anchor : Option Checkpoint}
    (h : anchorOf api actor previous floor = .ok anchor) :
    Sound api actor floor (.anchored floor anchor previous) := by
  cases anchor with
  | none => exact ⟨fun _ hpayload => (nomatch hpayload), fun _ hcheckpoint => (nomatch hcheckpoint)⟩
  | some anchor =>
    obtain ⟨hverified, hauthoritative⟩ := anchorOf_ok h
    constructor
    · intro payload hpayload
      exact ⟨anchor, hverified, (List.mem_singleton.mp hpayload).symm⟩
    · intro checkpoint hcheckpoint
      rw [List.mem_singleton.mp hcheckpoint]
      exact ⟨hverified, List.mem_singleton.mpr rfl, hauthoritative⟩

theorem gather_none {chosen : Gathered} (h : gather api actor previous = (chosen, none)) :
    ∃ floor anchor window found, effectFloor api actor.implementation = .ok floor
      ∧ anchorOf api actor previous floor = .ok anchor
      ∧ historyRuns api ((anchor.map Checkpoint.created).getD floor) = .ok window
      ∧ scanRuns api actor floor ((anchor.map Checkpoint.created).getD floor) window
        (.anchored floor anchor previous) = (found, none)
      ∧ choose previous found = (chosen, none) := by
  unfold gather at h
  split at h
  · exact nomatch (Prod.mk.inj h).2
  split at h
  · exact nomatch (Prod.mk.inj h).2
  next floor hfloor =>
  split at h
  · exact nomatch (Prod.mk.inj h).2
  next anchor hanchor =>
  simp only at h
  split at h
  · exact nomatch (Prod.mk.inj h).2
  next window hwindow =>
  split at h
  · exact nomatch (Prod.mk.inj h).2
  split at h
  · exact nomatch (Prod.mk.inj h).2
  next found hfound => exact ⟨floor, anchor, window, found, hfloor, hanchor, hwindow, hfound, h⟩

theorem gather_ok {chosen : Gathered} (h : gather api actor previous = (chosen, none))
    (hfence : chosen.fence = none) :
    ∃ floor anchor window found, Gathers api actor previous floor anchor window found
      ∧ Chooses previous found chosen ∧ chosen.floor = some floor
      ∧ chosen.checkpoint = latest found.candidates := by
  obtain ⟨floor, anchor, window, found, hfloor, hanchor, hwindow, hfound, h⟩ := gather_none h
  have hchooses := choose_ok h
  obtain ⟨listing, entries, -, -, -, hread⟩ := historyRuns_ok hwindow
  obtain ⟨hmore, hsound, haccounted⟩ := scanRuns_ok hfound (sound_anchored hanchor) hread
  obtain ⟨hfound, hunfenced⟩ := inherit_eq_none.mp (hchooses.fence.symm.trans hfence)
  refine ⟨floor, anchor, window, found, ⟨hfloor, hanchor, hwindow, fun checkpoint hcheckpoint => ?_,
    hmore.selected, hsound, haccounted hfound, hunfenced⟩, hchooses,
    hchooses.floor.trans hmore.floor, ?_⟩
  · exact hmore.candidates (by rw [hcheckpoint]; exact List.mem_singleton.mpr rfl)
  · rw [hchooses.checkpoint, hmore.checkpoint]
    exact Option.or_none

/-- An unfenced context is a first attempt's, and was gathered without an interruption. -/
theorem serviceContext_unfenced {context : ServiceContext}
    (h : serviceContext api actor previous = .ok context) (hfence : context.frontier.fence = none) :
    actor.attempt = 1 ∧ ∃ chosen, gather api actor previous = (chosen, none) ∧ chosen.fence = none
      ∧ context = chosen.context actor none := by
  have hattempt : ∀ {gathered : Gathered} {fence : Option String},
      (gathered.context actor fence).frontier.fence = none → actor.attempt = 1 ∧ fence = none := by
    intro gathered fence hnone
    by_cases hfirst : actor.attempt = 1
    · exact ⟨hfirst, by simpa [Gathered.context, hfirst] using hnone⟩
    · simp [Gathered.context, hfirst] at hnone
  unfold serviceContext at h
  split at h
  · next chosen hgather =>
    obtain rfl := Except.ok.inj h
    obtain ⟨hfirst, hnone⟩ := hattempt hfence
    exact ⟨hfirst, chosen, hgather, hnone, by rw [hnone]⟩
  · split at h
    · obtain rfl := Except.ok.inj h
      exact nomatch (hattempt hfence).2
    · exact nomatch h

/-- What a run that has authority knows: it is active, and newer than every checkpoint it found. -/
theorem context_authority {chosen : Gathered} {fence : Option String}
    (h : (chosen.context actor fence).frontier.authority = true) :
    (∀ floor, chosen.floor = some floor → floor ≤ actor.createdAt)
      ∧ ∀ checkpoint ∈ chosen.candidates,
        checkpoint.created ≤ actor.createdAt ∧ checkpoint.id < actor.runId := by
  simp only [Gathered.context, Bool.and_eq_true, List.all_eq_true, decide_eq_true_eq] at h
  refine ⟨fun floor hfloor => ?_, fun checkpoint hcheckpoint => h.1.2 checkpoint hcheckpoint⟩
  have hactive := h.1.1
  rw [hfloor] at hactive
  simpa using hactive

/-! ## Floors and fences -/

theorem scanRuns_floor {window : List Run} {interrupt : Option Interrupt}
    (h : scanRuns api actor floor lower window start = (found, interrupt)) : found.floor = start.floor := by
  induction window generalizing start with
  | nil =>
    obtain ⟨rfl, -⟩ := Prod.mk.inj h
    rfl
  | cons run rest ih =>
    unfold scanRuns at h
    split at h
    · obtain ⟨rfl, -⟩ := Prod.mk.inj h
      rfl
    · next middle hmiddle => exact (ih h).trans (scanRun_ok hmiddle).1.more.floor

theorem choose_floor : (choose previous found).1.floor = found.floor := by
  unfold choose
  cases latest found.candidates with
  | none =>
    cases found.selected.or found.evidence.getLast? with
    | none => rfl
    | some selected =>
      simp only
      split <;> rfl
  | some checkpoint =>
    simp only
    split <;> rfl

/-- However gathering ends, its floor is the implementation's. -/
theorem gather_floor {moment : Moment} (h : (gather api actor previous).1.floor = some moment) :
    effectFloor api actor.implementation = .ok moment := by
  unfold gather at h
  split at h
  · exact nomatch h
  split at h
  · exact nomatch h
  next floor hfloor =>
  have hfloor : ∀ {gathered : Gathered}, gathered.floor = some floor → gathered.floor = some moment →
      effectFloor api actor.implementation = .ok moment := by
    intro gathered hsome h
    rw [hfloor, Option.some.inj (hsome.symm.trans h)]
  split at h
  · exact hfloor rfl h
  next anchor hanchor =>
  simp only at h
  split at h
  · exact hfloor rfl h
  split at h
  · exact hfloor rfl h
  split at h
  · next found _ hfound => exact hfloor (scanRuns_floor hfound) h
  · next found hfound => exact hfloor (choose_floor.trans (scanRuns_floor hfound)) h

theorem fenceOf_says (payload : Payload) : fenceOf payload ≠ some "" := by
  intro hempty
  obtain ⟨frontier, -, hfence⟩ := Option.bind_eq_some_iff.mp hempty
  exact absurd (Option.filter_eq_some_iff.mp hfence).2 (by decide)

theorem inherit_says {fence : Option String} {states : List Payload} (h : fence ≠ some "") :
    inherit fence states ≠ some "" := by
  induction states generalizing fence with
  | nil => exact h
  | cons state rest ih =>
    have hor : (fenceOf state).or fence ≠ some "" := by
      cases hstate : fenceOf state with
      | none => exact h
      | some reason =>
        have hsays := fenceOf_says state
        rwa [hstate] at hsays
    exact ih hor

/-- A fence says why. -/
theorem serviceContext_says {context : ServiceContext}
    (h : serviceContext api actor previous = .ok context) : context.frontier.fence ≠ some "" := by
  have hcontext : ∀ {gathered : Gathered} {fence : Option String}, fence ≠ some "" →
      (gathered.context actor fence).frontier.fence ≠ some "" := by
    intro gathered fence hfence
    by_cases hfirst : actor.attempt = 1
    · simpa [Gathered.context, hfirst] using hfence
    · simp [Gathered.context, hfirst]
  unfold serviceContext at h
  split at h
  · next chosen hgather =>
    obtain rfl := Except.ok.inj h
    obtain ⟨floor, anchor, window, found, -, hanchor, hwindow, hfound, hchoose⟩ := gather_none hgather
    obtain ⟨listing, entries, -, -, -, hread⟩ := historyRuns_ok hwindow
    have hmore := (scanRuns_ok hfound (sound_anchored hanchor) hread).1
    refine hcontext ?_
    rw [(choose_ok hchoose).fence]
    refine inherit_says ?_
    rcases hmore.fence with hsame | ⟨reason, hreason⟩
    · rw [hsame]
      exact fun hempty => nomatch hempty
    · rw [hreason]
      exact fun hempty => reason.nonempty (Option.some.inj hempty)
  · split at h
    · next reason _ =>
      obtain rfl := Except.ok.inj h
      exact hcontext fun hempty => reason.nonempty (Option.some.inj hempty)
    · exact nomatch h

/-- However gathering ends, the context is made of what was gathered. -/
theorem serviceContext_eq {context : ServiceContext}
    (h : serviceContext api actor previous = .ok context) :
    ∃ fence, context = (gather api actor previous).1.context actor fence := by
  unfold serviceContext at h
  split at h
  · next chosen hgather => exact ⟨_, by rw [hgather, Except.ok.inj h]⟩
  · next chosen interrupt hgather =>
    split at h
    · exact ⟨_, by rw [hgather, Except.ok.inj h]⟩
    · exact nomatch h

/-- Authority is never claimed for a run from before the implementation. -/
theorem serviceContext_floor {context : ServiceContext}
    (h : serviceContext api actor previous = .ok context) (hauthority : context.frontier.authority = true) :
    ∃ floor, effectFloor api actor.implementation = .ok floor ∧ floor ≤ actor.createdAt := by
  obtain ⟨fence, rfl⟩ := serviceContext_eq h
  simp only [Gathered.context, Bool.and_eq_true] at hauthority
  have hactive := hauthority.1.1
  cases hfloor : (gather api actor previous).1.floor with
  | none =>
    rw [hfloor] at hactive
    exact nomatch hactive
  | some floor =>
    rw [hfloor] at hactive
    exact ⟨floor, gather_floor hfloor, by simpa using hactive⟩

end Boxferry.Automation.Eligibility
