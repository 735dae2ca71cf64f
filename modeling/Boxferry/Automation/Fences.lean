import Boxferry.Automation.Histories

/-! # The effect fence

A run without a fence sees every earlier run of its implementation that was created
after its anchor, and its anchor is as clean as it is. So the fence that an unfinished
run leaves reaches every later run, in its window or through its anchor. -/
namespace Boxferry.Automation.Eligibility
set_option autoImplicit false

variable {sha256 : ByteArray → Vector UInt8 32} {implementation : String} {floor lower : Moment}
  {history : List Execution} {index other : Nat} {execution past : Execution}
  {context : ServiceContext} {found : Gathered} {payload : Payload}

/-- How a run without a fence saw an earlier one in its window. -/
structure Seen (sha256 : ByteArray → Vector UInt8 32) (past : Execution) (found : Gathered) : Prop where
  attempt : past.actor.attempt = 1
  conclusion : past.conclusion = "success"
  persisted : ∃ checkpoint, past.persisted sha256 = some checkpoint.payload
    ∧ checkpoint.created = past.actor.createdAt ∧ checkpoint.id = past.actor.runId
    ∧ checkpoint.payload ∈ found.evidence
    ∧ (authoritative checkpoint.payload = true → checkpoint ∈ found.candidates)

/-- What a run without a fence knows of the history. -/
structure View (sha256 : ByteArray → Vector UInt8 32) (implementation : String) (floor : Moment)
    (history : List Execution) (index : Nat) (execution : Execution) (context : ServiceContext)
    (lower : Moment) (found : Gathered) : Prop where
  attempt : execution.actor.attempt = 1
  anchored : lower = floor ∨ ∃ anchor ∈ found.candidates, anchor.created = lower
  seen : ∀ other past, other < index → Runs history implementation other past →
    lower ≤ past.actor.createdAt → Seen sha256 past found
  evidence : ∀ payload ∈ found.evidence, fenceOf payload = none ∧ ∃ other past, other < index
    ∧ Runs history implementation other past ∧ past.persisted sha256 = some payload
  candidates : ∀ checkpoint ∈ found.candidates, checkpoint.payload ∈ found.evidence
    ∧ authoritative checkpoint.payload = true ∧ ∃ other past, other < index
    ∧ Runs history implementation other past ∧ past.actor.createdAt = checkpoint.created
    ∧ past.actor.runId = checkpoint.id ∧ past.persisted sha256 = some checkpoint.payload
  ordered : context.frontier.authority = true →
    floor ≤ execution.actor.createdAt ∧ ∀ checkpoint ∈ found.candidates,
      checkpoint.created ≤ execution.actor.createdAt ∧ checkpoint.id < execution.actor.runId
  checkpoint : context.checkpoint = latest found.candidates
  previous : ∀ merged, context.previous = some merged → ∃ selected,
    mergeBudgets selected found.evidence = .ok merged
      ∧ ∀ checkpoint, latest found.candidates = some checkpoint → selected = checkpoint.payload
  present : context.checkpoint.isSome = true → context.previous.isSome = true

/-- A run of the window that an execution describes is one that ended with a persisted state. -/
theorem Truthful.seen (h : Truthful sha256 implementation floor history)
    (hexecution : Runs history implementation index execution) (hattempt : execution.actor.attempt = 1)
    (hlt : other < index) (hpast : Runs history implementation other past) {run : Run}
    (hid : run.id = some past.actor.runId)
    (hrun : execution.api.run .window past.actor.runId = .ok run)
    (haccounted : Accounted execution.api.toContextApi execution.actor floor run found) :
    Seen sha256 past found := by
  have hknows := h.knows index execution hexecution.at_index hexecution.implementation
  have hsame : past.actor.implementation = execution.actor.implementation :=
    hpast.implementation.trans hexecution.implementation.symm
  have hmember := mem_take_of_lt hpast.at_index hlt
  have hdescribes := hknows.described past hmember hsame .window run hrun
  cases haccounted with
  | current hcurrent hnow =>
    rw [hattempt] at hnow
    obtain ⟨hfirst, -, -⟩ := hdescribes.ended hnow
    rw [hid] at hcurrent
    have hindex := h.same_index hexecution.at_index hpast.at_index (Option.some.inj hcurrent)
      (hfirst.trans hattempt.symm)
    omega
  | foreign hforeign =>
    rw [← hsame] at hforeign
    exact absurd hdescribes.source hforeign
  | unfinished hfirst hstatus => exact absurd (hdescribes.ended hfirst).2.1 hstatus
  | skipped hfirst hskipped =>
    obtain ⟨-, -, hconclusion⟩ := hdescribes.ended hfirst
    rw [hskipped] at hconclusion
    have hexecuted := h.executed past (List.mem_of_getElem? hpast.at_index)
    exact absurd (Option.some.inj (Option.some.inj hconclusion)).symm hexecuted
  | evident hfirst checkpoint hcheckpoint hverifies hevidence hcandidate =>
    obtain ⟨hone, -, hconclusion⟩ := hdescribes.ended hfirst
    have hcheckpointId : checkpoint.id = past.actor.runId := by
      have hboth := hverifies.id
      rw [hcheckpoint, hid] at hboth
      exact (Option.some.inj hboth).symm
    have hcreated : checkpoint.created = past.actor.createdAt := by
      have hboth := hverifies.created
      rw [hcheckpoint, hdescribes.created] at hboth
      exact (Option.some.inj hboth).symm
    have hsuccess : past.conclusion = "success" := by
      have hboth := hverifies.conclusion
      rw [hcheckpoint, hconclusion] at hboth
      exact Option.some.inj (Option.some.inj hboth)
    refine ⟨hone, hsuccess, checkpoint, ?_, hcreated, hcheckpointId, hevidence, hcandidate⟩
    obtain ⟨writer, hwriter, hwriterSame, hwriterId, hpersisted⟩ :=
      hknows.artifact .window checkpoint.id run checkpoint.payload (hcheckpointId ▸ hrun)
        (hdescribes.source.trans (congrArg some hsame)) (hcheckpoint ▸ hverifies.conclusion)
        hverifies.artifact
    obtain ⟨place, hplace, hat⟩ := exists_of_mem_take hwriter
    -- the state names the attempt that wrote it, and there is one execution of it
    obtain ⟨_, last, -, -, hpayload⟩ := persisted_ran hpersisted
    have hwriterAttempt : writer.actor.attempt = past.actor.attempt := by
      have hboth := hverifies.attempt
      rw [hcheckpoint, hfirst, hpayload] at hboth
      exact (Option.some.inj hboth).trans hone.symm
    have hindex := h.same_index hpast.at_index hat (hwriterId.trans hcheckpointId) hwriterAttempt
    subst hindex
    rw [← Option.some.inj (hat.symm.trans hpast.at_index)]
    exact hpersisted

theorem Truthful.view (h : Truthful sha256 implementation floor history)
    (hexecution : Runs history implementation index execution)
    (hcontext : (execution.result sha256).context = some context)
    (hfence : context.frontier.fence = none) :
    ∃ lower found, View sha256 implementation floor history index execution context lower found := by
  obtain ⟨⟨previous, -, hservice⟩, -⟩ := result_context hcontext
  obtain ⟨hattempt, chosen, hgather, hnone, hchosen⟩ := serviceContext_unfenced hservice hfence
  obtain ⟨date, anchor, window, found, hgathers, hchooses, hfloor, hcheckpoint⟩ := gather_ok hgather hnone
  have hdate := hgathers.dated
  rw [hexecution.implementation] at hdate
  obtain rfl := h.dated execution (List.mem_of_getElem? hexecution.at_index) hexecution.implementation
    date hdate
  refine ⟨(anchor.map Checkpoint.created).getD date, found, hattempt, ?_, fun other past hlt hpast hlower => ?_, fun payload hpayload => ?_,
    fun checkpoint hmember => ?_, fun hauthority => ?_, ?_, fun merged hmerged => ?_,
    fun hsome => ?_⟩
  · cases anchor with
    | none => exact Or.inl rfl
    | some anchor => exact Or.inr ⟨anchor, hgathers.anchored anchor rfl, rfl⟩
  · obtain ⟨listing, entries, hlisting, hentries, hlisted, hread⟩ := historyRuns_ok hgathers.read
    have hknows := h.knows index execution hexecution.at_index hexecution.implementation
    have hentry := hknows.complete past (mem_take_of_lt hpast.at_index hlt)
      (hpast.implementation.trans hexecution.implementation.symm) _ listing entries hlisting hentries hlower
    obtain ⟨run, hrun, hid⟩ := hlisted past.actor.runId hentry
    exact h.seen hexecution hattempt hlt hpast hid (hread run hrun _ hid) (hgathers.accounted run hrun)
  · obtain ⟨checkpoint, hverified, rfl⟩ := hgathers.sound.evidence payload hpayload
    refine ⟨hgathers.unfenced _ (List.mem_append_left _ hpayload), ?_⟩
    obtain ⟨other, past, hlt, hpast, -, -, hpersisted⟩ := h.origin hexecution hverified
    exact ⟨other, past, hlt, hpast, hpersisted⟩
  · obtain ⟨hverified, hevidence, hauthoritative⟩ := hgathers.sound.candidates checkpoint hmember
    exact ⟨hevidence, hauthoritative, h.origin hexecution hverified⟩
  · rw [hchosen] at hauthority
    obtain ⟨hactive, hordered⟩ := context_authority hauthority
    rw [hchooses.candidates] at hordered
    exact ⟨hactive date hfloor, hordered⟩
  · rw [hchosen]
    exact hcheckpoint
  · rw [hchosen] at hmerged
    obtain ⟨selected, hmerges, hselected⟩ := hchooses.selected merged hmerged
    refine ⟨selected, hmerges, fun checkpoint hlatest => ?_⟩
    rw [hlatest] at hselected
    exact (Option.some.inj hselected).symm
  · rw [hchosen] at hsome ⊢
    exact hchooses.present (hcheckpoint ▸ hsome)

/-! ## Order and fences -/

theorem fenceOf_eq_none_of_context (hcontext : (execution.result sha256).context = some context)
    (hpersisted : execution.persisted sha256 = some payload) (hnone : fenceOf payload = none) :
    context.frontier.fence = none := by
  obtain ⟨found, last, hfound, hran, hpayload⟩ := persisted_ran hpersisted
  rw [hcontext] at hfound
  obtain rfl := Option.some.inj hfound
  exact fenceOf_written hcontext hran hpayload hnone

theorem authoritative_eq (hcontext : (execution.result sha256).context = some context)
    (hpersisted : execution.persisted sha256 = some payload) :
    authoritative payload = context.frontier.authority := by
  obtain ⟨found, last, hfound, hran, hpayload⟩ := persisted_ran hpersisted
  rw [hcontext] at hfound
  obtain rfl := Option.some.inj hfound
  rw [hpayload]
  rfl

/-- Created earlier, or at once with a smaller identifier. -/
def Execution.Precedes (first second : Execution) : Prop :=
  first.actor.createdAt < second.actor.createdAt
    ∨ first.actor.createdAt = second.actor.createdAt ∧ first.actor.runId < second.actor.runId

theorem Execution.Precedes.le {first second : Execution} (h : first.Precedes second) :
    first.actor.createdAt ≤ second.actor.createdAt :=
  h.elim le_of_lt fun hsame => hsame.1.le

/-- A run with authority and without a fence is newer than every authoritative state before it. -/
theorem Truthful.ordered_before (h : Truthful sha256 implementation floor history)
    (hview : View sha256 implementation floor history index execution context lower found)
    (hauthority : context.frontier.authority = true) (hlt : other < index)
    (hpast : Runs history implementation other past) (hpersisted : past.persisted sha256 = some payload)
    (hauthoritative : authoritative payload = true) : past.Precedes execution := by
  obtain ⟨hactive, hordered⟩ := hview.ordered hauthority
  by_cases hlower : lower ≤ past.actor.createdAt
  · obtain ⟨checkpoint, hsame, hcreated, hid, -, hcandidate⟩ :=
      (hview.seen other past hlt hpast hlower).persisted
    rw [hpersisted] at hsame
    rw [Option.some.inj hsame] at hauthoritative
    have hnewer := hordered checkpoint (hcandidate hauthoritative)
    rw [hcreated, hid] at hnewer
    exact (lt_or_eq_of_le hnewer.1).imp id fun hequal => ⟨hequal, hnewer.2⟩
  · rcases hview.anchored with hfloor | ⟨anchor, hanchor, hcreated⟩
    · exfalso
      obtain ⟨earlier, last, hcontext, -, -⟩ := persisted_ran hpersisted
      rw [authoritative_eq hcontext hpersisted] at hauthoritative
      obtain ⟨⟨previous, -, hservice⟩, -⟩ := result_context hcontext
      obtain ⟨date, hdate, hcreated⟩ := serviceContext_floor hservice hauthoritative
      rw [hpast.implementation] at hdate
      have hsame := h.dated past (List.mem_of_getElem? hpast.at_index) hpast.implementation date hdate
      exact hlower ((hfloor.trans hsame.symm).trans_le hcreated)
    · have holder : past.actor.createdAt < anchor.created := hcreated ▸ not_le.mp hlower
      exact Or.inl (holder.trans_le (hordered anchor hanchor).1)

/-- What a clean run leaves behind when it ends as cleanly as it began. -/
def EndsClean (sha256 : ByteArray → Vector UInt8 32) (execution : Execution) : Prop :=
  execution.conclusion = "success" ∧ ∃ payload, execution.persisted sha256 = some payload
    ∧ fenceOf payload = none

theorem canPrepare_eq {api : ContextApi} {actor : Actor} {previous : Option Payload}
    (h : serviceContext api actor previous = .ok context) (hcan : context.canPrepare = true) :
    context.frontier.authority = true ∧ context.frontier.fence = none := by
  obtain ⟨fence, rfl⟩ := serviceContext_eq h
  simp only [Gathered.context, Bool.and_eq_true, decide_eq_true_eq] at hcan ⊢
  exact ⟨hcan.1.1, hcan.1.2⟩

/-- After a run that could prepare and did not end clean, no run is without a fence. -/
theorem Truthful.fenced (h : Truthful sha256 implementation floor history)
    (hpast : Runs history implementation other past) {before : ServiceContext}
    (hbefore : (past.result sha256).context = some before) (hcan : before.canPrepare = true)
    (hend : ¬ EndsClean sha256 past) (hlt : other < index)
    (hexecution : Runs history implementation index execution)
    (hcontext : (execution.result sha256).context = some context) :
    context.frontier.fence ≠ none := by
  induction index using Nat.strong_induction_on generalizing execution context with
  | h index ih =>
    intro hfence
    obtain ⟨lower, found, hview⟩ := h.view hexecution hcontext hfence
    obtain ⟨⟨previous, -, hservice⟩, -⟩ := result_context hbefore
    obtain ⟨hauthority, hclean⟩ := canPrepare_eq hservice hcan
    by_cases hlower : lower ≤ past.actor.createdAt
    · have hseen := hview.seen other past hlt hpast hlower
      obtain ⟨checkpoint, hpersisted, -, -, hevidence, -⟩ := hseen.persisted
      exact hend ⟨hseen.conclusion, checkpoint.payload, hpersisted, (hview.evidence _ hevidence).1⟩
    · rcases hview.anchored with hfloor | ⟨anchor, hanchor, hcreated⟩
      · obtain ⟨date, hdate, hactive⟩ := serviceContext_floor hservice hauthority
        rw [hpast.implementation] at hdate
        have hsame := h.dated past (List.mem_of_getElem? hpast.at_index) hpast.implementation date hdate
        exact hlower ((hfloor.trans hsame.symm).trans_le hactive)
      · obtain ⟨hevidence, hauthoritative, place, writer, hplace, hwriter, hwritten, -, hpersisted⟩ :=
          hview.candidates anchor hanchor
        have hnone := (hview.evidence _ hevidence).1
        have holder : past.actor.createdAt < writer.actor.createdAt := by
          rw [hwritten, hcreated]
          exact not_le.mp hlower
        obtain ⟨between, last, hbetween, -, -⟩ := persisted_ran hpersisted
        have hunfenced := fenceOf_eq_none_of_context hbetween hpersisted hnone
        rcases Nat.lt_trichotomy place other with hearlier | hsame | hlater
        · -- the anchor would have been older than the run that could prepare
          obtain ⟨bound, seen, hpastView⟩ := h.view hpast hbefore hclean
          have hprecedes :=
            h.ordered_before hpastView hauthority hearlier hwriter hpersisted hauthoritative
          exact absurd holder (not_lt.mpr hprecedes.le)
        · subst hsame
          have hsame := Option.some.inj (hwriter.at_index.symm.trans hpast.at_index)
          rw [hsame] at holder
          exact absurd holder (lt_irrefl _)
        · exact ih place hplace hlater hwriter hbetween hunfenced

/-! ## The fence is never forgotten -/

def ObtainsEffect (sha256 : ByteArray → Vector UInt8 32) (execution : Execution) : Prop :=
  ∃ context, (execution.result sha256).context = some context ∧ context.canEffect = true

/-- A completed first attempt that concluded with success and persisted its state. -/
def EndsPersisted (sha256 : ByteArray → Vector UInt8 32) (execution : Execution) : Prop :=
  execution.actor.attempt = 1 ∧ execution.conclusion = "success"
    ∧ ∃ payload, execution.persisted sha256 = some payload

theorem canEffect_canPrepare {api : ContextApi} {actor : Actor} {previous : Option Payload}
    (h : serviceContext api actor previous = .ok context) (hcan : context.canEffect = true) :
    context.canPrepare = true ∧ context.checkpoint.isSome = true := by
  obtain ⟨fence, rfl⟩ := serviceContext_eq h
  simp only [Gathered.context, Bool.and_eq_true] at hcan ⊢
  exact hcan

theorem effect_fence_kept (h : Truthful sha256 implementation floor history)
    (hpast : Runs history implementation other past) (hcan : ObtainsEffect sha256 past)
    (hend : ¬ EndsPersisted sha256 past) (hlt : other < index)
    (hexecution : Runs history implementation index execution) : ¬ ObtainsEffect sha256 execution := by
  rintro ⟨context, hcontext, heffect⟩
  obtain ⟨before, hbefore, hcan⟩ := hcan
  obtain ⟨⟨previous, -, hservice⟩, -⟩ := result_context hbefore
  have hprepare := (canEffect_canPrepare hservice hcan).1
  have hattempt := (serviceContext_unfenced hservice (canPrepare_eq hservice hprepare).2).1
  have hunclean : ¬ EndsClean sha256 past := by
    rintro ⟨hsuccess, payload, hpersisted, -⟩
    exact hend ⟨hattempt, hsuccess, payload, hpersisted⟩
  obtain ⟨⟨latest, -, hlatest⟩, -⟩ := result_context hcontext
  exact h.fenced hpast hbefore hprepare hunclean hlt hexecution hcontext
    (canPrepare_eq hlatest (canEffect_canPrepare hlatest heffect).1).2

/-! ## A history -/

def sampleRevision : String := "0123456789abcdef0123456789abcdef01234567"

/-- A run of the sample implementation, created at the moment that its identifier gives. -/
def sampleRun (id : Nat) (status : String) (conclusion : Option String) : Run where
  id := some id
  attempt := some 1
  status := some status
  conclusion := some conclusion
  createdAt := some id
  repository := some "Strukturpiloten/boxferry"
  headRepository := some "Strukturpiloten/boxferry"
  event := some "schedule"
  name := some "Dependency eligibility service"
  path := some workflowPath
  headBranch := some "main"
  headSha := some sampleRevision
  referencedWorkflows := some [⟨sharedWorkflowPath ++ "@" ++ sampleRevision, sampleRevision, true⟩]
  workflowId := some 1
  pullRequests := []
  createdStamp := .at id
  updatedStamp := .null
  startedStamp := .null

/-- What a repository without pull requests answers, where these runs were created. -/
def idleApi (runs : List Run) (artifact : Nat → Except Interrupt Payload) : ServiceApi where
  commit := .ok (some sampleRevision, some 0)
  run := fun _ id => match runs.find? fun run => run.id = some id with
    | some run => .ok run
    | none => .error .stopped
  listing := fun _ => .ok ⟨some (runs.map Run.id), some runs.length⟩
  successes := .ok none
  sourceAncestor := fun _ => .ok false
  artifact := fun _ id => artifact id
  comparison := fun _ => .ok (some "identical")
  jobs := fun _ => .error .stopped
  workflow := .error .stopped
  callerJobs := fun _ => .error .stopped
  artifacts := fun _ => .error .stopped
  posted := fun _ => .error .stopped
  serviceRun := fun _ _ => .error .stopped
  ciRun := fun _ _ => .error .stopped
  ciRuns := fun _ _ => .error .stopped
  ciJobs := fun _ _ => .error .stopped
  originalJobs := fun _ _ _ _ => .error .stopped
  protection := fun _ => .error .stopped
  stillCurrent := fun _ _ => .error .stopped
  candidateHint := fun _ _ _ => .error .stopped
  hintArtifact := fun _ _ => .error .stopped
  graphProof := fun _ _ _ => .error .stopped
  nativeProof := fun _ _ => .error .stopped
  retainedPr := fun _ _ => .error .stopped
  retainedProof := fun _ _ => .error .stopped
  labelUnused := fun _ _ => .error .stopped
  labels := fun _ _ => .error .stopped
  evaluate := fun _ _ _ => .error .stopped
  reportStatus := fun _ _ _ => .error .stopped
  workflowFile := fun _ _ => .error .stopped
  retryUpgrade := fun _ _ => .error .stopped
  openPulls := fun _ => .ok []
  probe := fun _ _ _ => .error .stopped
  queueCandidate := fun _ => .ok none
  callback := fun _ => .error .stopped
  exhausted := fun _ => .ok false
  stateBytes := fun _ => 0

def sampleDigest (_ : ByteArray) : Vector UInt8 32 := Vector.replicate 32 0

def sampleExecution (id : Nat) (conclusion : String) (past : List Run)
    (artifact : Nat → Except Interrupt Payload) : Execution where
  actor := ⟨"Strukturpiloten/boxferry", sampleRevision, "main", id, 1, id, 10⟩
  api := idleApi (past ++ [sampleRun id "in_progress" none]) artifact
  event := .schedule
  conclusion := conclusion
  uploaded := true

def firstExecution : Execution := sampleExecution 1 "success" [] fun _ => .error .stopped

def firstArtifact (id : Nat) : Except Interrupt Payload :=
  match id, firstExecution.persisted sampleDigest with
  | 1, some payload => .ok payload
  | _, _ => .error .stopped

def secondExecution : Execution :=
  sampleExecution 2 "failure" [sampleRun 1 "completed" (some "success")] firstArtifact

def thirdExecution : Execution :=
  sampleExecution 3 "success"
    [sampleRun 1 "completed" (some "success"), sampleRun 2 "completed" (some "failure")] firstArtifact

theorem sampleRun_source (id : Nat) (status : String) (conclusion : Option String) :
    serviceRevision (sampleRun id status conclusion) = some sampleRevision := by
  show serviceRevision (sampleRun 0 "" none) = _
  decide +kernel

theorem sample_describes {execution : Execution} {id : Nat} (hid : execution.actor.createdAt = id)
    (hattempt : execution.actor.attempt = 1) (hsource : execution.actor.implementation = sampleRevision) :
    Describes execution (sampleRun id "completed" (some execution.conclusion)) := by
  refine ⟨congrArg some hid.symm, ?_, fun _ => ⟨hattempt, rfl, rfl⟩⟩
  rw [sampleRun_source, hsource]

/-- The answers about the runs of a sample history are truthful where the runs are. -/
theorem sample_knows {earlier : List Execution} {id : Nat} {conclusion : String} {past : List Run}
    {artifact : Nat → Except Interrupt Payload}
    (hlisted : ∀ execution ∈ earlier, some execution.actor.runId ∈ past.map Run.id)
    (hdescribed : ∀ execution ∈ earlier, ∀ run ∈ past ++ [sampleRun id "in_progress" none],
      run.id = some execution.actor.runId → Describes execution run)
    (hartifact : ∀ run ∈ past, ∀ number payload, run.id = some number →
      run.conclusion = some (some "success") → artifact number = .ok payload →
      ∃ execution ∈ earlier, execution.actor.implementation = sampleRevision
        ∧ execution.actor.runId = number ∧ execution.persisted sampleDigest = some payload) :
    Knows sampleDigest earlier (sampleExecution id conclusion past artifact) := by
  have hread : ∀ {site number run},
      (sampleExecution id conclusion past artifact).api.run site number = .ok run →
        run ∈ past ++ [sampleRun id "in_progress" none] ∧ run.id = some number := by
    intro site number run hrun
    have hfound : (match (past ++ [sampleRun id "in_progress" none]).find? fun run =>
        run.id = some number with
      | some run => .ok run
      | none => Except.error Interrupt.stopped) = Except.ok run := hrun
    split at hfound
    · next found hfind =>
      rw [← Except.ok.inj hfound]
      exact ⟨List.mem_of_find?_eq_some hfind, by simpa using List.find?_some hfind⟩
    · exact nomatch hfound
  constructor
  · intro execution hexecution _ lower listing entries hlisting hentries _
    rw [← Except.ok.inj hlisting] at hentries
    rw [← Option.some.inj hentries, List.map_append]
    exact List.mem_append_left _ (hlisted execution hexecution)
  · intro execution hexecution _ site run hrun
    obtain ⟨hmember, hid⟩ := hread hrun
    exact hdescribed execution hexecution run hmember hid
  · intro site number run payload hrun _ hsuccess hpayload
    obtain ⟨hmember, hid⟩ := hread hrun
    rcases List.mem_append.mp hmember with hpast | hcurrent
    · exact hartifact run hpast number payload hid hsuccess hpayload
    · rw [List.mem_singleton.mp hcurrent] at hsuccess
      exact nomatch Option.some.inj hsuccess

theorem firstArtifact_ok {number : Nat} {payload : Payload} (h : firstArtifact number = .ok payload) :
    number = 1 ∧ firstExecution.persisted sampleDigest = some payload := by
  unfold firstArtifact at h
  split at h
  · next hpersisted => exact ⟨rfl, hpersisted.trans (congrArg some (Except.ok.inj h))⟩
  · exact nomatch h

theorem sample_truthful : Truthful sampleDigest sampleRevision 0
    [firstExecution, secondExecution, thirdExecution] where
  distinct := by decide
  executed := by decide
  dated := by
    intro execution hexecution _ moment hmoment
    simp only [List.mem_cons, List.not_mem_nil, or_false] at hexecution
    rcases hexecution with rfl | rfl | rfl <;> exact (Except.ok.inj hmoment).symm
  knows := by
    intro index execution hexecution _
    have hfirst : ∀ {earlier : List Execution}, firstExecution ∈ earlier → ∀ number payload,
        firstArtifact number = .ok payload → ∃ execution ∈ earlier,
          execution.actor.implementation = sampleRevision ∧ execution.actor.runId = number
            ∧ execution.persisted sampleDigest = some payload := by
      intro earlier hmember number payload hpayload
      obtain ⟨hnumber, hpersisted⟩ := firstArtifact_ok hpayload
      exact ⟨firstExecution, hmember, rfl, hnumber.symm, hpersisted⟩
    match index with
    | 0 =>
      obtain rfl := Option.some.inj hexecution
      exact sample_knows (fun _ h => (nomatch h)) (fun _ h => (nomatch h)) fun _ h => (nomatch h)
    | 1 =>
      obtain rfl := Option.some.inj hexecution
      refine sample_knows (fun execution h => ?_) (fun execution h run hrun hid => ?_)
        fun run hrun number payload _ _ hpayload => hfirst (List.mem_singleton.mpr rfl) _ _ hpayload
      · rw [List.mem_singleton.mp h]
        decide
      · obtain rfl := List.mem_singleton.mp h
        simp only [List.singleton_append, List.mem_cons, List.not_mem_nil, or_false] at hrun
        rcases hrun with rfl | rfl
        · exact sample_describes rfl rfl rfl
        · exact absurd hid (by decide)
    | 2 =>
      obtain rfl := Option.some.inj hexecution
      refine sample_knows (fun execution h => ?_) (fun execution h run hrun hid => ?_)
        fun run hrun number payload _ _ hpayload => hfirst List.mem_cons_self _ _ hpayload
      · simp only [List.take_succ_cons, List.take_zero, List.mem_cons, List.not_mem_nil, or_false] at h
        rcases h with rfl | rfl <;> decide
      · simp only [List.take_succ_cons, List.take_zero, List.mem_cons, List.not_mem_nil, or_false] at h
        simp only [List.cons_append, List.nil_append, List.mem_cons, List.not_mem_nil, or_false] at hrun
        rcases h with rfl | rfl
        · rcases hrun with rfl | rfl | rfl
          · exact sample_describes rfl rfl rfl
          · exact absurd hid (by decide)
          · exact absurd hid (by decide)
        · rcases hrun with rfl | rfl | rfl
          · exact absurd hid (by decide)
          · exact sample_describes rfl rfl rfl
          · exact absurd hid (by decide)
    | index + 3 => exact nomatch hexecution

theorem effect_fence_kept_sample : ¬ ObtainsEffect sampleDigest thirdExecution := by
  have hsecond : ((secondExecution.result sampleDigest).context.any ServiceContext.canEffect) = true := by
    decide +kernel
  have hobtains : ObtainsEffect sampleDigest secondExecution := by
    obtain ⟨context, hcontext, heffect⟩ := Option.any_eq_true _ _ |>.mp hsecond
    exact ⟨context, hcontext, heffect⟩
  refine effect_fence_kept sample_truthful ⟨rfl, rfl⟩ hobtains ?_ (Nat.lt_succ_self 1) ⟨rfl, rfl⟩
  exact fun h => absurd h.2.1 (by decide)

end Boxferry.Automation.Eligibility
