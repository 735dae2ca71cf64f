import Boxferry.Automation.Fences
import Boxferry.Automation.ScanCursor

/-! # Runs of the scan

Each step of a scan keeps the cursors in line with what is written down, and each pull
request that was chosen is taken up or left by the end of the run. -/
namespace Boxferry.Automation.Eligibility
open Interruptible Annotated
set_option autoImplicit false

/-! ## Steps -/

/-- The cursors of the session are those that the log leads to. -/
def Tracks (initial : Nat) (state : Session × ScanLog) : Prop :=
  state.2.cursors initial = ⟨state.1.scanCursor, state.1.evaluatedCursor⟩

/-- The log grows, and the cursors stay in line with it. -/
structure Logs (initial : Nat) (first last : Session × ScanLog) : Prop where
  chosen : last.2.chosen = first.2.chosen
  grows : ∃ more, last.2.events = first.2.events ++ more
  tracks : Tracks initial first → Tracks initial last

variable {α β : Type} {api : ScanApi} {sha256 : ByteArray → Vector UInt8 32} {actor : Actor}
  {context : ServiceContext} {initial number : Nat} {first last : Session × ScanLog}

instance : Std.Refl (Logs initial) := ⟨fun _ => ⟨rfl, ⟨[], (List.append_nil _).symm⟩, id⟩⟩

instance : IsTrans (Session × ScanLog) (Logs initial) where
  trans first middle last h hnext := by
    obtain ⟨more, hmore⟩ := h.grows
    obtain ⟨others, hothers⟩ := hnext.grows
    refine ⟨hnext.chosen.trans h.chosen, ⟨more ++ others, ?_⟩, fun htracks => hnext.tracks (h.tracks htracks)⟩
    rw [hothers, hmore, List.append_assoc]

theorem logs_plainly {step : Service α} (h : Keeps Steady step) :
    Keeps (Logs initial) (plainly step : Recorded α) := by
  intro state
  obtain ⟨hscan, hevaluated⟩ := h state.1
  refine ⟨rfl, ⟨[], (List.append_nil _).symm⟩, fun htracks => ?_⟩
  unfold Tracks at *
  rw [after_plainly, htracks, hscan, hevaluated]

theorem logs_ask (answer : Answer α) : Keeps (Logs initial) (plainly (ask answer) : Recorded α) :=
  logs_plainly (steady_ask answer)

/-- The event is written as the session follows it. -/
theorem logs_follow {session : Session} {state : Session × ScanLog} {event : ScanEvent}
    (h : ⟨session.scanCursor, session.evaluatedCursor⟩ =
      Cursors.follow initial ⟨state.1.scanCursor, state.1.evaluatedCursor⟩ event) :
    Logs initial state (session, ⟨state.2.chosen, state.2.events ++ [event]⟩) := by
  refine ⟨rfl, ⟨[event], rfl⟩, fun htracks => ?_⟩
  unfold Tracks at *
  rw [ScanLog.cursors_append, h, ← htracks]

theorem logs_nameError (number : Nat) (reason : String) : Keeps (Logs initial) (nameError number reason) :=
  fun _ => logs_follow rfl

theorem logs_scanEvaluated (candidate : Candidate) : Keeps (Logs initial) (scanEvaluated candidate) := by
  intro state
  unfold scanEvaluated evaluatedWhen
  cases hscope : candidate.scope with
  | pullRequest => exact logs_follow rfl
  | mergeGroup => exact logs_follow rfl

theorem logs_scanRecovered (number : Nat) : Keeps (Logs initial) (scanRecovered number) := by
  refine keeps_get_bind fun state => ?_
  intro state
  unfold evaluatedWhen
  cases (AList.entries _).any _ with
  | true => exact logs_follow rfl
  | false => exact logs_follow rfl

theorem logs_scanStop (left : List Nat) :
    Keeps (Logs ((context.previous.map Payload.scanCursor).getD 0)) (scanStop context left) :=
  fun _ => logs_follow rfl

theorem logs_scanProbe (number : Nat) (head : Option String) :
    Keeps (Logs initial) (scanProbe api number head) := by
  refine Keeps.tryCatch (logs_plainly ?_) fun interrupt => ?_
  · refine (steady_ask _).bind fun found => ?_
    cases found <;> exact keeps_pure _
  · cases interrupt with
    | eligibility | refused => exact (logs_nameError _ _).bind fun _ => keeps_pure _
    | value | stopped => exact keeps_throw _

theorem logs_scanProbeAll (pulls : List (Nat × Option String)) (work : Work) :
    Keeps (Logs initial) (scanProbeAll api pulls work) := by
  induction pulls generalizing work with
  | nil => exact keeps_pure _
  | cons pull rest ih => exact (logs_scanProbe _ _).bind fun _ => ih _

theorem logs_scanReport (candidate : Candidate) (report : Report) :
    Keeps (Logs initial) (scanReport api actor context candidate report) := by
  refine (logs_ask _).bind fun _ => ?_
  split
  · exact (logs_nameError _ _).bind fun _ => keeps_pure _
  · refine (logs_ask _).bind fun _ => Keeps.bind (logs_plainly ?_) fun _ => keeps_pure _
    exact steady_modify fun _ => ⟨rfl, rfl⟩

theorem logs_scanEvaluate (candidate : Candidate) :
    Keeps (Logs initial) (scanEvaluate api actor context candidate) := by
  refine keeps_get_bind fun _ => (logs_ask _).bind ?_
  rintro ⟨report, firstSeen⟩
  refine Keeps.bind (logs_plainly ?_) fun _ => (logs_scanEvaluated _).bind fun _ => logs_scanReport _ _
  exact steady_modify fun _ => ⟨rfl, rfl⟩

theorem logs_scanRecover (candidate : Candidate) (report : Report) :
    Keeps (Logs initial) (scanRecover api sha256 actor context candidate report) := by
  refine keeps_get_bind fun _ => ?_
  split
  · refine Keeps.tryCatch (logs_plainly (steady_recover _ _)) fun interrupt => ?_
    cases interrupt with
    | refused => exact logs_nameError _ _
    | eligibility | value | stopped => exact keeps_throw _
  · exact keeps_pure _

theorem logs_scanCandidate (candidate : Candidate) :
    Keeps (Logs initial) (scanCandidate api sha256 actor context candidate) := by
  refine (logs_scanEvaluate candidate).bind fun evaluated => ?_
  cases evaluated with
  | none => exact keeps_pure _
  | some report => exact (logs_plainly (steady_rerunWhenReady _ _)).bind fun _ => logs_scanRecover _ _

theorem logs_scanRetained (item : Nat × Option Nat) :
    Keeps (Logs initial) (scanRetained api sha256 actor context item) :=
  (logs_plainly (steady_recoverRetained _ _)).bind fun _ => logs_scanRecovered _

/-! ## What is taken up -/

/-- Where the step yields a value, the pull request has been taken up. -/
def Takes (number : Nat) (step : Recorded α) : Prop :=
  ∀ state value, result step state = .ok value → (after step state).2.Took number

theorem took_of_grows {log grown : ScanLog} (h : ∃ more, grown.events = log.events ++ more)
    (htook : log.Took number) : grown.Took number := by
  obtain ⟨more, hmore⟩ := h
  have hmem : ∀ event ∈ log.events, event ∈ grown.events := by
    intro event hevent
    rw [hmore]
    exact List.mem_append_left _ hevent
  rcases htook with ⟨scope, h⟩ | ⟨required, h⟩ | ⟨entry, h⟩
  · exact Or.inl ⟨scope, hmem _ h⟩
  · exact Or.inr (Or.inl ⟨required, hmem _ h⟩)
  · exact Or.inr (Or.inr ⟨entry, hmem _ h⟩)

theorem left_of_grows {log grown : ScanLog} (h : ∃ more, grown.events = log.events ++ more)
    (hleft : log.Left number) : grown.Left number := by
  obtain ⟨more, hmore⟩ := h
  obtain ⟨left, hstopped, hmem⟩ := hleft
  refine ⟨left, ?_, hmem⟩
  rw [hmore]
  exact List.mem_append_left _ hstopped

theorem Takes.bind {step : Recorded α} {next : α → Recorded β} (h : Takes number step)
    (hnext : ∀ value, Keeps (Logs 0) (next value)) : Takes number (step >>= next) := by
  intro state value hvalue
  obtain ⟨found, hfound, -⟩ := result_bind_ok hvalue
  rw [after_bind_ok hfound]
  exact took_of_grows (hnext found _).grows (h state found hfound)

theorem takes_bind {step : Recorded α} {next : α → Recorded β} (hnext : ∀ value, Takes number (next value)) :
    Takes number (step >>= next) := by
  intro state value hvalue
  obtain ⟨found, hfound, hlast⟩ := result_bind_ok hvalue
  rw [after_bind_ok hfound]
  exact hnext found _ value hlast

theorem mem_written {log : ScanLog} (event : ScanEvent) : event ∈ log.events ++ [event] :=
  List.mem_append_right _ (List.mem_singleton.mpr rfl)

theorem takes_nameError (number : Nat) (reason : String) : Takes number (nameError number reason) :=
  fun _ _ _ => Or.inr (Or.inr ⟨_, mem_written _⟩)

theorem takes_scanEvaluated (candidate : Candidate) : Takes candidate.number (scanEvaluated candidate) :=
  takes_bind fun _ _ _ _ => Or.inl ⟨_, mem_written _⟩

theorem takes_scanRecovered (number : Nat) : Takes number (scanRecovered number) :=
  takes_bind fun _ => takes_bind fun _ _ _ _ => Or.inr (Or.inl ⟨_, mem_written _⟩)

theorem takes_scanCandidate (candidate : Candidate) :
    Takes candidate.number (scanCandidate api sha256 actor context candidate) := by
  refine Takes.bind ?_ fun evaluated => ?_
  · refine takes_bind fun _ => takes_bind ?_
    rintro ⟨report, firstSeen⟩
    exact takes_bind fun _ => (takes_scanEvaluated candidate).bind fun _ => logs_scanReport _ _
  · cases evaluated with
    | none => exact keeps_pure _
    | some report => exact (logs_plainly (steady_rerunWhenReady _ _)).bind fun _ => logs_scanRecover _ _

theorem takes_scanRetained (item : Nat × Option Nat) :
    Takes item.1 (scanRetained api sha256 actor context item) :=
  takes_bind fun _ => takes_scanRecovered item.1

/-! ## Loops -/

/-- The cursor that a run starts with. -/
def ServiceContext.startCursor (context : ServiceContext) : Nat := (context.previous.map Payload.scanCursor).getD 0

variable {numberOf : α → Nat} {reason : Text → String} {serve : α → Recorded Unit}

theorem logs_scanOne (h : ∀ item, Keeps (Logs initial) (serve item)) (item : α) :
    Keeps (Logs initial) (scanOne numberOf reason serve item) := by
  refine Keeps.tryCatch ((h item).bind fun _ => keeps_pure _) fun interrupt => ?_
  cases interrupt with
  | eligibility | refused => exact (logs_nameError _ _).bind fun _ => keeps_pure _
  | value | stopped => exact keeps_throw _

theorem takes_scanOne (h : ∀ item, Takes (numberOf item) (serve item)) (item : α) :
    Takes (numberOf item) (scanOne numberOf reason serve item) := by
  intro state value hvalue
  have hbody : Takes (numberOf item) (serve item >>= fun _ => (pure true : Recorded Bool)) :=
    (h item).bind fun _ => keeps_pure _
  unfold scanOne at *
  rw [result_tryCatch] at hvalue
  rw [after_tryCatch]
  cases hserved : result (serve item >>= fun _ => (pure true : Recorded Bool)) state with
  | ok served => exact hbody state served hserved
  | error interrupt =>
    rw [hserved] at hvalue
    cases interrupt with
    | eligibility | refused => exact (takes_nameError _ _).bind (fun _ => keeps_pure _) _ value hvalue
    | value | stopped => exact nomatch hvalue

theorem logs_scanAll (h : ∀ item, Keeps (Logs context.startCursor) (serve item)) (items : List α) :
    Keeps (Logs context.startCursor) (scanAll api context numberOf reason serve items) := by
  induction items with
  | nil => exact keeps_pure _
  | cons item rest ih =>
    refine (logs_scanOne h item).bind fun served => ?_
    split
    · exact ih
    · refine (logs_ask _).bind fun exhausted => ?_
      split
      · exact logs_scanStop _
      · exact ih

/-- Where the step yields a value, each of the pull requests has been taken up, or left on the budget. -/
def Handles (numbers : List Nat) (step : Recorded α) : Prop :=
  ∀ state value, result step state = .ok value →
    ∀ number ∈ numbers, (after step state).2.Took number ∨ (after step state).2.Left number

theorem Takes.handles {step : Recorded α} (h : Takes number step) : Handles [number] step := by
  intro state value hvalue other hother
  rw [List.mem_singleton.mp hother]
  exact Or.inl (h state value hvalue)

theorem Handles.bind {numbers others : List Nat} {step : Recorded α} {next : α → Recorded β}
    (h : Handles numbers step) (hlogs : ∀ value, Keeps (Logs initial) (next value))
    (hnext : ∀ value, Handles others (next value)) : Handles (numbers ++ others) (step >>= next) := by
  intro state value hvalue number hnumber
  obtain ⟨found, hfound, hlast⟩ := result_bind_ok hvalue
  rw [after_bind_ok hfound]
  rcases List.mem_append.mp hnumber with hnumber | hnumber
  · have hgrows := (hlogs found (after step state)).grows
    exact (h state found hfound number hnumber).imp (took_of_grows hgrows) (left_of_grows hgrows)
  · exact hnext found _ value hlast number hnumber

theorem handles_bind {numbers : List Nat} {step : Recorded α} {next : α → Recorded β}
    (hnext : ∀ value, Handles numbers (next value)) : Handles numbers (step >>= next) := by
  intro state value hvalue
  obtain ⟨found, hfound, hlast⟩ := result_bind_ok hvalue
  rw [after_bind_ok hfound]
  exact hnext found _ value hlast

theorem handles_scanStop (left : List Nat) : Handles left (scanStop context left) :=
  handles_bind fun _ _ _ _ _ hnumber => Or.inr ⟨left, mem_written _, hnumber⟩

/-- A loop that comes to its end has taken up its items, or has left them on the budget. -/
theorem handles_scanAll (hlogs : ∀ item, Keeps (Logs context.startCursor) (serve item))
    (htakes : ∀ item, Takes (numberOf item) (serve item)) (items : List α) :
    Handles (items.map numberOf) (scanAll api context numberOf reason serve items) := by
  induction items with
  | nil => exact fun _ _ _ _ h => absurd h List.not_mem_nil
  | cons item rest ih =>
    have hrest : Keeps (Logs context.startCursor) (scanAll api context numberOf reason serve rest) :=
      logs_scanAll hlogs rest
    refine (takes_scanOne htakes item).handles.bind
      (fun served => show Keeps (Logs context.startCursor) _ from ?_) fun served => ?_
    · split
      · exact hrest
      · refine (logs_ask _).bind fun exhausted => ?_
        split
        · exact logs_scanStop _
        · exact hrest
    · split
      · exact ih
      · refine handles_bind fun exhausted => ?_
        split
        · exact handles_scanStop _
        · exact ih

/-! ## Finding the work -/

/-- The pull request is one of the candidates, or one with a retained original. -/
def Work.Holds (work : Work) (number : Nat) : Prop :=
  (∃ candidate ∈ work.candidates, candidate.number = number) ∨ ∃ retained ∈ work.retained, retained.1 = number

theorem Work.Holds.add {work : Work} (h : work.Holds number) (other : Nat) (found : Found) :
    (work.add other found).Holds number := by
  rcases h with ⟨candidate, hmem, hnumber⟩ | ⟨retained, hmem, hnumber⟩
  · cases found with
    | pull | queue => exact Or.inl ⟨candidate, List.mem_append_left _ hmem, hnumber⟩
    | retained | nothing => exact Or.inl ⟨candidate, hmem, hnumber⟩
  · cases found with
    | retained => exact Or.inr ⟨retained, List.mem_append_left _ hmem, hnumber⟩
    | pull | queue | nothing => exact Or.inr ⟨retained, hmem, hnumber⟩

theorem Work.Holds.enqueue {work : Work} (h : work.Holds number) (candidate : Option Candidate) :
    (work.enqueue candidate).Holds number := by
  cases candidate with
  | none => exact h
  | some candidate =>
    unfold Work.enqueue
    dsimp only
    split
    · exact h
    · exact h.add 0 _

/-- The probe of a pull request finds work for it, or an error names it. -/
theorem scanProbe_spec (number : Nat) (head : Option String) (work : Work) (state : Session × ScanLog)
    (found : Found) (h : result (scanProbe api number head) state = .ok found) :
    (work.add number found).Holds number ∨ (after (scanProbe api number head) state).2.Took number := by
  unfold scanProbe at *
  rw [result_tryCatch] at h
  rw [after_tryCatch]
  cases hprobe : result (plainly (probeListed api.toServiceApi number head)) state with
  | error interrupt =>
    rw [hprobe] at h
    cases interrupt with
    | eligibility | refused => exact Or.inr ((takes_nameError _ _).bind (fun _ => keeps_pure _) _ found h)
    | value | stopped => exact nomatch h
  | ok value =>
    rw [hprobe] at h
    obtain rfl := Except.ok.inj h
    refine Or.inl ?_
    have hplain : result (probeListed api.toServiceApi number head) state.1 = .ok value := hprobe
    obtain ⟨answer, hanswer, hvalue⟩ := result_bind_ok hplain
    have hinspected : (api.inspect number head state.1.tick).map
        (fun found => found.elim (Found.retained none) Found.pull) = .ok answer :=
      (api.probe_eq number head state.1.tick).symm.trans hanswer
    cases hinspect : api.inspect number head state.1.tick with
    | error interrupt =>
      rw [hinspect] at hinspected
      cases hinspected
    | ok candidate =>
      rw [hinspect] at hinspected
      obtain rfl := Except.ok.inj hinspected
      cases candidate with
      | none =>
        obtain rfl := Except.ok.inj hvalue
        exact Or.inr ⟨_, List.mem_append_right _ (List.mem_singleton.mpr rfl), rfl⟩
      | some candidate =>
        obtain rfl := Except.ok.inj hvalue
        exact Or.inl ⟨_, List.mem_append_right _ (List.mem_singleton.mpr rfl), rfl⟩

theorem logs_held (pulls : List (Nat × Option String)) (work : Work) : ∀ state found,
    result (scanProbeAll api pulls work) state = .ok found →
      (∀ number, work.Holds number → found.Holds number) ∧ ∀ pull ∈ pulls,
        found.Holds pull.1 ∨ (after (scanProbeAll api pulls work) state).2.Took pull.1 := by
  induction pulls generalizing work with
  | nil =>
    intro state found h
    obtain rfl := Except.ok.inj h
    exact ⟨fun _ h => h, fun _ h => absurd h List.not_mem_nil⟩
  | cons pull rest ih =>
    intro state found h
    obtain ⟨first, hfirst, hrest⟩ := result_bind_ok h
    obtain ⟨hkeep, hlater⟩ := ih _ _ _ hrest
    refine ⟨fun number hnumber => hkeep number (hnumber.add _ _), fun other hother => ?_⟩
    have hafter : after (scanProbeAll api (pull :: rest) work) state =
        after (scanProbeAll api rest (work.add pull.1 first)) (after (scanProbe api pull.1 pull.2) state) := by
      rw [scanProbeAll, after_bind_ok hfirst]
    rw [hafter]
    rcases List.mem_cons.mp hother with rfl | hother
    · refine (scanProbe_spec _ _ work state first hfirst).imp (hkeep _) fun htook => ?_
      have hlogs : Keeps (Logs 0) (scanProbeAll api rest (work.add other.1 first)) := logs_scanProbeAll _ _
      exact took_of_grows (hlogs _).grows htook
    · exact hlater other hother

/-- What a scan knows before it chooses: nothing is written, and the cursor is the one it started with. -/
structure Fresh (initial : Nat) (state : Session × ScanLog) : Prop where
  log : state.2 = {}
  scanCursor : state.1.scanCursor = initial
  evaluatedCursor : state.1.evaluatedCursor = none

theorem Fresh.plainly {state : Session × ScanLog} (h : Fresh initial state) {step : Service α}
    (hsteady : Keeps Steady step) : Fresh initial (after (Annotated.plainly step : Recorded α) state) := by
  obtain ⟨hscan, hevaluated⟩ := hsteady state.1
  exact ⟨h.log, hscan.trans h.scanCursor, hevaluated.trans h.evaluatedCursor⟩

theorem Fresh.chooses {state : Session × ScanLog} (h : Fresh initial state) (chosen : List (Nat × Option String)) :
    Tracks initial (after (scanChoose chosen) state) ∧
      (after (scanChoose chosen) state).2 = ⟨chosen.map Prod.fst, []⟩ := by
  obtain ⟨session, log⟩ := state
  obtain rfl : log = {} := h.log
  obtain ⟨-, hscan, hevaluated⟩ := h
  unfold scanChoose moveCursor Tracks ScanLog.cursors
  cases hlast : chosen.getLast? with
  | none =>
    refine ⟨?_, rfl⟩
    show (⟨(chosen.map Prod.fst).getLast?.getD initial, none⟩ : Cursors) = ⟨session.scanCursor, session.evaluatedCursor⟩
    rw [List.getLast?_map, hlast, hscan, hevaluated]
    rfl
  | some last =>
    refine ⟨?_, rfl⟩
    show (⟨(chosen.map Prod.fst).getLast?.getD initial, none⟩ : Cursors) = ⟨last.1, session.evaluatedCursor⟩
    rw [List.getLast?_map, hlast, hevaluated]
    rfl

theorem steady_ineligibleWhen (condition : Prop) [Decidable condition] (reason : Text) :
    Keeps Steady (ineligibleWhen condition reason) := by
  unfold ineligibleWhen
  split
  · exact keeps_throw _
  · exact keeps_pure _

/-- The step finds work for each pull request that is chosen by its end, or an error names it. -/
def Finds (initial : Nat) (step : Recorded Work) : Prop :=
  ∀ state work, Fresh initial state → result step state = .ok work →
    Tracks initial (after step state) ∧
      ∀ number ∈ (after step state).2.chosen, work.Holds number ∨ (after step state).2.Took number

theorem finds_bind {step : Service α} {next : α → Recorded Work} (hsteady : Keeps Steady step)
    (hnext : ∀ value, Finds initial (next value)) : Finds initial (plainly step >>= next) := by
  intro state work hfresh h
  obtain ⟨value, hvalue, hrest⟩ := result_bind_ok h
  rw [after_bind_ok hvalue]
  exact hnext value _ work (hfresh.plainly hsteady) hrest

theorem finds_choose (chosen : List (Nat × Option String)) : Finds initial (scanChoose chosen >>= fun _ =>
    scanProbeAll api chosen {} >>= fun work =>
      plainly (ask api.queueCandidate) >>= fun candidate => pure (work.enqueue candidate)) := by
  intro state work hfresh h
  obtain ⟨_, hchosen, h⟩ := result_bind_ok h
  obtain ⟨found, hfound, h⟩ := result_bind_ok h
  obtain ⟨candidate, hcandidate, h⟩ := result_bind_ok h
  obtain rfl : found.enqueue candidate = work := Except.ok.inj h
  obtain ⟨htracks, hlog⟩ := hfresh.chooses chosen
  have hprobed : Logs initial _ (after (scanProbeAll api chosen {}) (after (scanChoose chosen) state)) :=
    logs_scanProbeAll chosen {} (after (scanChoose chosen) state)
  have hasked : Logs initial _ _ := logs_ask api.queueCandidate
    (after (scanProbeAll api chosen {}) (after (scanChoose chosen) state))
  rw [after_bind_ok hchosen, after_bind_ok hfound, after_bind_ok hcandidate]
  refine ⟨hasked.tracks (hprobed.tracks htracks), fun number hnumber => ?_⟩
  have hmem : number ∈ chosen.map Prod.fst := by
    have hkept := (hasked.chosen.trans hprobed.chosen).trans (congrArg ScanLog.chosen hlog)
    exact Eq.subst (motive := fun numbers => number ∈ numbers) hkept hnumber
  obtain ⟨pull, hpull, rfl⟩ := List.mem_map.mp hmem
  exact ((logs_held chosen {} _ found hfound).2 pull hpull).imp (fun hholds => hholds.enqueue candidate)
    (took_of_grows hasked.grows)

theorem finds_scanDiscover : Finds initial (scanDiscover api) :=
  finds_bind (steady_ask _) fun _ => finds_bind (steady_ineligibleWhen _ _) fun _ =>
    finds_bind (steady_ineligibleWhen _ _) fun _ => fun state => finds_choose _ state

/-! ## Whole runs -/

theorem logs_scanCandidates (candidates : List Candidate) : Keeps (Logs context.startCursor)
    (scanAll api context Candidate.number Text.value (scanCandidate api sha256 actor context) candidates) :=
  logs_scanAll logs_scanCandidate candidates

theorem logs_scanRetaineds (retained : List (Nat × Option Nat)) : Keeps (Logs context.startCursor)
    (scanAll api context Prod.fst (fun error => "retained-original recovery refused: " ++ error.value)
      (scanRetained api sha256 actor context) retained) :=
  logs_scanAll logs_scanRetained retained

theorem logs_scanLoops (work : Work) :
    Keeps (Logs context.startCursor) (scanLoops api sha256 actor context work) :=
  (logs_scanCandidates _).bind fun _ => logs_scanRetaineds _

theorem handles_scanLoops (work : Work) :
    Handles (work.candidates.map Candidate.number ++ work.retained.map Prod.fst)
      (scanLoops api sha256 actor context work) :=
  (handles_scanAll logs_scanCandidate takes_scanCandidate _).bind (fun _ => logs_scanRetaineds _) fun _ =>
    handles_scanAll logs_scanRetained takes_scanRetained _

theorem fresh_start (context : ServiceContext) : Fresh context.startCursor (Session.start context, {}) := ⟨rfl, rfl, rfl⟩

/-- A scan that comes to its end has taken up each pull request that it chose, or has left it on the
budget, and its cursor is the one that what happened leads to. -/
theorem scan_spec (h : result (scan api sha256 actor context) (Session.start context, {}) = .ok ⟨⟩) :
    Tracks context.startCursor (after (scan api sha256 actor context) (Session.start context, {})) ∧
      ∀ number ∈ (scanLog api sha256 actor context).chosen,
        (scanLog api sha256 actor context).Took number ∨ (scanLog api sha256 actor context).Left number := by
  obtain ⟨work, hwork, h⟩ := result_bind_ok h
  obtain ⟨htracks, hfinds⟩ := finds_scanDiscover _ work (fresh_start context) hwork
  have hscan : after (scan api sha256 actor context) (Session.start context, {}) = _ := after_bind_ok hwork
  have hlogs : Keeps (Logs context.startCursor) (scanLoops api sha256 actor context work) := logs_scanLoops work
  have hlater := hlogs (after (scanDiscover api) (Session.start context, {}))
  have hhandled := handles_scanLoops work _ _ h
  unfold scanLog
  rw [hscan]
  refine ⟨hlater.tracks htracks, fun number hnumber => ?_⟩
  rw [hlater.chosen] at hnumber
  rcases hfinds number hnumber with hholds | htook
  · refine hhandled number (List.mem_append.mpr ?_)
    rcases hholds with ⟨candidate, hmem, rfl⟩ | ⟨retained, hmem, rfl⟩
    · exact Or.inl (List.mem_map.mpr ⟨candidate, hmem, rfl⟩)
    · exact Or.inr (List.mem_map.mpr ⟨retained, hmem, rfl⟩)
  · exact Or.inl (took_of_grows hlater.grows htook)

/-- A run that persists has come to the end of its scan, with the cursor of the log. -/
theorem persisted_scan {session : Session} {payload : Payload}
    (h : service api.toServiceApi sha256 actor .schedule = ⟨some context, some session, some payload⟩) :
    result (scan api sha256 actor context) (Session.start context, {}) = .ok ⟨⟩ ∧
      payload.scanCursor = (after (scan api sha256 actor context) (Session.start context, {})).1.scanCursor := by
  unfold service at h
  split at h
  · cases h
  · split at h
    · cases h
    · next found hfound =>
      have hcontext : some found = some context := by
        have hfield := congrArg Result.context h
        rwa [serviceFrom_context] at hfield
      obtain rfl := Option.some.inj hcontext
      obtain ⟨hresult, hafter⟩ := erases_scan api sha256 actor found (Session.start found, {})
      unfold serviceFrom at h
      split at h
      · cases h
      · next value last hserve =>
        split at h
        · cases h
        · next state hvalid =>
          split at h
          · cases h
          · have hpayload := Option.some.inj (congrArg Result.written h)
            rw [hresult, hafter, ← hpayload, (validateState_ok hvalid).1]
            unfold result after
            rw [hserve]
            exact ⟨rfl, rfl⟩

theorem service_of_written {services : ServiceApi} {event : Event} {payload : Payload}
    (h : (service services sha256 actor event).written = some payload) :
    ∃ context session, service services sha256 actor event = ⟨some context, some session, some payload⟩ := by
  unfold service at *
  split at h
  · cases h
  · split at h
    · cases h
    · next found _ =>
      have hcontext : (serviceFrom services sha256 actor event found).context = some found := serviceFrom_context ..
      have hsession : (serviceFrom services sha256 actor event found).session = some _ := serviceFrom_session ..
      refine ⟨found, after (serve services sha256 actor found event) (Session.start found), ?_⟩
      rw [← hcontext, ← hsession, ← h]

/-! ## A pull request that is passed over -/

def scannedCandidate : Candidate := ⟨sampleRevision, sampleRevision, 7, sampleRevision, "", "", .pullRequest, ""⟩

/-- Two retained originals, and a pull request of a candidate after them. -/
def scannedInspect (number : Nat) : Option Candidate := if number = 7 then some scannedCandidate else none

def scannedReport (candidate : Candidate) : Report where
  status := .waiting
  candidateSha := candidate.head
  baseSha := candidate.base
  sourceHeadSha := candidate.sourceHead
  pullRequest := candidate.number
  scope := candidate.scope

theorem sample_refusal_named : "API request budget exhausted" ≠ "" := by decide

/-- The candidate is evaluated; then the budget is used up. -/
def overtakingService : ServiceApi := { idleApi [sampleRun 1 "in_progress" none] (fun _ => .error .stopped) with
  openPulls := fun _ => .ok [(some 5, none), (some 6, none), (some 7, none)]
  probe := fun number _ _ => .ok ((scannedInspect number).elim (.retained none) .pull)
  evaluate := fun candidate firstSeen _ => .ok (scannedReport candidate, firstSeen)
  stillCurrent := fun _ _ => .ok true
  reportStatus := fun _ _ _ => .ok ()
  ciRuns := fun _ _ => .ok []
  retainedPr := fun _ _ => .error (.eligibility ⟨"API request budget exhausted", sample_refusal_named⟩)
  exhausted := fun _ => .ok true }

theorem overtakingService_probe (number : Nat) (head : Option String) (tick : Nat) :
    overtakingService.probe number head tick =
      (.ok (scannedInspect number) : Except Interrupt (Option Candidate)).map fun found =>
        found.elim (Found.retained none) Found.pull := rfl

def overtakingApi : ScanApi where
  toServiceApi := overtakingService
  inspect := fun number _ _ => .ok (scannedInspect number)
  probe_eq := overtakingService_probe

def overtakingLog : ScanLog where
  chosen := [5, 6, 7]
  events := [.evaluated 7 .pullRequest,
    .named 5 "PR 5: retained-original recovery refused: API request budget exhausted", .stopped [6]]

theorem overtaking_run : ∃ context session payload,
    service overtakingApi.toServiceApi sampleDigest firstExecution.actor .schedule =
        ⟨some context, some session, some payload⟩ ∧
      scanLog overtakingApi sampleDigest firstExecution.actor context = overtakingLog ∧ payload.scanCursor = 7 := by
  have hran : ((service overtakingApi.toServiceApi sampleDigest firstExecution.actor .schedule).written.any
      fun payload => payload.scanCursor = 7) = true := by decide +kernel
  have hlog : ((service overtakingApi.toServiceApi sampleDigest firstExecution.actor .schedule).context.all
      fun context => scanLog overtakingApi sampleDigest firstExecution.actor context = overtakingLog) = true := by
    decide +kernel
  obtain ⟨payload, hwritten, hcursor⟩ := (Option.any_eq_true ..).mp hran
  obtain ⟨context, session, hservice⟩ := service_of_written hwritten
  rw [hservice] at hlog
  exact ⟨context, session, payload, hservice, of_decide_eq_true hlog, of_decide_eq_true hcursor⟩

end Boxferry.Automation.Eligibility
