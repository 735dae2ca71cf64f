import Boxferry.Automation.Effects
import Mathlib.Data.List.Perm.Subperm

/-! # The steps of a service run

A run serves one item after the other. Each step is quiet, an ordinary rerun, or the
recovery for one pull request, and no pull request is recovered for twice. -/
namespace Boxferry.Automation.Eligibility
open Interruptible
set_option autoImplicit false

variable {α β : Type} {api : ServiceApi} {sha256 : ByteArray → Vector UInt8 32} {actor : Actor}
  {context : ServiceContext} {start first middle last : Session} {numbers others : List Nat}

/-- One step, with the pull request that it recovers for. -/
inductive Step (api : ServiceApi) (sha256 : ByteArray → Vector UInt8 32) (actor : Actor)
    (context : ServiceContext) : List Nat → Session → Session → Prop
  | quiet {first last : Session} (h : Quiet first last) : Step api sha256 actor context [] first last
  | ordinary {first last : Session} (candidate : Candidate) (identifier : Nat)
      (hcan : first.canEffect = true) (hlisted : FirstBound api actor candidate identifier)
      (hnew : first.ledger.lookup candidate.head = none) (h : Reran candidate identifier first last) :
      Step api sha256 actor context [] first last
  | recovered {first last : Session} (number : Nat)
      (h : Recovered api sha256 actor context number first last) :
      Step api sha256 actor context [number] first last

inductive Steps (api : ServiceApi) (sha256 : ByteArray → Vector UInt8 32) (actor : Actor)
    (context : ServiceContext) : List Nat → Session → Session → Prop
  | start (session : Session) : Steps api sha256 actor context [] session session
  | step {numbers others : List Nat} {first middle last : Session}
      (h : Steps api sha256 actor context numbers first middle)
      (hnext : Step api sha256 actor context others middle last) :
      Steps api sha256 actor context (numbers ++ others) first last

theorem Steps.trans (h : Steps api sha256 actor context numbers first middle)
    (hnext : Steps api sha256 actor context others middle last) :
    Steps api sha256 actor context (numbers ++ others) first last := by
  induction hnext with
  | start => rwa [List.append_nil]
  | step _ hstep ih =>
    rw [← List.append_assoc]
    exact (ih h).step hstep

/-- Steps that recover for some of the numbers, each once and in their order. -/
def Serves (api : ServiceApi) (sha256 : ByteArray → Vector UInt8 32) (actor : Actor)
    (context : ServiceContext) (numbers : List Nat) (first last : Session) : Prop :=
  ∃ recovered, recovered.Sublist numbers ∧ Steps api sha256 actor context recovered first last

theorem Step.serves (h : Step api sha256 actor context numbers first last) :
    Serves api sha256 actor context numbers first last :=
  ⟨numbers, List.Sublist.refl numbers, (Steps.start first).step h⟩

theorem Quiet.serves (h : Quiet first last) : Serves api sha256 actor context numbers first last :=
  ⟨[], List.nil_sublist numbers, (Steps.start first).step (.quiet h)⟩

theorem Serves.trans (h : Serves api sha256 actor context numbers first middle)
    (hnext : Serves api sha256 actor context others middle last) :
    Serves api sha256 actor context (numbers ++ others) first last := by
  obtain ⟨early, hearly, h⟩ := h
  obtain ⟨late, hlate, hnext⟩ := hnext
  exact ⟨early ++ late, hearly.append hlate, h.trans hnext⟩

theorem Serves.mono (h : Serves api sha256 actor context numbers first last)
    (hsub : numbers.Sublist others) : Serves api sha256 actor context others first last := by
  obtain ⟨recovered, hrecovered, h⟩ := h
  exact ⟨recovered, hrecovered.trans hsub, h⟩

/-- A part that serves some numbers, and then one that serves the others. -/
theorem keeps_serves_bind {step : Service α} {next : α → Service β}
    (h : Keeps (Serves api sha256 actor context numbers) step)
    (hnext : ∀ value, Keeps (Serves api sha256 actor context others) (next value)) :
    Keeps (Serves api sha256 actor context (numbers ++ others)) (step >>= next) := by
  intro session
  rw [after_bind]
  split
  · exact (h session).trans (hnext _ _)
  · exact (h session).mono (List.sublist_append_left numbers others)

theorem keeps_serves {step : Service α} (h : Keeps Quiet step) :
    Keeps (Serves api sha256 actor context numbers) step :=
  h.mono fun _ _ => Quiet.serves

theorem keeps_tolerating {missing : α} {body : Service α}
    (h : Keeps (Serves api sha256 actor context numbers) body) :
    Keeps (Serves api sha256 actor context numbers) (tolerating missing body) := by
  intro session
  unfold tolerating
  rw [after_tryCatch]
  split
  · exact h session
  · split <;> exact h session

/-! ## Candidates -/

theorem keeps_evaluatedWhen (condition : Prop) [Decidable condition] (number : Nat) :
    Keeps Quiet (evaluatedWhen condition number) := by
  unfold evaluatedWhen
  split
  · refine keeps_modify fun _ => ?_
    exact ⟨rfl, rfl, rfl, id, id, Or.inl rfl⟩
  · exact keeps_pure _

theorem keeps_evaluateCandidate (event : Event) (candidate : Candidate) :
    Keeps Quiet (evaluateCandidate api actor context event candidate) := by
  refine keeps_get_bind fun _ => (keeps_ask _).bind ?_
  rintro ⟨report, firstSeen⟩
  refine Keeps.bind (keeps_modify fun _ => ?_) fun _ => ?_
  · exact ⟨rfl, rfl, rfl, id, id, Or.inl rfl⟩
  refine (keeps_evaluatedWhen _ _).bind fun _ => (keeps_ask _).bind fun _ => ?_
  split
  · exact keeps_pure _
  · refine (keeps_ask _).bind fun _ => Keeps.bind (keeps_modify fun _ => ?_) fun _ => keeps_pure _
    exact ⟨rfl, rfl, rfl, id, id, Or.inl rfl⟩

theorem keeps_rerunWhenReady (candidate : Candidate) (report : Report) :
    Keeps (Serves api sha256 actor context []) (rerunWhenReady api actor context candidate report) := by
  intro start
  refine establishes_get_bind (fun first hfirst => ?_) start (Quiet.refl start)
  refine establishes_ite (fun hready => ?_) fun _ _ hsession => hsession.serves
  refine quietly (keeps_requireEffect _) Quiet.serves fun _ => ?_
  refine (rerunReady_establishes candidate).mono fun last h => ?_
  rcases h with hquiet | ⟨hnew, identifier, hlisted, hreran⟩
  · exact hquiet.serves
  · exact (Step.ordinary candidate identifier (hfirst.canEffect hready.2) hlisted hnew hreran).serves

/-- The pull request that a candidate may be recovered for. -/
def Candidate.pulls (candidate : Candidate) : List Nat :=
  if candidate.scope = .pullRequest then [candidate.number] else []

theorem keeps_recoverUnlessRerun (candidate : Candidate) (report : Report) :
    Keeps (Serves api sha256 actor context candidate.pulls)
      (recoverUnlessRerun api sha256 actor context candidate report) := by
  have hrecover : Keeps (Serves api sha256 actor context candidate.pulls)
      (recover api.toApi sha256 actor context candidate report) := by
    refine (recover_recovered candidate report).mono fun first last h => ?_
    rcases h with hquiet | ⟨hscope, hrecovered⟩
    · exact hquiet.serves
    · rw [Candidate.pulls, if_pos hscope]
      exact (Step.recovered candidate.number hrecovered).serves
  refine keeps_get_bind fun session => ?_
  split
  · intro session
    rw [after_tryCatch]
    split
    · exact hrecover session
    · split <;> exact hrecover session
  · exact keeps_serves (keeps_pure _)

theorem keeps_actOn (candidate : Candidate) (report : Report) :
    Keeps (Serves api sha256 actor context candidate.pulls)
      (actOn api sha256 actor context candidate report) := by
  show Keeps (Serves api sha256 actor context ([] ++ candidate.pulls)) _
  exact keeps_serves_bind (keeps_rerunWhenReady _ _) fun _ => keeps_recoverUnlessRerun _ _

theorem keeps_serveCandidate (event : Event) (candidate : Candidate) :
    Keeps (Serves api sha256 actor context candidate.pulls)
      (serveCandidate api sha256 actor context event candidate) := by
  show Keeps (Serves api sha256 actor context ([] ++ candidate.pulls)) _
  refine keeps_serves_bind (keeps_serves (keeps_evaluateCandidate _ _)) fun evaluated => ?_
  split
  · exact keeps_serves (keeps_pure _)
  · exact keeps_actOn _ _

theorem keeps_serveRetained (event : Event) (number : Nat) (originalRunId : Option Nat) :
    Keeps (Serves api sha256 actor context [number])
      (serveRetained api sha256 actor context event number originalRunId) := by
  show Keeps (Serves api sha256 actor context ([number] ++ [])) _
  refine keeps_serves_bind ?_ fun _ => keeps_serves (keeps_get_bind fun _ => keeps_evaluatedWhen _ _)
  exact (recoverRetained_recovered number originalRunId).mono fun _ _ h => (Step.recovered number h).serves

theorem keeps_serveAll (event : Event) {serve : α → Service Unit} {pulls : α → List Nat}
    (hserve : ∀ item, Keeps (Serves api sha256 actor context (pulls item)) (serve item))
    (items : List α) :
    Keeps (Serves api sha256 actor context (items.flatMap pulls))
      (serveAll api context event serve items) := by
  induction items with
  | nil => exact keeps_serves (keeps_pure _)
  | cons item rest ih =>
    rw [List.flatMap_cons]
    refine keeps_serves_bind (keeps_tolerating ?_) fun served => ?_
    · have hitem : Keeps (Serves api sha256 actor context (pulls item ++ []))
          (do serve item; return true) := keeps_serves_bind (hserve item) fun _ => keeps_serves (keeps_pure _)
      rwa [List.append_nil] at hitem
    · split
      · exact ih
      · show Keeps (Serves api sha256 actor context ([] ++ rest.flatMap pulls)) _
        refine keeps_serves_bind (keeps_serves (keeps_ask _)) fun exhausted => ?_
        split
        · refine keeps_serves ?_
          unfold fallBack
          split
          · refine keeps_modify fun _ => ?_
            exact ⟨rfl, rfl, rfl, id, id, Or.inl rfl⟩
          · exact keeps_pure _
        · exact ih

/-! ## Finding the work -/

def Work.pulls (work : Work) : List Nat :=
  work.candidates.flatMap Candidate.pulls ++ work.retained.map Prod.fst

theorem pulls_add (work : Work) (number : Nat) (found : Found) :
    (work.add number found).pulls.Subperm (work.pulls ++ [number]) := by
  cases found with
  | pull candidate =>
    have hadded : (work.add number (.pull candidate)).pulls
        = work.candidates.flatMap Candidate.pulls ++ ([number] ++ work.retained.map Prod.fst) := by
      simp [Work.add, Work.pulls, Candidate.pulls]
    rw [hadded, Work.pulls, List.append_assoc]
    exact (List.perm_append_comm.append_left _).subperm
  | queue candidate =>
    have hadded : (work.add number (.queue candidate)).pulls = work.pulls := by
      simp [Work.add, Work.pulls, Candidate.pulls]
    rw [hadded]
    exact (List.sublist_append_left _ _).subperm
  | retained identifier =>
    have hadded : (work.add number (.retained identifier)).pulls = work.pulls ++ [number] := by
      simp [Work.add, Work.pulls]
    rw [hadded]
  | nothing => exact (List.sublist_append_left _ _).subperm

theorem pulls_enqueue (work : Work) (queue : Option Candidate) :
    (work.enqueue queue).pulls.Subperm work.pulls := by
  cases queue with
  | none => exact List.Subperm.refl _
  | some candidate =>
    let queued : Candidate := { candidate with scope := .mergeGroup }
    have hadded : (work.add 0 (.queue queued)).pulls = work.pulls := by
      simp [Work.add, Work.pulls, Candidate.pulls]
    show (if work.candidates.contains queued then work else work.add 0 (.queue queued)).pulls.Subperm _
    by_cases hthere : work.candidates.contains queued = true
    · rw [if_pos hthere]
    · rw [if_neg hthere, hadded]

theorem probeAll_pulls (pulls : List (Nat × Option String)) (work : Work) :
    Answers (probeAll api pulls work) fun _ found =>
      found.pulls.Subperm (work.pulls ++ pulls.map Prod.fst) := by
  induction pulls generalizing work with
  | nil =>
    intro session found hfound
    rw [← Except.ok.inj hfound, List.map_nil, List.append_nil]
  | cons pull rest ih =>
    intro session found hfound
    obtain ⟨probed, -, hfound⟩ := result_bind_ok hfound
    refine (ih _ _ found hfound).trans ?_
    rw [List.map_cons, ← List.singleton_append, ← List.append_assoc]
    exact (pulls_add work pull.1 probed).append (List.Subperm.refl _)

theorem keeps_probeAll (pulls : List (Nat × Option String)) (work : Work) :
    Keeps Quiet (probeAll api pulls work) := by
  induction pulls generalizing work with
  | nil => exact keeps_pure _
  | cons pull rest ih =>
    refine Keeps.bind (Keeps.tryCatch ?_ fun interrupt => ?_) fun _ => ih _
    · refine (keeps_ask _).bind fun found => ?_
      split <;> exact keeps_pure _
    · split
      · exact keeps_pure _
      · exact keeps_pure _
      · exact keeps_throw _

theorem selected_pulls (cursor : Nat) (pulls : List (Nat × Option String)) :
    ((selected cursor pulls).map Prod.fst).Subperm (pulls.map Prod.fst) := by
  have hsplit : ∀ ordered : List (Nat × Option String),
      ((ordered.filter fun pull => cursor < pull.1)
        ++ ordered.filter fun pull => pull.1 ≤ cursor).Perm ordered := by
    intro ordered
    have hnot : (fun pull : Nat × Option String => decide (pull.1 ≤ cursor))
        = fun pull => ! decide (cursor < pull.1) := by
      funext pull
      simp [← decide_not]
    rw [hnot]
    exact List.filter_append_perm _ ordered
  have hall := ((hsplit (pulls.insertionSort fun first second => first.1 ≤ second.1)).trans
    (List.perm_insertionSort _ pulls)).map Prod.fst
  exact ((List.take_sublist _ _).map Prod.fst).subperm.trans hall.subperm

theorem numbered_pulls (pulls : List Listed) :
    ((numbered pulls).map Prod.fst).Sublist (pulls.filterMap Prod.fst) := by
  induction pulls with
  | nil => exact List.Sublist.refl _
  | cons pull rest ih =>
    obtain ⟨number, head⟩ := pull
    cases number with
    | none => exact ih
    | some number =>
      cases number with
      | zero => exact ih.trans (List.sublist_cons_self _ _)
      | succ number => exact ih.cons_cons (number + 1)

/-- The listing of open pull requests names none of them twice. -/
def ListsOnce (api : ServiceApi) : Prop :=
  ∀ tick pulls, api.openPulls tick = .ok pulls → (pulls.filterMap Prod.fst).Nodup

theorem nodup_of_subperm {shorter longer : List Nat} (h : shorter.Subperm longer)
    (hnodup : longer.Nodup) : shorter.Nodup := by
  obtain ⟨between, hperm, hsub⟩ := h
  exact hperm.nodup_iff.mp (hnodup.sublist hsub)

theorem discover_pulls (event : Event) (honce : ListsOnce api) :
    Answers (discover api event) fun _ work => work.pulls.Nodup := by
  intro session work hwork
  cases event with
  | workflowRun =>
    obtain ⟨⟨number, found⟩, -, hwork⟩ := result_bind_ok hwork
    rw [← Except.ok.inj hwork]
    exact nodup_of_subperm (pulls_add {} number found) (List.nodup_singleton number)
  | schedule =>
    obtain ⟨pulls, hpulls, hwork⟩ := result_bind_ok hwork
    obtain ⟨-, -, hwork⟩ := result_bind_ok hwork
    obtain ⟨-, -, hwork⟩ := result_bind_ok hwork
    obtain ⟨found, -, hwork⟩ := result_bind_ok hwork
    obtain ⟨-, -, hwork⟩ := result_bind_ok hwork
    obtain ⟨probed, hprobed, hwork⟩ := result_bind_ok hwork
    obtain ⟨queue, -, hwork⟩ := result_bind_ok hwork
    rw [← Except.ok.inj hwork]
    have hnumbered : ((numbered pulls).map Prod.fst).Nodup :=
      (honce _ pulls hpulls).sublist (numbered_pulls pulls)
    have hchosen := nodup_of_subperm (selected_pulls found.scanCursor (numbered pulls)) hnumbered
    have hpulls := probeAll_pulls _ _ _ _ hprobed
    exact nodup_of_subperm ((pulls_enqueue probed queue).trans hpulls) hchosen

theorem keeps_ineligibleWhen (condition : Prop) [Decidable condition] (reason : Text) :
    Keeps Quiet (ineligibleWhen condition reason) := by
  unfold ineligibleWhen
  split
  · exact keeps_throw _
  · exact keeps_pure _

theorem keeps_discover (event : Event) : Keeps Quiet (discover api event) := by
  cases event with
  | workflowRun =>
    refine (keeps_ask _).bind ?_
    rintro ⟨number, found⟩
    exact keeps_pure _
  | schedule =>
    refine (keeps_ask _).bind fun pulls => (keeps_ineligibleWhen _ _).bind fun _ =>
      (keeps_ineligibleWhen _ _).bind fun _ => keeps_get_bind fun session => Keeps.bind ?_ fun _ =>
      (keeps_probeAll _ _).bind fun _ => (keeps_ask _).bind fun _ => keeps_pure _
    unfold moveCursor
    split
    · exact keeps_pure _
    · refine keeps_modify fun _ => ?_
      exact ⟨rfl, rfl, rfl, id, id, Or.inl rfl⟩

theorem keeps_serveWork (event : Event) (work : Work) :
    Keeps (Serves api sha256 actor context work.pulls) (do
      serveAll api context event (serveCandidate api sha256 actor context event) work.candidates
      serveAll api context event (fun retained : Nat × Option Nat =>
        serveRetained api sha256 actor context event retained.1 retained.2) work.retained) := by
  rw [Work.pulls, List.map_eq_flatMap]
  exact keeps_serves_bind (keeps_serveAll event (keeps_serveCandidate event) _) fun _ =>
    keeps_serveAll event
      (fun retained : Nat × Option Nat => keeps_serveRetained event retained.1 retained.2) _

/-- A run recovers for no pull request twice. -/
theorem serve_steps (event : Event) :
    Keeps (fun first last => ∃ numbers, (ListsOnce api → numbers.Nodup)
        ∧ Steps api sha256 actor context numbers first last)
      (serve api sha256 actor context event) := by
  intro start
  show ∃ numbers, (ListsOnce api → numbers.Nodup)
    ∧ Steps api sha256 actor context numbers start (after (_ >>= _) start)
  rw [after_bind]
  split
  · next work hwork =>
    obtain ⟨numbers, hsub, hsteps⟩ := keeps_serveWork event work (after (discover api event) start)
    refine ⟨numbers, fun honce => (discover_pulls event honce start work hwork).sublist hsub, ?_⟩
    exact ((Steps.start start).step (.quiet (keeps_discover event start))).trans hsteps
  · exact ⟨[], fun _ => List.nodup_nil, (Steps.start start).step (.quiet (keeps_discover event start))⟩

/-! ## What no step gains -/

/-- No permission is gained, and a fence is only replaced by another one. -/
structure Guards (first last : Session) : Prop where
  canEffect : last.canEffect = true → first.canEffect = true
  canPrepare : last.canPrepare = true → first.canPrepare = true
  fence : last.fence = first.fence ∨ last.fence = some changedFence

theorem Step.guards (h : Step api sha256 actor context numbers first last) : Guards first last := by
  cases h with
  | quiet h => exact ⟨h.canEffect, h.canPrepare, h.fence⟩
  | ordinary _ _ _ _ _ h => exact ⟨h.canEffect, h.canPrepare, h.fence⟩
  | recovered _ h =>
    cases h with
    | quiet h => exact ⟨h.canEffect, h.canPrepare, h.fence⟩
    | prepared _ _ _ _ _ h => exact ⟨h.touches.canEffect, h.touches.canPrepare, h.touches.fence⟩
    | suspended _ _ _ _ h => exact ⟨h.touches.canEffect, h.touches.canPrepare, h.touches.fence⟩
    | requested _ _ _ _ _ _ _ _ h =>
      exact ⟨h.touches.canEffect, h.touches.canPrepare, h.touches.fence⟩

theorem Steps.guards (h : Steps api sha256 actor context numbers first last) : Guards first last := by
  induction h with
  | start => exact ⟨id, id, Or.inl rfl⟩
  | step _ hstep ih =>
    have hnext := hstep.guards
    refine ⟨fun heffect => ih.canEffect (hnext.canEffect heffect),
      fun hprepare => ih.canPrepare (hnext.canPrepare hprepare), ?_⟩
    rcases hnext.fence with hsame | hchanged
    · rw [hsame]
      exact ih.fence
    · exact Or.inr hchanged

end Boxferry.Automation.Eligibility
