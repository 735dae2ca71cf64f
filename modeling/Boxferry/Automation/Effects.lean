import Boxferry.Automation.Sessions

/-! # Effects of a session

A reservation is prepared in one place and used up in one place: what was prepared
stays bound as it was, and is no longer prepared before its effect is requested. -/
namespace Boxferry.Automation.Eligibility
open Interruptible
set_option autoImplicit false

variable {α β : Type} {api : ServiceApi} {sha256 : ByteArray → Vector UInt8 32} {actor : Actor}
  {context : ServiceContext} {start first middle last : Session} {key : String}

/-- Nothing changes but the reservation of a key, the requests and what is observed. -/
structure Touches (key : String) (first last : Session) : Prop where
  ledger : last.ledger = first.ledger
  others : ∀ other, other ≠ key → last.recoveries.lookup other = first.recoveries.lookup other
  canEffect : last.canEffect = true → first.canEffect = true
  canPrepare : last.canPrepare = true → first.canPrepare = true
  fence : last.fence = first.fence ∨ last.fence = some changedFence

theorem Quiet.touches (h : Quiet first last) : Touches key first last :=
  ⟨h.ledger, fun _ _ => by rw [h.recoveries], h.canEffect, h.canPrepare, h.fence⟩

theorem Touches.trans (h : Touches key first middle) (hnext : Touches key middle last) :
    Touches key first last := by
  refine ⟨hnext.ledger.trans h.ledger, fun other hother => ?_,
    fun heffect => h.canEffect (hnext.canEffect heffect),
    fun hprepare => h.canPrepare (hnext.canPrepare hprepare), ?_⟩
  · rw [hnext.others other hother, h.others other hother]
  · rcases hnext.fence with hsame | hchanged
    · rw [hsame]
      exact h.fence
    · exact Or.inr hchanged

/-! ## What is left of a reservation -/

/-- The reservation of a key keeps its bindings and is not prepared again. -/
def Spent (before : Reservation) (last : Session) (key : String) : Prop :=
  ∃ after, last.recoveries.lookup key = some after ∧ after.bindings = before.bindings
    ∧ after.phase ≠ .prepared
    ∧ after.effectServiceRun = before.effectServiceRun

/-- No request is made, and a reservation that is not prepared stays so. -/
structure Settles (key : String) (first last : Session) : Prop where
  touches : Touches key first last
  posts : last.posts = first.posts
  spent : ∀ before, first.recoveries.lookup key = some before → before.phase ≠ .prepared →
    Spent before last key

theorem Quiet.settles (h : Quiet first last) : Settles key first last :=
  ⟨h.touches, h.posts, fun before hbefore hphase =>
    ⟨before, by rw [h.recoveries]; exact hbefore, rfl, hphase, rfl⟩⟩

instance : Std.Refl (Settles key) := ⟨fun session => (Quiet.refl session).settles⟩

instance : IsTrans Session (Settles key) where
  trans first middle last h hnext := by
    refine ⟨h.touches.trans hnext.touches, hnext.posts.trans h.posts, fun before hbefore hphase => ?_⟩
    obtain ⟨between, hbetween, hbindings, hspent, hrun⟩ := (h.spent before hbefore hphase)
    obtain ⟨after, hafter, hsame, hstill, hlast⟩ := (hnext.spent between hbetween hspent)
    exact ⟨after, hafter, hsame.trans hbindings, hstill, hlast.trans hrun⟩

theorem keeps_settles {step : Service α} (h : Keeps Quiet step) : Keeps (Settles key) step :=
  h.mono fun _ _ => Quiet.settles

theorem after_amend (change : Reservation → Reservation) (session : Session) :
    after (amend key change) session = (session.recoveries.lookup key).elim session fun reservation =>
      { session with recoveries := session.recoveries.insert key (change reservation) } := by
  have hmodify : ∀ update : Session → Session,
      after (modify update : Service Unit) session = update session := fun _ => rfl
  unfold amend
  rw [hmodify]
  cases hbefore : session.recoveries.lookup key with
  | none => rfl
  | some reservation => rfl

theorem amend_touches (change : Reservation → Reservation) (session : Session) :
    Touches key session (after (amend key change) session) := by
  rw [after_amend]
  cases session.recoveries.lookup key with
  | none => exact (Quiet.refl session).touches
  | some reservation =>
    exact ⟨rfl, fun other hother => AList.lookup_insert_ne hother, id, id, Or.inl rfl⟩

theorem amend_lookup {change : Reservation → Reservation} {session : Session} {before : Reservation}
    (h : session.recoveries.lookup key = some before) :
    (after (amend key change) session).recoveries.lookup key = some (change before) := by
  rw [after_amend, h]
  exact AList.lookup_insert _

theorem amend_posts (change : Reservation → Reservation) (session : Session) :
    (after (amend key change) session).posts = session.posts := by
  rw [after_amend]
  cases session.recoveries.lookup key <;> rfl

/-- A change that keeps the bindings and the run, and does not prepare, settles. -/
theorem keeps_amend {change : Reservation → Reservation}
    (hbindings : ∀ entry, (change entry).bindings = entry.bindings)
    (hphase : ∀ entry : Reservation, entry.phase ≠ .prepared → (change entry).phase ≠ .prepared)
    (hrun : ∀ entry, (change entry).effectServiceRun = entry.effectServiceRun) :
    Keeps (Settles key) (amend key change) := by
  intro session
  refine ⟨amend_touches change session, amend_posts change session, fun before hbefore hspent => ?_⟩
  exact ⟨change before, amend_lookup hbefore, hbindings before, hphase before hspent, hrun before⟩

/-- A quiet part may end a sequence, or lead on. -/
theorem quietly {step : Service α} {next : α → Service β} {done : Session → Prop} (h : Keeps Quiet step)
    (hdone : ∀ {last}, Quiet start last → done last)
    (hnext : ∀ value, Establishes (Quiet start) (next value) done) :
    Establishes (Quiet start) (step >>= next) done := by
  have hanswers : Answers step fun _ _ => True := fun _ _ _ => trivial
  exact Establishes.bind h hanswers Quiet.trans hdone fun _ value _ _ => hnext value

theorem keeps_of_establishes {step : Service α} {relation : Session → Session → Prop}
    (h : ∀ start, Establishes (Quiet start) step (relation start)) : Keeps relation step :=
  fun start => h start start (Quiet.refl start)

/-! ## Consuming -/

theorem requireEffect_canEffect (implementation : String) :
    Answers (requireEffect api.toApi actor context implementation) fun session _ =>
      session.canEffect = true := by
  refine answers_get_bind fun session value hvalue => ?_
  cases heffect : session.canEffect with
  | true => rfl
  | false =>
    simp only [heffect] at hvalue
    cases hvalue

theorem proveEffect_canEffect (identifier : Nat) (candidate : Candidate) (reservation : Reservation)
    (reader : Option String) (retained : Option RetainedBinding) :
    Answers (proveEffect api.toApi actor context identifier candidate reservation reader retained)
      fun session _ => session.canEffect = true := by
  have hback : ∀ first last (_ : Unit), Quiet first last → last.canEffect = true →
      first.canEffect = true := fun _ _ _ h => h.canEffect
  unfold proveEffect
  cases retained with
  | none => exact (requireEffect_canEffect _).bind fun _ _ heffect _ => heffect
  | some binding =>
    exact answers_bind (keeps_retainedProof _) hback fun _ =>
      answers_bind (keeps_refuseWhen _ _ _) hback fun _ =>
      answers_bind (keeps_discard (keeps_ask _)) hback fun _ =>
      answers_bind (keeps_retainedPr _) hback fun _ =>
      answers_bind (keeps_refuseWhen _ _ _) hback fun _ =>
      answers_bind (keeps_discard (keeps_originalRun _ _ _ _)) hback fun _ =>
      answers_bind (keeps_ask _) hback fun _ =>
      answers_bind (keeps_refuseWhen _ _ _) hback fun _ => requireEffect_canEffect _

/-- The request of a prepared reservation was delivered, after it was entered as attempted. -/
structure Requested (number identifier : Nat) (key : String) (reservation : Reservation)
    (first last : Session) : Prop where
  touches : Touches key first last
  canEffect : first.canEffect = true
  posts : last.posts
    = first.posts ++ [effectOf number identifier key reservation.bindings.kind.labels]
  after : ∃ after, last.recoveries.lookup key = some after ∧ after.bindings = reservation.bindings
    ∧ after.phase ≠ .prepared ∧ after.effectServiceRun.isSome = true

theorem Requested.settles {number identifier : Nat} {reservation : Reservation}
    (h : Requested number identifier key reservation first middle) (hnext : Settles key middle last) :
    Requested number identifier key reservation first last := by
  refine ⟨h.touches.trans hnext.touches, h.canEffect, hnext.posts.trans h.posts, ?_⟩
  obtain ⟨between, hbetween, hbindings, hspent, hrun⟩ := h.after
  obtain ⟨after, hafter, hsame, hstill, hlast⟩ := hnext.spent between hbetween hspent
  exact ⟨after, hafter, hsame.trans hbindings, hstill, hlast ▸ hrun⟩

/-- However a request ends, what was entered before it stays. -/
theorem request_settles (effect : Post) {handle : Interrupt → Service Unit}
    (hhandle : ∀ interrupt, Keeps (Settles key) (handle interrupt)) (session : Session) :
    Settles key { session with posts := session.posts ++ [effect] }
      (after (tryCatch (post api.toApi effect) handle) session) := by
  have hpost : Settles key { session with posts := session.posts ++ [effect] }
      (after (post api.toApi effect) session) :=
    Quiet.settles ⟨rfl, rfl, rfl, id, id, Or.inl rfl⟩
  rw [after_tryCatch]
  split
  · exact hpost
  · exact IsTrans.trans _ _ _ hpost (hhandle _ _)

theorem keeps_reconcile (number identifier : Nat) (labels : Bool) :
    Keeps (Settles key) (reconcile api.toApi key number identifier labels) := by
  refine Keeps.bind (keeps_amend (fun _ => rfl) (fun _ _ => ?_) fun _ => rfl) fun _ => ?_
  · exact fun h => nomatch h
  · split
    · exact Keeps.bind (keeps_settles (keeps_ask _)) fun _ =>
        keeps_amend (fun _ => rfl) (fun _ hphase => hphase) fun _ => rfl
    · exact Keeps.bind (keeps_settles (keeps_ask _)) fun _ =>
        keeps_amend (fun _ => rfl) (fun _ hphase => hphase) fun _ => rfl

theorem keeps_proveLabelUnused (number : Nat) (labels : Bool) :
    Keeps Quiet (proveLabelUnused api.toApi number labels) := by
  unfold proveLabelUnused
  split
  · exact keeps_ask _
  · exact keeps_pure _

theorem consume_establishes {identifier : Nat} {candidate : Candidate} {reservation : Reservation}
    {reader : Option String} {retained : Option RetainedBinding}
    (hlookup : start.recoveries.lookup key = some reservation) :
    Establishes (Quiet start)
      (consume api.toApi actor context key identifier candidate reservation reader retained)
      fun last => Quiet start last
        ∨ Requested candidate.number identifier key reservation start last := by
  refine Establishes.bind (keeps_proveEffect _ _ _ _ _) (proveEffect_canEffect _ _ _ _ _) Quiet.trans
    Or.inl fun proved _ hproved heffect => ?_
  refine quietly (keeps_proveLabelUnused _ _) Or.inl fun _ => ?_
  intro session hsession
  right
  have hfirst : session.recoveries.lookup key = some reservation := by
    rw [hsession.recoveries]
    exact hlookup
  let entered := after (amend key fun entry =>
    { entry with phase := .attempted, effectServiceRun := some actor.runId }) session
  have hentered : Requested candidate.number identifier key reservation start { entered with
      posts := entered.posts
        ++ [effectOf candidate.number identifier key reservation.bindings.kind.labels] } := by
    have htouches : Touches key session entered := amend_touches _ session
    refine ⟨hsession.touches.trans ⟨htouches.ledger, htouches.others, htouches.canEffect,
      htouches.canPrepare, htouches.fence⟩, hproved.canEffect heffect, ?_, ?_⟩
    · show entered.posts ++ _ = _
      rw [show entered.posts = session.posts from amend_posts _ session, hsession.posts]
    · exact ⟨_, amend_lookup hfirst, rfl, fun h => (nomatch h), rfl⟩
  refine hentered.settles (request_settles _ (fun interrupt => ?_) entered)
  split
  · exact keeps_throw _
  · exact keeps_reconcile _ _ _

/-! ## Recovering -/

/-- An answer tells that an original run is the pull request's, at this head. -/
def Linked (api : ServiceApi) (identifier number : Nat) (head : String) : Prop :=
  ∃ tick run pull, api.ciRun identifier tick = .ok run ∧ run.id = some identifier
    ∧ run.headSha = some head ∧ run.pullRequests = [pull] ∧ pull.number = number

theorem originalRun_linked (identifier : Nat) (candidate : Candidate) (implementation : Option String)
    (excluded : List String) :
    Answers (originalRun api.toApi actor identifier candidate implementation excluded) fun _ _ =>
      Linked api identifier candidate.number candidate.sourceHead := by
  intro session value hvalue
  obtain ⟨run, hrun, hvalue⟩ := result_bind_ok hvalue
  obtain ⟨-, -, hvalue⟩ := result_bind_ok hvalue
  obtain ⟨⟨⟩, hown, hvalue⟩ := result_bind_ok hvalue
  obtain ⟨⟨⟩, hidentifies, -⟩ := result_bind_ok hvalue
  have hown := answers_refuseWhen _ _ hown
  have hidentifies := answers_refuseWhen _ _ hidentifies
  simp only [not_or, not_not] at hown hidentifies
  obtain ⟨hid, hcandidate, -⟩ := hown
  simp only [candidateRun, Bool.and_eq_true, decide_eq_true_eq] at hcandidate
  unfold identifies at hidentifies
  split at hidentifies
  · next pull hpull =>
    simp only [Bool.and_eq_true, decide_eq_true_eq] at hidentifies
    exact ⟨_, run, pull, hrun, hid, hcandidate.2, hpull, hidentifies.1⟩
  · exact nomatch hidentifies

theorem Bindings.keeps_originalRunId {expected actual : Bindings} (h : expected.keeps actual = true) :
    actual.originalRunId = expected.originalRunId := by
  simp only [Bindings.keeps, Bool.and_eq_true, decide_eq_true_eq] at h
  exact h.1.1.1.1.1.1.1.1.2.symm

/-- A fresh reservation is prepared, and no request is made. -/
structure Prepared (identifier : Nat) (key : String) (first last : Session) : Prop where
  touches : Touches key first last
  posts : last.posts = first.posts
  entry : ∃ entry, last.recoveries.lookup key = some entry ∧ entry.phase = .prepared
    ∧ entry.bindings.originalRunId = identifier ∧ entry.effectServiceRun = none

theorem prepare_prepared {identifier : Nat} {bindings : Bindings} {protection : String}
    {session : Session} (h : Quiet start session) (hid : bindings.originalRunId = identifier) :
    Prepared identifier key start (after (prepare actor key bindings protection) session) := by
  refine ⟨h.touches.trans ⟨rfl, fun other hother => ?_, id, id, Or.inl rfl⟩, h.posts, ?_⟩
  · exact AList.lookup_insert_ne hother
  · exact ⟨_, AList.lookup_insert _, rfl, hid, rfl⟩

/-- What the recovery of one original comes to: a preparation, or the request that was prepared. -/
def Recovers (api : ServiceApi) (number identifier : Nat) (head key : String) (first last : Session) :
    Option Reservation → Prop
  | none => Linked api identifier number head ∧ Prepared identifier key first last
  | some reservation => Linked api identifier number head
      ∧ reservation.bindings.originalRunId = identifier
      ∧ Requested number identifier key reservation first last

theorem nativeHandoff_establishes {run : Run} {identifier : Nat} {candidate : Candidate}
    {report : Report} {reservation : Option Reservation}
    (hlookup : start.recoveries.lookup key = reservation)
    (hlinked : Linked api identifier candidate.number candidate.sourceHead) :
    Establishes (Quiet start)
      (nativeHandoff api.toApi actor context run identifier candidate report key reservation)
      fun last => Quiet start last
        ∨ Recovers api candidate.number identifier candidate.sourceHead key start last reservation := by
  refine quietly (keeps_refuseWhen _ _ _) Or.inl fun _ => quietly (keeps_lift _) Or.inl fun _ =>
    quietly (keeps_refuseWhen _ _ _) Or.inl fun _ => quietly (keeps_ask _) Or.inl fun proof =>
    quietly (keeps_ask _) Or.inl fun protection => ?_
  cases reservation with
  | none => exact fun session hsession => Or.inr ⟨hlinked, prepare_prepared hsession rfl⟩
  | some reservation =>
    refine Establishes.bind (keeps_refuseWhen _ _ _) answers_refuseWhen Quiet.trans Or.inl
      fun _ _ _ hkeeps => ?_
    rw [not_not] at hkeeps
    cases context.previous with
    | none => exact fun _ hsession => Or.inl hsession
    | some previous =>
      refine establishes_get_bind fun _ _ => ?_
      split
      · exact fun _ hsession => Or.inl hsession
      · refine quietly (keeps_ask _) Or.inl fun _ => quietly (keeps_refuseWhen _ _ _) Or.inl fun _ => ?_
        intro session hsession
        refine (consume_establishes hlookup session hsession).imp id fun hrequested => ?_
        exact ⟨hlinked, Bindings.keeps_originalRunId hkeeps, hrequested⟩

theorem recoverOriginal_establishes {identifier : Nat} {candidate : Candidate} {report : Report}
    {reservation : Option Reservation} (hlookup : start.recoveries.lookup key = reservation) :
    Establishes (Quiet start)
      (recoverOriginal api.toApi actor context identifier candidate report key reservation)
      fun last => Quiet start last
        ∨ Recovers api candidate.number identifier candidate.sourceHead key start last reservation := by
  refine Establishes.bind (keeps_originalRun _ _ _ _) (originalRun_linked _ _ _ _) Quiet.trans Or.inl
    fun _ run _ hlinked => quietly (keeps_ask _) Or.inl fun _ => ?_
  split
  · exact nativeHandoff_establishes hlookup hlinked
  · refine quietly (keeps_ask _) Or.inl fun hint => ?_
    split
    · exact fun _ hsession => Or.inl hsession
    · refine quietly (keeps_ask _) Or.inl ?_
      rintro ⟨handoff, reader⟩
      refine quietly (keeps_ask _) Or.inl fun protection =>
        quietly (keeps_historicalReport _) Or.inl fun old => quietly (keeps_ask _) Or.inl fun _ =>
        quietly (keeps_refuseWhen _ _ _) Or.inl fun _ => quietly (keeps_lift _) Or.inl fun _ =>
        quietly (keeps_refuseWhen _ _ _) Or.inl fun _ => ?_
      cases reservation with
      | none => exact fun session hsession => Or.inr ⟨hlinked, prepare_prepared hsession rfl⟩
      | some reservation =>
        refine Establishes.bind (keeps_refuseWhen _ _ _) answers_refuseWhen Quiet.trans Or.inl
          fun _ _ _ hkeeps => establishes_get_bind fun _ _ => ?_
        rw [not_not] at hkeeps
        refine establishes_ite (fun _ session hsession => ?_) fun _ _ hsession => Or.inl hsession
        refine (consume_establishes hlookup session hsession).imp id fun hrequested => ?_
        exact ⟨hlinked, Bindings.keeps_originalRunId hkeeps, hrequested⟩

theorem retainedPr_number (number : Nat) :
    Answers (retainedPr api.toApi number) fun _ binding => binding.historical.number = number := by
  intro session value hvalue
  obtain ⟨binding, -, hvalue⟩ := result_bind_ok hvalue
  have hvalue : { ofPull number binding with excludedJobs := [] } = value := Except.ok.inj hvalue
  rw [← hvalue]
  rfl

theorem recoverBound_establishes {identifier number : Nat} {observed : RetainedBinding}
    {reservation : Option Reservation} (hnumber : observed.historical.number = number)
    (hlookup : start.recoveries.lookup key = reservation) :
    Establishes (Quiet start)
      (recoverBound api.toApi actor context identifier number observed key reservation)
      fun last => Quiet start last
        ∨ Recovers api number identifier observed.historical.sourceHead key start last reservation := by
  subst hnumber
  refine quietly (keeps_ask _) Or.inl fun raw => ?_
  split
  · exact fun _ hsession => Or.inl hsession
  · refine quietly (keeps_retainedProof _) Or.inl fun proof =>
      quietly (keeps_refuseWhen _ _ _) Or.inl fun _ => ?_
    refine Establishes.bind (keeps_originalRun _ _ _ _) (originalRun_linked _ _ _ _) Quiet.trans Or.inl
      fun _ run _ hlinked => ?_
    refine quietly (keeps_ask _) Or.inl fun hint => quietly (keeps_refuseWhen _ _ _) Or.inl fun _ =>
      quietly (keeps_lift _) Or.inl fun _ => quietly (keeps_refuseWhen _ _ _) Or.inl fun _ =>
      quietly (keeps_ask _) Or.inl fun protection => ?_
    refine Establishes.bind (keeps_refuseWhen _ _ _) answers_refuseWhen Quiet.trans Or.inl
      fun _ _ _ hkeeps => establishes_get_bind fun _ _ => quietly (keeps_ask _) Or.inl ?_
    rintro ⟨report, firstSeen⟩
    refine quietly (keeps_modify fun _ => ?_) Or.inl fun _ => ?_
    · exact ⟨rfl, rfl, rfl, id, id, Or.inl rfl⟩
    refine quietly (keeps_retainedPr _) Or.inl fun _ => quietly (keeps_refuseWhen _ _ _) Or.inl
      fun _ => quietly (keeps_ask _) Or.inl fun _ => quietly (keeps_modify fun _ => ?_) Or.inl fun _ => ?_
    · exact ⟨rfl, rfl, rfl, id, id, Or.inl rfl⟩
    cases reservation with
    | none => exact fun session hsession => Or.inr ⟨hlinked, prepare_prepared hsession rfl⟩
    | some reservation =>
      simp only [Option.any_some, Bool.not_eq_true, decide_eq_true_eq, Bool.not_eq_false] at hkeeps
      refine establishes_get_bind fun _ _ => ?_
      refine establishes_ite (fun _ session hsession => ?_) fun _ _ hsession => Or.inl hsession
      refine (consume_establishes hlookup session hsession).imp id fun hrequested => ?_
      exact ⟨hlinked, Bindings.keeps_originalRunId hkeeps, hrequested⟩

/-- A prepared reservation is suspended before anything was requested. -/
structure Suspended (key : String) (reservation : Reservation) (first last : Session) : Prop where
  touches : Touches key first last
  posts : last.posts = first.posts
  spent : Spent reservation last key

/-- What an attempted recovery leaves: nothing, what it came to, or a suspended reservation. -/
def Attempted (api : ServiceApi) (number identifier : Nat) (head key : String)
    (reservation : Option Reservation) (first last : Session) : Prop :=
  Quiet first last ∨ Recovers api number identifier head key first last reservation
    ∨ ∃ prepared, reservation = some prepared ∧ Suspended key prepared first last

theorem suspend_suspended {reservation : Reservation} {reason : Text} {session : Session}
    (hlookup : start.recoveries.lookup key = some reservation) (h : Quiet start session) :
    Suspended key reservation start (after (suspend key (some reservation) reason) session) := by
  have hfirst : session.recoveries.lookup key = some reservation := by
    rw [h.recoveries]
    exact hlookup
  refine ⟨h.touches.trans (amend_touches _ _), (amend_posts _ _).trans h.posts, ?_⟩
  exact ⟨_, amend_lookup hfirst, rfl, fun h => (nomatch h), rfl⟩

theorem keeps_suspend (reservation : Option Reservation) (reason : Text) :
    Keeps (Settles key) (suspend key reservation reason) := by
  cases reservation with
  | none => exact keeps_pure _
  | some reservation =>
    exact keeps_amend (fun _ => rfl) (fun _ _ h => nomatch h) fun _ => rfl

theorem after_suspend (reservation : Option Reservation) (reason : Text) (session : Session) :
    after (do suspend key reservation reason; throw (.refused reason) : Service Unit) session
      = after (suspend key reservation reason) session := by
  cases reservation <;> rfl

/-- A refusal suspends the reservation, and whatever was done before it stays. -/
theorem suspending_establishes {number identifier : Nat} {head : String}
    {reservation : Option Reservation} {body : Service Unit}
    (hlookup : start.recoveries.lookup key = reservation)
    (h : Establishes (Quiet start) body fun last => Quiet start last
      ∨ Recovers api number identifier head key start last reservation) :
    Establishes (Quiet start) (suspending key reservation body)
      (Attempted api number identifier head key reservation start) := by
  intro session hsession
  have hbody := h session hsession
  unfold suspending
  rw [after_tryCatch]
  split
  · exact hbody.imp id Or.inl
  · next interrupt hinterrupt =>
    split
    · exact hbody.imp id Or.inl
    · next reason hreason =>
      rw [after_suspend]
      rcases hbody with hquiet | hrecovers
      · cases reservation with
        | none => exact Or.inl hquiet
        | some reservation =>
          exact Or.inr (Or.inr ⟨reservation, rfl, suspend_suspended hlookup hquiet⟩)
      · right
        left
        cases reservation with
        | none => exact hrecovers
        | some reservation =>
          exact ⟨hrecovers.1, hrecovers.2.1, hrecovers.2.2.settles (keeps_suspend _ _ _)⟩

/-- What the recovery for one pull request can do to a session. -/
inductive Recovered (api : ServiceApi) (sha256 : ByteArray → Vector UInt8 32) (actor : Actor)
    (context : ServiceContext) (number : Nat) (first last : Session) : Prop
  | quiet (h : Quiet first last)
  | prepared (identifier : Nat) (head : String) (hcan : first.canPrepare = true)
      (hlinked : Linked api identifier number head)
      (hnew : first.recoveries.lookup (reservationKey sha256 actor identifier head) = none)
      (h : Prepared identifier (reservationKey sha256 actor identifier head) first last)
  | suspended (key : String) (reservation : Reservation)
      (hlookup : first.recoveries.lookup key = some reservation) (hphase : reservation.phase = .prepared)
      (h : Suspended key reservation first last)
  | requested (identifier : Nat) (head : String) (reservation : Reservation)
      (hlinked : Linked api identifier number head)
      (hlookup : first.recoveries.lookup (reservationKey sha256 actor identifier head)
        = some reservation)
      (hphase : reservation.phase = .prepared) (hid : reservation.bindings.originalRunId = identifier)
      (hledger : context.previous.isSome = true → ∀ entry ∈ first.ledger.entries, entry.2 ≠ identifier)
      (h : Requested number identifier (reservationKey sha256 actor identifier head) reservation
        first last)

theorem Attempted.recovered {number identifier : Nat} {head : String}
    {reservation : Option Reservation} (hcan : start.canPrepare = true)
    (hlookup : start.recoveries.lookup (reservationKey sha256 actor identifier head) = reservation)
    (hphase : ∀ entry, reservation = some entry → entry.phase = .prepared)
    (hledger : context.previous.isSome = true → ∀ entry ∈ start.ledger.entries, entry.2 ≠ identifier)
    (h : Attempted api number identifier head (reservationKey sha256 actor identifier head) reservation
      start last) :
    Recovered api sha256 actor context number start last := by
  rcases h with hquiet | hrecovers | ⟨prepared, rfl, hsuspended⟩
  · exact .quiet hquiet
  · cases reservation with
    | none => exact .prepared identifier head hcan hrecovers.1 hlookup hrecovers.2
    | some reservation =>
      obtain ⟨hlinked, hid, hrequested⟩ := hrecovers
      exact .requested identifier head reservation hlinked hlookup (hphase reservation rfl) hid hledger
        hrequested
  · exact .suspended _ prepared hlookup (hphase prepared rfl) hsuspended

theorem alreadyRerun_false (identifier : Nat) :
    Answers (alreadyRerun context identifier) fun session found => found = false →
      context.previous.isSome = true → ∀ entry ∈ session.ledger.entries, entry.2 ≠ identifier := by
  refine answers_get_bind fun session found hfound hfalse hprevious entry hentry hsame => ?_
  have hfound := Except.ok.inj hfound
  rw [hfalse, hprevious, Bool.true_and] at hfound
  simp only [List.any_eq_false, decide_eq_true_eq] at hfound
  exact hfound entry hentry hsame

theorem prepared_of_any {reservation : Option Reservation}
    (h : ¬ (reservation.any fun entry => decide (entry.phase ≠ .prepared)) = true) :
    ∀ entry, reservation = some entry → entry.phase = .prepared := by
  rintro entry rfl
  simpa using h

theorem recoverRun_establishes (identifier : Nat) (candidate : Candidate) (report : Report) :
    Establishes (Quiet start)
      (recoverRun api.toApi sha256 actor context identifier candidate report)
      (Recovered api sha256 actor context candidate.number start) := by
  refine establishes_get_bind fun first hfirst => ?_
  refine establishes_ite (fun _ _ hsession => .quiet hsession) fun hcan => ?_
  rw [not_not] at hcan
  refine Establishes.bind (keeps_alreadyRerun identifier) (alreadyRerun_false identifier) Quiet.trans
    Recovered.quiet fun asked found hasked hledger => ?_
  refine establishes_ite (fun _ _ hsession => .quiet hsession) fun hfound => ?_
  have hledger := hledger (Bool.not_eq_true _ ▸ hfound)
  rw [hasked.ledger] at hledger
  refine establishes_get_bind fun session hsession => ?_
  rw [hsession.recoveries]
  refine establishes_ite (fun _ _ hsession => .quiet hsession) fun hphase => ?_
  refine (suspending_establishes rfl (recoverOriginal_establishes rfl)).mono fun _ hattempted => ?_
  exact hattempted.recovered (hfirst.canPrepare hcan) rfl (prepared_of_any hphase) hledger

theorem recover_recovered (candidate : Candidate) (report : Report) :
    Keeps (fun first last => Quiet first last ∨ candidate.scope = .pullRequest
        ∧ Recovered api sha256 actor context candidate.number first last)
      (recover api.toApi sha256 actor context candidate report) := by
  refine keeps_of_establishes fun start => ?_
  refine establishes_ite (fun _ _ hsession => Or.inl hsession) fun hscope => ?_
  refine quietly (keeps_ask _) Or.inl fun runs => quietly (keeps_refuseWhen _ _ _) Or.inl fun _ => ?_
  split
  · exact fun _ hsession => Or.inl hsession
  · split
    · exact (recoverRun_establishes _ _ _).mono fun _ hrecovered => Or.inr ⟨not_not.mp hscope, hrecovered⟩
    · exact fun _ hsession => Or.inl hsession

theorem recoverRetained_recovered (number : Nat) (originalRunId : Option Nat) :
    Keeps (Recovered api sha256 actor context number)
      (recoverRetained api.toApi sha256 actor context number originalRunId) := by
  refine keeps_of_establishes fun start => ?_
  refine establishes_get_bind fun first hfirst => ?_
  refine establishes_ite (fun _ _ hsession => .quiet hsession) fun hcan => ?_
  rw [not_not] at hcan
  refine Establishes.bind (keeps_retainedPr number) (retainedPr_number number) Quiet.trans
    Recovered.quiet fun _ observed _ hnumber => ?_
  refine quietly (keeps_retainedRun _ _) Recovered.quiet fun identifier => ?_
  split
  · exact fun _ hsession => .quiet hsession
  · exact fun session hsession => .quiet (hsession.trans (keeps_refuse _ _ session))
  · next identifier _ =>
    refine establishes_get_bind fun session hsession => ?_
    rw [hsession.recoveries]
    refine establishes_ite (fun _ _ hsession => .quiet hsession) fun hphase => ?_
    refine Establishes.bind (keeps_alreadyRerun identifier) (alreadyRerun_false identifier)
      Quiet.trans Recovered.quiet fun asked found hasked hledger => ?_
    refine establishes_ite (fun _ _ hsession => .quiet hsession) fun hfound => ?_
    have hledger := hledger (Bool.not_eq_true _ ▸ hfound)
    rw [hasked.ledger] at hledger
    refine (suspending_establishes rfl (recoverBound_establishes hnumber rfl)).mono
      fun _ hattempted => ?_
    exact hattempted.recovered (hfirst.canPrepare hcan) rfl (prepared_of_any hphase) hledger

/-! ## Ordinary reruns -/

/-- The run that an ordinary rerun asks for is the first listed one that is bound to the candidate. -/
def FirstBound (api : ServiceApi) (actor : Actor) (candidate : Candidate) (identifier : Nat) : Prop :=
  ∃ head tick runs run, api.ciRuns head tick = .ok runs
    ∧ (runs.take 20).find? (boundRun actor.repository candidate) = some run ∧ run.id = some identifier

/-- The rerun of a run was requested, after it was entered for its candidate. -/
def Reran (candidate : Candidate) (identifier : Nat) (first last : Session) : Prop :=
  Quiet { first with
    ledger := first.ledger.insert candidate.head identifier
    posts := first.posts ++ [.rerun identifier none] } last

theorem rerunReady_establishes (candidate : Candidate) :
    Establishes (Quiet start) (rerunReady api.toApi actor context candidate) fun last =>
      Quiet start last ∨ start.ledger.lookup candidate.head = none
        ∧ ∃ identifier, FirstBound api actor candidate identifier
          ∧ Reran candidate identifier start last := by
  refine establishes_get_bind fun first hfirst => ?_
  refine establishes_ite (fun _ _ hsession => Or.inl hsession) fun hnew => ?_
  rw [hfirst.ledger, not_not] at hnew
  refine Establishes.bind (keeps_ask _) (answers_ask _) Quiet.trans Or.inl fun session runs _ hruns => ?_
  split
  · exact fun _ hsession => Or.inl hsession
  · next run hrun =>
    refine quietly (keeps_lift _) Or.inl fun _ => ?_
    refine establishes_ite (fun _ _ hsession => Or.inl hsession) fun _ => ?_
    refine establishes_ite (fun _ _ hsession => Or.inl hsession) fun _ => ?_
    refine quietly (keeps_trustedWorkflow _) Or.inl fun _ => ?_
    refine establishes_ite (fun _ _ hsession => Or.inl hsession) fun _ => ?_
    split
    · next identifier hid =>
      refine quietly (keeps_ask _) Or.inl fun _ => ?_
      refine establishes_ite (fun _ _ hsession => Or.inl hsession) fun _ => ?_
      refine establishes_ite (fun _ _ hsession => Or.inl hsession) fun _ => ?_
      refine quietly (keeps_ask _) Or.inl fun _ => ?_
      refine establishes_ite (fun _ _ hsession => Or.inl hsession) fun _ => ?_
      intro session hsession
      refine Or.inr ⟨hnew, identifier + 1, ⟨_, _, runs, run, hruns, hrun, hid⟩, ?_⟩
      refine ⟨?_, hsession.recoveries, ?_, hsession.canEffect, hsession.canPrepare, hsession.fence⟩
      · show session.ledger.insert _ _ = start.ledger.insert _ _
        rw [hsession.ledger]
      · show session.posts ++ _ = start.posts ++ _
        rw [hsession.posts]
    · exact fun _ hsession => Or.inl hsession

end Boxferry.Automation.Eligibility
