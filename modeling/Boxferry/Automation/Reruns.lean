import Boxferry.Automation.Fences

/-! # One rerun for each original run

The ordinary path enters its reruns by candidate, and the recoveries enter theirs by run
and source head. What both ledgers hold together is exactly what was requested, so a run
is rerun once as long as the ordinary path asks for none that is in either of them. -/
namespace Boxferry.Automation.Eligibility
open Interruptible
set_option autoImplicit false

variable {api : ServiceApi} {sha256 : ByteArray → Vector UInt8 32} {actor : Actor}
  {context : ServiceContext} {first middle last : Session} {numbers : List Nat}
  {headOf : Nat → String} {before : List Post} {key : String}

/-! ## Requested reruns -/

def Post.rerun? : Post → Option Nat
  | rerun identifier _ => some identifier
  | label _ _ => none

def reruns (posts : List Post) : List Nat := posts.filterMap Post.rerun?

theorem reruns_append (posts others : List Post) : reruns (posts ++ others) = reruns posts ++ reruns others :=
  List.filterMap_append

theorem mem_reruns {posts : List Post} {identifier : Nat} :
    identifier ∈ reruns posts ↔ ∃ key, Post.rerun identifier key ∈ posts := by
  unfold reruns
  rw [List.mem_filterMap]
  constructor
  · rintro ⟨effect, heffect, hid⟩
    cases effect with
    | label number key => exact nomatch hid
    | rerun found key => exact ⟨key, Option.some.inj hid ▸ heffect⟩
  · rintro ⟨key, hkey⟩
    exact ⟨_, hkey, rfl⟩

/-- The rerun of the run is entered in neither ledger. -/
def Unspent (identifier : Nat) (session : Session) : Prop :=
  (∀ head, session.ledger.lookup head ≠ some identifier)
    ∧ ∀ key reservation, session.recoveries.lookup key = some reservation →
      reservation.bindings.kind.labels = false → reservation.bindings.originalRunId = identifier →
      reservation.effectServiceRun = none

/-- What the ledgers hold, against everything that was requested. -/
structure Accounts (sha256 : ByteArray → Vector UInt8 32) (actor : Actor) (headOf : Nat → String)
    (posts : List Post) (session : Session) : Prop where
  ledger : ∀ identifier, Post.rerun identifier none ∈ posts ↔
    ∃ head, session.ledger.lookup head = some identifier
  recoveries : ∀ key identifier, Post.rerun identifier (some key) ∈ posts ↔
    ∃ reservation, session.recoveries.lookup key = some reservation
      ∧ reservation.bindings.kind.labels = false ∧ reservation.bindings.originalRunId = identifier
      ∧ reservation.effectServiceRun.isSome = true
  keys : ∀ key identifier, Post.rerun identifier (some key) ∈ posts →
    key = reservationKey sha256 actor identifier (headOf identifier)
  spent : ∀ key reservation, session.recoveries.lookup key = some reservation →
    reservation.effectServiceRun.isSome = true → reservation.phase ≠ .prepared

theorem Accounts.unspent_iff {posts : List Post} {session : Session}
    (h : Accounts sha256 actor headOf posts session) (identifier : Nat) :
    Unspent identifier session ↔ identifier ∉ reruns posts := by
  rw [mem_reruns]
  constructor
  · rintro ⟨hledger, hrecoveries⟩ ⟨key, hkey⟩
    cases key with
    | none =>
      obtain ⟨head, hhead⟩ := (h.ledger identifier).mp hkey
      exact hledger head hhead
    | some key =>
      obtain ⟨reservation, hlookup, hlabels, hid, hsome⟩ := (h.recoveries key identifier).mp hkey
      rw [hrecoveries key reservation hlookup hlabels hid] at hsome
      exact nomatch hsome
  · intro hnone
    refine ⟨fun head hhead => hnone ⟨none, (h.ledger identifier).mpr ⟨head, hhead⟩⟩,
      fun key reservation hlookup hlabels hid => ?_⟩
    cases heffect : reservation.effectServiceRun with
    | none => rfl
    | some run =>
      have hkey := (h.recoveries key identifier).mpr
        ⟨reservation, hlookup, hlabels, hid, by rw [heffect]; rfl⟩
      exact absurd ⟨some key, hkey⟩ hnone

theorem Accounts.congr {posts : List Post} {session other : Session}
    (h : Accounts sha256 actor headOf posts session)
    (hledger : ∀ head, other.ledger.lookup head = session.ledger.lookup head)
    (hrecoveries : ∀ key, other.recoveries.lookup key = session.recoveries.lookup key) :
    Accounts sha256 actor headOf posts other := by
  refine ⟨fun identifier => ?_, fun key identifier => ?_, h.keys, fun key reservation hlookup => ?_⟩
  · simp only [hledger]
    exact h.ledger identifier
  · simp only [hrecoveries]
    exact h.recoveries key identifier
  · rw [hrecoveries] at hlookup
    exact h.spent key reservation hlookup

/-! ## One step -/

theorem Accounts.quiet (h : Accounts sha256 actor headOf (before ++ first.posts) first)
    (hquiet : Quiet first last) : Accounts sha256 actor headOf (before ++ last.posts) last := by
  rw [hquiet.posts]
  exact h.congr (fun _ => by rw [hquiet.ledger]) fun _ => by rw [hquiet.recoveries]

/-- An ordinary rerun is entered for its candidate. -/
theorem Accounts.reran {candidate : Candidate} {identifier : Nat}
    (h : Accounts sha256 actor headOf (before ++ first.posts) first)
    (hnew : first.ledger.lookup candidate.head = none) (hreran : Reran candidate identifier first last) :
    Accounts sha256 actor headOf (before ++ last.posts) last := by
  refine Accounts.quiet ?_ hreran
  show Accounts sha256 actor headOf (before ++ (first.posts ++ [.rerun identifier none])) _
  rw [← List.append_assoc]
  refine ⟨fun other => ?_, fun key other => ?_, fun key other hkey => ?_, h.spent⟩
  · rw [List.mem_append, List.mem_singleton, h.ledger]
    constructor
    · rintro (⟨head, hhead⟩ | hsame)
      · refine ⟨head, ?_⟩
        have hother : head ≠ candidate.head := by
          rintro rfl
          rw [hnew] at hhead
          exact nomatch hhead
        exact (AList.lookup_insert_ne hother).trans hhead
      · obtain ⟨rfl, -⟩ := Post.rerun.inj hsame
        exact ⟨candidate.head, AList.lookup_insert _⟩
    · rintro ⟨head, hhead⟩
      by_cases hsame : head = candidate.head
      · subst hsame
        have hid : some identifier = some other := (AList.lookup_insert _).symm.trans hhead
        exact Or.inr (by rw [Option.some.inj hid])
      · exact Or.inl ⟨head, (AList.lookup_insert_ne hsame).symm.trans hhead⟩
  · rw [List.mem_append, List.mem_singleton]
    constructor
    · rintro (hkey | hsame)
      · exact (h.recoveries key other).mp hkey
      · exact nomatch (Post.rerun.inj hsame).2
    · exact fun hreservation => Or.inl ((h.recoveries key other).mpr hreservation)
  · rw [List.mem_append, List.mem_singleton] at hkey
    rcases hkey with hkey | hsame
    · exact h.keys key other hkey
    · exact nomatch (Post.rerun.inj hsame).2

/-- A reservation that changes without an effect of its own changes no account. -/
theorem Accounts.touched {posts : List Post} (h : Accounts sha256 actor headOf posts first)
    (htouches : Touches key first last)
    (hfirst : ∀ reservation, first.recoveries.lookup key = some reservation →
      reservation.effectServiceRun = none)
    (hlast : ∀ reservation, last.recoveries.lookup key = some reservation →
      reservation.effectServiceRun = none) :
    Accounts sha256 actor headOf posts last := by
  refine ⟨fun identifier => ?_, fun other identifier => ?_, h.keys, fun other reservation hlookup => ?_⟩
  · rw [htouches.ledger]
    exact h.ledger identifier
  · rw [h.recoveries]
    by_cases hsame : other = key
    · subst hsame
      constructor
      · rintro ⟨reservation, hlookup, -, -, hsome⟩
        rw [hfirst reservation hlookup] at hsome
        exact nomatch hsome
      · rintro ⟨reservation, hlookup, -, -, hsome⟩
        rw [hlast reservation hlookup] at hsome
        exact nomatch hsome
    · rw [htouches.others other hsame]
  · intro hsome
    by_cases hsame : other = key
    · subst hsame
      rw [hlast reservation hlookup] at hsome
      exact nomatch hsome
    · rw [htouches.others other hsame] at hlookup
      exact h.spent other reservation hlookup hsome

theorem Accounts.prepared_none {posts : List Post} (h : Accounts sha256 actor headOf posts first)
    {reservation : Reservation} (hlookup : first.recoveries.lookup key = some reservation)
    (hphase : reservation.phase = .prepared) : reservation.effectServiceRun = none := by
  cases heffect : reservation.effectServiceRun with
  | none => rfl
  | some run => exact absurd hphase (h.spent key reservation hlookup (by rw [heffect]; rfl))

/-- A consumed reservation is entered with its effect, and requested under its key. -/
theorem Accounts.requested {number identifier : Nat} {reservation : Reservation}
    (h : Accounts sha256 actor headOf (before ++ first.posts) first)
    (hkey : key = reservationKey sha256 actor identifier (headOf identifier))
    (hlookup : first.recoveries.lookup key = some reservation) (hphase : reservation.phase = .prepared)
    (hid : reservation.bindings.originalRunId = identifier)
    (hrequested : Requested number identifier key reservation first last) :
    Accounts sha256 actor headOf (before ++ last.posts) last := by
  obtain ⟨after, hafter, hbindings, hspent, heffect⟩ := hrequested.after
  have hnone := h.prepared_none hlookup hphase
  rw [hrequested.posts, ← List.append_assoc]
  refine ⟨fun other => ?_, fun other run => ?_, fun other run hother => ?_,
    fun other entry hentry hsome => ?_⟩
  · rw [hrequested.touches.ledger, ← h.ledger, List.mem_append, List.mem_singleton]
    refine ⟨fun hmember => hmember.resolve_right fun hsame => ?_, Or.inl⟩
    unfold effectOf at hsame
    split at hsame
    · exact nomatch hsame
    · exact nomatch (Post.rerun.inj hsame).2
  · rw [List.mem_append, List.mem_singleton, h.recoveries]
    by_cases hsame : other = key
    · subst hsame
      have hbefore : ¬ ∃ entry, first.recoveries.lookup other = some entry
          ∧ entry.bindings.kind.labels = false ∧ entry.bindings.originalRunId = run
          ∧ entry.effectServiceRun.isSome = true := by
        rintro ⟨entry, hentry, -, -, hsome⟩
        rw [hlookup] at hentry
        rw [← Option.some.inj hentry, hnone] at hsome
        exact nomatch hsome
      rw [or_iff_right hbefore]
      unfold effectOf
      constructor
      · intro hpost
        split at hpost
        · exact nomatch hpost
        · next hlabels =>
          obtain ⟨rfl, -⟩ := Post.rerun.inj hpost
          refine ⟨after, hafter, ?_, by rw [hbindings]; exact hid, heffect⟩
          rw [hbindings]
          exact Bool.not_eq_true _ ▸ hlabels
      · rintro ⟨entry, hentry, hlabels, hrun, -⟩
        rw [hafter] at hentry
        rw [← Option.some.inj hentry, hbindings] at hlabels hrun
        rw [hlabels, if_neg Bool.false_ne_true, ← hrun, hid]
    · rw [hrequested.touches.others other hsame]
      refine ⟨fun hmember => hmember.resolve_right fun hpost => ?_, Or.inl⟩
      unfold effectOf at hpost
      split at hpost
      · exact nomatch hpost
      · exact hsame (Option.some.inj (Post.rerun.inj hpost).2)
  · rw [List.mem_append, List.mem_singleton] at hother
    rcases hother with hother | hpost
    · exact h.keys other run hother
    · unfold effectOf at hpost
      split at hpost
      · exact nomatch hpost
      · obtain ⟨rfl, hsame⟩ := Post.rerun.inj hpost
        rw [Option.some.inj hsame, hkey]
  · by_cases hsame : other = key
    · subst hsame
      rw [hafter] at hentry
      rw [← Option.some.inj hentry]
      exact hspent
    · rw [hrequested.touches.others other hsame] at hentry
      exact h.spent other entry hentry hsome

/-- The answers about an original run agree on its head. -/
def AgreeOnHeads (api : ServiceApi) (headOf : Nat → String) : Prop :=
  ∀ identifier number head, Linked api identifier number head → head = headOf identifier

theorem Accounts.recovered {number : Nat} (h : Accounts sha256 actor headOf (before ++ first.posts) first)
    (hheads : AgreeOnHeads api headOf)
    (hrecovered : Recovered api sha256 actor context number first last) :
    Accounts sha256 actor headOf (before ++ last.posts) last := by
  cases hrecovered with
  | quiet hquiet => exact h.quiet hquiet
  | prepared identifier head hcan hlinked hnew hprepared =>
    rw [hprepared.posts]
    obtain ⟨entry, hentry, -, -, hnone⟩ := hprepared.entry
    refine h.touched hprepared.touches (fun reservation hlookup => ?_) fun reservation hlookup => ?_
    · rw [hnew] at hlookup
      exact nomatch hlookup
    · rw [hentry] at hlookup
      rw [← Option.some.inj hlookup]
      exact hnone
  | suspended key reservation hlookup hphase hsuspended =>
    rw [hsuspended.posts]
    have hnone := h.prepared_none hlookup hphase
    obtain ⟨after, hafter, -, -, heffect⟩ := hsuspended.spent
    refine h.touched hsuspended.touches (fun entry hentry => ?_) fun entry hentry => ?_
    · rw [hlookup] at hentry
      rw [← Option.some.inj hentry]
      exact hnone
    · rw [hafter] at hentry
      rw [← Option.some.inj hentry, heffect]
      exact hnone
  | requested identifier head reservation hlinked hlookup hphase hid hledger hrequested =>
    obtain rfl := hheads identifier number head hlinked
    exact h.requested rfl hlookup hphase hid hrequested

theorem Accounts.step (h : Accounts sha256 actor headOf (before ++ first.posts) first)
    (hheads : AgreeOnHeads api headOf) (hstep : Step api sha256 actor context numbers first last) :
    Accounts sha256 actor headOf (before ++ last.posts) last := by
  cases hstep with
  | quiet hquiet => exact h.quiet hquiet
  | ordinary candidate identifier hcan hlisted hnew hreran => exact h.reran hnew hreran
  | recovered number hrecovered => exact h.recovered hheads hrecovered

/-! ## Sparing steps -/

/-- An ordinary rerun asks for a run that is entered in neither ledger yet. -/
def Spares (first last : Session) : Prop :=
  ∀ identifier, last.posts = first.posts ++ [.rerun identifier none] → Unspent identifier first

inductive SparingSteps (api : ServiceApi) (sha256 : ByteArray → Vector UInt8 32) (actor : Actor)
    (context : ServiceContext) : List Nat → Session → Session → Prop
  | start (session : Session) : SparingSteps api sha256 actor context [] session session
  | step {numbers others : List Nat} {first middle last : Session}
      (h : SparingSteps api sha256 actor context numbers first middle)
      (hnext : Step api sha256 actor context others middle last) (hspares : Spares middle last) :
      SparingSteps api sha256 actor context (numbers ++ others) first last

theorem SparingSteps.steps (h : SparingSteps api sha256 actor context numbers first last) :
    Steps api sha256 actor context numbers first last := by
  induction h with
  | start session => exact .start session
  | step _ hnext _ ih => exact ih.step hnext

theorem Accounts.steps (h : Accounts sha256 actor headOf (before ++ first.posts) first)
    (hheads : AgreeOnHeads api headOf) (hsteps : Steps api sha256 actor context numbers first last) :
    Accounts sha256 actor headOf (before ++ last.posts) last := by
  induction hsteps with
  | start => exact h
  | step _ hnext ih => exact (ih h).step hheads hnext

/-- A step makes at most one request, after those that were made. -/
theorem Step.posts (h : Step api sha256 actor context numbers first last) :
    ∃ more, last.posts = first.posts ++ more := by
  cases h with
  | quiet h => exact ⟨[], by rw [h.posts, List.append_nil]⟩
  | ordinary candidate identifier _ _ _ h => exact ⟨[.rerun identifier none], h.posts⟩
  | recovered number h =>
    cases h with
    | quiet h => exact ⟨[], by rw [h.posts, List.append_nil]⟩
    | prepared _ _ _ _ _ h => exact ⟨[], by rw [h.posts, List.append_nil]⟩
    | suspended _ _ _ _ h => exact ⟨[], by rw [h.posts, List.append_nil]⟩
    | requested _ _ _ _ _ _ _ _ h => exact ⟨_, h.posts⟩

theorem nodup_step {identifier : Nat} {key : Option String} {posts : List Post} :
    (reruns (posts ++ [.rerun identifier key])).Nodup ↔
      (reruns posts).Nodup ∧ identifier ∉ reruns posts := by
  rw [reruns_append]
  show (reruns posts ++ [identifier]).Nodup ↔ _
  rw [List.nodup_append_comm, List.singleton_append, List.nodup_cons, and_comm]

/-- A recovery never asks for a run that was rerun before. -/
theorem Accounts.requested_fresh {identifier : Nat} {reservation : Reservation}
    (h : Accounts sha256 actor headOf (before ++ first.posts) first)
    (hlookup : first.recoveries.lookup (reservationKey sha256 actor identifier (headOf identifier))
      = some reservation)
    (hphase : reservation.phase = .prepared)
    (hledger : ∀ entry ∈ first.ledger.entries, entry.2 ≠ identifier) :
    identifier ∉ reruns (before ++ first.posts) := by
  rw [mem_reruns]
  rintro ⟨key, hkey⟩
  cases key with
  | none =>
    obtain ⟨head, hhead⟩ := (h.ledger identifier).mp hkey
    exact hledger ⟨head, identifier⟩ (AList.mem_lookup_iff.mp hhead) rfl
  | some key =>
    have hsame := h.keys key identifier hkey
    subst hsame
    obtain ⟨entry, hentry, -, -, hsome⟩ := (h.recoveries _ identifier).mp hkey
    rw [hlookup] at hentry
    rw [← Option.some.inj hentry, h.prepared_none hlookup hphase] at hsome
    exact nomatch hsome

theorem Accounts.nodup_step (h : Accounts sha256 actor headOf (before ++ first.posts) first)
    (hheads : AgreeOnHeads api headOf)
    (hprevious : first.canEffect = true → context.previous.isSome = true)
    (hstep : Step api sha256 actor context numbers first last) (hspares : Spares first last)
    (hnodup : (reruns (before ++ first.posts)).Nodup) : (reruns (before ++ last.posts)).Nodup := by
  have hsame : last.posts = first.posts → (reruns (before ++ last.posts)).Nodup := by
    intro hposts
    rw [hposts]
    exact hnodup
  cases hstep with
  | quiet hquiet => exact hsame hquiet.posts
  | ordinary candidate identifier hcan hlisted hnew hreran =>
    have hposts : last.posts = first.posts ++ [.rerun identifier none] := hreran.posts
    rw [hposts, ← List.append_assoc]
    exact Eligibility.nodup_step.mpr
      ⟨hnodup, (h.unspent_iff identifier).mp (hspares identifier hposts)⟩
  | recovered number hrecovered =>
    cases hrecovered with
    | quiet hquiet => exact hsame hquiet.posts
    | prepared identifier head hcan hlinked hnew hprepared => exact hsame hprepared.posts
    | suspended key reservation hlookup hphase hsuspended => exact hsame hsuspended.posts
    | requested identifier head reservation hlinked hlookup hphase hid hledger hrequested =>
      obtain rfl := hheads identifier number head hlinked
      rw [hrequested.posts, ← List.append_assoc]
      unfold effectOf
      split
      · rw [reruns_append]
        show (reruns (before ++ first.posts) ++ []).Nodup
        rwa [List.append_nil]
      · exact Eligibility.nodup_step.mpr ⟨hnodup,
          h.requested_fresh hlookup hphase (hledger (hprevious hrequested.canEffect))⟩

/-- Where no run was rerun twice, each ordinary rerun was sparing. -/
theorem Accounts.spares_of_nodup (h : Accounts sha256 actor headOf (before ++ first.posts) first)
    (hnodup : (reruns (before ++ last.posts)).Nodup) : Spares first last := by
  intro identifier hposts
  rw [hposts, ← List.append_assoc] at hnodup
  exact (h.unspent_iff identifier).mpr (Eligibility.nodup_step.mp hnodup).2

theorem Accounts.sparing_iff (h : Accounts sha256 actor headOf (before ++ first.posts) first)
    (hheads : AgreeOnHeads api headOf)
    (hprevious : first.canEffect = true → context.previous.isSome = true)
    (hnodup : (reruns (before ++ first.posts)).Nodup)
    (hsteps : Steps api sha256 actor context numbers first last) :
    (reruns (before ++ last.posts)).Nodup ↔ SparingSteps api sha256 actor context numbers first last := by
  constructor
  · intro hlast
    induction hsteps with
    | start session => exact .start session
    | @step numbers others first middle last hsteps hnext ih =>
      have hmiddle := h.steps hheads hsteps
      obtain ⟨more, hmore⟩ := hnext.posts
      have hbefore : (reruns (before ++ middle.posts)).Nodup := by
        have hlonger := hlast
        rw [hmore, ← List.append_assoc, reruns_append] at hlonger
        exact hlonger.of_append_left
      exact (ih h hprevious hnodup hbefore).step hnext (hmiddle.spares_of_nodup hlast)
  · intro hsparing
    clear hsteps
    induction hsparing with
    | start => exact hnodup
    | step hsparing hnext hspares ih =>
      have hmiddle := h.steps hheads hsparing.steps
      refine hmiddle.nodup_step hheads (fun hcan => ?_) hnext hspares (ih h hprevious hnodup)
      exact hprevious (hsparing.steps.guards.canEffect hcan)

/-! ## Threads of runs -/

/-- A run starts with the ledgers of the state that the run before it persisted. -/
structure Continues (context : ServiceContext) (state : Option Payload) : Prop where
  ledger : ∀ head, (Session.start context).ledger.lookup head
    = ((state.map Payload.reruns).getD ∅).lookup head
  recoveries : ∀ key, (Session.start context).recoveries.lookup key
    = ((state.map Payload.recoveries).getD ∅).lookup key

/-- Successful runs of one implementation, each with the state that the run before it persisted. -/
inductive Thread (sha256 : ByteArray → Vector UInt8 32) (actor : Actor) :
    List Execution → Option Payload → Prop
  | start : Thread sha256 actor [] none
  | next {thread : List Execution} {state : Option Payload} {execution : Execution}
      {context : ServiceContext} {payload : Payload} (h : Thread sha256 actor thread state)
      (hrepository : execution.actor.repository = actor.repository)
      (himplementation : execution.actor.implementation = actor.implementation)
      (hcontext : (execution.result sha256).context = some context) (hstate : Continues context state)
      (hpersisted : execution.persisted sha256 = some payload) :
      Thread sha256 actor (thread ++ [execution]) (some payload)

/-- Everything that the runs requested. -/
def requests (sha256 : ByteArray → Vector UInt8 32) (thread : List Execution) : List Post :=
  thread.flatMap fun execution => (execution.result sha256).posts

/-- Each step of the run spares what is entered already. -/
def Sparing (sha256 : ByteArray → Vector UInt8 32) (execution : Execution) : Prop :=
  ∀ context last, (execution.result sha256).context = some context →
    (execution.result sha256).session = some last →
    ∃ numbers, SparingSteps execution.api sha256 execution.actor context numbers
      (Session.start context) last

theorem reservationKey_congr {other : Actor} (hrepository : other.repository = actor.repository)
    (himplementation : other.implementation = actor.implementation) (identifier : Nat) (head : String) :
    reservationKey sha256 other identifier head = reservationKey sha256 actor identifier head := by
  unfold reservationKey
  rw [hrepository, himplementation]

theorem Accounts.of_same {other : Actor} {posts : List Post} {session : Session}
    (h : Accounts sha256 actor headOf posts session)
    (hrepository : other.repository = actor.repository)
    (himplementation : other.implementation = actor.implementation) :
    Accounts sha256 other headOf posts session := by
  refine ⟨h.ledger, h.recoveries, fun key identifier hkey => ?_, h.spent⟩
  rw [reservationKey_congr hrepository himplementation]
  exact h.keys key identifier hkey

theorem canEffect_previous {execution : Execution}
    (h : (execution.result sha256).context = some context) (hcan : context.canEffect = true) :
    context.previous.isSome = true := by
  obtain ⟨⟨previous, -, hservice⟩, -⟩ := result_context h
  obtain ⟨hprepare, hcheckpoint⟩ := canEffect_canPrepare hservice hcan
  obtain ⟨-, chosen, hgather, hnone, hchosen⟩ :=
    serviceContext_unfenced hservice (canPrepare_eq hservice hprepare).2
  obtain ⟨floor, anchor, window, found, -, hchooses, -, hlatest⟩ := gather_ok hgather hnone
  rw [hchosen] at hcheckpoint ⊢
  exact hchooses.present (hlatest ▸ hcheckpoint)

/-- The account of a thread: its last state against all that was requested. -/
def ThreadAccounts (sha256 : ByteArray → Vector UInt8 32) (actor : Actor) (headOf : Nat → String)
    (thread : List Execution) (state : Option Payload) : Prop :=
  ∀ session : Session, (∀ head, session.ledger.lookup head
      = ((state.map Payload.reruns).getD ∅).lookup head) →
    (∀ key, session.recoveries.lookup key = ((state.map Payload.recoveries).getD ∅).lookup key) →
    Accounts sha256 actor headOf (requests sha256 thread) session

theorem requests_append (thread : List Execution) (execution : Execution) :
    requests sha256 (thread ++ [execution])
      = requests sha256 thread ++ (execution.result sha256).posts := by
  unfold requests
  rw [List.flatMap_append, List.flatMap_singleton]

theorem Ran.posts {execution : Execution} (h : Ran sha256 execution context last) :
    (execution.result sha256).posts = last.posts := by
  unfold Result.posts
  rw [h.session]
  rfl

theorem accounts_start : ThreadAccounts sha256 actor headOf [] none := by
  intro session hledger hrecoveries
  have hledger : ∀ head, session.ledger.lookup head = none := fun head => (hledger head).trans rfl
  have hrecoveries : ∀ key, session.recoveries.lookup key = none := fun key => (hrecoveries key).trans rfl
  refine ⟨fun identifier => ?_, fun key identifier => ?_, fun key identifier hkey => (nomatch hkey),
    fun key reservation hlookup => ?_⟩
  · refine ⟨fun hkey => (nomatch hkey), fun ⟨head, hhead⟩ => ?_⟩
    rw [hledger] at hhead
    exact nomatch hhead
  · refine ⟨fun hkey => (nomatch hkey), fun ⟨reservation, hlookup, _⟩ => ?_⟩
    rw [hrecoveries] at hlookup
    exact nomatch hlookup
  · rw [hrecoveries] at hlookup
    exact nomatch hlookup

/-- What one run of a thread does to the account, and when it spares what is entered. -/
theorem ThreadAccounts.next {thread : List Execution} {state : Option Payload} {execution : Execution}
    {payload : Payload} (h : ThreadAccounts sha256 actor headOf thread state)
    (hrepository : execution.actor.repository = actor.repository)
    (himplementation : execution.actor.implementation = actor.implementation)
    (hcontext : (execution.result sha256).context = some context) (hstate : Continues context state)
    (hpersisted : execution.persisted sha256 = some payload)
    (hheads : AgreeOnHeads execution.api headOf) :
    ThreadAccounts sha256 actor headOf (thread ++ [execution]) (some payload)
      ∧ ((reruns (requests sha256 thread)).Nodup →
        ((reruns (requests sha256 (thread ++ [execution]))).Nodup ↔ Sparing sha256 execution)) := by
  obtain ⟨found, last, hfound, hran, hpayload⟩ := persisted_ran hpersisted
  rw [hcontext] at hfound
  obtain rfl := Option.some.inj hfound
  obtain ⟨numbers, -, hsteps⟩ := hran.steps
  have hstart : Accounts sha256 execution.actor headOf
      (requests sha256 thread ++ (Session.start context).posts) (Session.start context) := by
    rw [show (Session.start context).posts = [] from rfl, List.append_nil]
    exact (h _ hstate.ledger hstate.recoveries).of_same hrepository himplementation
  have hprevious : (Session.start context).canEffect = true → context.previous.isSome = true :=
    canEffect_previous hcontext
  rw [requests_append, hran.posts]
  constructor
  · intro session hledger hrecoveries
    have hlast := (hstart.steps hheads hsteps).of_same hrepository.symm himplementation.symm
    rw [hpayload] at hledger hrecoveries
    rw [requests_append, hran.posts]
    exact hlast.congr hledger hrecoveries
  · intro hnodup
    have hbefore : (reruns (requests sha256 thread ++ (Session.start context).posts)).Nodup := by
      rw [show (Session.start context).posts = [] from rfl, List.append_nil]
      exact hnodup
    constructor
    · intro hlast other end_ hother hend
      rw [hcontext] at hother
      rw [hran.session] at hend
      rw [← Option.some.inj hother, ← Option.some.inj hend]
      exact ⟨numbers, (hstart.sparing_iff hheads hprevious hbefore hsteps).mp hlast⟩
    · intro hsparing
      obtain ⟨others, hothers⟩ := hsparing context last hcontext hran.session
      exact (hstart.sparing_iff hheads hprevious hbefore hothers.steps).mpr hothers

/-- No run is rerun twice exactly when no ordinary rerun asks for one that is entered already. -/
theorem reruns_nodup_iff {thread : List Execution} {state : Option Payload}
    (h : Thread sha256 actor thread state)
    (hheads : ∀ execution ∈ thread, AgreeOnHeads execution.api headOf) :
    (reruns (requests sha256 thread)).Nodup ↔ ∀ execution ∈ thread, Sparing sha256 execution := by
  have hall : ThreadAccounts sha256 actor headOf thread state
      ∧ ((reruns (requests sha256 thread)).Nodup ↔ ∀ execution ∈ thread, Sparing sha256 execution) := by
    induction h with
    | start => exact ⟨accounts_start, fun _ _ hmember => (nomatch hmember), fun _ => List.nodup_nil⟩
    | @next thread state execution context payload _ hrepository himplementation hcontext hstate hpersisted ih =>
      obtain ⟨haccounts, hiff⟩ := ih fun other hother => hheads other (List.mem_append_left _ hother)
      obtain ⟨hnext, hrun⟩ := haccounts.next hrepository himplementation hcontext hstate hpersisted
        (hheads execution (List.mem_append_right _ (List.mem_singleton.mpr rfl)))
      refine ⟨hnext, fun hnodup => ?_, fun hsparing => ?_⟩
      · have hbefore : (reruns (requests sha256 thread)).Nodup := by
          have hlonger := hnodup
          rw [requests_append, reruns_append] at hlonger
          exact hlonger.of_append_left
        intro other hother
        rcases List.mem_append.mp hother with hpast | hlast
        · exact hiff.mp hbefore other hpast
        · rw [List.mem_singleton.mp hlast]
          exact (hrun hbefore).mp hnodup
      · have hbefore := hiff.mpr fun other hother => hsparing other (List.mem_append_left _ hother)
        exact (hrun hbefore).mpr (hsparing execution (List.mem_append_right _ (List.mem_singleton.mpr rfl)))
  exact hall.2

/-! ## A recomputed merge commit -/

/-- The run starts with the ledgers of the state, and persists one of its own. -/
def continuesFrom (sha256 : ByteArray → Vector UInt8 32) (execution : Execution)
    (state : Option Payload) : Bool :=
  match (execution.result sha256).context, execution.persisted sha256 with
  | some context, some _ =>
    (Session.start context).ledger.entries = ((state.map Payload.reruns).getD ∅).entries
      && (Session.start context).recoveries.entries = ((state.map Payload.recoveries).getD ∅).entries
  | _, _ => false

theorem Thread.next_persisted {thread : List Execution} {state : Option Payload} {execution : Execution}
    (h : Thread sha256 actor thread state)
    (hrepository : execution.actor.repository = actor.repository)
    (himplementation : execution.actor.implementation = actor.implementation)
    (hcontinues : continuesFrom sha256 execution state = true) :
    Thread sha256 actor (thread ++ [execution]) (execution.persisted sha256) := by
  unfold continuesFrom at hcontinues
  split at hcontinues
  · next context payload hcontext hpayload =>
    simp only [Bool.and_eq_true, decide_eq_true_eq] at hcontinues
    rw [hpayload]
    refine .next h hrepository himplementation hcontext ⟨fun head => ?_, fun key => ?_⟩ hpayload
    · rw [AList.ext hcontinues.1]
    · rw [AList.ext hcontinues.2]
  · exact nomatch hcontinues

def sampleSource : String := "1111111111111111111111111111111111111111"
def sampleBase : String := "2222222222222222222222222222222222222222"
def sampleMerge : String := "3333333333333333333333333333333333333333"
def recomputedMerge : String := "4444444444444444444444444444444444444444"

def sampleCandidate (head : String) : Candidate :=
  ⟨sampleBase, head, 5, sampleSource, "renovate[bot]", "Bot", .pullRequest, "Update"⟩

/-- The failed CI run of the pull request. -/
def sampleCi (attempt : Nat) : Run :=
  { sampleRun 0 "completed" (some "failure") with
    id := some 7
    attempt := some attempt
    event := some "pull_request"
    name := some "CI"
    path := some ".github/workflows/ci.yml"
    headBranch := some "renovate/update"
    headSha := some sampleSource
    pullRequests := [⟨5, some sampleSource, some sampleBase⟩] }

/-- What a repository answers whose one pull request is eligible and whose CI run only failed by age. -/
def pullApi (runs : List Run) (artifact : Nat → Except Interrupt Payload) (head : String) (attempt : Nat) :
    ServiceApi :=
  { idleApi runs artifact with
    openPulls := fun _ => .ok [(some 5, some sampleSource)]
    probe := fun _ _ _ => .ok (.pull (sampleCandidate head))
    evaluate := fun candidate firstSeen _ =>
      .ok (⟨.pass, candidate.head, candidate.base, candidate.sourceHead, candidate.number, candidate.scope,
        none, false⟩, firstSeen)
    stillCurrent := fun _ _ => .ok true
    reportStatus := fun _ _ _ => .ok ()
    serviceRun := fun id _ => match runs.find? fun run => run.id = some id with
      | some run => .ok run
      | none => .error .stopped
    ciRuns := fun _ _ => .ok [sampleCi attempt]
    ciRun := fun _ _ => .ok (sampleCi attempt)
    originalJobs := fun _ _ _ _ => .ok ()
    hintArtifact := fun _ _ => .ok true
    candidateHint := fun _ _ _ => .ok ⟨head, sampleBase⟩
    workflowFile := fun _ _ => .ok (some ⟨#[]⟩)
    ciJobs := fun _ _ => .ok ⟨[⟨"Lockfile release age", some "completed", some "failure"⟩], some 1⟩
    posted := fun _ => .ok () }

def pullExecution (id : Nat) (artifact : Nat → Except Interrupt Payload) (head : String) (attempt : Nat) :
    Execution where
  actor := ⟨"Strukturpiloten/boxferry", sampleRevision, "main", id, 1, id, 10⟩
  api := pullApi (((List.range id).drop 1).map (fun past => sampleRun past "completed" (some "success"))
    ++ [sampleRun id "in_progress" none]) artifact head attempt
  event := .schedule
  conclusion := "success"
  uploaded := true

def persistedOf (execution : Execution) : Except Interrupt Payload :=
  match execution.persisted sampleDigest with
  | some payload => .ok payload
  | none => .error .stopped

def pullFirst : Execution := pullExecution 1 (fun _ => .error .stopped) sampleMerge 1

def pullSecond : Execution := pullExecution 2 (fun _ => persistedOf pullFirst) sampleMerge 1

def pullThird : Execution :=
  pullExecution 3 (fun id => if id = 1 then persistedOf pullFirst else persistedOf pullSecond)
    recomputedMerge 2

def pullFourth : Execution :=
  pullExecution 4 (fun id => if id = 1 then persistedOf pullFirst
    else if id = 2 then persistedOf pullSecond else persistedOf pullThird) recomputedMerge 2

theorem pull_evaluates : continuesFrom sampleDigest pullFirst none = true
    ∧ continuesFrom sampleDigest pullSecond (pullFirst.persisted sampleDigest) = true
    ∧ continuesFrom sampleDigest pullThird (pullSecond.persisted sampleDigest) = true
    ∧ continuesFrom sampleDigest pullFourth (pullThird.persisted sampleDigest) = true
    ∧ reruns (requests sampleDigest [pullFirst, pullSecond, pullThird, pullFourth]) = [7, 7] := by
  decide +kernel

theorem pull_thread : Thread sampleDigest pullFirst.actor [pullFirst, pullSecond, pullThird, pullFourth]
    (pullFourth.persisted sampleDigest) := by
  obtain ⟨hfirst, hsecond, hthird, hfourth, -⟩ := pull_evaluates
  have hone : Thread sampleDigest pullFirst.actor [pullFirst] (pullFirst.persisted sampleDigest) :=
    Thread.start.next_persisted rfl rfl hfirst
  have htwo : Thread sampleDigest pullFirst.actor [pullFirst, pullSecond]
      (pullSecond.persisted sampleDigest) := hone.next_persisted rfl rfl hsecond
  have hthree : Thread sampleDigest pullFirst.actor [pullFirst, pullSecond, pullThird]
      (pullThird.persisted sampleDigest) := htwo.next_persisted rfl rfl hthird
  exact hthree.next_persisted rfl rfl hfourth

theorem pull_heads : ∀ execution ∈ [pullFirst, pullSecond, pullThird, pullFourth],
    AgreeOnHeads execution.api fun _ => sampleSource := by
  have hlinked : ∀ attempt, ∀ head, (sampleCi attempt).headSha = some head → head = sampleSource :=
    fun _ _ hhead => (Option.some.inj hhead).symm
  rintro execution hexecution identifier number head ⟨tick, run, pull, hrun, -, hhead, -, -⟩
  simp only [List.mem_cons, List.not_mem_nil, or_false] at hexecution
  rcases hexecution with rfl | rfl | rfl | rfl <;>
    exact hlinked _ head (Except.ok.inj hrun ▸ hhead)

/-- The second merge commit of the same base and source has the run rerun once more. -/
theorem recomputed_merge_reruns : ¬ ∀ (thread : List Execution) (state : Option Payload),
    Thread sampleDigest pullFirst.actor thread state →
      (∀ execution ∈ thread, AgreeOnHeads execution.api fun _ => sampleSource) →
      (reruns (requests sampleDigest thread)).Nodup := by
  intro hall
  have hnodup := hall _ _ pull_thread pull_heads
  rw [pull_evaluates.2.2.2.2] at hnodup
  exact absurd hnodup (by decide)

theorem reruns_nodup_iff_recomputed :
    (reruns (requests sampleDigest [pullFirst, pullSecond, pullThird, pullFourth])).Nodup
      ↔ ∀ execution ∈ [pullFirst, pullSecond, pullThird, pullFourth], Sparing sampleDigest execution :=
  reruns_nodup_iff pull_thread pull_heads

end Boxferry.Automation.Eligibility
