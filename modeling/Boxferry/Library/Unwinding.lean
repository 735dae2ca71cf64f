import Boxferry.Library.Interruptible

/-! # Handlers and final blocks

Programs that ask an environment, whose answers come from a list of events and may raise, with
handlers and final blocks as an imperative language has them. A program whose events run out is
unfinished, which no handler sees. Its rules are those of pre- and postconditions with an exceptional
exit, and those of two runs that stay alike. -/
namespace Unwinding
open Interruptible
set_option autoImplicit false

universe u
variable {ι ε σ α β γ : Type u}

inductive Stop (ε : Type u) where
  | raised (failure : ε)
  | unfinished

/-- A program over variables, with the events that are still to come. -/
abbrev Run (ι ε σ α : Type u) : Type u := Step (Stop ε) (List ι × σ) α

/-! ## Programs -/

def reads (f : σ → α) : Run ι ε σ α := do
  let now ← get
  pure (f now.2)

def update (f : σ → σ) : Run ι ε σ PUnit := modify fun now => (now.1, f now.2)

def raise (failure : ε) : Run ι ε σ α := throw (.raised failure)

/-- What an answer leaves, and how the program goes on. -/
def settle (events : List ι) (answer : σ × Except ε α) : Run ι ε σ α := do
  set (events, answer.1)
  match answer.2 with
  | .ok value => pure value
  | .error failure => raise failure

/-- Asks the environment; an event that answers another question leaves the program unfinished. -/
def ask (pick : σ → ι → Option (σ × Except ε α)) : Run ι ε σ α := do
  let now ← get
  match now.1 with
  | [] => throw .unfinished
  | event :: events =>
    match pick now.2 event with
    | none => throw .unfinished
    | some answer => settle events answer

def attempt (body : Run ι ε σ α) (handle : ε → Run ι ε σ α) : Run ι ε σ α :=
  tryCatch body fun
    | .raised failure => handle failure
    | .unfinished => throw .unfinished

/-- Runs the final block however the body ends. -/
def ensure (body : Run ι ε σ α) (final : Run ι ε σ PUnit) : Run ι ε σ α := do
  let value ← attempt body fun failure => do
    final
    raise failure
  final
  pure value

/-- Repeats a body until it gives a value; the first argument bounds the number of rounds. -/
def iterate : Nat → Run ι ε σ (Option α) → Run ι ε σ α
  | 0, _ => throw .unfinished
  | bound + 1, body => do
    let found ← body
    match found with
    | some value => pure value
    | none => iterate bound body

/-! ## Pre- and postconditions -/

/-- What holds at the end of a program, and its invariant wherever it stops. -/
def Ends (inv : σ → Prop) (post : α → σ → Prop) (failed : ε → σ → Prop) (answer : Except (Stop ε) α)
    (last : List ι × σ) : Prop :=
  inv last.2 ∧ match answer with
    | .ok value => post value last.2
    | .error (.raised failure) => failed failure last.2
    | .error .unfinished => True

/-- From variables with the invariant and the precondition, the program ends as described. -/
def Meets (inv pre : σ → Prop) (program : Run ι ε σ α) (post : α → σ → Prop) (failed : ε → σ → Prop) : Prop :=
  ∀ start, inv start.2 → pre start.2 → Leads program start (Ends inv post failed)

variable {inv pre : σ → Prop} {program : Run ι ε σ α} {next : α → Run ι ε σ β} {post : α → σ → Prop}
  {failed : ε → σ → Prop}

theorem Meets.weaken {stronger : σ → Prop} {weaker : α → σ → Prop} {others : ε → σ → Prop}
    (h : Meets inv pre program post failed) (hpre : ∀ vars, inv vars → stronger vars → pre vars)
    (hpost : ∀ value vars, inv vars → post value vars → weaker value vars)
    (hfailed : ∀ failure vars, inv vars → failed failure vars → others failure vars) :
    Meets inv stronger program weaker others := by
  intro start hinv hstart
  refine (h start hinv (hpre start.2 hinv hstart)).mono fun answer last hends => ⟨hends.1, ?_⟩
  match answer with
  | .ok value => exact hpost value last.2 hends.1 hends.2
  | .error (.raised failure) => exact hfailed failure last.2 hends.1 hends.2
  | .error .unfinished => trivial

theorem Meets.strengthen {stronger : σ → Prop} (h : Meets inv pre program post failed)
    (hpre : ∀ vars, inv vars → stronger vars → pre vars) : Meets inv stronger program post failed :=
  h.weaken hpre (fun _ _ _ hpost => hpost) fun _ _ _ hfailed => hfailed

/-- A triple for every starting point is a triple. -/
theorem Meets.of_start (h : ∀ first, inv first → pre first → Meets inv (· = first) program post failed) :
    Meets inv pre program post failed :=
  fun start hinv hpre => h start.2 hinv hpre start hinv rfl

theorem meets_pure {value : α} (h : ∀ vars, inv vars → pre vars → post value vars) :
    Meets inv pre (pure value : Run ι ε σ α) post failed :=
  fun start hinv hpre => ⟨hinv, h start.2 hinv hpre⟩

theorem meets_raise {failure : ε} (h : ∀ vars, inv vars → pre vars → failed failure vars) :
    Meets inv pre (raise failure : Run ι ε σ α) post failed :=
  fun start hinv hpre => ⟨hinv, h start.2 hinv hpre⟩

theorem meets_update {f : σ → σ} {post : PUnit → σ → Prop}
    (h : ∀ vars, inv vars → pre vars → inv (f vars) ∧ post ⟨⟩ (f vars)) :
    Meets inv pre (update f : Run ι ε σ PUnit) post failed :=
  fun start hinv hpre => h start.2 hinv hpre

theorem meets_ask {pick : σ → ι → Option (σ × Except ε α)}
    (h : ∀ vars event last answer, inv vars → pre vars → pick vars event = some (last, answer) →
      inv last ∧ match answer with
        | .ok value => post value last
        | .error failure => failed failure last) :
    Meets inv pre (ask pick) post failed := by
  intro start hinv hpre
  obtain ⟨events, vars⟩ := start
  unfold ask
  rw [leads_bind, leads_get]
  cases events with
  | nil => exact ⟨hinv, trivial⟩
  | cons event events =>
    show Leads (match pick vars event with
      | none => throw .unfinished
      | some answer => settle events answer) _ _
    split
    · exact ⟨hinv, trivial⟩
    · next answer hanswer =>
      obtain ⟨last, answer⟩ := answer
      have hends := h vars event last answer hinv hpre hanswer
      cases answer with
      | ok value => exact hends
      | error failure => exact hends

theorem Meets.bind {m : α → σ → Prop} {post : β → σ → Prop} (h : Meets inv pre program m failed)
    (hnext : ∀ value, Meets inv (m value) (next value) post failed) :
    Meets inv pre (program >>= next) post failed := by
  intro start hinv hpre
  rw [leads_bind]
  refine (h start hinv hpre).mono fun answer last hends => ?_
  match answer with
  | .ok value => exact hnext value last hends.1 hends.2
  | .error (.raised failure) => exact hends
  | .error .unfinished => exact hends

theorem meets_reads_bind {f : σ → γ} {next : γ → Run ι ε σ β} {post : β → σ → Prop}
    (h : ∀ value, Meets inv (fun vars => f vars = value ∧ pre vars) (next value) post failed) :
    Meets inv pre (reads f >>= next) post failed :=
  fun start hinv hpre => h (f start.2) start hinv ⟨rfl, hpre⟩

theorem Meets.attempt {handle : ε → Run ι ε σ α} {m : ε → σ → Prop} (h : Meets inv pre program post m)
    (hhandle : ∀ failure, Meets inv (m failure) (handle failure) post failed) :
    Meets inv pre (attempt program handle) post failed := by
  intro start hinv hpre
  unfold Unwinding.attempt
  rw [leads_tryCatch]
  refine (h start hinv hpre).mono fun answer last hends => ?_
  match answer with
  | .ok value => exact hends
  | .error (.raised failure) => exact hhandle failure last hends.1 hends.2
  | .error .unfinished => exact ⟨hends.1, trivial⟩

theorem Meets.ensure {final : Run ι ε σ PUnit} {m : α → σ → Prop} {r : ε → σ → Prop}
    (h : Meets inv pre program m r)
    (hfinal : ∀ value, Meets inv (m value) final (fun _ => post value) failed)
    (hunwound : ∀ failure, Meets inv (r failure) final (fun _ => failed failure) failed) :
    Meets inv pre (ensure program final) post failed := by
  refine Meets.bind (h.attempt fun failure => (hunwound failure).bind fun _ => ?_) fun value =>
    (hfinal value).bind fun _ => ?_
  · exact meets_raise fun _ _ hfailed => hfailed
  · exact meets_pure fun _ _ hpost => hpost

theorem meets_ite {condition : Prop} [Decidable condition] {other : Run ι ε σ α}
    (h : condition → Meets inv pre program post failed) (hother : ¬condition → Meets inv pre other post failed) :
    Meets inv pre (if condition then program else other) post failed := by
  by_cases hcondition : condition
  · rw [if_pos hcondition]
    exact h hcondition
  · rw [if_neg hcondition]
    exact hother hcondition

/-- After a round: the value that ends the loop, or its invariant. -/
def Rounds (pre : σ → Prop) (post : α → σ → Prop) : Option α → σ → Prop
  | some value, vars => post value vars
  | none, vars => pre vars

theorem Meets.iterate {body : Run ι ε σ (Option α)} {bound : Nat}
    (h : Meets inv pre body (Rounds pre post) failed) : Meets inv pre (iterate bound body) post failed := by
  induction bound with
  | zero => exact fun start hinv _ => ⟨hinv, trivial⟩
  | succ bound ih =>
    refine h.bind fun found => ?_
    cases found with
    | none => exact ih
    | some value => exact meets_pure fun _ _ hpost => hpost

/-! ## What a program leaves alone -/

/-- The predicate is kept, wherever the program stops. -/
def Stable (keeps : σ → Prop) (program : Run ι ε σ α) : Prop :=
  Meets keeps (fun _ => True) program (fun _ _ => True) fun _ _ => True

variable {keeps : σ → Prop}

theorem Stable.meets {f : σ → γ} (h : ∀ value, Stable (fun vars => f vars = value) program) (valid pre : γ → Prop) :
    Meets (fun vars => valid (f vars)) (fun vars => pre (f vars)) program (fun _ vars => pre (f vars))
      fun _ vars => pre (f vars) := by
  intro start hvalid hpre
  refine (h (f start.2) start rfl trivial).mono fun answer last hends => ?_
  have hsame : f last.2 = f start.2 := hends.1
  have hpost : pre (f last.2) := by rwa [hsame]
  refine ⟨show valid (f last.2) by rwa [hsame], ?_⟩
  match answer with
  | .ok value => exact hpost
  | .error (.raised failure) => exact hpost
  | .error .unfinished => trivial

/-- What is kept may be added to a triple. -/
theorem Meets.and_stable (h : Meets inv pre program post failed) (hkeeps : Stable keeps program) :
    Meets inv (fun vars => pre vars ∧ keeps vars) program (fun value vars => post value vars ∧ keeps vars)
      fun failure vars => failed failure vars ∧ keeps vars := by
  intro start hinv hstart
  refine ((h start hinv hstart.1).and (hkeeps start hstart.2 trivial)).mono fun answer last hends => ?_
  obtain ⟨⟨hlast, hpost⟩, hkept, -⟩ := hends
  refine ⟨hlast, ?_⟩
  match answer with
  | .ok value => exact ⟨hpost, hkept⟩
  | .error (.raised failure) => exact ⟨hpost, hkept⟩
  | .error .unfinished => trivial

/-- What is kept next to the invariant is kept as a triple. -/
theorem Stable.triple (h : Stable inv program) (hkeeps : Stable keeps program) :
    Meets inv keeps program (fun _ => keeps) fun _ => keeps :=
  (Meets.and_stable h hkeeps).weaken (fun _ _ hvars => ⟨trivial, hvars⟩) (fun _ _ _ hvars => hvars.2)
    fun _ _ _ hvars => hvars.2

theorem stable_pure {value : α} : Stable keeps (pure value : Run ι ε σ α) := meets_pure fun _ _ _ => trivial

theorem stable_raise {failure : ε} : Stable keeps (raise failure : Run ι ε σ α) := meets_raise fun _ _ _ => trivial

theorem stable_update {f : σ → σ} (h : ∀ vars, keeps vars → keeps (f vars)) :
    Stable keeps (update f : Run ι ε σ PUnit) :=
  meets_update fun vars hkeeps _ => ⟨h vars hkeeps, trivial⟩

theorem stable_ask {pick : σ → ι → Option (σ × Except ε α)}
    (h : ∀ vars event last answer, keeps vars → pick vars event = some (last, answer) → keeps last) :
    Stable keeps (ask pick) := by
  refine meets_ask fun vars event last answer hkeeps _ hpick => ⟨h vars event last answer hkeeps hpick, ?_⟩
  cases answer with
  | ok value => trivial
  | error failure => trivial

theorem Stable.bind (h : Stable keeps program) (hnext : ∀ value, Stable keeps (next value)) :
    Stable keeps (program >>= next) :=
  Meets.bind h hnext

theorem stable_reads_bind {f : σ → γ} {next : γ → Run ι ε σ β} (h : ∀ value, Stable keeps (next value)) :
    Stable keeps (reads f >>= next) :=
  fun start hkeeps _ => h (f start.2) start hkeeps trivial

theorem Stable.attempt {handle : ε → Run ι ε σ α} (h : Stable keeps program)
    (hhandle : ∀ failure, Stable keeps (handle failure)) : Stable keeps (attempt program handle) :=
  Meets.attempt h hhandle

theorem Stable.ensure {final : Run ι ε σ PUnit} (h : Stable keeps program) (hfinal : Stable keeps final) :
    Stable keeps (ensure program final) :=
  Meets.ensure h (fun _ => hfinal) fun _ => hfinal

theorem stable_ite {condition : Prop} [Decidable condition] {other : Run ι ε σ α} (h : Stable keeps program)
    (hother : Stable keeps other) : Stable keeps (if condition then program else other) :=
  meets_ite (fun _ => h) fun _ => hother

/-! ## Alike runs -/

variable {alike : List ι × σ → List ι × σ → Prop}

theorem couples_reads_bind {f : σ → γ} {next : γ → Run ι ε σ β}
    (h : ∀ first second, alike first second → f first.2 = f second.2) (hnext : ∀ value, Couples alike (next value)) :
    Couples alike (reads f >>= next) := by
  intro first second halike
  have hstep := hnext (f first.2) first second halike
  rw [result_bind, result_bind, after_bind, after_bind]
  show result (next (f first.2)) first = result (next (f second.2)) second ∧
    alike (after (next (f first.2)) first) (after (next (f second.2)) second)
  rw [← h first second halike]
  exact hstep

theorem couples_update {f : σ → σ}
    (h : ∀ first second, alike first second → alike (first.1, f first.2) (second.1, f second.2)) :
    Couples alike (update f : Run ι ε σ PUnit) :=
  fun first second halike => ⟨rfl, h first second halike⟩

/-- The next events of two runs are answered alike, or by neither. -/
inductive Answered (alike : List ι × σ → List ι × σ → Prop) (pick : σ → ι → Option (σ × Except ε α)) :
    List ι × σ → List ι × σ → Prop where
  | exhausted {vars further : σ} : Answered alike pick ([], vars) ([], further)
  | refused {vars further : σ} {event other : ι} {events others : List ι} (first : pick vars event = none)
      (second : pick further other = none) : Answered alike pick (event :: events, vars) (other :: others, further)
  | answered {vars further last final : σ} {event other : ι} {events others : List ι} {answer : Except ε α}
      (first : pick vars event = some (last, answer)) (second : pick further other = some (final, answer))
      (after : alike (events, last) (others, final)) :
      Answered alike pick (event :: events, vars) (other :: others, further)

theorem ask_cons {pick : σ → ι → Option (σ × Except ε α)} {event : ι} {events : List ι} {vars : σ} :
    ask pick (event :: events, vars) = (match pick vars event with
      | none => throw .unfinished
      | some answer => settle events answer : Run ι ε σ α) (event :: events, vars) := rfl

theorem couples_ask {pick : σ → ι → Option (σ × Except ε α)}
    (h : ∀ first second, alike first second → Answered alike pick first second) : Couples alike (ask pick) := by
  intro first second halike
  unfold result after
  cases h first second halike with
  | exhausted => exact ⟨rfl, halike⟩
  | refused hfirst hsecond =>
    rw [ask_cons, ask_cons, hfirst, hsecond]
    exact ⟨rfl, halike⟩
  | @answered _ _ _ _ _ _ _ _ answer hfirst hsecond hafter =>
    rw [ask_cons, ask_cons, hfirst, hsecond]
    cases answer with
    | ok value => exact ⟨rfl, hafter⟩
    | error failure => exact ⟨rfl, hafter⟩

theorem couples_raise (failure : ε) : Couples alike (raise failure : Run ι ε σ α) := couples_throw _

theorem couples_attempt {handle : ε → Run ι ε σ α} (h : Couples alike program)
    (hhandle : ∀ failure, Couples alike (handle failure)) : Couples alike (attempt program handle) := by
  refine h.tryCatch fun stop => ?_
  cases stop with
  | raised failure => exact hhandle failure
  | unfinished => exact couples_throw _

theorem couples_ensure {final : Run ι ε σ PUnit} (h : Couples alike program) (hfinal : Couples alike final) :
    Couples alike (ensure program final) := by
  refine Couples.bind (couples_attempt h fun failure => ?_) fun value => ?_
  · exact hfinal.bind fun _ => couples_raise failure
  · exact hfinal.bind fun _ => couples_pure value

theorem couples_iterate {body : Run ι ε σ (Option α)} (h : Couples alike body) (bound : Nat) :
    Couples alike (iterate bound body) := by
  induction bound with
  | zero => exact couples_throw _
  | succ bound ih =>
    refine h.bind fun found => ?_
    cases found with
    | none => exact ih
    | some value => exact couples_pure value

end Unwinding
