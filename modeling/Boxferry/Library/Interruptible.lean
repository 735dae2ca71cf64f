import Mathlib.Order.Defs.Unbundled

/-! # Interruptible steps

Steps over a state that a failure interrupts, where what was changed before the
interruption stays. What a step leads to is computed from what its parts lead to,
and a relation that each part keeps is kept by their sequence. -/
namespace Interruptible
set_option autoImplicit false

universe u
variable {ε σ α β : Type u}

abbrev Step (ε σ α : Type u) : Type u := ExceptT ε (StateM σ) α

def result (step : Step ε σ α) (start : σ) : Except ε α := (step start).1

def after (step : Step ε σ α) (start : σ) : σ := (step start).2

/-- The result of the step and the state after it are as described. -/
def Leads (step : Step ε σ α) (start : σ) (post : Except ε α → σ → Prop) : Prop :=
  post (result step start) (after step start)

variable {step : Step ε σ α} {next : α → Step ε σ β} {handle : ε → Step ε σ α} {start : σ}

theorem Leads.mono {post weaker : Except ε α → σ → Prop} (h : Leads step start post)
    (hweaker : ∀ answer last, post answer last → weaker answer last) : Leads step start weaker :=
  hweaker _ _ h

theorem Leads.and {post other : Except ε α → σ → Prop} (h : Leads step start post)
    (hother : Leads step start other) :
    Leads step start fun answer last => post answer last ∧ other answer last :=
  ⟨h, hother⟩

@[simp] theorem leads_pure {value : α} {post : Except ε α → σ → Prop} :
    Leads (pure value : Step ε σ α) start post ↔ post (.ok value) start := Iff.rfl

@[simp] theorem leads_throw {failure : ε} {post : Except ε α → σ → Prop} :
    Leads (throw failure : Step ε σ α) start post ↔ post (.error failure) start := Iff.rfl

@[simp] theorem leads_modify {change : σ → σ} {post : Except ε PUnit → σ → Prop} :
    Leads (modify change : Step ε σ PUnit) start post ↔ post (.ok ⟨⟩) (change start) := Iff.rfl

@[simp] theorem leads_get {post : Except ε σ → σ → Prop} :
    Leads (get : Step ε σ σ) start post ↔ post (.ok start) start := Iff.rfl

@[simp] theorem leads_lift {answer : Except ε α} {post : Except ε α → σ → Prop} :
    Leads (liftM answer : Step ε σ α) start post ↔ post answer start := Iff.rfl

/-- A sequence leads where its second part does from where the first part ends. -/
theorem leads_bind {post : Except ε β → σ → Prop} :
    Leads (step >>= next) start post ↔ Leads step start fun answer middle => match answer with
      | .ok value => Leads (next value) middle post
      | .error failure => post (.error failure) middle := by
  unfold Leads result after
  simp only [bind, ExceptT.bind, ExceptT.mk, ExceptT.bindCont, StateT.bind]
  rcases step start with ⟨failure | value, middle⟩ <;> exact Iff.rfl

/-- A handled step leads where its handler does from where the step is interrupted. -/
theorem leads_tryCatch {post : Except ε α → σ → Prop} :
    Leads (tryCatch step handle) start post ↔ Leads step start fun answer middle => match answer with
      | .ok value => post (.ok value) middle
      | .error failure => Leads (handle failure) middle post := by
  unfold Leads result after
  simp only [tryCatch, tryCatchThe, MonadExceptOf.tryCatch, ExceptT.tryCatch, ExceptT.mk, bind,
    StateT.bind]
  rcases step start with ⟨failure | value, middle⟩ <;> exact Iff.rfl

/-! ## Relations that steps keep -/

/-- However the step ends, the state before it and the state after it are related. -/
def Keeps (relation : σ → σ → Prop) (step : Step ε σ α) : Prop :=
  ∀ start, relation start (after step start)

variable {relation : σ → σ → Prop}

theorem Keeps.leads (h : Keeps relation step) (start : σ) :
    Leads step start fun _ last => relation start last := h start

theorem Keeps.mono {weaker : σ → σ → Prop} (h : Keeps relation step)
    (hweaker : ∀ first last, relation first last → weaker first last) : Keeps weaker step :=
  fun start => hweaker _ _ (h start)

theorem keeps_pure [Std.Refl relation] (value : α) : Keeps relation (pure value : Step ε σ α) :=
  fun start => Std.Refl.refl start

theorem keeps_throw [Std.Refl relation] (failure : ε) : Keeps relation (throw failure : Step ε σ α) :=
  fun start => Std.Refl.refl start

theorem keeps_lift [Std.Refl relation] (answer : Except ε α) :
    Keeps relation (liftM answer : Step ε σ α) :=
  fun start => Std.Refl.refl start

theorem keeps_get_bind {next : σ → Step ε σ β} (h : ∀ value, Keeps relation (next value)) :
    Keeps relation ((get : Step ε σ σ) >>= next) :=
  fun start => h start start

/-- What is known of the state before the step, and of a value that it yields. -/
def Answers (step : Step ε σ α) (post : σ → α → Prop) : Prop :=
  ∀ start value, result step start = .ok value → post start value

/-- The first part of a sequence that yields a value has yielded one. -/
theorem result_bind_ok {value : β} (h : result (step >>= next) start = .ok value) :
    ∃ found, result step start = .ok found ∧ result (next found) (after step start) = .ok value := by
  have hleads : Leads (step >>= next) start fun answer _ => answer = .ok value := h
  rw [leads_bind] at hleads
  unfold Leads at hleads
  cases hresult : result step start with
  | error failure =>
    rw [hresult] at hleads
    exact nomatch hleads
  | ok found =>
    rw [hresult] at hleads
    exact ⟨found, rfl, hleads⟩

theorem Answers.bind {post : σ → α → Prop} {last : σ → β → Prop} (h : Answers step post)
    (hnext : ∀ start found, post start found → ∀ value, last start value) :
    Answers (step >>= next) last := by
  intro start value hvalue
  obtain ⟨found, hfound, -⟩ := result_bind_ok hvalue
  exact hnext start found (h start found hfound) value

theorem answers_bind {post : σ → β → Prop} (hkeeps : Keeps relation step)
    (hback : ∀ start middle value, relation start middle → post middle value → post start value)
    (hnext : ∀ found, Answers (next found) post) : Answers (step >>= next) post := by
  intro start value hvalue
  obtain ⟨found, -, hlast⟩ := result_bind_ok hvalue
  exact hback _ _ _ (hkeeps start) (hnext found _ value hlast)

theorem answers_get_bind {next : σ → Step ε σ β} {post : σ → β → Prop}
    (h : ∀ start value, result (next start) start = .ok value → post start value) :
    Answers ((get : Step ε σ σ) >>= next) post := h

theorem after_bind : after (step >>= next) start = match result step start with
    | .ok value => after (next value) (after step start)
    | .error _ => after step start := by
  unfold after result
  simp only [bind, ExceptT.bind, ExceptT.mk, ExceptT.bindCont, StateT.bind]
  rcases step start with ⟨failure | value, middle⟩ <;> rfl

theorem after_bind_ok {value : α} (h : result step start = .ok value) :
    after (step >>= next) start = after (next value) (after step start) := by
  rw [after_bind, h]

theorem Keeps.bind [IsTrans σ relation] (h : Keeps relation step)
    (hnext : ∀ value, Keeps relation (next value)) : Keeps relation (step >>= next) := by
  intro start
  rw [after_bind]
  split
  · exact IsTrans.trans _ _ _ (h start) (hnext _ _)
  · exact h start

theorem Keeps.tryCatch [IsTrans σ relation] (h : Keeps relation step)
    (hhandle : ∀ failure, Keeps relation (handle failure)) : Keeps relation (tryCatch step handle) := by
  intro start
  have hleads : Leads (MonadExcept.tryCatch step handle) start fun _ last => relation start last := by
    rw [leads_tryCatch]
    refine (h.leads start).mono ?_
    rintro (failure | value) middle hmiddle
    · exact IsTrans.trans _ _ _ hmiddle (hhandle failure middle)
    · exact hmiddle
  exact hleads

/-! ## What steps establish -/

/-- From every state that the first predicate describes, the step ends in one of the second. -/
def Establishes (before : σ → Prop) (step : Step ε σ α) (done : σ → Prop) : Prop :=
  ∀ start, before start → done (after step start)

variable {before done : σ → Prop}

theorem Establishes.mono {weaker : σ → Prop} (h : Establishes before step done)
    (hweaker : ∀ last, done last → weaker last) : Establishes before step weaker :=
  fun start hstart => hweaker _ (h start hstart)

/-- A first part that keeps the predicate may end the sequence, or lead on with what it answers. -/
theorem Establishes.bind {post : σ → α → Prop} (h : Keeps relation step) (hanswers : Answers step post)
    (hstay : ∀ {start last}, before start → relation start last → before last)
    (hdone : ∀ {last}, before last → done last)
    (hnext : ∀ start value, before start → post start value → Establishes before (next value) done) :
    Establishes before (step >>= next) done := by
  intro start hstart
  have hmiddle := hstay hstart (h start)
  rw [after_bind]
  split
  · next value hvalue => exact hnext start value hstart (hanswers start value hvalue) _ hmiddle
  · exact hdone hmiddle

theorem establishes_get_bind {next : σ → Step ε σ β}
    (h : ∀ value, before value → Establishes before (next value) done) :
    Establishes before ((get : Step ε σ σ) >>= next) done :=
  fun start hstart => h start hstart start hstart

theorem establishes_ite {condition : Prop} [Decidable condition] {other : Step ε σ α}
    (h : condition → Establishes before step done) (hother : ¬ condition → Establishes before other done) :
    Establishes before (if condition then step else other) done := by
  by_cases hcondition : condition
  · rw [if_pos hcondition]
    exact h hcondition
  · rw [if_neg hcondition]
    exact hother hcondition

/-- A handled step is done, or its handler goes on from where it was interrupted. -/
theorem after_tryCatch : after (tryCatch step handle) start = match result step start with
    | .ok _ => after step start
    | .error failure => after (handle failure) (after step start) := by
  unfold after result
  simp only [tryCatch, tryCatchThe, MonadExceptOf.tryCatch, ExceptT.tryCatch, ExceptT.mk, bind,
    StateT.bind]
  rcases step start with ⟨failure | value, middle⟩ <;> rfl

theorem result_tryCatch : result (tryCatch step handle) start = match result step start with
    | .ok value => .ok value
    | .error failure => result (handle failure) (after step start) := by
  unfold after result
  simp only [tryCatch, tryCatchThe, MonadExceptOf.tryCatch, ExceptT.tryCatch, ExceptT.mk, bind,
    StateT.bind]
  rcases step start with ⟨failure | value, middle⟩ <;> rfl

theorem result_bind : result (step >>= next) start = match result step start with
    | .ok value => result (next value) (after step start)
    | .error failure => .error failure := by
  unfold after result
  simp only [bind, ExceptT.bind, ExceptT.mk, ExceptT.bindCont, StateT.bind]
  rcases step start with ⟨failure | value, middle⟩ <;> rfl

/-! ## Alike runs -/

/-- From states that are alike, the step ends in the same way and in states that are alike. -/
def Couples (alike : σ → σ → Prop) (step : Step ε σ α) : Prop :=
  ∀ first second, alike first second →
    result step first = result step second ∧ alike (after step first) (after step second)

variable {alike : σ → σ → Prop}

theorem couples_pure (value : α) : Couples alike (pure value : Step ε σ α) :=
  fun _ _ halike => ⟨rfl, halike⟩

theorem couples_throw (failure : ε) : Couples alike (throw failure : Step ε σ α) :=
  fun _ _ halike => ⟨rfl, halike⟩

theorem Couples.bind (h : Couples alike step) (hnext : ∀ value, Couples alike (next value)) :
    Couples alike (step >>= next) := by
  intro first second halike
  obtain ⟨hresult, hafter⟩ := h first second halike
  rw [result_bind, result_bind, after_bind, after_bind, hresult]
  cases result step second with
  | ok value => exact hnext value _ _ hafter
  | error failure => exact ⟨rfl, hafter⟩

theorem Couples.tryCatch (h : Couples alike step) (hhandle : ∀ failure, Couples alike (handle failure)) :
    Couples alike (tryCatch step handle) := by
  intro first second halike
  obtain ⟨hresult, hafter⟩ := h first second halike
  rw [result_tryCatch, result_tryCatch, after_tryCatch, after_tryCatch, hresult]
  cases result step second with
  | ok value => exact ⟨rfl, hafter⟩
  | error failure => exact hhandle failure _ _ hafter

end Interruptible
