import Boxferry.Automation.Dependencies
import Boxferry.Library.FirstSeen
import Boxferry.Library.Related
import Boxferry.Library.Results

/-! # The hold over whole histories

The ledger of a call has the entries it received, as they were, and otherwise
entries of the present time. An identity without publication times therefore
passes only seventy-two hours after some call recorded it. -/
namespace Boxferry.Automation
open Calendar FirstSeen
set_option autoImplicit false

/-! ## Timestamps -/

theorem read_format (stamp : Instant) : Calendar.read (format stamp).toList = .micros stamp.micros := by
  unfold format
  rw [String.toList_ofList]
  exact read_text stamp

theorem format_injective {first second : Instant} (h : format first = format second) :
    first = second := by
  have hread := read_format first
  rw [h, read_format second] at hread
  have hmicros : (second.micros : Int) = first.micros := by
    simpa using hread
  have hfirst := ofMicros_micros first
  rw [← hmicros, ofMicros_micros second] at hfirst
  exact (Option.some.inj hfirst).symm

theorem instantUntil_micros {now stamp : Instant} {future : Raised} (h : stamp ≤ now) :
    instantUntil now future stamp.micros = .ok stamp := by
  unfold instantUntil
  rw [ofMicros_micros]
  exact if_neg (Nat.not_lt_of_le h)

theorem dependencies_instant_format {now stamp : Instant} (h : stamp ≤ now) :
    Dependencies.instant now (format stamp) = .ok stamp := by
  unfold Dependencies.instant
  rw [read_format]
  exact instantUntil_micros h

theorem operational_instant_format {now stamp : Instant} (h : stamp ≤ now) :
    Operational.instant now (format stamp) = .ok stamp := by
  have hnot : ¬ (now.micros : Int) < stamp.micros := by
    have hle := le_def.mp h
    omega
  unfold Operational.instant
  rw [read_format]
  simp only [hnot, if_false]
  exact instantUntil_micros h

/-! ## The ledger of one call -/

/-- Every entry is an artifact digest with the text of an earlier instant, and there is room. -/
structure Kept (now : Instant) (ledger : Ledger) : Prop where
  entry : ∀ key text, ledger.lookup key = some text →
    isSha256 key = true ∧ ∃ stamp : Instant, text = format stamp ∧ stamp ≤ now
  room : ledger.keys.length ≤ maxStateEntries

def entries (ledger : Ledger) (key : String) : Option String := ledger.lookup key

/-- A ledger that stays kept, with no entry changed and none added but of the present time. -/
structure Advances (now : Instant) (before after : Ledger) : Prop where
  kept : Kept now after
  observes : Observes (format now) (entries before) (entries after)

theorem Advances.refl {now : Instant} {ledger : Ledger} (h : Kept now ledger) : Advances now ledger ledger :=
  ⟨h, Observes.refl _ _⟩

theorem Advances.trans {now : Instant} {first second third : Ledger} (h : Advances now first second)
    (hnext : Advances now second third) : Advances now first third :=
  ⟨hnext.kept, h.observes.trans hnext.observes⟩

theorem Kept.later {now next : Instant} {ledger : Ledger} (h : Kept now ledger) (hle : now ≤ next) :
    Kept next ledger := by
  refine ⟨?_, h.room⟩
  intro key text hentry
  obtain ⟨hkey, stamp, htext, hstamp⟩ := h.entry key text hentry
  exact ⟨hkey, stamp, htext, Nat.le_trans hstamp hle⟩

theorem kept_empty (now : Instant) : Kept now ∅ := by
  refine ⟨?_, Nat.zero_le _⟩
  intro key text hentry
  rw [AList.lookup_empty] at hentry
  cases hentry

/-- A new entry of the present time, in a ledger with room for it. -/
theorem advances_insert {now : Instant} {ledger : Ledger} {key : String} (h : Kept now ledger)
    (hkey : isSha256 key = true) (hnew : ledger.lookup key = none)
    (hroom : ¬ ledger.keys.length ≥ maxStateEntries) :
    Advances now ledger (ledger.insert key (format now)) := by
  have hmissing : key ∉ ledger := AList.lookup_eq_none.mp hnew
  constructor
  · constructor
    · intro other text hentry
      by_cases hsame : other = key
      · rw [hsame, AList.lookup_insert] at hentry
        cases hentry
        rw [hsame]
        exact ⟨hkey, now, rfl, Nat.le_refl _⟩
      · rw [AList.lookup_insert_ne hsame] at hentry
        exact h.entry other text hentry
    · rw [AList.keys_insert, List.length_cons,
        List.erase_of_not_mem (fun hmem => hmissing (AList.mem_keys.mpr hmem))]
      omega
  · intro other
    by_cases hsame : other = key
    · right
      rw [hsame]
      exact ⟨hnew, AList.lookup_insert ledger⟩
    · left
      exact AList.lookup_insert_ne hsame

/-- What an observation leaves, and what it answers. -/
theorem observe_advances {parse : Instant → String → Except Raised Instant} {limit : Nat} {full : String}
    {verify : Metered Unit} {key : String} {now : Instant} {ledger ledger' : Ledger} {meter meter' : Meter}
    {answer : Except Raised Instant}
    (hparse : ∀ stamp : Instant, stamp ≤ now → parse now (format stamp) = .ok stamp)
    (hlimit : limit = maxStateEntries) (hkey : isSha256 key = true) (h : Kept now ledger)
    (hobserve : observe parse limit full verify key now ledger meter = (answer, ledger', meter')) :
    Advances now ledger ledger' ∧
      ∀ seen, answer = .ok seen → entries ledger' key = some (format seen) := by
  unfold observe at hobserve
  cases hentry : ledger.lookup key with
  | some text =>
    simp only [hentry, Prod.mk.injEq] at hobserve
    obtain ⟨hanswer, hledger, -⟩ := hobserve
    rw [← hledger]
    obtain ⟨-, stamp, htext, hstamp⟩ := h.entry key text hentry
    refine ⟨Advances.refl h, ?_⟩
    intro seen hseen
    rw [← hanswer, htext, hparse stamp hstamp] at hseen
    cases hseen
    rw [← htext]
    exact hentry
  | none =>
    simp only [hentry] at hobserve
    by_cases hroom : ledger.keys.length ≥ limit
    · simp only [hroom, if_true, Prod.mk.injEq] at hobserve
      obtain ⟨hanswer, hledger, -⟩ := hobserve
      rw [← hledger, ← hanswer]
      exact ⟨Advances.refl h, fun _ hseen => nomatch hseen⟩
    · simp only [hroom, if_false] at hobserve
      rcases hverify : verify.spend meter with ⟨raised | ⟨⟩, spent⟩
      · simp only [hverify, Prod.mk.injEq] at hobserve
        obtain ⟨hanswer, hledger, -⟩ := hobserve
        rw [← hledger, ← hanswer]
        exact ⟨Advances.refl h, fun _ hseen => nomatch hseen⟩
      · simp only [hverify, Prod.mk.injEq] at hobserve
        obtain ⟨hanswer, hledger, -⟩ := hobserve
        rw [← hledger]
        refine ⟨advances_insert h hkey hentry (by rwa [← hlimit]), ?_⟩
        intro seen hseen
        rw [← hanswer, hparse now (Nat.le_refl _)] at hseen
        cases hseen
        exact AList.lookup_insert ledger

/-! ## Results of one identity -/

theorem ofMicros_eq_some {n : Nat} {stamp : Instant} (h : Instant.ofMicros n = some stamp) :
    stamp.micros = n := by
  unfold Instant.ofMicros at h
  split at h
  · cases h
    exact Int.toNat_natCast n
  · cases h

theorem plus_eq_ok {value later : Instant} {delta : Nat} (h : plus value delta = .ok later) :
    later.micros = value.micros + delta := by
  unfold plus at h
  rw [← Int.natCast_add] at h
  cases hlater : Instant.ofMicros ((value.micros + delta : Nat) : Int) with
  | none =>
    rw [hlater] at h
    cases h
  | some instant =>
    rw [hlater] at h
    cases h
    exact ofMicros_eq_some hlater

/-- A held identity only passes seventy-two hours after it was observed. -/
theorem hold_pass {outcome held : Outcome} {now observed : Instant} {reason : String}
    (h : outcome.hold now observed reason = .ok held) (hpass : held.status = .pass) :
    observed.micros + holdMicros ≤ now.micros := by
  unfold Outcome.hold at h
  obtain ⟨eligible, heligible, h⟩ := Results.bind_eq_ok.mp h
  rw [← plus_eq_ok heligible]
  by_cases hwait : now < eligible
  · simp only [hwait, if_true] at h
    cases h
    cases hpass
  · exact Nat.le_of_not_lt hwait

theorem retry_status {outcome later : Outcome} {now : Instant} (h : outcome.retry now = .ok later) :
    later.status = outcome.status := by
  unfold Outcome.retry at h
  cases hlater : plus now hourMicros with
  | error raised =>
    rw [hlater] at h
    cases h
  | ok instant =>
    rw [hlater] at h
    cases h
    rfl

theorem interrupt_status {outcome failed : Outcome} {now : Instant} {http transport : String}
    {text : Raised → Option String} {raised : Raised}
    (h : outcome.interrupt now http transport text raised = .ok failed) : failed.status = .failure := by
  cases raised with
  | http code =>
    by_cases hretry : retryable code = true
    · simp only [Outcome.interrupt, hretry, if_true] at h
      exact retry_status h
    · simp only [Outcome.interrupt, hretry] at h
      cases h
      rfl
  | transport name => exact retry_status h
  | rejected | keyError | attributeError | indexError | escaped =>
    -- every other exception fails with its own text, where it has one
    unfold Outcome.interrupt at h
    dsimp only at h
    split at h
    · cases h
      rfl
    · cases h

/-- An observed identity that passes was entered with a time seventy-two hours ago. -/
def EnteredBefore (now : Instant) (ledger : Ledger) (key : String) : Prop :=
  ∃ stamp : Instant, entries ledger key = some (format stamp) ∧ stamp.micros + holdMicros ≤ now.micros

theorem checkPin_spec {world : World} {now : Instant} {pin : Operational.Pin} {ledger ledger' : Ledger}
    {meter meter' : Meter} {outcome : Outcome} (h : Kept now ledger)
    (hcheck : Operational.checkPin world now maxStateEntries pin ledger meter
      = .ok (outcome, ledger', meter')) :
    Advances now ledger ledger' ∧
      (outcome.status = .pass → EnteredBefore now ledger' (pin.key world)) := by
  unfold Operational.checkPin at hcheck
  by_cases hcovered : pin.covered = true
  · simp only [hcovered, not_true_eq_false, if_false] at hcheck
    rcases hobserve : observe Operational.instant maxStateEntries
        "shared first-seen state capacity exhausted"
        (if pin.kind = .oci then Operational.verifyManifest world pin else pure ()) (pin.key world)
        now ledger meter with ⟨raised | observed, ledger₁, meter₁⟩
    · obtain ⟨hadvances, -⟩ := observe_advances (fun stamp => operational_instant_format) rfl
        (isSha256_hexdigest _) h hobserve
      simp only [hobserve] at hcheck
      obtain ⟨failed, hfailed, hcheck⟩ := Results.bind_eq_ok.mp hcheck
      cases hcheck
      refine ⟨hadvances, ?_⟩
      intro hpass
      rw [interrupt_status hfailed] at hpass
      cases hpass
    · obtain ⟨hadvances, hentry⟩ := observe_advances (fun stamp => operational_instant_format) rfl
        (isSha256_hexdigest _) h hobserve
      simp only [hobserve] at hcheck
      obtain ⟨held, hheld, hcheck⟩ := Results.bind_eq_ok.mp hcheck
      cases hcheck
      exact ⟨hadvances, fun hpass => ⟨observed, hentry observed rfl, hold_pass hheld hpass⟩⟩
  · rw [if_pos hcovered] at hcheck
    obtain ⟨failed, hfailed, hcheck⟩ := Results.bind_eq_ok.mp hcheck
    cases hcheck
    refine ⟨Advances.refl h, ?_⟩
    intro hpass
    rw [interrupt_status hfailed] at hpass
    cases hpass

/-! ## Publication times -/

theorem metadata_ok {world : World} {now : Instant} {package : Dependencies.Package}
    {meter spent : Meter} {url : String} {timestamps : List Instant} {integrity : List String}
    (h : (Dependencies.metadata world now package).spend meter = (.ok (url, timestamps, integrity), spent)) :
    ∃ times, (Dependencies.published world package).spend meter = (.ok (times, integrity), spent) ∧
      Dependencies.present now times = .ok timestamps := by
  unfold Dependencies.metadata Metered.spend at h
  simp only [bind, ExceptT.bind, ExceptT.mk, ExceptT.bindCont, StateT.bind] at h
  rcases hpublished : Dependencies.published world package meter with ⟨raised | ⟨times, digests⟩, after⟩
  · rw [hpublished] at h
    cases h
  · rw [hpublished] at h
    dsimp only at h
    cases hpresent : Dependencies.present now times with
    | error raised =>
      rw [hpresent] at h
      cases h
    | ok present =>
      rw [hpresent] at h
      cases h
      exact ⟨times, hpublished, hpresent⟩

theorem present_lacking {now : Instant} {times : List Json} {timestamps : List Instant}
    (h : Dependencies.present now times = .ok timestamps)
    (hlacking : times.any Dependencies.Json.isNull = true) : timestamps = [] := by
  unfold Dependencies.present at h
  obtain ⟨present, hpresent, h⟩ := Results.bind_eq_ok.mp h
  have hlength := (Results.mapM_eq_ok.mp hpresent).length_eq
  have hfewer : (times.filter fun value => !Dependencies.Json.isNull value).length < times.length := by
    obtain ⟨value, hvalue, hnull⟩ := List.any_eq_true.mp hlacking
    apply List.length_filter_lt_length_iff_exists.mpr
    refine ⟨value, hvalue, ?_⟩
    simp [hnull]
  rw [if_neg (by omega)] at h
  exact (Except.ok.inj h).symm

theorem present_complete {now : Instant} {times : List Json} {timestamps : List Instant}
    (h : Dependencies.present now times = .ok timestamps)
    (hcomplete : times.any Dependencies.Json.isNull = false) :
    List.Forall₂ (fun value stamp => Dependencies.instantOf now value = .ok stamp) times timestamps := by
  unfold Dependencies.present at h
  obtain ⟨present, hpresent, h⟩ := Results.bind_eq_ok.mp h
  have hall : (times.filter fun value => !Dependencies.Json.isNull value) = times := by
    rw [List.filter_eq_self]
    intro value hvalue
    have hnot := List.any_eq_false.mp hcomplete value hvalue
    simpa using hnot
  rw [hall] at hpresent
  have hpairs := Results.mapM_eq_ok.mp hpresent
  rw [if_pos hpairs.length_eq.symm] at h
  cases h
  exact hpairs

theorem le_latest (first : Instant) (rest : List Instant) :
    first ≤ Dependencies.latest first rest ∧ ∀ stamp ∈ rest, stamp ≤ Dependencies.latest first rest := by
  induction rest generalizing first with
  | nil => exact ⟨Nat.le_refl _, fun _ hmem => nomatch hmem⟩
  | cons next rest ih =>
    unfold Dependencies.latest
    by_cases hlt : first < next
    · rw [if_pos hlt]
      obtain ⟨hnext, hrest⟩ := ih next
      refine ⟨Nat.le_trans (Nat.le_of_lt hlt) hnext, ?_⟩
      intro stamp hstamp
      rcases List.mem_cons.mp hstamp with rfl | hstamp
      · exact hnext
      · exact hrest stamp hstamp
    · rw [if_neg hlt]
      obtain ⟨hfirst, hrest⟩ := ih first
      refine ⟨hfirst, ?_⟩
      intro stamp hstamp
      rcases List.mem_cons.mp hstamp with rfl | hstamp
      · exact Nat.le_trans (Nat.le_of_not_lt hlt) hfirst
      · exact hrest stamp hstamp

/-- Every time is an instant seventy-two hours ago, at the least. -/
def AgedTimes (now : Instant) (times : List Json) : Prop :=
  ∀ value ∈ times, ∃ stamp, Dependencies.instantOf now value = .ok stamp ∧
    stamp.micros + holdMicros ≤ now.micros

/-- A package that is not exempt passes by its times, or where one is absent by its entry. -/
theorem checkPackage_spec {world : World} {now : Instant} {exempt : Bool} {reason : String}
    {package : Dependencies.Package} {ledger ledger' : Ledger} {meter meter' : Meter} {outcome : Outcome}
    (h : Kept now ledger)
    (hcheck : Dependencies.checkPackage world now exempt reason package ledger meter
      = .ok (outcome, ledger', meter')) :
    Advances now ledger ledger' ∧
      (outcome.status = .pass → exempt = false → ∀ times integrity spent,
        (Dependencies.published world package).spend meter = (.ok (times, integrity), spent) →
          (times.any Dependencies.Json.isNull = true → EnteredBefore now ledger' (package.key world)) ∧
            (times.any Dependencies.Json.isNull = false → AgedTimes now times)) := by
  unfold Dependencies.checkPackage at hcheck
  rcases hmetadata : (Dependencies.metadata world now package).spend meter with
    ⟨raised | ⟨url, timestamps, integrity⟩, spent⟩
  · simp only [hmetadata] at hcheck
    obtain ⟨failed, hfailed, hcheck⟩ := Results.bind_eq_ok.mp hcheck
    cases hcheck
    refine ⟨Advances.refl h, ?_⟩
    intro hpass
    rw [interrupt_status hfailed] at hpass
    cases hpass
  · simp only [hmetadata] at hcheck
    obtain ⟨times, hpublished, hpresent⟩ := metadata_ok hmetadata
    cases exempt with
    | true =>
      simp only [if_true] at hcheck
      cases hcheck
      exact ⟨Advances.refl h, fun _ hexempt => nomatch hexempt⟩
    | false =>
      simp only [Bool.false_eq_true, if_false] at hcheck
      cases timestamps with
      | cons first rest =>
        obtain ⟨held, hheld, hcheck⟩ := Results.bind_eq_ok.mp hcheck
        cases hcheck
        refine ⟨Advances.refl h, ?_⟩
        intro hpass _ times' integrity' spent' hanswer
        rw [hpublished] at hanswer
        cases hanswer
        have haged := hold_pass hheld hpass
        constructor
        · intro hlacking
          cases present_lacking hpresent hlacking
        · intro hcomplete value hvalue
          obtain ⟨hfirst, hrest⟩ := le_latest first rest
          obtain ⟨stamp, hstamp, hread⟩ :=
            Related.exists_right (present_complete hpresent hcomplete) value hvalue
          have hle : stamp ≤ Dependencies.latest first rest := by
            rcases List.mem_cons.mp hstamp with rfl | hstamp
            · exact hfirst
            · exact hrest stamp hstamp
          exact ⟨stamp, hread, Nat.le_trans (Nat.add_le_add_right hle _) haged⟩
      | nil =>
        rcases hobserve : observe Dependencies.instant maxStateEntries
            "first-seen state capacity exhausted" (pure ()) (package.key world) now ledger spent
          with ⟨raised | observed, ledger₁, meter₁⟩
        · obtain ⟨hadvances, -⟩ := observe_advances (fun stamp => dependencies_instant_format) rfl
            (isSha256_hexdigest _) h hobserve
          simp only [hobserve] at hcheck
          obtain ⟨failed, hfailed, hcheck⟩ := Results.bind_eq_ok.mp hcheck
          cases hcheck
          refine ⟨hadvances, ?_⟩
          intro hpass
          rw [interrupt_status hfailed] at hpass
          cases hpass
        · obtain ⟨hadvances, hentry⟩ := observe_advances (fun stamp => dependencies_instant_format) rfl
            (isSha256_hexdigest _) h hobserve
          simp only [hobserve] at hcheck
          obtain ⟨held, hheld, hcheck⟩ := Results.bind_eq_ok.mp hcheck
          cases hcheck
          refine ⟨hadvances, ?_⟩
          intro hpass _ times' integrity' spent' hanswer
          rw [hpublished] at hanswer
          cases hanswer
          refine ⟨fun _ => ⟨observed, hentry observed rfl, hold_pass hheld hpass⟩, ?_⟩
          intro hcomplete value hvalue
          obtain ⟨stamp, hstamp, -⟩ :=
            Related.exists_right (present_complete hpresent hcomplete) value hvalue
          cases hstamp

/-! ## Results of one call -/

section Each

variable {α : Type} {check : α → Ledger → Meter → Except Raised (Outcome × Ledger × Meter)}
  {now : Instant} {identity : α} {identities before after : List α} {ledger ledger' : Ledger}
  {meter meter' : Meter} {outcomes : List Outcome}

theorem each_advances
    (hcheck : ∀ identity ledger meter outcome ledger' meter', Kept now ledger →
      check identity ledger meter = .ok (outcome, ledger', meter') → Advances now ledger ledger')
    (h : Kept now ledger) (heach : each check identities ledger meter = .ok (outcomes, ledger', meter')) :
    Advances now ledger ledger' ∧ outcomes.length = identities.length := by
  induction identities generalizing ledger meter outcomes with
  | nil =>
    cases heach
    exact ⟨Advances.refl h, rfl⟩
  | cons identity rest ih =>
    unfold each at heach
    obtain ⟨⟨outcome, ledger₁, meter₁⟩, hfirst, heach⟩ := Results.bind_eq_ok.mp heach
    obtain ⟨⟨others, ledger₂, meter₂⟩, hrest, heach⟩ := Results.bind_eq_ok.mp heach
    cases heach
    have hadvances := hcheck identity ledger meter outcome ledger₁ meter₁ h hfirst
    obtain ⟨hothers, hlength⟩ := ih hadvances.kept hrest
    exact ⟨hadvances.trans hothers, congrArg (· + 1) hlength⟩

/-- The check of one identity among several starts from what the earlier ones left. -/
theorem each_split
    (heach : each check (before ++ identity :: after) ledger meter = .ok (outcomes, ledger', meter')) :
    ∃ earlier ledger₁ meter₁ outcome ledger₂ meter₂ later,
      each check before ledger meter = .ok (earlier, ledger₁, meter₁) ∧
        check identity ledger₁ meter₁ = .ok (outcome, ledger₂, meter₂) ∧
          each check after ledger₂ meter₂ = .ok (later, ledger', meter') ∧
            outcomes = earlier ++ outcome :: later := by
  induction before generalizing ledger meter outcomes with
  | nil =>
    rw [List.nil_append, each] at heach
    obtain ⟨⟨outcome, ledger₁, meter₁⟩, hfirst, heach⟩ := Results.bind_eq_ok.mp heach
    obtain ⟨⟨others, ledger₂, meter₂⟩, hrest, heach⟩ := Results.bind_eq_ok.mp heach
    cases heach
    exact ⟨[], ledger, meter, outcome, ledger₁, meter₁, others, rfl, hfirst, hrest, rfl⟩
  | cons first before ih =>
    rw [List.cons_append, each] at heach
    obtain ⟨⟨outcome, ledger₁, meter₁⟩, hfirst, heach⟩ := Results.bind_eq_ok.mp heach
    obtain ⟨⟨others, ledger₂, meter₂⟩, hrest, heach⟩ := Results.bind_eq_ok.mp heach
    cases heach
    obtain ⟨earlier, ledger₃, meter₃, found, ledger₄, meter₄, later, hbefore, hcheck, hafter, hsplit⟩ :=
      ih hrest
    refine ⟨outcome :: earlier, ledger₃, meter₃, found, ledger₄, meter₄, later, ?_, hcheck, hafter, ?_⟩
    · rw [each, hfirst]
      simp only [bind, Except.bind, hbefore, pure, Except.pure]
    · rw [hsplit, List.cons_append]

end Each

theorem summary_pass {results : List Outcome} (h : Dependencies.summary results = .pass) :
    ∀ result ∈ results, result.status = .pass := by
  intro result hresult
  unfold Dependencies.summary at h
  by_cases hfailure : results.any (fun result => result.status = .failure) = true
  · rw [if_pos hfailure] at h
    cases h
  · rw [if_neg hfailure] at h
    by_cases hwaiting : results.any (fun result => result.status = .waiting) = true
    · rw [if_pos hwaiting] at h
      cases h
    · rw [List.any_eq_true] at hfailure hwaiting
      cases hstatus : result.status with
      | pass => rfl
      | waiting => exact absurd ⟨result, hresult, by simp [hstatus]⟩ hwaiting
      | failure => exact absurd ⟨result, hresult, by simp [hstatus]⟩ hfailure

/-! ## The received state -/

/-- A kept state is copied as it is. -/
theorem copyEntries_kept {now : Instant} {pairs : List (Sigma fun _ : String => String)}
    (hnodup : pairs.NodupKeys) (h : Kept now ⟨pairs, hnodup⟩) :
    Dependencies.copyEntries now pairs = (⟨pairs, hnodup⟩, .ok ()) := by
  induction pairs with
  | nil => rfl
  | cons pair older ih =>
    obtain ⟨key, value⟩ := pair
    have holder : older.NodupKeys := (List.nodupKeys_cons.mp hnodup).2
    have hmissing : key ∉ (⟨older, holder⟩ : Ledger) := (List.nodupKeys_cons.mp hnodup).1
    have hinsert : (⟨older, holder⟩ : Ledger).insert key value = ⟨⟨key, value⟩ :: older, hnodup⟩ := by
      apply AList.ext
      exact AList.entries_insert_of_notMem hmissing
    have hfirst : (⟨⟨key, value⟩ :: older, hnodup⟩ : Ledger).lookup key = some value := by
      rw [← hinsert, AList.lookup_insert]
    have hrest : Kept now ⟨older, holder⟩ := by
      constructor
      · intro other text hentry
        apply h.entry other text
        have hdiffers : other ≠ key := by
          rintro rfl
          rw [AList.lookup_eq_none.mpr hmissing] at hentry
          cases hentry
        rw [← hinsert, AList.lookup_insert_ne hdiffers]
        exact hentry
      · exact Nat.le_trans (Nat.le_succ _) h.room
    obtain ⟨hkey, stamp, htext, hstamp⟩ := h.entry key value hfirst
    have hinstant : Dependencies.instant now value = .ok stamp := by
      rw [htext]
      exact dependencies_instant_format hstamp
    rw [Dependencies.copyEntries, ih holder hrest]
    simp only [hkey, not_true_eq_false, if_false, hinstant, hinsert]

theorem copyState_kept {now : Instant} {ledger : Ledger} (h : Kept now ledger) :
    Dependencies.copyState now (some { firstSeen := ledger }) = (ledger, .ok ()) := by
  unfold Dependencies.copyState
  have hroom : ¬ ledger.keys.length > maxStateEntries := Nat.not_lt_of_le h.room
  simp only [ne_eq, not_true_eq_false, if_false, hroom]
  exact copyEntries_kept ledger.nodupKeys h

/-! ## Histories -/

section Histories
open Dependencies

variable {Root : Type} {start state : Option State} {calls : List (Call Root)} {call : Call Root}
  {report : Report} {now : Instant}

/-- The entries of a state, of which there are none before the first call. -/
def received : Option State → Ledger
  | none => ∅
  | some state => state.firstSeen

/-- The state a caller has after a call; a call that raises leaves it the state it had. -/
def carry (state : Option State) (call : Call Root) : Option State :=
  match checkDependencies call state with
  | .ok report => some report.state
  | .error _ => state

def HasRoots (call : Call Root) : Prop :=
  call.readers.isDir call.base = true ∧ call.readers.isDir call.head = true

/-- A state of the schema, with a kept ledger. -/
structure Sound (now : Instant) (state : Option State) : Prop where
  schema : ∀ given, state = some given → given.schemaVersion = 1
  kept : Kept now (received state)

theorem copyState_sound (h : Sound now state) : copyState now state = (received state, .ok ()) := by
  cases state with
  | none => rfl
  | some given =>
    obtain ⟨version, ledger⟩ := given
    have hversion : version = 1 := h.schema _ rfl
    rw [hversion]
    exact copyState_kept h.kept

theorem prepare_sound (h : Sound call.now state) (hroots : HasRoots call) :
    call.prepare state =
      (received state, introduced call.readers call.base call.head call.context) := by
  unfold Call.prepare
  rw [if_neg (fun hmissing => hmissing hroots), copyState_sound h]

theorem checkOperational_advances {world : World} {readers : Operational.Readers Root} {base head : Root}
    {ledger : Ledger} {context : Option DependencyContext} {remaining : Nat} {meter : Meter}
    {checked : Operational.Checked} (h : Kept now ledger)
    (hcheck : Operational.checkOperational world readers base head now ledger context remaining
      maxStateEntries meter = .ok checked) : Advances now ledger checked.ledger := by
  unfold Operational.checkOperational at hcheck
  rcases hpins : (Operational.introduced world readers base head now context remaining).spend meter with
    ⟨raised | pins, spent⟩
  · simp only [hpins] at hcheck
    obtain ⟨failed, -, hcheck⟩ := Results.bind_eq_ok.mp hcheck
    cases hcheck
    exact Advances.refl h
  · simp only [hpins] at hcheck
    obtain ⟨⟨results, ledger₁, meter₁⟩, heach, hcheck⟩ := Results.bind_eq_ok.mp hcheck
    cases hcheck
    exact (each_advances (fun _ _ _ _ _ _ hkept hone => (checkPin_spec hkept hone).1) h heach).1

/-- The parts of a call that returns: a failure before any package, or the two evaluators. -/
theorem checkDependencies_cases (h : Sound call.now state) (hroots : HasRoots call)
    (hreport : checkDependencies call state = .ok report) :
    (∃ raised, call.prepare state = (received state, .error raised) ∧ report.status = .failure ∧
        report.state = { firstSeen := received state }) ∨
      ∃ packages exempt reason results ledger meter checked,
        call.prepare state = (received state, .ok (packages, exempt, reason)) ∧
          each (checkPackage call.world call.now exempt reason) packages (received state) ⟨0, 0⟩
            = .ok (results, ledger, meter) ∧
          Operational.checkOperational call.world call.readers.toReaders call.base call.head call.now
            ledger call.context (maxIntroduced - packages.length) maxStateEntries meter = .ok checked ∧
          report.results = results ++ checked.results ∧ report.status = summary report.results ∧
            report.state = { firstSeen := checked.ledger } := by
  unfold checkDependencies at hreport
  have hprepare := prepare_sound h hroots
  cases hintroduced : introduced call.readers call.base call.head call.context with
  | error raised =>
    rw [hintroduced] at hprepare
    rw [hprepare] at hreport
    dsimp only at hreport
    cases htext : raisedText raised with
    | none =>
      rw [htext] at hreport
      cases hreport
    | some text =>
      rw [htext] at hreport
      cases hreport
      exact Or.inl ⟨raised, hprepare, rfl, rfl⟩
  | ok answer =>
    obtain ⟨packages, exempt, reason⟩ := answer
    rw [hintroduced] at hprepare
    rw [hprepare] at hreport
    obtain ⟨⟨results, ledger, meter⟩, heach, hreport⟩ := Results.bind_eq_ok.mp hreport
    obtain ⟨checked, hchecked, hreport⟩ := Results.bind_eq_ok.mp hreport
    cases hreport
    exact Or.inr ⟨packages, exempt, reason, results, ledger, meter, checked, hprepare, heach, hchecked,
      rfl, rfl, rfl⟩

/-- A call returns a state that the next call accepts, with the entries it received. -/
theorem checkDependencies_advances (h : Sound call.now state) (hroots : HasRoots call)
    (hreport : checkDependencies call state = .ok report) :
    Advances call.now (received state) report.state.firstSeen ∧ report.state.schemaVersion = 1 := by
  rcases checkDependencies_cases h hroots hreport with ⟨-, -, -, hstate⟩ |
    ⟨packages, exempt, reason, results, ledger, meter, checked, -, heach, hchecked, -, -, hstate⟩
  · rw [hstate]
    exact ⟨Advances.refl h.kept, rfl⟩
  · rw [hstate]
    obtain ⟨hpackages, -⟩ := each_advances
      (fun _ _ _ _ _ _ hkept hone => (checkPackage_spec hkept hone).1) h.kept heach
    exact ⟨hpackages.trans (checkOperational_advances hpackages.kept hchecked), rfl⟩

theorem carry_advances (h : Sound call.now state) (hroots : HasRoots call) :
    Advances call.now (received state) (received (carry state call)) ∧ Sound call.now (carry state call) := by
  unfold carry
  cases hreport : checkDependencies call state with
  | error raised => exact ⟨Advances.refl h.kept, h⟩
  | ok report =>
    obtain ⟨hadvances, hversion⟩ := checkDependencies_advances h hroots hreport
    refine ⟨hadvances, ?_, hadvances.kept⟩
    intro given hgiven
    cases hgiven
    exact hversion

theorem Sound.later {next : Instant} (h : Sound now state) (hle : now ≤ next) : Sound next state :=
  ⟨h.schema, h.kept.later hle⟩

theorem run_sound (hstart : start = none ∨ start = some { firstSeen := ∅ })
    (hroots : ∀ call ∈ calls, HasRoots call)
    (htimes : calls.Pairwise fun first later => first.now ≤ later.now)
    (hnow : ∀ call ∈ calls, call.now ≤ now) : Sound now (calls.foldl carry start) := by
  induction calls using List.reverseRecOn generalizing now with
  | nil =>
    rcases hstart with rfl | rfl
    · exact ⟨fun _ hgiven => (nomatch hgiven), kept_empty now⟩
    · refine ⟨?_, kept_empty now⟩
      intro given hgiven
      cases hgiven
      rfl
  | append_singleton calls current ih =>
    rw [List.pairwise_append] at htimes
    rw [List.foldl_append, List.foldl_cons, List.foldl_nil]
    have hsound : Sound current.now (calls.foldl carry start) :=
      ih (fun call hcall => hroots call (List.mem_append_left _ hcall)) htimes.1
        (fun call hcall => htimes.2.2 call hcall current List.mem_cons_self)
    obtain ⟨-, hnext⟩ := carry_advances hsound
      (hroots current (List.mem_append_right _ List.mem_cons_self))
    exact hnext.later (hnow current (List.mem_append_right _ List.mem_cons_self))

/-- Seventy-two hours ago or earlier, one of the calls recorded the key. -/
def RecordedBefore (start : Option State) (calls : List (Call Root)) (now : Instant) (key : String) : Prop :=
  ∃ before current after, calls = before ++ current :: after ∧
    current.now.micros + holdMicros ≤ now.micros ∧
      entries (received (before.foldl carry start)) key = none ∧
        (entries (received ((before ++ [current]).foldl carry start)) key).isSome = true

theorem recordedBefore_of_entry (hstart : start = none ∨ start = some { firstSeen := ∅ })
    (hroots : ∀ call ∈ calls, HasRoots call)
    (htimes : calls.Pairwise fun first later => first.now ≤ later.now) {key : String} {stamp : Instant}
    (hentry : entries (received (calls.foldl carry start)) key = some (format stamp))
    (haged : stamp.micros + holdMicros ≤ now.micros) : RecordedBefore start calls now key := by
  have hempty : (fun state => entries (received state)) start = fun _ => none := by
    funext key
    rcases hstart with rfl | rfl <;> exact AList.lookup_empty key
  have hstep : ∀ before current after, calls = before ++ current :: after →
      Observes (format current.now) (entries (received (before.foldl carry start)))
        (entries (received (carry (before.foldl carry start) current))) := by
    intro before current after hsplit
    rw [hsplit] at htimes hroots
    rw [List.pairwise_append] at htimes
    have hsound : Sound current.now (before.foldl carry start) :=
      run_sound hstart (fun call hcall => hroots call (List.mem_append_left _ hcall)) htimes.1
        (fun call hcall => htimes.2.2 call hcall current List.mem_cons_self)
    exact (carry_advances hsound (hroots current (List.mem_append_right _ List.mem_cons_self))).1.observes
  have hrecorded : Recorded carry (fun call : Call Root => format call.now)
      (fun state => entries (received state)) start calls key (format stamp) :=
    recorded_of_entry hempty hstep hentry
  obtain ⟨before, current, after, hsplit, hstamp, hnone, hsome⟩ := hrecorded
  refine ⟨before, current, after, hsplit, ?_, hnone, ?_⟩
  · rw [format_injective hstamp]
    exact haged
  · exact Option.isSome_iff_exists.mpr ⟨_, hsome⟩

/-- An aged entry that a call finds was there before the call. -/
theorem entry_received {ledger after : Ledger} {key : String} (h : Advances now ledger after)
    (hentered : EnteredBefore now after key) :
    ∃ stamp : Instant, entries ledger key = some (format stamp) ∧
      stamp.micros + holdMicros ≤ now.micros := by
  obtain ⟨stamp, hentry, haged⟩ := hentered
  refine ⟨stamp, ?_, haged⟩
  rcases h.observes key with hsame | ⟨-, hnow⟩
  · rw [← hsame]
    exact hentry
  · rw [hentry] at hnow
    have hstamp := format_injective (Option.some.inj hnow)
    have hpositive : 0 < holdMicros := by decide
    rw [hstamp] at haged
    omega

/-- A call checks an introduced package that is not exempt, gets these publication times for its
artifacts, an absent one null, and reports this outcome. -/
def PackageChecked (call : Call Root) (state : Option State) (report : Report) (package : Package)
    (times : List Json) (outcome : Outcome) : Prop :=
  ∃ ledger before after reason earlier reached meter integrity spent,
    call.prepare state = (ledger, .ok (before ++ package :: after, false, reason)) ∧
      each (checkPackage call.world call.now false reason) before ledger ⟨0, 0⟩
        = .ok (earlier, reached, meter) ∧
      (published call.world package).spend meter = (.ok (times, integrity), spent) ∧
        report.results[before.length]? = some outcome

/-- A call observes an introduced pin and reports this outcome, after those of the packages. -/
def PinChecked (call : Call Root) (state : Option State) (report : Report) (pin : Operational.Pin)
    (outcome : Outcome) : Prop :=
  ∃ ledger packages exempt reason results reached meter pins spent before after,
    call.prepare state = (ledger, .ok (packages, exempt, reason)) ∧
      each (checkPackage call.world call.now exempt reason) packages ledger ⟨0, 0⟩
        = .ok (results, reached, meter) ∧
      (Operational.introduced call.world call.readers.toReaders call.base call.head call.now call.context
        (maxIntroduced - packages.length)).spend meter = (.ok pins, spent) ∧
      Operational.observed pins = before ++ pin :: after ∧
        report.results[packages.length + before.length]? = some outcome

theorem packageChecked_spec {package : Package} {times : List Json} {outcome : Outcome}
    (h : Sound call.now state) (hroots : HasRoots call) (hreport : checkDependencies call state = .ok report)
    (hchecked : PackageChecked call state report package times outcome)
    (hpass : outcome.status = .pass) :
    (times.any Dependencies.Json.isNull = true → ∃ stamp : Instant,
        entries (received state) (package.key call.world) = some (format stamp) ∧
          stamp.micros + holdMicros ≤ call.now.micros) ∧
      (times.any Dependencies.Json.isNull = false → AgedTimes call.now times) := by
  obtain ⟨ledger, before, after, reason, earlier, reached, meter, integrity, spent, hprepare, hbefore,
    hpublished, houtcome⟩ := hchecked
  rcases checkDependencies_cases h hroots hreport with ⟨raised, hfailed, -⟩ |
    ⟨packages, exempt, why, results, last, final, checked, hsame, heach, -, hresults, -, -⟩
  · rw [hprepare] at hfailed
    cases hfailed
  · rw [hprepare] at hsame
    cases hsame
    obtain ⟨first, reached', meter', found, next, spent', later, hfirst, hone, -, hsplit⟩ := each_split heach
    rw [hbefore] at hfirst
    cases hfirst
    obtain ⟨hadvances, hlength⟩ := each_advances
      (fun _ _ _ _ _ _ hkept hone => (checkPackage_spec hkept hone).1) h.kept hbefore
    obtain ⟨hnext, hspec⟩ := checkPackage_spec hadvances.kept hone
    have hfound : found = outcome := by
      rw [hresults, hsplit, ← hlength, List.append_assoc, List.cons_append] at houtcome
      simpa using houtcome
    rw [← hfound] at hpass
    obtain ⟨hlacking, hcomplete⟩ := hspec hpass rfl times integrity spent hpublished
    exact ⟨fun hnull => entry_received (hadvances.trans hnext) (hlacking hnull), hcomplete⟩

theorem pinChecked_spec {pin : Operational.Pin} {outcome : Outcome}
    (h : Sound call.now state) (hroots : HasRoots call) (hreport : checkDependencies call state = .ok report)
    (hchecked : PinChecked call state report pin outcome) (hpass : outcome.status = .pass) :
    ∃ stamp : Instant, entries (received state) (pin.key call.world) = some (format stamp) ∧
      stamp.micros + holdMicros ≤ call.now.micros := by
  obtain ⟨ledger, packages, exempt, reason, results, reached, meter, pins, spent, before, after, hprepare,
    hpackages, hpins, hobserved, houtcome⟩ := hchecked
  rcases checkDependencies_cases h hroots hreport with ⟨raised, hfailed, -⟩ |
    ⟨packages', exempt', reason', results', last, final, checked, hsame, heach, hoperational, hresults, -, -⟩
  · rw [hprepare] at hfailed
    cases hfailed
  · rw [hprepare] at hsame
    cases hsame
    rw [hpackages] at heach
    cases heach
    obtain ⟨hadvances, hlength⟩ := each_advances
      (fun _ _ _ _ _ _ hkept hone => (checkPackage_spec hkept hone).1) h.kept hpackages
    unfold Operational.checkOperational at hoperational
    simp only [hpins] at hoperational
    obtain ⟨⟨outcomes, last, final⟩, heach, hoperational⟩ := Results.bind_eq_ok.mp hoperational
    cases hoperational
    rw [hobserved] at heach
    obtain ⟨first, reached', meter', found, next, spent', later, hbefore, hone, -, hsplit⟩ := each_split heach
    obtain ⟨hearlier, hcount⟩ := each_advances
      (fun _ _ _ _ _ _ hkept hone => (checkPin_spec hkept hone).1) hadvances.kept hbefore
    obtain ⟨hnext, hspec⟩ := checkPin_spec hearlier.kept hone
    have hfound : found = outcome := by
      rw [hresults, hsplit, ← hlength, ← hcount] at houtcome
      simpa using houtcome
    rw [← hfound] at hpass
    exact entry_received ((hadvances.trans hearlier).trans hnext) (hspec hpass)

theorem summary_report (h : Sound call.now state) (hroots : HasRoots call)
    (hreport : checkDependencies call state = .ok report) (hpass : report.status = .pass) :
    ∀ result ∈ report.results, result.status = .pass := by
  rcases checkDependencies_cases h hroots hreport with ⟨-, -, hfailure, -⟩ |
    ⟨packages, exempt, reason, results, ledger, meter, checked, -, -, -, -, hstatus, -⟩
  · rw [hfailure] at hpass
    cases hpass
  · exact summary_pass (hstatus.symm.trans hpass)

/-- Over a history whose times never decrease, no call drops or alters an entry, and whatever
lacks a publication time only passes seventy-two hours after a call recorded it. -/
theorem hold_over_history (hstart : start = none ∨ start = some { firstSeen := ∅ })
    (hroots : ∀ given ∈ calls ++ [call], HasRoots given)
    (htimes : (calls ++ [call]).Pairwise fun first later => first.now ≤ later.now)
    (hreport : checkDependencies call (calls.foldl carry start) = .ok report) :
    (∀ key text, entries (received (calls.foldl carry start)) key = some text →
        entries report.state.firstSeen key = some text) ∧
      (∀ package times outcome,
        PackageChecked call (calls.foldl carry start) report package times outcome →
          outcome.status = .pass →
            (times.any Dependencies.Json.isNull = true →
                RecordedBefore start calls call.now (package.key call.world)) ∧
              (times.any Dependencies.Json.isNull = false → AgedTimes call.now times)) ∧
      (∀ pin outcome, PinChecked call (calls.foldl carry start) report pin outcome →
        outcome.status = .pass → RecordedBefore start calls call.now (pin.key call.world)) ∧
      (report.status = .pass → ∀ result ∈ report.results, result.status = .pass) := by
  rw [List.pairwise_append] at htimes
  have hcalls : ∀ given ∈ calls, HasRoots given :=
    fun given hgiven => hroots given (List.mem_append_left _ hgiven)
  have hcall : HasRoots call := hroots call (List.mem_append_right _ List.mem_cons_self)
  have hsound : Sound call.now (calls.foldl carry start) :=
    run_sound hstart hcalls htimes.1 (fun given hgiven => htimes.2.2 given hgiven call List.mem_cons_self)
  refine ⟨?_, ?_, ?_, summary_report hsound hcall hreport⟩
  · intro key text hentry
    exact (checkDependencies_advances hsound hcall hreport).1.observes.kept hentry
  · intro package times outcome hchecked hpass
    obtain ⟨hlacking, hcomplete⟩ := packageChecked_spec hsound hcall hreport hchecked hpass
    refine ⟨?_, hcomplete⟩
    intro hnull
    obtain ⟨stamp, hentry, haged⟩ := hlacking hnull
    exact recordedBefore_of_entry hstart hcalls htimes.1 hentry haged
  · intro pin outcome hchecked hpass
    obtain ⟨stamp, hentry, haged⟩ := pinChecked_spec hsound hcall hreport hchecked hpass
    exact recordedBefore_of_entry hstart hcalls htimes.1 hentry haged

/-- A registry whose answers name no time. -/
def datelessWorld : World where
  fetch := fun _ _ => .ok (some ByteArray.empty)
  fetchRequest := fun _ _ _ => .error (.transport "URLError")
  loads := fun _ => .ok (.object [("name", .str "left-pad"), ("version", .str "1.3.0"),
    ("dist", .object [("integrity",
      .str "sha256-AAAAAAAAAAAAAAAAAAAAAAAAAAAAAAAAAAAAAAAAAAA=")])])
  sha256 := fun _ => Vector.replicate 32 0
  display := fun _ => ""
  lower := fun text => text
  quote := fun text => text
  urlencode := fun _ => ""

def datelessPackage : Package :=
  ⟨.npm, "left-pad", "1.3.0", "https://registry.npmjs.org",
    ["sha256-AAAAAAAAAAAAAAAAAAAAAAAAAAAAAAAAAAAAAAAAAAA="]⟩

/-- A change of an empty snapshot to one with the package. -/
def datelessReaders : Readers Bool where
  inventory := fun _ => .ok ∅
  features := fun _ => .ok ⟨∅, [], ∅⟩
  contains := fun _ _ => false
  validateFeatureGraph := fun _ _ => pure ()
  isDir := fun _ => true
  packages := fun head => .ok (if head then [datelessPackage] else [])
  firstPartyScope := fun _ _ _ _ _ => .ok (false, "no trusted isolated pull-request context")

def datelessCall (hours : Nat) (h : hours * hourMicros < limit) : Call Bool :=
  ⟨false, true, ⟨hours * hourMicros, h⟩, none, datelessWorld, datelessReaders⟩

theorem hold_over_history_dateless : RecordedBefore none [datelessCall 100 (by decide)]
    (datelessCall 172 (by decide)).now (datelessPackage.key datelessWorld) := by
  have hstatus : ((checkDependencies (datelessCall 172 (by decide))
      ([datelessCall 100 (by decide)].foldl carry none)).toOption.bind
        fun report => report.results[0]?.map Outcome.status) = some .pass := by decide +kernel
  cases hreport : checkDependencies (datelessCall 172 (by decide))
      ([datelessCall 100 (by decide)].foldl carry none) with
  | error raised =>
    rw [hreport] at hstatus
    cases hstatus
  | ok report =>
    rw [hreport] at hstatus
    obtain ⟨outcome, houtcome, hpass⟩ := Option.map_eq_some_iff.mp hstatus
    have hroots : ∀ given ∈ [datelessCall 100 (by decide)] ++ [datelessCall 172 (by decide)],
        HasRoots given := by
      simp [HasRoots, datelessCall, datelessReaders]
    have htimes : ([datelessCall 100 (by decide)] ++ [datelessCall 172 (by decide)]).Pairwise
        fun first later => first.now ≤ later.now := by
      decide
    obtain ⟨-, hpackages, -⟩ := hold_over_history (Or.inl rfl) hroots htimes hreport
    have hchecked : PackageChecked (datelessCall 172 (by decide))
        ([datelessCall 100 (by decide)].foldl carry none) report datelessPackage [.null] outcome := by
      have hsound : Sound (datelessCall 172 (by decide)).now
          ([datelessCall 100 (by decide)].foldl carry none) :=
        run_sound (Or.inl rfl) (fun given hgiven => hroots given (List.mem_append_left _ hgiven))
          (List.pairwise_singleton _ _) (by decide)
      have hintroduced : introduced datelessReaders false true none =
          .ok ([] ++ datelessPackage :: [], false, "no trusted isolated pull-request context") := by
        rfl
      exact ⟨_, [], [], _, [], _, _, _, _, (prepare_sound hsound ⟨rfl, rfl⟩).trans
        (congrArg (Prod.mk _) hintroduced), rfl, rfl, houtcome⟩
    exact (hpackages _ _ _ hchecked hpass).1 rfl

end Histories

end Boxferry.Automation
