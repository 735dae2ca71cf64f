import Mathlib.Algebra.Order.BigOperators.Group.List
import Mathlib.Data.List.Perm.Subperm
import Boxferry.Automation.Gate
import Boxferry.Library.Escalation

/-! # Selected jobs of a growing change set

A change set that grows never loses a job: its records collect their profiles until one of them
escalates to the complete validation, and what the gate requires is what was selected. -/
namespace Boxferry.Automation
open Model Contracts
set_option autoImplicit false

section Selection
variable (text : PythonText) (codeProjection : CodeProjection) (policy : Policy) (view : CandidateView)

/-- What a record adds; an error and a changed object type escalate. -/
def added (pages : List String) (record : ChangeRecord) : Option (Finset String) :=
  match recordProfiles text codeProjection policy view pages record with
  | .ok found => found
  | .error _ => none

/-- A change set that is classified to known profiles only. -/
structure Selective (request : PlanRequest) (records : List ChangeRecord) (profiles : Finset String) : Prop where
  compared : request.forceFull = false ∧ request.event.comparesCandidate = true
  contained : view.containsHead = .ok true
  nonempty : records ≠ []
  bounded : pathCount records ≤ maxPaths
  collected : ∃ pages, view.examplePages = .ok pages ∧
    Escalation.collect (added text codeProjection policy view pages) records = some profiles
  known : "full" ∉ profiles ∧ ∀ profile ∈ profiles, profile ∈ policy.profileNames

/-- `make_plan` selects a job. -/
def Selects (request : PlanRequest) (records : List ChangeRecord) (job : String) : Prop :=
  ∃ plan, makePlan text codeProjection policy view request records = .ok plan ∧ (job, true) ∈ plan.jobs

end Selection

variable {text : PythonText} {codeProjection : CodeProjection} {policy : Policy} {view : CandidateView}
  {request : PlanRequest} {records others : List ChangeRecord} {profiles larger : Finset String} {job : String}

/-! ## Scanning -/

theorem added_eq_some {pages : List String} {record : ChangeRecord} :
    added text codeProjection policy view pages record = some profiles ↔
      recordProfiles text codeProjection policy view pages record = .ok (some profiles) := by
  unfold added
  cases recordProfiles text codeProjection policy view pages record with
  | error error => exact ⟨fun h => (nomatch h), fun h => (nomatch h)⟩
  | ok found => exact ⟨fun h => congrArg Except.ok h, fun h => Except.ok.inj h⟩

theorem scan_eq_some {pages : List String} {start result : Finset String} :
    scan text codeProjection policy view pages records start = .ok (some result) ↔
      ∃ found, Escalation.collect (added text codeProjection policy view pages) records = some found ∧
        start ∪ found = result := by
  induction records generalizing start with
  | nil =>
    constructor
    · intro h
      refine ⟨∅, rfl, ?_⟩
      rw [Finset.union_empty]
      exact Option.some.inj (Except.ok.inj h)
    · intro ⟨found, hfound, hunion⟩
      have hempty : ∅ = found := Option.some.inj hfound
      rw [← hunion, ← hempty, Finset.union_empty]
      rfl
  | cons record records ih =>
    rw [scan, Results.bind_eq_ok]
    constructor
    · intro ⟨outcome, hrecord, h⟩
      cases outcome with
      | none => exact nomatch h
      | some found =>
        obtain ⟨rest, hrest, hunion⟩ := ih.mp h
        refine ⟨found ∪ rest, Escalation.collect_cons.mpr ⟨found, rest, added_eq_some.mpr hrecord, hrest, rfl⟩, ?_⟩
        rw [← Finset.union_assoc]
        exact hunion
    · intro ⟨all, hall, hunion⟩
      obtain ⟨found, rest, hrecord, hrest, rfl⟩ := Escalation.collect_cons.mp hall
      refine ⟨some found, added_eq_some.mp hrecord, ih.mpr ⟨rest, hrest, ?_⟩⟩
      rw [Finset.union_assoc]
      exact hunion

theorem Selective.unique {request : PlanRequest} (h : Selective text codeProjection policy view request records profiles)
    (hother : Selective text codeProjection policy view request records larger) : profiles = larger := by
  obtain ⟨pages, hpages, hcollected⟩ := h.collected
  obtain ⟨others, hothers, hcollects⟩ := hother.collected
  have hsame : pages = others := Except.ok.inj (hpages.symm.trans hothers)
  rw [← hsame] at hcollects
  exact Option.some.inj (hcollected.symm.trans hcollects)

/-- Fewer records within the bound are classified to fewer known profiles. -/
theorem Selective.of_subset (h : Selective text codeProjection policy view request others larger)
    (hnonempty : records ≠ []) (hbounded : pathCount records ≤ maxPaths) (hsubset : records ⊆ others) :
    ∃ profiles, Selective text codeProjection policy view request records profiles ∧ profiles ⊆ larger := by
  obtain ⟨pages, hpages, hcollected⟩ := h.collected
  obtain ⟨profiles, hprofiles, hincluded⟩ := Escalation.collect_mono hsubset hcollected
  refine ⟨profiles, ⟨h.compared, h.contained, hnonempty, hbounded, ⟨pages, hpages, hprofiles⟩, ?_⟩, hincluded⟩
  exact ⟨fun hfull => h.known.1 (hincluded hfull), fun profile hprofile => h.known.2 profile (hincluded hprofile)⟩

/-! ## Chosen profiles -/

/-- The documentation profile stands for prose too. -/
def subsumed (profiles : Finset String) : Finset String :=
  if "executable-docs" ∈ profiles then profiles.erase "prose" else profiles

theorem subsumed_subset : subsumed profiles ⊆ profiles := by
  unfold subsumed
  split
  · exact Finset.erase_subset "prose" profiles
  · exact Finset.Subset.refl profiles

theorem conclude_of_known (hknown : "full" ∉ profiles ∧ ∀ profile ∈ profiles, profile ∈ policy.profileNames) :
    (conclude policy profiles).1 = (subsumed profiles).sort := by
  unfold conclude
  rw [if_neg (by rw [not_or, not_not]; exact hknown)]
  rfl

theorem conclude_of_unknown
    (hunknown : ¬("full" ∉ profiles ∧ ∀ profile ∈ profiles, profile ∈ policy.profileNames)) :
    (conclude policy profiles).1 = ["full"] := by
  unfold conclude
  rw [if_pos (by rwa [not_and_or, not_not] at hunknown)]

theorem classify_eq_ok {chosen : List String × List String}
    (h : classify text codeProjection policy view records = .ok chosen) (hnonempty : records ≠ []) :
    pathCount records ≤ maxPaths ∧ ∃ pages, view.examplePages = .ok pages ∧
      ((∃ found, Escalation.collect (added text codeProjection policy view pages) records = some found ∧
          chosen = conclude policy found) ∨
        Escalation.collect (added text codeProjection policy view pages) records = none ∧ chosen.1 = ["full"]) := by
  unfold classify at h
  obtain ⟨⟨⟩, hbounded, h⟩ := Results.bind_eq_ok.mp h
  rw [require_eq_ok, decide_eq_true_iff] at hbounded
  rw [if_neg (by rwa [List.isEmpty_iff])] at h
  obtain ⟨pages, hpages, h⟩ := Results.bind_eq_ok.mp h
  obtain ⟨outcome, hscan, h⟩ := Results.bind_eq_ok.mp h
  refine ⟨hbounded, pages, hpages, ?_⟩
  cases outcome with
  | none =>
    right
    refine ⟨?_, by rw [← Except.ok.inj h]⟩
    cases hcollect : Escalation.collect (added text codeProjection policy view pages) records with
    | none => rfl
    | some found => exact nomatch hscan.symm.trans (scan_eq_some.mpr ⟨found, hcollect, rfl⟩)
  | some found =>
    left
    obtain ⟨result, hresult, hunion⟩ := scan_eq_some.mp hscan
    rw [Finset.empty_union] at hunion
    rw [hunion] at hresult
    exact ⟨found, hresult, (Except.ok.inj h).symm⟩

theorem classify_of_collect {pages : List String} (hnonempty : records ≠ []) (hbounded : pathCount records ≤ maxPaths)
    (hpages : view.examplePages = .ok pages)
    (h : Escalation.collect (added text codeProjection policy view pages) records = some profiles) :
    classify text codeProjection policy view records = .ok (conclude policy profiles) := by
  unfold classify
  rw [Results.bind_eq_ok]
  refine ⟨(), require_eq_ok.mpr (decide_eq_true hbounded), ?_⟩
  rw [if_neg (by rwa [List.isEmpty_iff]), Results.bind_eq_ok]
  refine ⟨pages, hpages, Results.bind_eq_ok.mpr ⟨some profiles, ?_, rfl⟩⟩
  exact scan_eq_some.mpr ⟨profiles, h, Finset.empty_union profiles⟩

theorem chooseProfiles_of_selective (h : Selective text codeProjection policy view request records profiles) :
    (chooseProfiles text codeProjection policy view request records).1 = (subsumed profiles).sort := by
  obtain ⟨pages, hpages, hcollected⟩ := h.collected
  have hclassify := classify_of_collect h.nonempty h.bounded hpages hcollected
  have hcandidate : candidateProfiles text codeProjection policy view records = .ok (conclude policy profiles) := by
    unfold candidateProfiles
    rw [h.contained, hclassify]
    rfl
  unfold chooseProfiles
  rw [h.compared.1, h.compared.2, hcandidate]
  exact conclude_of_known h.known

/-- Whatever is not classified to known profiles is validated completely. -/
theorem chooseProfiles_of_not_selective (hnonempty : records ≠ [])
    (h : ∀ profiles, ¬Selective text codeProjection policy view request records profiles) :
    (chooseProfiles text codeProjection policy view request records).1 = ["full"] := by
  unfold chooseProfiles
  split
  · rfl
  · next hcompared =>
    rw [Bool.or_eq_true, not_or, Bool.not_eq_true, Bool.not_eq_true, Bool.not_eq_false'] at hcompared
    split
    · next chosen hcandidate =>
      unfold candidateProfiles at hcandidate
      obtain ⟨contained, hcontained, hcandidate⟩ := Results.bind_eq_ok.mp hcandidate
      obtain ⟨⟨⟩, htrue, hclassify⟩ := Results.bind_eq_ok.mp hcandidate
      rw [require_eq_ok] at htrue
      rw [htrue] at hcontained
      obtain ⟨hbounded, pages, hpages, hcases⟩ := classify_eq_ok hclassify hnonempty
      cases hcases with
      | inr hescalated => exact hescalated.2
      | inl hcollected =>
        obtain ⟨found, hfound, hchosen⟩ := hcollected
        rw [hchosen]
        apply conclude_of_unknown
        intro hknown
        exact h found ⟨hcompared, hcontained, hnonempty, hbounded, ⟨pages, hpages, hfound⟩, hknown⟩
    · rfl

/-! ## Selected jobs -/

/-- Some of the profiles declares the job. -/
def Declares (policy : Policy) (profiles : Finset String) (job : String) : Prop :=
  ∃ profile ∈ profiles, ∃ jobs, policy.profileJobs.lookup profile = some jobs ∧ job ∈ jobs

theorem Declares.mono (hsubset : profiles ⊆ larger) (h : Declares policy profiles job) :
    Declares policy larger job := by
  obtain ⟨profile, hprofile, hdeclared⟩ := h
  exact ⟨profile, hsubset hprofile, hdeclared⟩

/-- Dropping prose loses no job, since the documentation profile has all of its jobs. -/
theorem declares_subsumed (hpolicy : policy.Accepted)
    (hknown : ∀ profile ∈ profiles, profile ∈ policy.profileNames) :
    Declares policy (subsumed profiles) job ↔ Declares policy profiles job := by
  refine ⟨Declares.mono subsumed_subset, fun h => ?_⟩
  obtain ⟨profile, hprofile, jobs, hjobs, hjob⟩ := h
  unfold subsumed
  by_cases hdocs : "executable-docs" ∈ profiles
  · rw [if_pos hdocs]
    by_cases hprose : profile = "prose"
    · obtain ⟨item, hitem, hname⟩ := List.mem_map.mp (hknown "executable-docs" hdocs)
      cases hlookup : policy.profileJobs.lookup "executable-docs" with
      | none =>
        rw [List.lookup_eq_none_iff] at hlookup
        exact absurd hname.symm (by simpa using hlookup item hitem)
      | some executable =>
        rw [hprose] at hjobs
        have hincluded := hpolicy.prose jobs executable hjobs hlookup
        have hother : "executable-docs" ∈ profiles.erase "prose" := Finset.mem_erase.mpr ⟨by decide, hdocs⟩
        exact ⟨"executable-docs", hother, executable, hlookup, hincluded job hjob⟩
    · exact ⟨profile, Finset.mem_erase.mpr ⟨hprose, hprofile⟩, jobs, hjobs, hjob⟩
  · rw [if_neg hdocs]
    exact ⟨profile, hprofile, jobs, hjobs, hjob⟩

theorem foldl_selectProfile {names : List String} {start : Finset String}
    (hknown : ∀ profile ∈ names, profile ∈ policy.profileNames) :
    ∃ selected, names.foldlM (policy.selectProfile text) start = .ok selected ∧
      ∀ job, job ∈ selected ↔ job ∈ start ∨ Declares policy names.toFinset job := by
  induction names generalizing start with
  | nil =>
    refine ⟨start, rfl, fun job => ⟨Or.inl, fun h => h.elim id fun hdeclared => ?_⟩⟩
    obtain ⟨profile, hprofile, -⟩ := hdeclared
    exact nomatch List.mem_toFinset.mp hprofile
  | cons name names ih =>
    obtain ⟨item, hitem, hname⟩ := List.mem_map.mp (hknown name List.mem_cons_self)
    cases hlookup : policy.profileJobs.lookup name with
    | none =>
      rw [List.lookup_eq_none_iff] at hlookup
      exact absurd hname.symm (by simpa using hlookup item hitem)
    | some jobs =>
      have hselect : policy.selectProfile text start name = .ok (start ∪ jobs.toFinset) := by
        unfold Policy.selectProfile
        rw [hlookup]
      obtain ⟨selected, hselected, hmem⟩ :=
        @ih (start ∪ jobs.toFinset) fun profile hprofile => hknown profile (List.mem_cons_of_mem name hprofile)
      refine ⟨selected, by rw [List.foldlM_cons, hselect]; exact hselected, fun job => ?_⟩
      rw [hmem, Finset.mem_union, List.mem_toFinset, or_assoc]
      apply or_congr_right
      constructor
      · intro h
        cases h with
        | inl hfirst => exact ⟨name, by simp, jobs, hlookup, hfirst⟩
        | inr hrest => exact hrest.mono (by simp)
      · intro ⟨profile, hprofile, found, hfound, hjob⟩
        rw [List.toFinset_cons, Finset.mem_insert] at hprofile
        cases hprofile with
        | inl hsame =>
          rw [hsame, hlookup] at hfound
          left
          rw [Option.some.inj hfound]
          exact hjob
        | inr hrest => exact Or.inr ⟨profile, hrest, found, hfound, hjob⟩

/-- What a change set selects: everything, unless it is classified to known profiles. -/
def Chosen (text : PythonText) (codeProjection : CodeProjection) (policy : Policy) (view : CandidateView)
    (request : PlanRequest) (records : List ChangeRecord) (job : String) : Prop :=
  job ∈ policy.jobs ∧
    ∀ profiles, Selective text codeProjection policy view request records profiles → Declares policy profiles job

theorem selectedJobs_chosen (hpolicy : policy.Accepted) (hnonempty : records ≠ []) :
    ∃ selected,
      policy.selectedJobs text (chooseProfiles text codeProjection policy view request records).1 = .ok selected ∧
        ∀ job ∈ policy.jobs, job ∈ selected ↔ Chosen text codeProjection policy view request records job := by
  by_cases hselective : ∃ profiles, Selective text codeProjection policy view request records profiles
  · obtain ⟨profiles, hprofiles⟩ := hselective
    have hincluded : ∀ profile ∈ (subsumed profiles).sort, profile ∈ profiles := by
      intro profile hprofile
      rw [Finset.mem_sort] at hprofile
      exact subsumed_subset hprofile
    have hnotFull : (subsumed profiles).sort ≠ ["full"] := by
      intro hfull
      apply hprofiles.known.1
      apply hincluded
      rw [hfull]
      exact List.mem_cons_self
    obtain ⟨selected, hselected, hmem⟩ := @foldl_selectProfile text policy (subsumed profiles).sort ∅
      fun profile hprofile => hprofiles.known.2 profile (hincluded profile hprofile)
    refine ⟨selected, ?_, fun job hjob => ?_⟩
    · rw [chooseProfiles_of_selective hprofiles]
      unfold Policy.selectedJobs
      rw [if_neg hnotFull]
      exact hselected
    · rw [hmem, Finset.sort_toFinset, declares_subsumed hpolicy hprofiles.known.2]
      constructor
      · intro h
        refine ⟨hjob, fun others hothers => ?_⟩
        rw [← hprofiles.unique hothers]
        exact h.resolve_left (Finset.notMem_empty job)
      · intro h
        exact Or.inr (h.2 profiles hprofiles)
  · rw [not_exists] at hselective
    refine ⟨policy.jobs.toFinset, ?_, fun job hjob => ?_⟩
    · rw [chooseProfiles_of_not_selective hnonempty hselective]
      rfl
    · rw [List.mem_toFinset]
      exact ⟨fun _ => ⟨hjob, fun profiles hprofiles => absurd hprofiles (hselective profiles)⟩, fun _ => hjob⟩

theorem makePlan_chosen {comparison : Comparison} (hpolicy : policy.Accepted) (hnonempty : records ≠ [])
    (hcompare : compare policy view request = .ok comparison) :
    ∃ (plan : Plan) (selected : Finset String), makePlan text codeProjection policy view request records = .ok plan ∧
      plan.jobs = policy.jobs.map (fun job => (job, decide (job ∈ selected))) ∧
        ∀ job ∈ policy.jobs, job ∈ selected ↔ Chosen text codeProjection policy view request records job := by
  obtain ⟨selected, hselected, hmem⟩ :=
    @selectedJobs_chosen text codeProjection policy view request records hpolicy hnonempty
  unfold makePlan
  rw [hcompare]
  refine ⟨_, selected, Results.bind_eq_ok.mpr ⟨comparison, rfl, Results.bind_eq_ok.mpr ⟨selected, hselected, rfl⟩⟩,
    rfl, hmem⟩

theorem selects_iff {comparison : Comparison} (hpolicy : policy.Accepted) (hnonempty : records ≠ [])
    (hcompare : compare policy view request = .ok comparison) :
    Selects text codeProjection policy view request records job ↔
      Chosen text codeProjection policy view request records job := by
  obtain ⟨plan, selected, hplan, hjobs, hmem⟩ :=
    @makePlan_chosen text codeProjection policy view request records comparison hpolicy hnonempty hcompare
  constructor
  · intro ⟨other, hother, hjob⟩
    rw [hplan] at hother
    rw [← Except.ok.inj hother, hjobs, List.mem_map] at hjob
    obtain ⟨found, hfound, hitem⟩ := hjob
    rw [Prod.mk.injEq, decide_eq_true_iff] at hitem
    rw [← hitem.1]
    exact (hmem found hfound).mp hitem.2
  · intro h
    refine ⟨plan, hplan, ?_⟩
    rw [hjobs, List.mem_map]
    exact ⟨job, h.1, by rw [decide_eq_true ((hmem job h.1).mpr h)]⟩

/-! ## Growing change sets -/

theorem pathCount_le_of_nodup (hdistinct : records.Nodup) (hsubset : records ⊆ others) :
    pathCount records ≤ pathCount others := by
  obtain ⟨kept, hperm, hsublist⟩ := hdistinct.subperm hsubset
  unfold pathCount
  rw [← (hperm.map fun record => record.names.length).sum_eq]
  exact (hsublist.map fun record => record.names.length).sum_le_sum fun _ _ => Nat.zero_le _

/-- Growing from `records` to `others` keeps what the path bound of Git says about them. -/
def BoundKept (records others : List ChangeRecord) : Prop :=
  records.Nodup ∨ pathCount records ≤ maxPaths ∨ maxPaths < pathCount others

theorem Chosen.mono (hnonempty : records ≠ []) (hsubset : records ⊆ others) (hkept : BoundKept records others)
    (h : Chosen text codeProjection policy view request records job) :
    Chosen text codeProjection policy view request others job := by
  refine ⟨h.1, fun profiles hprofiles => ?_⟩
  have hbounded : pathCount records ≤ maxPaths := by
    cases hkept with
    | inl hdistinct => exact (pathCount_le_of_nodup hdistinct hsubset).trans hprofiles.bounded
    | inr hkept => exact hkept.resolve_right (Nat.not_lt.mpr hprofiles.bounded)
  obtain ⟨fewer, hfewer, hincluded⟩ := hprofiles.of_subset hnonempty hbounded hsubset
  exact (h.2 fewer hfewer).mono hincluded

/-- The profiles that `path_profiles` returns for a path of a record, with the contents read for it. -/
def PathProfile (text : PythonText) (codeProjection : CodeProjection) (policy : Policy) (view : CandidateView)
    (record : ChangeRecord) (profile : String) : Prop :=
  ∃ pages, view.examplePages = .ok pages ∧ ∃ item ∈ record.names.zipIdx, ∃ found,
    nameProfiles text codeProjection policy view pages record item = .ok found ∧ profile ∈ found

theorem subset_of_foldlM {pages : List String} {record : ChangeRecord} {items : List (String × Nat)}
    {start result : Finset String}
    (h : items.foldlM (addName text codeProjection policy view pages record) start = .ok result) :
    start ⊆ result ∧ ∀ item ∈ items, ∃ found,
      nameProfiles text codeProjection policy view pages record item = .ok found ∧ found ⊆ result := by
  induction items generalizing start with
  | nil => exact ⟨(Except.ok.inj h).subset, fun item hitem => (nomatch hitem)⟩
  | cons first rest ih =>
    rw [List.foldlM_cons, Results.bind_eq_ok] at h
    obtain ⟨next, hnext, h⟩ := h
    obtain ⟨found, hfound, hunion⟩ := Results.bind_eq_ok.mp hnext
    obtain ⟨hstart, hrest⟩ := ih h
    rw [← Except.ok.inj hunion] at hstart
    refine ⟨Finset.subset_union_left.trans hstart, fun item hitem => ?_⟩
    cases List.mem_cons.mp hitem with
    | inl hsame =>
      rw [hsame]
      exact ⟨found, hfound, Finset.subset_union_right.trans hstart⟩
    | inr hmem => exact hrest item hmem

/-- A classified change set has the profiles of all its paths. -/
theorem Selective.pathProfile_mem {record : ChangeRecord} {profile : String}
    (h : Selective text codeProjection policy view request records profiles) (hrecord : record ∈ records)
    (hprofile : PathProfile text codeProjection policy view record profile) : profile ∈ profiles := by
  obtain ⟨pages, hpages, hcollected⟩ := h.collected
  obtain ⟨others, hothers, item, hitem, found, hfound, hmem⟩ := hprofile
  have hsame : others = pages := Except.ok.inj (hothers.symm.trans hpages)
  rw [hsame] at hfound
  obtain ⟨collected, hadded, hincluded⟩ := (Escalation.collect_spec hcollected).1 record hrecord
  rw [added_eq_some] at hadded
  unfold recordProfiles at hadded
  split at hadded
  · exact nomatch hadded
  · obtain ⟨all, hall, hsome⟩ := Results.bind_eq_ok.mp hadded
    obtain ⟨again, hagain, hsubset⟩ := (subset_of_foldlM hall).2 item hitem
    rw [Except.ok.inj (hfound.symm.trans hagain)] at hmem
    rw [← Option.some.inj (Except.ok.inj hsome)] at hincluded
    exact hincluded (hsubset hmem)

/-- Everything is chosen, or every job of every profile that a path of the change set has. -/
theorem chosen_all_or_paths :
    (∀ job ∈ policy.jobs, Chosen text codeProjection policy view request records job) ∨
      ∀ record ∈ records, ∀ profile, PathProfile text codeProjection policy view record profile →
        ∃ jobs, policy.profileJobs.lookup profile = some jobs ∧
          ∀ job ∈ jobs, job ∈ policy.jobs → Chosen text codeProjection policy view request records job := by
  by_cases hselective : ∃ profiles, Selective text codeProjection policy view request records profiles
  · right
    obtain ⟨profiles, hprofiles⟩ := hselective
    intro record hrecord profile hpath
    have hprofile := hprofiles.pathProfile_mem hrecord hpath
    obtain ⟨item, hitem, hname⟩ := List.mem_map.mp (hprofiles.known.2 profile hprofile)
    cases hlookup : policy.profileJobs.lookup profile with
    | none =>
      rw [List.lookup_eq_none_iff] at hlookup
      exact absurd hname.symm (by simpa using hlookup item hitem)
    | some jobs =>
      refine ⟨jobs, rfl, fun job hjob hdeclared => ⟨hdeclared, fun others hothers => ?_⟩⟩
      rw [← hprofiles.unique hothers]
      exact ⟨profile, hprofile, jobs, hlookup, hjob⟩
  · left
    rw [not_exists] at hselective
    exact fun job hjob => ⟨hjob, fun profiles hprofiles => absurd hprofiles (hselective profiles)⟩

theorem lookup_map_pair {values : List String} {flag : String → Bool} {name : String} (h : name ∈ values) :
    (values.map fun value => (value, flag value)).lookup name = some (flag name) := by
  induction values with
  | nil => exact nomatch h
  | cons value values ih =>
    rw [List.map_cons, List.lookup_cons]
    by_cases hsame : name = value
    · rw [hsame, beq_self_eq_true]
    · rw [beq_false_of_ne hsame]
      exact ih ((List.mem_cons.mp h).resolve_left hsame)

/-- What the gate requires includes what the expected plan selects. -/
theorem verifyGate_selected {planValue needsValue : Json} {comparison : Comparison}
    {expected : Plan} {results : List (String × String)} (hpolicy : policy.Accepted) (hnonempty : records ≠ [])
    (hcompare : compare policy view request = .ok comparison)
    (hplan : makePlan text codeProjection policy view request records = .ok expected)
    (hgate : verifyGate text planValue needsValue policy comparison (some expected) = .ok results) :
    Concluded needsValue "validation-plan" "success" ∧
      ∀ job ∈ policy.jobs,
        (Selects text codeProjection policy view request records job → Concluded needsValue job "success") ∧
          (Concluded needsValue job "success" ∨ Concluded needsValue job "skipped") := by
  obtain ⟨plan, selected, hmade, hjobs, hmem⟩ :=
    @makePlan_chosen text codeProjection policy view request records comparison hpolicy hnonempty hcompare
  rw [hmade] at hplan
  rw [Except.ok.inj hplan] at hjobs
  obtain ⟨jobs, hcheck, hresults⟩ := verifyGate_ok hgate
  constructor
  · obtain ⟨result, hconcluded, hsuccess, -⟩ := hresults "validation-plan" List.mem_cons_self
    have hresult : result = "success" := hsuccess (by simp [isRequired])
    rw [← hresult]
    exact hconcluded
  · intro job hjob
    obtain ⟨result, hconcluded, hsuccess, hpassed⟩ := hresults job (List.mem_cons_of_mem "validation-plan" hjob)
    constructor
    · intro hselects
      have hchosen := (hmem job hjob).mpr ((selects_iff hpolicy hnonempty hcompare).mp hselects)
      have hlookup : expected.jobs.lookup job = some true := by
        rw [hjobs, lookup_map_pair hjob, decide_eq_true hchosen]
      rw [← hsuccess (isRequired_of_expected hcheck hlookup)]
      exact hconcluded
    · cases List.mem_pair.mp hpassed with
      | inl hsame =>
        left
        rw [← hsame]
        exact hconcluded
      | inr hsame =>
        right
        rw [← hsame]
        exact hconcluded

/-- Selection is monotone and the gate enforces it. -/
theorem selection_monotone {path : String} {raw : Except String Json} {comparison : Comparison}
    (hload : loadPolicy text path raw = .ok policy)
    (hcompare : compare policy view request = .ok comparison) :
    (∀ records others, records ≠ [] → (∀ record, record ∈ records ↔ record ∈ others) →
      pathCount records ≤ maxPaths → pathCount others ≤ maxPaths → ∀ job,
        Selects text codeProjection policy view request records job ↔
          Selects text codeProjection policy view request others job) ∧
    (∀ records others, records ≠ [] → records ⊆ others → BoundKept records others → ∀ job,
      Selects text codeProjection policy view request records job →
        Selects text codeProjection policy view request others job) ∧
    ∀ records, records ≠ [] →
      ((∀ job ∈ policy.jobs, Selects text codeProjection policy view request records job) ∨
        ∀ record ∈ records, ∀ profile, PathProfile text codeProjection policy view record profile →
          ∃ jobs, policy.profileJobs.lookup profile = some jobs ∧
            ∀ job ∈ jobs, Selects text codeProjection policy view request records job) ∧
      ∃ expected, makePlan text codeProjection policy view request records = .ok expected ∧
        ∀ planValue needsValue results,
          verifyGate text planValue needsValue policy comparison (some expected) = .ok results →
          Concluded needsValue "validation-plan" "success" ∧
            ∀ job ∈ policy.jobs,
              (Selects text codeProjection policy view request records job → Concluded needsValue job "success") ∧
                (Concluded needsValue job "success" ∨ Concluded needsValue job "skipped") := by
  have hpolicy := loadPolicy_accepted hload
  have hne : ∀ {records others : List ChangeRecord}, records ≠ [] → records ⊆ others → others ≠ [] := by
    intro records others hnonempty hsubset hempty
    rw [hempty] at hsubset
    exact hnonempty (List.subset_nil.mp hsubset)
  have hmono : ∀ {records others : List ChangeRecord}, records ≠ [] → records ⊆ others → BoundKept records others →
      ∀ job, Selects text codeProjection policy view request records job →
        Selects text codeProjection policy view request others job := by
    intro records others hnonempty hsubset hkept job hselects
    rw [selects_iff hpolicy (hne hnonempty hsubset) hcompare]
    rw [selects_iff hpolicy hnonempty hcompare] at hselects
    exact hselects.mono hnonempty hsubset hkept
  refine ⟨?_, fun records others => hmono, ?_⟩
  · intro records others hnonempty hsame hbounded hothers job
    have hto : records ⊆ others := fun record hrecord => (hsame record).mp hrecord
    have hfrom : others ⊆ records := fun record hrecord => (hsame record).mpr hrecord
    exact ⟨hmono hnonempty hto (Or.inr (Or.inl hbounded)) job,
      hmono (hne hnonempty hto) hfrom (Or.inr (Or.inl hothers)) job⟩
  · intro records hnonempty
    obtain ⟨expected, selected, hplan, -⟩ :=
      @makePlan_chosen text codeProjection policy view request records comparison hpolicy hnonempty hcompare
    refine ⟨?_, expected, hplan, fun planValue needsValue results hgate => ?_⟩
    · simp only [selects_iff hpolicy hnonempty hcompare]
      cases @chosen_all_or_paths text codeProjection policy view request records with
      | inl hall => exact Or.inl hall
      | inr hpaths =>
        right
        intro record hrecord profile hprofile
        obtain ⟨jobs, hjobs, hchosen⟩ := hpaths record hrecord profile hprofile
        exact ⟨jobs, hjobs, fun job hjob => hchosen job hjob (hpolicy.declared profile jobs hjobs job hjob)⟩
    · exact verifyGate_selected hpolicy hnonempty hcompare hplan hgate

/-! ## A site whose pages are prose -/

def siteText : PythonText := ⟨id, Char.isAlphanum⟩

def siteCalls : Json := .array [.array [.str "just", .str "check"]]

def siteDocument : Json :=
  .object [("schema", .int 3), ("repository", .str "acme/site"), ("jobs", .array [.str "build", .str "docs"]),
    ("profile_jobs", .object [("prose", .array [.str "docs"])]), ("public_documentation_root", .str "site/"),
    ("full_documentation_roots", .array []), ("executable_documentation_roots", .array []),
    ("executable_documentation_paths", .array []), ("documentation_examples_manifest", .null),
    ("local_commands", .object [("full", siteCalls), ("prose", siteCalls)])]

def sitePolicy : Policy :=
  ⟨"acme/site", ["build", "docs"], [("prose", ["docs"])], "site/", [], [], [], none,
    [("full", [["just", "check"]]), ("prose", [["just", "check"]])], [], [], "policy.json"⟩

def siteView : CandidateView := ⟨.ok [], fun _ _ => .ok (some []), .ok true, .ok true, .ok true⟩

def siteSha (ch : Char) : String := String.ofList (List.replicate 40 ch)

def siteRequest : PlanRequest := ⟨.pullRequest, siteSha 'a', siteSha 'b', siteSha 'c', siteSha 'a', false⟩

def siteComparison : Comparison := ⟨"pull_request", siteSha 'a', siteSha 'b', siteSha 'c'⟩

def siteProjection : CodeProjection := fun _ => some []

def sitePage : ChangeRecord := ⟨.modified, ["site/index.md"], rfl⟩

theorem site_loads : loadPolicy siteText "policy.json" (.ok siteDocument) = .ok sitePolicy := by decide +kernel

theorem site_compares : compare sitePolicy siteView siteRequest = .ok siteComparison := by decide +kernel

theorem site_page_selects_docs :
    Selects siteText siteProjection sitePolicy siteView siteRequest [sitePage] "docs" := by
  rw [selects_iff (loadPolicy_accepted site_loads) (List.cons_ne_nil sitePage []) site_compares]
  refine ⟨by decide, fun profiles hprofiles => ?_⟩
  obtain ⟨pages, hpages, hcollected⟩ := hprofiles.collected
  cases hpages
  have hprose : Escalation.collect (added siteText siteProjection sitePolicy siteView []) [sitePage] =
      some {"prose"} := by decide +kernel
  rw [hprose] at hcollected
  cases hcollected
  exact ⟨"prose", Finset.mem_singleton_self "prose", ["docs"], rfl, List.mem_cons_self⟩

theorem selection_monotone_site :
    Selects siteText siteProjection sitePolicy siteView siteRequest [sitePage, ⟨.added, ["site/new.md"], rfl⟩]
      "docs" :=
  (@selection_monotone siteText siteProjection sitePolicy siteView siteRequest "policy.json" (.ok siteDocument)
      siteComparison site_loads site_compares).2.1 [sitePage] _ (List.cons_ne_nil sitePage [])
    (fun _ hrecord => List.mem_of_mem_head? (by rw [List.mem_singleton.mp hrecord]; rfl))
    (Or.inl (List.nodup_singleton sitePage)) "docs" site_page_selects_docs

theorem site_page_selective :
    Selective siteText siteProjection sitePolicy siteView siteRequest [sitePage] {"prose"} where
  compared := ⟨rfl, rfl⟩
  contained := rfl
  nonempty := List.cons_ne_nil sitePage []
  bounded := by decide
  collected := ⟨[], rfl, by decide +kernel⟩
  known := by decide

/-- One page changed more often than the bound allows selects the build, which the page alone does not. -/
theorem repeated_page_selects_build :
    loadPolicy siteText "policy.json" (.ok siteDocument) = .ok sitePolicy ∧
      siteRequest.event.comparesCandidate = true ∧ compare sitePolicy siteView siteRequest = .ok siteComparison ∧
      List.replicate 5001 sitePage ≠ [] ∧ (∀ record ∈ List.replicate 5001 sitePage, record ∈ [sitePage]) ∧
      Selects siteText siteProjection sitePolicy siteView siteRequest (List.replicate 5001 sitePage) "build" ∧
      ¬Selects siteText siteProjection sitePolicy siteView siteRequest [sitePage] "build" := by
  have hpolicy := loadPolicy_accepted site_loads
  have hnonempty : List.replicate 5001 sitePage ≠ [] := by
    rw [ne_eq, List.replicate_eq_nil_iff]
    decide
  refine ⟨site_loads, rfl, site_compares, hnonempty, ?_, ?_, ?_⟩
  · intro record hrecord
    rw [List.eq_of_mem_replicate hrecord]
    exact List.mem_cons_self
  · rw [selects_iff hpolicy hnonempty site_compares]
    refine ⟨by decide, fun profiles hprofiles => ?_⟩
    have hbounded := hprofiles.bounded
    rw [pathCount, List.map_replicate, List.sum_replicate] at hbounded
    exact absurd hbounded (by decide)
  · rw [selects_iff hpolicy (List.cons_ne_nil sitePage []) site_compares]
    intro hchosen
    obtain ⟨profile, hprofile, jobs, hjobs, hjob⟩ := hchosen.2 {"prose"} site_page_selective
    rw [Finset.mem_singleton] at hprofile
    rw [hprofile] at hjobs
    have hdocs : ["docs"] = jobs := Option.some.inj hjobs
    rw [← hdocs] at hjob
    exact absurd hjob (by decide)

end Boxferry.Automation
