import Boxferry.Automation.Planner

/-! # The validation gate

The aggregate check of the outcomes of a candidate's jobs against its plan, which is not trusted. -/
namespace Boxferry.Automation
open Model Contracts
set_option autoImplicit false

/-- A contract that does not hold, or a required check that did not pass. -/
inductive GateError where
  | contract (error : ContractError)
  | failure (text : String)
deriving DecidableEq

abbrev Gated (α : Type) : Type := Except GateError α

def planSchema : Int := 3

def planKeys : List String :=
  ["schema", "repository", "event", "base_sha", "head_sha", "tested_sha", "profile", "profiles", "jobs", "reasons",
    "local_fingerprint"]

/-- Whether two lists of keys have the same members. -/
def sameKeys (keys others : List String) : Bool :=
  keys.all (fun key => key ∈ others) && others.all fun key => key ∈ keys

def isSchema : Json → Bool
  | .int version => version = planSchema
  | _ => false

def checkSha (plan : List (String × Json)) (key expected : String) : Checked Unit := do
  let sha ← exactSha expected key
  require ((field plan key).isText sha) ("validation plan is not bound to the exact " ++ key)

def isFingerprint (text : String) : Bool :=
  text.toList.length = 64 && text.toList.all fun ch => ch.isDigit || ('a' ≤ ch && ch ≤ 'f')

def acceptsFingerprint (event : String) : Json → Bool
  | .null => true
  | .str fingerprint => event = "local" && isFingerprint fingerprint
  | _ => false

def selection : String × Json → Option (String × Bool)
  | (job, .bool enabled) => some (job, enabled)
  | _ => none

def checkComplete (comparison : Comparison) (profiles : List String) : Checked Unit :=
  if comparison.event ∈ ["pull_request", "merge_group", "local"] then pure ()
  else do
    require (profiles = ["full"] && comparison.baseSha = comparison.testedSha)
      "non-PR/queue validation must be complete at the tested revision"
    require (comparison.headSha = comparison.testedSha) "non-PR/queue head must equal the tested revision"

/-- The selections of a plan that the policy, and the plan expected of the comparison, agree with. -/
def checkPlan (text : PythonText) (planValue : Json) (policy : Policy) (comparison : Comparison)
    (expectedPlan : Option Plan) : Checked (List (String × Bool)) := do
  let plan ← objectValue planValue "validation plan"
  require (sameKeys (plan.map Prod.fst) planKeys && isSchema (field plan "schema"))
    "missing or unsupported validation plan; regenerate with schema 3"
  require ((field plan "repository").isText policy.repository && (field plan "event").isText comparison.event)
    "validation plan repository/event mismatch"
  checkSha plan "base_sha" comparison.baseSha
  checkSha plan "head_sha" comparison.headSha
  checkSha plan "tested_sha" comparison.testedSha
  let profiles ← strings (field plan "profiles") "plan profiles" true
  require (profiles.insertionSort (· ≤ ·) = profiles && ("full" ∉ profiles || profiles = ["full"]))
    "plan profiles must be canonical; full cannot be mixed"
  require ((field plan "profile").isText (profileLabel profiles)) "plan profile does not match its constituent profiles"
  checkComplete comparison profiles
  let _ ← strings (field plan "reasons") "plan reasons" true
  require (acceptsFingerprint comparison.event (field plan "local_fingerprint")) "invalid local fingerprint"
  let jobs ← objectValue (field plan "jobs") "plan jobs"
  match jobs.mapM selection with
  | none => .error ⟨"plan has unknown, missing, or non-boolean job selections"⟩
  | some jobs => do
    require (sameKeys (jobs.map Prod.fst) policy.jobs)
      "plan has unknown, missing, or non-boolean job selections"
    let selected ← policy.selectedJobs text profiles
    require (((jobs.filter Prod.snd).map Prod.fst).toFinset = selected)
      "plan jobs do not equal the trusted union of constituent profiles"
    require (expectedPlan.all fun expected =>
        profiles = expected.profiles && profileLabel profiles = expected.profile &&
          sameKeys (jobs.map Prod.fst) (expected.jobs.map Prod.fst) &&
            jobs.all fun item => expected.jobs.lookup item.1 = some item.2)
      "plan selections differ from an independent exact-candidate comparison"
    pure jobs

def jobResults : List String := ["success", "failure", "cancelled", "skipped"]

/-- The result of a job among the needs of the aggregate. -/
def jobResult (needs : List (String × Json)) (job : String) : Checked String := do
  let outcome ← objectValue (field needs job) (job ++ " outcome")
  match field outcome "result" with
  | .str result => do
    require (result ∈ jobResults) (job ++ " has a missing or unknown result")
    pure result
  | _ => .error ⟨job ++ " has a missing or unknown result"⟩

def isRequired (jobs : List (String × Bool)) (job : String) : Bool :=
  job = "validation-plan" || jobs.lookup job = some true

/-- What is wrong with the result of a job. -/
def jobFailure (jobs : List (String × Bool)) (item : String × String) : Option String :=
  if isRequired jobs item.1 then
    if item.2 ≠ "success" then some ("selected " ++ item.1 ++ " concluded " ++ item.2) else none
  else if item.2 ∉ ["success", "skipped"] then some ("unselected " ++ item.1 ++ " concluded " ++ item.2)
  else none

def readResult (needs : List (String × Json)) (job : String) : Checked (String × String) := do
  let result ← jobResult needs job
  pure (job, result)

def checkNeeds (needsValue : Json) (policy : Policy) : Checked (List (String × String)) := do
  let needs ← objectValue needsValue "aggregate job dependencies"
  require (sameKeys (needs.map Prod.fst) ("validation-plan" :: policy.jobs))
    "aggregate job dependencies do not match policy"
  ("validation-plan" :: policy.jobs).mapM (readResult needs)

def verifyGate (text : PythonText) (planValue needsValue : Json) (policy : Policy) (comparison : Comparison)
    (expectedPlan : Option Plan) : Gated (List (String × String)) := do
  let jobs ← (checkPlan text planValue policy comparison expectedPlan).mapError .contract
  let results ← (checkNeeds needsValue policy).mapError .contract
  let failures := results.filterMap (jobFailure jobs)
  if failures.isEmpty then pure results
  else .error (.failure ("; ".intercalate failures))

/-! ## What a returned gate has seen -/

/-- A job of the needs concluded with a result. -/
def Concluded (needsValue : Json) (job result : String) : Prop :=
  ∃ needs outcome, objectValue needsValue "aggregate job dependencies" = .ok needs ∧
    objectValue (field needs job) (job ++ " outcome") = .ok outcome ∧ field outcome "result" = .str result

variable {text : PythonText} {planValue needsValue : Json} {policy : Policy} {comparison : Comparison}
  {expectedPlan : Option Plan} {results : List (String × String)} {jobs : List (String × Bool)}

theorem jobResult_ok {needs : List (String × Json)} {job result : String} (h : jobResult needs job = .ok result) :
    ∃ outcome, objectValue (field needs job) (job ++ " outcome") = .ok outcome ∧ field outcome "result" = .str result := by
  unfold jobResult at h
  obtain ⟨outcome, houtcome, h⟩ := Results.bind_eq_ok.mp h
  refine ⟨outcome, houtcome, ?_⟩
  split at h
  · next found hfound =>
    obtain ⟨⟨⟩, -, h⟩ := Results.bind_eq_ok.mp h
    rw [hfound, Except.ok.inj h]
  · exact nomatch h

/-- Every job of the policy, and the plan itself, has a result that was read from the needs. -/
theorem checkNeeds_ok (h : checkNeeds needsValue policy = .ok results) :
    ∀ job ∈ "validation-plan" :: policy.jobs, ∃ result, (job, result) ∈ results ∧ Concluded needsValue job result := by
  unfold checkNeeds at h
  obtain ⟨needs, hneeds, h⟩ := Results.bind_eq_ok.mp h
  obtain ⟨⟨⟩, -, h⟩ := Results.bind_eq_ok.mp h
  rw [Results.mapM_eq_ok] at h
  intro job hjob
  obtain ⟨item, hitem, hread⟩ := Related.exists_right h job hjob
  obtain ⟨result, hresult, hsame⟩ := Results.bind_eq_ok.mp hread
  rw [← Except.ok.inj hsame] at hitem
  obtain ⟨outcome, houtcome, hfield⟩ := jobResult_ok hresult
  exact ⟨result, hitem, needs, outcome, hneeds, houtcome, hfield⟩

theorem jobFailure_eq_none {item : String × String} (h : jobFailure jobs item = none) :
    (isRequired jobs item.1 = true → item.2 = "success") ∧ item.2 ∈ ["success", "skipped"] := by
  unfold jobFailure at h
  split at h
  · next hrequired =>
    split at h
    · exact nomatch h
    · next hsuccess =>
      rw [not_not] at hsuccess
      rw [hsuccess]
      exact ⟨fun _ => rfl, by decide⟩
  · next hoptional =>
    split at h
    · exact nomatch h
    · next hresult =>
      rw [not_not] at hresult
      exact ⟨fun hrequired => absurd hrequired hoptional, hresult⟩

theorem verifyGate_ok (h : verifyGate text planValue needsValue policy comparison expectedPlan = .ok results) :
    ∃ jobs, checkPlan text planValue policy comparison expectedPlan = .ok jobs ∧
      ∀ job ∈ "validation-plan" :: policy.jobs, ∃ result, Concluded needsValue job result ∧
        (isRequired jobs job = true → result = "success") ∧ result ∈ ["success", "skipped"] := by
  unfold verifyGate at h
  obtain ⟨jobs, hplan, h⟩ := Results.bind_eq_ok.mp h
  obtain ⟨found, hneeds, h⟩ := Results.bind_eq_ok.mp h
  rw [Results.mapError_eq_ok] at hplan hneeds
  dsimp only at h
  split at h
  · next hempty =>
    refine ⟨jobs, hplan, fun job hjob => ?_⟩
    obtain ⟨result, hresult, hconcluded⟩ := checkNeeds_ok hneeds job hjob
    rw [List.isEmpty_iff, List.filterMap_eq_nil_iff] at hempty
    exact ⟨result, hconcluded, jobFailure_eq_none (hempty (job, result) hresult)⟩
  · exact nomatch h

/-- A plan that passes selects what the expected plan does. -/
theorem checkPlan_expected {expected : Plan}
    (h : checkPlan text planValue policy comparison (some expected) = .ok jobs) :
    (∀ job ∈ expected.jobs.map Prod.fst, job ∈ jobs.map Prod.fst) ∧
      ∀ job enabled, (job, enabled) ∈ jobs → expected.jobs.lookup job = some enabled := by
  unfold checkPlan at h
  obtain ⟨plan, -, h⟩ := Results.bind_eq_ok.mp h
  obtain ⟨⟨⟩, -, h⟩ := Results.bind_eq_ok.mp h
  obtain ⟨⟨⟩, -, h⟩ := Results.bind_eq_ok.mp h
  obtain ⟨⟨⟩, -, h⟩ := Results.bind_eq_ok.mp h
  obtain ⟨⟨⟩, -, h⟩ := Results.bind_eq_ok.mp h
  obtain ⟨⟨⟩, -, h⟩ := Results.bind_eq_ok.mp h
  obtain ⟨profiles, -, h⟩ := Results.bind_eq_ok.mp h
  obtain ⟨⟨⟩, -, h⟩ := Results.bind_eq_ok.mp h
  obtain ⟨⟨⟩, -, h⟩ := Results.bind_eq_ok.mp h
  obtain ⟨⟨⟩, -, h⟩ := Results.bind_eq_ok.mp h
  obtain ⟨reasons, -, h⟩ := Results.bind_eq_ok.mp h
  obtain ⟨⟨⟩, -, h⟩ := Results.bind_eq_ok.mp h
  obtain ⟨pairs, -, h⟩ := Results.bind_eq_ok.mp h
  split at h
  · exact nomatch h
  · next selections hselections =>
    obtain ⟨⟨⟩, -, h⟩ := Results.bind_eq_ok.mp h
    obtain ⟨selected, -, h⟩ := Results.bind_eq_ok.mp h
    obtain ⟨⟨⟩, -, h⟩ := Results.bind_eq_ok.mp h
    obtain ⟨⟨⟩, hexpected, h⟩ := Results.bind_eq_ok.mp h
    rw [require_eq_ok, Option.all_some, Bool.and_eq_true, List.all_eq_true] at hexpected
    obtain ⟨hkeys, hvalues⟩ := hexpected
    simp only [Bool.and_eq_true, sameKeys, List.all_eq_true] at hkeys
    rw [← Except.ok.inj h]
    exact ⟨fun job hjob => of_decide_eq_true (hkeys.2.2 job hjob),
      fun job enabled hmem => of_decide_eq_true (hvalues (job, enabled) hmem)⟩

/-- A job that the expected plan selects is required. -/
theorem isRequired_of_expected {expected : Plan} {job : String}
    (h : checkPlan text planValue policy comparison (some expected) = .ok jobs)
    (hselected : expected.jobs.lookup job = some true) : isRequired jobs job = true := by
  obtain ⟨hcovered, hvalues⟩ := checkPlan_expected h
  obtain ⟨item, hitem, hname⟩ := List.mem_map.mp (hcovered job (List.mem_map_of_mem (Lookup.mem_of_lookup hselected)))
  have hfound : jobs.lookup job = some true := by
    cases hlookup : jobs.lookup job with
    | none =>
      rw [List.lookup_eq_none_iff] at hlookup
      exact absurd hname.symm (by simpa using hlookup item hitem)
    | some enabled => exact (hvalues job enabled (Lookup.mem_of_lookup hlookup)).symm.trans hselected
  simp [isRequired, hfound]

end Boxferry.Automation
