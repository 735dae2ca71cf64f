import Boxferry.Quadlet.Export.Scalars
import Boxferry.Quadlet.Import.Scalars

/-! # Agreement of the scalar grammars

Which exported scalars the importer takes back as they are. The two sides check
each value with a grammar of their own. -/
namespace Boxferry.Quadlet
open Engine Lens Model
set_option autoImplicit false

/-! ## Scalars -/

inductive Scalar where
  | sysctl (parameter : KernelParameter)
  | ulimit (limit : ResourceLimit)
  | device (device : Device)
  | tmpfs (value : ProtectedString)
  | capability (add : Bool) (value : ProtectedString)
  | hostname (value : ProtectedString)
  | stopTimeout (timeout : StopTimeout)
  | memory (value : ProtectedString)

/-- Neutral content without sensitivity and provenance. -/
inductive ScalarContent where
  | parameter (name value : String)
  | limit (name : String) (soft hard : Option String)
  | device (parts : List String)
  | text (value : String)
deriving DecidableEq

def spelling (value : Sourced ProtectedString) : String := value.value.expose

/-- A device by its host path, its container path and its permissions. -/
def deviceParts : Device → List String
  | .short value => splitText ':' value.expose
  | .long source target permissions =>
    source.toList.map spelling ++ target.toList.map spelling ++ permissions.toList.map spelling

/-- The host path and the container path of a device. -/
def devicePaths : Device → List String
  | .short value => (splitText ':' value.expose).take 2
  | .long source target _ => source.toList.map spelling ++ target.toList.map spelling

def parameterContent (parameter : KernelParameter) : ScalarContent :=
  .parameter parameter.name.expose parameter.value.expose

def limitContent (limit : ResourceLimit) : ScalarContent :=
  .limit limit.name.expose (limit.soft.map spelling) (limit.hard.map spelling)

namespace Scalar

def content : Scalar → ScalarContent
  | .sysctl parameter => parameterContent parameter
  | .ulimit limit => limitContent limit
  | .device item => .device (deviceParts item)
  | .tmpfs value | .capability _ value | .hostname value | .memory value => .text value.expose
  | .stopTimeout timeout => .text timeout.asStr

/-- What a service stores of the kind of a scalar. -/
def stored (service : Service) : Scalar → List ScalarContent
  | .sysctl _ => (service.sysctls.getD []).map fun parameter => parameterContent parameter.value
  | .ulimit _ => (service.ulimits.getD []).map fun limit => limitContent limit.value
  | .device _ => (service.devices.getD []).map fun device => .device (deviceParts device.value)
  | .tmpfs _ => (service.tmpfs.getD []).map fun value => .text (spelling value)
  | .capability true _ => (service.capAdd.getD []).map fun value => .text (spelling value)
  | .capability false _ => (service.capDrop.getD []).map fun value => .text (spelling value)
  | .hostname _ => service.hostname.toList.map fun value => .text (spelling value)
  | .stopTimeout _ => service.stopTimeout.toList.map fun timeout => .text timeout.value.asStr
  | .memory _ => service.memoryLimit.toList.map fun value => .text (spelling value)

def key : Scalar → ContainerKey
  | .sysctl _ => .sysctl
  | .ulimit _ => .ulimit
  | .device _ => .addDevice
  | .tmpfs _ => .tmpfs
  | .capability true _ => .addCapability
  | .capability false _ => .dropCapability
  | .hostname _ => .hostName
  | .stopTimeout _ => .stopTimeout
  | .memory _ => .memory

/-- The exporter's mapping of a scalar. -/
def «export» (m : Export.Mapping) (subject : Export.Subject) (origins : List Provenance)
    (builder : Export.UnitBuilder) : Scalar → Export.Mapped Export.UnitBuilder
  | .sysctl parameter => m.mapSysctl subject origins builder parameter
  | .ulimit limit => m.mapUlimit subject origins builder limit
  | .device item => m.mapDevice subject origins builder item
  | .tmpfs value => m.mapTmpfs subject origins builder value
  | .capability add value => m.mapCapability subject origins builder add value
  | .hostname value => m.mapHostname subject origins builder value
  | .stopTimeout timeout => m.mapStopTimeout subject origins builder timeout
  | .memory value => m.mapMemory subject origins builder value

/-- Where the two grammars agree on what the exporter takes. -/
def Agreed : Scalar → Prop
  | .sysctl parameter => parameter.value.expose ≠ "" ∧
      (∀ ch ∈ parameter.name.expose.toList, ch ∉ ['/', ':', '@', '+', '=', ',']) ∧
      ∀ ch ∈ parameter.value.expose.toList, ch ∉ ['@', '+', '=', ',']
  | .device item => ∀ path ∈ devicePaths item, ∀ ch ∈ path.toList,
      ch.isAlphanum = true ∨ ch ∈ ['_', '-', '.', '/', '@', '+']
  | _ => True

/-- The text of a scalar that the exporter takes. -/
def exported? : Scalar → Option String
  | .sysctl parameter =>
    if Export.isSafeSysctl parameter.name.expose parameter.value.expose then
      some (parameter.name.expose ++ ("=" ++ parameter.value.expose))
    else none
  | .ulimit limit =>
    match limit.soft, limit.hard with
    | some soft, some hard =>
      if Export.isSafeUlimit limit.name.expose (spelling soft) (spelling hard) then
        some (limit.name.expose ++ ("=" ++ (spelling soft ++ (":" ++ spelling hard))))
      else none
    | _, _ => none
  | .device item => Export.reviewedDeviceValue item
  | .tmpfs value => if Export.isSafeTmpfs value.expose then some value.expose else none
  | .capability _ value => if Export.isSafeCapability value.expose then some value.expose else none
  | .hostname value => if Export.isSafeHostname value.expose then some value.expose else none
  | .stopTimeout timeout =>
    if (parseU64 timeout.asStr).any (0 < ·) then some timeout.asStr else none
  | .memory value => if Export.isPositiveMemory value.expose then some value.expose else none

end Scalar

/-! ## The exporter -/

section Exporting
variable {m : Export.Mapping} {subject decided : Export.Subject} {origins reported : List Provenance}
  {builder : Export.UnitBuilder}

/-- The builder with one more container entry. -/
def pushed (builder : Export.UnitBuilder) (key : ContainerKey) (text : String) : Export.UnitBuilder :=
  { builder with entries := builder.entries ++ [⟨.container key, text⟩] }

theorem mapRawContainerValue_exact {value : ProtectedString} {capability reason : String}
    {key : ContainerKey} {validate : String → Bool}
    (h : .exact decided reported ∈
      (m.mapRawContainerValue subject origins builder value capability key validate reason).log) :
    validate value.expose = true ∧
      (m.mapRawContainerValue subject origins builder value capability key validate reason).value =
        pushed builder key value.expose := by
  unfold Export.Mapping.mapRawContainerValue at h ⊢
  cases hvalid : validate value.expose with
  | false => simp [hvalid, Export.unsupported, Export.loss] at h
  | true =>
    simp only [hvalid, Bool.not_true, Bool.false_eq_true, if_false] at h ⊢
    exact ⟨trivial, m.emit_exact h⟩

theorem mapSysctl_exact {sysctl : KernelParameter}
    (h : .exact decided reported ∈ (m.mapSysctl subject origins builder sysctl).log) :
    ∃ text, (Scalar.sysctl sysctl).exported? = some text ∧
      (m.mapSysctl subject origins builder sysctl).value = pushed builder .sysctl text := by
  unfold Export.Mapping.mapSysctl at h ⊢
  cases hvalid : Export.isSafeSysctl sysctl.name.expose sysctl.value.expose with
  | false => simp [hvalid, Export.unsupported, Export.loss] at h
  | true =>
    simp only [hvalid, Bool.not_true, Bool.false_eq_true, if_false] at h ⊢
    exact ⟨_, by simp [Scalar.exported?, hvalid], m.emit_exact h⟩

theorem mapUlimit_exact {limit : ResourceLimit}
    (h : .exact decided reported ∈ (m.mapUlimit subject origins builder limit).log) :
    ∃ text, (Scalar.ulimit limit).exported? = some text ∧
      (m.mapUlimit subject origins builder limit).value = pushed builder .ulimit text := by
  obtain ⟨name, soft, hard⟩ := limit
  cases soft with
  | none => simp [Export.Mapping.mapUlimit, Export.unsupported, Export.loss] at h
  | some soft =>
    cases hard with
    | none => simp [Export.Mapping.mapUlimit, Export.unsupported, Export.loss] at h
    | some hard =>
      unfold Export.Mapping.mapUlimit at h ⊢
      simp only at h ⊢
      cases hvalid : Export.isSafeUlimit name.expose soft.value.expose hard.value.expose with
      | false => simp [hvalid, Export.unsupported, Export.loss] at h
      | true =>
        simp only [hvalid, Bool.not_true, Bool.false_eq_true, if_false] at h ⊢
        exact ⟨_, by simp [Scalar.exported?, spelling, hvalid], m.emit_exact h⟩

theorem mapDevice_exact {device : Device}
    (h : .exact decided reported ∈ (m.mapDevice subject origins builder device).log) :
    ∃ text, (Scalar.device device).exported? = some text ∧
      (m.mapDevice subject origins builder device).value = pushed builder .addDevice text := by
  unfold Export.Mapping.mapDevice at h ⊢
  cases hvalue : Export.reviewedDeviceValue device with
  | none => simp [hvalue, Export.unsupported, Export.loss] at h
  | some text =>
    simp only [hvalue] at h ⊢
    exact ⟨text, hvalue, m.emit_exact h⟩

theorem mapStopTimeout_exact {timeout : StopTimeout}
    (h : .exact decided reported ∈ (m.mapStopTimeout subject origins builder timeout).log) :
    ∃ text, (Scalar.stopTimeout timeout).exported? = some text ∧
      (m.mapStopTimeout subject origins builder timeout).value = pushed builder .stopTimeout text := by
  unfold Export.Mapping.mapStopTimeout at h ⊢
  cases hseconds : parseU64 timeout.asStr with
  | none => simp [hseconds, Export.unsupported, Export.loss] at h
  | some seconds =>
    simp only [hseconds, Reports.mem_log_bind, Reports.value_bind] at h ⊢
    rcases h with hcapability | htail
    · exact absurd hcapability m.exact_not_mem_capability
    · split at htail
      · next havailable =>
        simp only [if_pos havailable, Reports.mem_log_bind, Reports.value_bind] at htail ⊢
        rcases htail with hpush | hreport
        · exact absurd hpush m.exact_not_mem_push
        · split at hreport
          · next haccepted =>
            by_cases hzero : seconds = 0
            · simp [hzero, Export.approximate, Export.loss] at hreport
            · refine ⟨timeout.asStr, ?_, ?_⟩
              · simp [Scalar.exported?, hseconds, Nat.pos_of_ne_zero hzero]
              · simp only [if_pos haccepted, if_neg hzero]
                exact m.push_accepted haccepted
          · simp at hreport
      · simp at htail

/-- A scalar that is reported exact was pushed as the text of its grammar. -/
theorem export_exact {scalar : Scalar}
    (h : .exact decided reported ∈ (scalar.export m subject origins builder).log) :
    ∃ text, scalar.exported? = some text ∧
      (scalar.export m subject origins builder).value = pushed builder scalar.key text := by
  have hraw : ∀ {value : ProtectedString} {capability reason : String} {key : ContainerKey}
      {validate : String → Bool}, .exact decided reported ∈
        (m.mapRawContainerValue subject origins builder value capability key validate reason).log →
      ∃ text, (if validate value.expose then some value.expose else none) = some text ∧
        (m.mapRawContainerValue subject origins builder value capability key validate reason).value =
          pushed builder key text := by
    intro value capability reason key validate hexact
    obtain ⟨hvalid, hvalue⟩ := mapRawContainerValue_exact hexact
    exact ⟨value.expose, by rw [if_pos hvalid], hvalue⟩
  cases scalar with
  | sysctl sysctl => exact mapSysctl_exact h
  | ulimit limit => exact mapUlimit_exact h
  | device item => exact mapDevice_exact h
  | stopTimeout timeout => exact mapStopTimeout_exact h
  | tmpfs value => exact hraw h
  | hostname value => exact hraw h
  | memory value => exact hraw h
  | capability add value => cases add <;> exact hraw h

end Exporting

/-! ## Exported text -/

theorem plainText_isSafeWord {value : String} {allowEmpty : Bool}
    (h : Export.isSafeWord value allowEmpty = true) : PlainText value := by
  unfold Export.isSafeWord at h
  rw [Bool.and_eq_true, List.all_eq_true] at h
  exact fun ch hch => isPlain_of_mark (List.forall_iff_forall_mem.mp (by decide)) (h.2 ch hch)

theorem plainText_isSafeAbsoluteContainerPath {value : String}
    (h : Export.isSafeAbsoluteContainerPath value = true) : PlainText value := by
  unfold Export.isSafeAbsoluteContainerPath at h
  rw [Bool.and_eq_true, List.all_eq_true] at h
  exact fun ch hch => isPlain_of_mark (List.forall_iff_forall_mem.mp (by decide)) (h.2 ch hch)

theorem plainText_isSafeTmpfs {value : String} (h : Export.isSafeTmpfs value = true) : PlainText value := by
  unfold Export.isSafeTmpfs at h
  cases hsplit : splitOnce ':' value with
  | none =>
    simp only [hsplit, Bool.and_eq_true] at h
    exact plainText_isSafeAbsoluteContainerPath h.1
  | some parts =>
    obtain ⟨target, options⟩ := parts
    simp only [hsplit, Option.all_some, Bool.and_eq_true, List.all_eq_true] at h
    obtain ⟨htarget, -, hoptions⟩ := h
    have hplain : PlainText options :=
      plainText_of_parts ',' (by decide) fun option hoption => plainText_isSafeWord (hoptions option hoption).1
    intro ch hch
    rw [splitOnce_eq_some hsplit, List.mem_append, List.mem_cons] at hch
    rcases hch with hch | rfl | hch
    · exact plainText_isSafeAbsoluteContainerPath htarget ch hch
    · decide
    · exact hplain ch hch

theorem plainText_isSafeHostname {value : String} (h : Export.isSafeHostname value = true) :
    PlainText value := by
  unfold Export.isSafeHostname at h
  simp only [Bool.and_eq_true, List.all_eq_true] at h
  refine plainText_of_parts '.' (by decide) fun label hlabel ch hch => ?_
  have hchar := (h.2 label hlabel).2 ch hch
  rw [Bool.or_eq_true, decide_eq_true_eq] at hchar
  rcases hchar with halnum | rfl
  · exact isPlain_of_isAlphanum halnum
  · decide

theorem plainText_isSafeCapability {value : String} (h : Export.isSafeCapability value = true) :
    PlainText value := by
  unfold Export.isSafeCapability at h
  simp only [Bool.and_eq_true, List.all_eq_true] at h
  intro ch hch
  rcases mem_withoutPrefix hch with hstart | hname
  · have hall : ∀ mark ∈ "CAP_".toList, IsPlain mark := List.forall_iff_forall_mem.mp (by decide)
    exact hall ch hstart
  · have hchar := h.2 ch hname
    simp only [Bool.or_eq_true, decide_eq_true_eq] at hchar
    rcases hchar with (hupper | hdigit) | rfl
    · exact isPlain_of_isAlphanum (by simp [Char.isAlphanum, isAlpha_eq, hupper])
    · exact isPlain_of_isDigit hdigit
    · decide

theorem plainText_isPositiveMemory {value : String} (h : Export.isPositiveMemory value = true) :
    PlainText value := by
  unfold Export.isPositiveMemory at h
  simp only [Bool.and_eq_true, decide_eq_true_eq] at h
  intro ch hch
  rw [← List.takeWhile_append_dropWhile (p := Char.isDigit) (l := value.toList), List.mem_append] at hch
  rcases hch with hdigit | hsuffix
  · exact isPlain_of_isDigit (List.mem_takeWhile_imp hdigit)
  · have hall : ∀ suffix ∈ ["", "b", "k", "m", "g"], PlainText suffix := by decide
    apply hall _ h.2
    rw [String.toList_ofList]
    exact hsuffix

theorem plainText_isSafeLimitValue {value : String} (h : Export.isSafeLimitValue value = true) :
    PlainText value := by
  unfold Export.isSafeLimitValue at h
  simp only [Bool.or_eq_true, decide_eq_true_eq, Bool.and_eq_true] at h
  rcases h with (rfl | rfl) | ⟨-, hparsed⟩
  · decide
  · decide
  · obtain ⟨number, hnumber, -⟩ := Option.any_eq_true _ _ |>.mp hparsed
    exact plainText_of_parseU64 hnumber

/-! ## The importer -/

/-- The native library reads an emitted entry back on one line, unless its text ends in a backslash. -/
structure ReadsBack (key : ContainerKey) (text : String) (entry : TypedEntry) : Prop where
  kind : entry.kind = .container key
  spelled : entry.primary.text = text
  continued : entry.isContinued = true → text.toList.getLast? = some '\\'

/-- The importer's answer to a container section with a single entry. -/
def importAlone (name : Identifier) (entry : TypedEntry) (origin : Provenance) :
    Option (Import.Answer Service) :=
  match entry.kind with
  | .container key => Import.scalarHandler name.asStr entry origin { name } key
  | _ => none

/-- The imported entry is exact and the service stores the content of the scalar. -/
def TakenBack (scalar : Scalar) (name : Identifier) (entry : TypedEntry) (origin : Provenance) : Prop :=
  ∃ answer, importAlone name entry origin = some answer ∧
    (∃ subject, answer.reports = [(subject, .exact)]) ∧ scalar.stored answer.state = [scalar.content]

section Importing
variable {name : Identifier} {key : ContainerKey} {text : String} {entry : TypedEntry}
  {origin : Provenance}

theorem importAlone_readsBack (name : Identifier) (origin : Provenance)
    (hread : ReadsBack key text entry) :
    importAlone name entry origin = Import.scalarHandler name.asStr entry origin { name } key := by
  unfold importAlone
  rw [hread.kind]

/-- Plain text is answered as it is. -/
theorem direct_plain {σ : Type} {subject : String} {state : σ} {decide : String → Import.Answer σ}
    (hread : ReadsBack key text entry) (hplain : PlainText text) :
    Import.direct subject entry state decide = decide text := by
  have hcontinued : entry.isContinued = false := by
    cases hcase : entry.isContinued with
    | false => rfl
    | true =>
      have hlast := List.mem_of_getLast? (hread.continued hcase)
      exact absurd rfl (hplain '\\' hlast).2
  unfold Import.direct
  rw [hcontinued, hread.spelled, trim_of_unspaced hplain.unspaced]
  rfl

/-- One decision about one new item: the decision is exact, and the item is stored. -/
theorem takenBack_one {scalar : Scalar} {subject : String} {verdict : Import.Verdict} {state : Service}
    (hanswer : importAlone name entry origin = some (.one subject verdict state))
    (hstored : scalar.stored state = [scalar.content]) :
    TakenBack scalar name entry origin ↔ verdict = .exact := by
  constructor
  · rintro ⟨answer, hother, ⟨reported, hreports⟩, -⟩
    rw [hanswer, Option.some.injEq] at hother
    rw [← hother, Import.Answer.reports_one] at hreports
    exact (Prod.mk.inj (List.cons.inj hreports).1).2
  · rintro rfl
    exact ⟨_, hanswer, ⟨subject, rfl⟩, hstored⟩

theorem verdict_ite {accepted : Bool} {verdict : Import.Verdict} (h : verdict ≠ .exact) :
    (if accepted = true then Import.Verdict.exact else verdict) = .exact ↔ accepted = true := by
  cases accepted <;> simp [h]

theorem hostname_takenBack {value : ProtectedString} (hread : ReadsBack .hostName text entry)
    (h : (Scalar.hostname value).exported? = some text) :
    TakenBack (.hostname value) name entry origin := by
  obtain ⟨hsafe, hvalue⟩ := Option.ite_none_right_eq_some.mp h
  obtain rfl := Option.some.inj hvalue
  have himported : Import.isSafeHostname value.expose = true := by
    unfold Export.isSafeHostname at hsafe
    unfold Import.isSafeHostname
    simp only [Bool.and_eq_true] at hsafe ⊢
    exact ⟨hsafe.1.1.2, hsafe.2⟩
  have hanswer := importAlone_readsBack name origin hread
  rw [Import.scalarHandler, Import.mapHostname, direct_plain hread (plainText_isSafeHostname hsafe)]
    at hanswer
  rw [takenBack_one hanswer rfl, if_pos himported]

theorem memory_takenBack {value : ProtectedString} (hread : ReadsBack .memory text entry)
    (h : (Scalar.memory value).exported? = some text) : TakenBack (.memory value) name entry origin := by
  obtain ⟨hsafe, hvalue⟩ := Option.ite_none_right_eq_some.mp h
  obtain rfl := Option.some.inj hvalue
  have himported : Import.isPositiveMemory value.expose = true := hsafe
  have hanswer := importAlone_readsBack name origin hread
  rw [Import.scalarHandler, Import.mapMemory, direct_plain hread (plainText_isPositiveMemory hsafe)]
    at hanswer
  rw [takenBack_one hanswer rfl, if_pos himported]

theorem tmpfs_takenBack {value : ProtectedString} (hread : ReadsBack .tmpfs text entry)
    (h : (Scalar.tmpfs value).exported? = some text) : TakenBack (.tmpfs value) name entry origin := by
  obtain ⟨hsafe, hvalue⟩ := Option.ite_none_right_eq_some.mp h
  obtain rfl := Option.some.inj hvalue
  have himported : Import.isSafeTmpfs value.expose = true := hsafe
  have hnonempty : value.expose.isEmpty = false := by
    rw [Bool.eq_false_iff]
    intro hempty
    rw [String.isEmpty_iff.mp hempty] at hsafe
    revert hsafe
    decide
  have hanswer := importAlone_readsBack name origin hread
  rw [Import.scalarHandler, Import.mapTmpfs, direct_plain hread (plainText_isSafeTmpfs hsafe)] at hanswer
  simp only [hnonempty, Bool.false_eq_true, if_false] at hanswer
  rw [takenBack_one hanswer rfl, if_pos himported]

theorem capability_takenBack {add : Bool} {value : ProtectedString}
    (hread : ReadsBack (Scalar.capability add value).key text entry)
    (h : (Scalar.capability add value).exported? = some text) :
    TakenBack (.capability add value) name entry origin := by
  obtain ⟨hsafe, hvalue⟩ := Option.ite_none_right_eq_some.mp h
  obtain rfl := Option.some.inj hvalue
  have himported : Import.isSafeCapability value.expose = true := hsafe
  have hplain := plainText_isSafeCapability hsafe
  have hnonempty : value.expose.isEmpty = false := by
    rw [Bool.eq_false_iff]
    intro hempty
    rw [String.isEmpty_iff.mp hempty] at hsafe
    revert hsafe
    decide
  have hwords : splitAsciiWhitespace value.expose = [value.expose] := by
    apply splitAsciiWhitespace_of_unspaced hplain.unspaced
    intro hempty
    rw [hempty] at hnonempty
    cases hnonempty
  have hanswer := importAlone_readsBack name origin hread
  cases add with
  | true =>
    rw [Scalar.key, Import.scalarHandler, Import.mapCapability, direct_plain hread hplain] at hanswer
    simp only [Import.capabilityAnswer, hwords, hnonempty, if_true, List.all_cons, List.all_nil, himported,
      Bool.and_self, Bool.false_eq_true, if_false] at hanswer
    exact ⟨_, hanswer, ⟨_, rfl⟩, rfl⟩
  | false =>
    rw [Scalar.key, Import.scalarHandler, Import.mapCapability, direct_plain hread hplain] at hanswer
    simp only [Import.capabilityAnswer, hwords, hnonempty, if_true, List.all_cons, List.all_nil, himported,
      Bool.and_self, Bool.false_eq_true, if_false] at hanswer
    exact ⟨_, hanswer, ⟨_, rfl⟩, rfl⟩

theorem stopTimeout_takenBack {timeout : StopTimeout} (hread : ReadsBack .stopTimeout text entry)
    (h : (Scalar.stopTimeout timeout).exported? = some text) :
    TakenBack (.stopTimeout timeout) name entry origin := by
  obtain ⟨hpositive, hvalue⟩ := Option.ite_none_right_eq_some.mp h
  obtain rfl := Option.some.inj hvalue
  obtain ⟨number, hnumber, -⟩ := Option.any_eq_true _ _ |>.mp hpositive
  have htimeout : StopTimeout.new timeout.asStr = .ok timeout := by
    unfold StopTimeout.new
    split
    · rfl
    · next hinvalid =>
      rw [timeout.valid] at hinvalid
      cases hinvalid
  have hanswer := importAlone_readsBack name origin hread
  rw [Import.scalarHandler, Import.mapStopTimeout, direct_plain hread (plainText_of_parseU64 hnumber)]
    at hanswer
  simp only [htimeout] at hanswer
  rw [takenBack_one hanswer rfl, if_pos hpositive]

theorem ulimit_takenBack {limit : ResourceLimit} (hread : ReadsBack .ulimit text entry)
    (h : (Scalar.ulimit limit).exported? = some text) : TakenBack (.ulimit limit) name entry origin := by
  obtain ⟨limitName, soft, hard⟩ := limit
  cases soft with
  | none => cases h
  | some soft =>
    cases hard with
    | none => cases h
    | some hard =>
      obtain ⟨hsafe, hvalue⟩ := Option.ite_none_right_eq_some.mp h
      obtain rfl := Option.some.inj hvalue
      unfold Export.isSafeUlimit at hsafe
      simp only [Bool.and_eq_true, List.all_eq_true] at hsafe
      obtain ⟨⟨⟨hnonempty, hname⟩, hsoft⟩, hhard⟩ := hsafe
      have hequals : '=' ∉ limitName.expose.toList := by
        intro hmem
        have hlower := hname '=' hmem
        revert hlower
        decide
      have hplainName : PlainText limitName.expose := fun ch hch =>
        isPlain_of_isAlphanum (by simp [Char.isAlphanum, isAlpha_eq, hname ch hch])
      have hplain : PlainText (limitName.expose ++ ("=" ++ (spelling soft ++ (":" ++ spelling hard)))) := by
        have hmarks : PlainText "=" ∧ PlainText ":" := by decide
        exact plainText_append hplainName (plainText_append hmarks.1 (plainText_append
          (plainText_isSafeLimitValue hsoft) (plainText_append hmarks.2 (plainText_isSafeLimitValue hhard))))
      have hsplit : splitOnce '=' (limitName.expose ++ ("=" ++ (spelling soft ++ (":" ++ spelling hard)))) =
          some (limitName.expose, spelling soft ++ (":" ++ spelling hard)) := splitOnce_join hequals
      have hvalues : splitOnce ':' (spelling soft ++ (":" ++ spelling hard)) =
          some (spelling soft, spelling hard) := splitOnce_join (Export.colon_not_mem_isSafeLimitValue hsoft)
      have himported : Import.isSafeUlimitAssignment limitName.expose (spelling soft) (spelling hard) = true := by
        have hdecimal : ∀ value, Export.isSafeLimitValue value = true →
            (decide (value = "-1") || Import.isCanonicalDecimal value) = true := by
          intro value hlimit
          unfold Export.isSafeLimitValue at hlimit
          unfold Import.isCanonicalDecimal Import.isPositiveCanonicalDecimal
          rw [Bool.or_assoc] at hlimit
          exact hlimit
        have hcolon : ∀ value, Export.isSafeLimitValue value = true → (!containsChar value ':') = true := by
          intro value hlimit
          simpa [containsChar] using Export.colon_not_mem_isSafeLimitValue hlimit
        unfold Import.isSafeUlimitAssignment
        simp only [Bool.and_eq_true, List.all_eq_true, List.mem_cons, List.not_mem_nil, or_false]
        refine ⟨⟨⟨⟨hnonempty, ?_⟩, hcolon _ hsoft⟩, hcolon _ hhard⟩, ?_⟩
        · intro ch hch
          simp [hname ch hch]
        · rintro value (rfl | rfl)
          · exact hdecimal _ hsoft
          · exact hdecimal _ hhard
      have hanswer := importAlone_readsBack name origin hread
      rw [Import.scalarHandler, Import.mapUlimit, direct_plain hread hplain] at hanswer
      simp only [hsplit, hvalues] at hanswer
      rw [takenBack_one hanswer rfl, if_pos himported]

/-- A narrower alphabet is a wide one without the dropped marks. -/
theorem narrowed {ch : Char} {wide narrow dropped : List Char}
    (hmarks : ∀ mark ∈ wide, mark ∈ narrow ↔ mark ∉ dropped)
    (hdropped : ∀ mark ∈ dropped, mark.isAlphanum = false)
    (h : (ch.isAlphanum || ch ∈ wide) = true) :
    (ch.isAlphanum || ch ∈ narrow) = true ↔ ch ∉ dropped := by
  cases halnum : ch.isAlphanum with
  | true =>
    simp only [Bool.true_or, true_iff]
    intro hmem
    rw [hdropped ch hmem] at halnum
    cases halnum
  | false =>
    rw [halnum, Bool.false_or, decide_eq_true_eq] at h
    rw [Bool.false_or, decide_eq_true_eq]
    exact hmarks ch h

theorem isSafeSysctlAssignment_iff {name value : String} (hnonempty : (!name.isEmpty) = true)
    (hname : Export.isSafeWord name false = true) (hvalue : Export.isSafeWord value true = true) :
    Import.isSafeSysctlAssignment name value = true ↔ value ≠ "" ∧
      (∀ ch ∈ name.toList, ch ∉ ['/', ':', '@', '+', '=', ',']) ∧
      ∀ ch ∈ value.toList, ch ∉ ['@', '+', '=', ','] := by
  unfold Export.isSafeWord at hname hvalue
  rw [Bool.and_eq_true, List.all_eq_true] at hname hvalue
  have hnameChar : ∀ ch ∈ name.toList, ((ch.isAlphanum || ch ∈ ['_', '.', '-']) = true ↔
      ch ∉ ['/', ':', '@', '+', '=', ',']) :=
    fun ch hch => narrowed (List.forall_iff_forall_mem.mp (by decide))
      (List.forall_iff_forall_mem.mp (by decide)) (hname.2 ch hch)
  have hvalueChar : ∀ ch ∈ value.toList, ((ch.isAlphanum || ch ∈ ['_', '.', '-', '/', ':']) = true ↔
      ch ∉ ['@', '+', '=', ',']) :=
    fun ch hch => narrowed (List.forall_iff_forall_mem.mp (by decide))
      (List.forall_iff_forall_mem.mp (by decide)) (hvalue.2 ch hch)
  unfold Import.isSafeSysctlAssignment
  simp only [Bool.and_eq_true, List.all_eq_true]
  constructor
  · rintro ⟨⟨⟨⟨-, hassigned⟩, -⟩, hnames⟩, hvalues⟩
    refine ⟨?_, fun ch hch => (hnameChar ch hch).mp (hnames ch hch),
      fun ch hch => (hvalueChar ch hch).mp (hvalues ch hch)⟩
    rintro rfl
    revert hassigned
    decide
  · rintro ⟨hassigned, hnames, hvalues⟩
    refine ⟨⟨⟨⟨hnonempty, ?_⟩, ?_⟩, fun ch hch => (hnameChar ch hch).mpr (hnames ch hch)⟩,
      fun ch hch => (hvalueChar ch hch).mpr (hvalues ch hch)⟩
    · rw [Bool.not_eq_true', Bool.eq_false_iff]
      exact fun hempty => hassigned (String.isEmpty_iff.mp hempty)
    · rw [Bool.not_eq_true', Bool.eq_false_iff]
      intro hcontains
      exact hvalues '=' (List.contains_iff_mem.mp hcontains) (by decide)

theorem sysctl_takenBack {parameter : KernelParameter} (hread : ReadsBack .sysctl text entry)
    (h : (Scalar.sysctl parameter).exported? = some text) :
    TakenBack (.sysctl parameter) name entry origin ↔ (Scalar.sysctl parameter).Agreed := by
  obtain ⟨hsafe, hvalue⟩ := Option.ite_none_right_eq_some.mp h
  obtain rfl := Option.some.inj hvalue
  unfold Export.isSafeSysctl at hsafe
  simp only [Bool.and_eq_true] at hsafe
  obtain ⟨⟨⟨hnonempty, hequals⟩, hname⟩, hassigned⟩ := hsafe
  have hplain : PlainText (parameter.name.expose ++ ("=" ++ parameter.value.expose)) := by
    have hmark : PlainText "=" := by decide
    exact plainText_append (plainText_isSafeWord hname)
      (plainText_append hmark (plainText_isSafeWord hassigned))
  have hsplit : splitOnce '=' (parameter.name.expose ++ ("=" ++ parameter.value.expose)) =
      some (parameter.name.expose, parameter.value.expose) := by
    apply splitOnce_join
    simpa [containsChar] using hequals
  have hanswer := importAlone_readsBack name origin hread
  rw [Import.scalarHandler, Import.mapSysctl, direct_plain hread hplain] at hanswer
  simp only [hsplit] at hanswer
  rw [takenBack_one hanswer rfl, verdict_ite (by simp)]
  exact isSafeSysctlAssignment_iff hnonempty hname hassigned

/-! ### Devices -/

theorem isSafeDevicePath_iff {path : String} (h : Export.isReviewedDeviceComponent path = true) :
    Import.isSafeDevicePath path = true ↔
      ∀ ch ∈ path.toList, ch.isAlphanum = true ∨ ch ∈ ['_', '-', '.', '/', '@', '+'] := by
  unfold Export.isReviewedDeviceComponent at h
  simp only [Bool.and_eq_true, List.all_eq_true] at h
  obtain ⟨⟨⟨⟨⟨hdevice, hlength⟩, -⟩, hmarks⟩, -⟩, hparts⟩ := h
  have hslash : startsWith path "/" = true := by
    unfold startsWith at hdevice ⊢
    rw [List.isPrefixOf_iff_prefix] at hdevice ⊢
    exact List.IsPrefix.trans ⟨"dev/".toList, rfl⟩ hdevice
  have hpercent : (!containsChar path '%') = true := by
    rw [Bool.not_eq_true', Bool.eq_false_iff] at hmarks ⊢
    intro hcontains
    apply hmarks
    rw [List.any_eq_true]
    exact ⟨'%', List.contains_iff_mem.mp hcontains, by decide⟩
  have hup : ∀ part ∈ splitText '/' path, decide (part ≠ "..") = true := by
    intro part hpart
    have hdots := hparts part hpart
    simp only [decide_eq_true_eq] at hdots ⊢
    exact hdots.2
  unfold Import.isSafeDevicePath Import.isSafeAbsoluteContainerPath
  simp only [Bool.and_eq_true, List.all_eq_true, Bool.or_eq_true, decide_eq_true_eq]
  constructor
  · rintro ⟨-, -, hchars⟩
    exact hchars
  · intro hchars
    exact ⟨⟨hdevice, of_decide_eq_true hlength⟩, ⟨⟨hslash, hpercent⟩, fun part hpart =>
      of_decide_eq_true (hup part hpart)⟩, hchars⟩

/-- An exported device: its reviewed parts, and its text split at the colons. -/
structure ReviewedDevice (item : Device) (text source : String) (target permissions : Option String) :
    Prop where
  reviewed : Export.reviewedDeviceParts source target permissions = true
  parts : deviceParts item = source :: (target.toList ++ permissions.toList)
  paths : devicePaths item = source :: target.toList
  split : splitText ':' text = deviceParts item

theorem colon_not_mem_component {path : String} (h : Export.isReviewedDeviceComponent path = true) :
    ':' ∉ path.toList := by
  unfold Export.isReviewedDeviceComponent at h
  simp only [Bool.and_eq_true] at h
  intro hcolon
  have hmarks := h.1.1.2
  rw [Bool.not_eq_true', Bool.eq_false_iff] at hmarks
  exact hmarks (List.any_eq_true.mpr ⟨':', hcolon, by decide⟩)

theorem plainText_permissions {permissions : String}
    (h : Export.isReviewedDevicePermissions permissions = true) :
    PlainText permissions ∧ ':' ∉ permissions.toList := by
  unfold Export.isReviewedDevicePermissions at h
  simp only [Bool.and_eq_true, List.all_eq_true, decide_eq_true_eq] at h
  constructor
  · have hall : ∀ mark ∈ ['r', 'w', 'm'], IsPlain mark := List.forall_iff_forall_mem.mp (by decide)
    exact fun ch hch => hall ch (h.1.2 ch hch)
  · intro hcolon
    have hmark := h.1.2 ':' hcolon
    revert hmark
    decide

/-- A joined device splits into its parts. -/
theorem splitText_device {source : String} {target permissions : Option String}
    (hsource : ':' ∉ source.toList) (htarget : ∀ container, target = some container → ':' ∉ container.toList)
    (hpermissions : ∀ access, permissions = some access → ':' ∉ access.toList)
    (hshape : (permissions.isNone || target.isSome) = true) :
    splitText ':' (source ++ (target.elim "" fun container => ":" ++ container) ++
      permissions.elim "" fun access => ":" ++ access) = source :: (target.toList ++ permissions.toList) := by
  have hparts : ∀ part ∈ source :: (target.toList ++ permissions.toList), ':' ∉ part.toList := by
    intro part hpart
    simp only [List.mem_cons, List.mem_append, Option.mem_toList] at hpart
    rcases hpart with rfl | hpart | hpart
    · exact hsource
    · exact htarget part hpart
    · exact hpermissions part hpart
  rw [← splitText_join ':' _ (List.cons_ne_nil _ _) hparts]
  congr 1
  apply String.toList_inj.mp
  cases target with
  | none =>
    cases permissions with
    | none => simp
    | some access => cases hshape
  | some container => cases permissions <;> simp

theorem reviewedDevice_short {value : ProtectedString} {text : String}
    (h : Export.reviewedDeviceSpelling value.expose = some text) :
    ∃ source target permissions, ReviewedDevice (.short value) text source target permissions := by
  unfold Export.reviewedDeviceSpelling at h
  split at h
  · next source hsplit =>
    obtain ⟨hreviewed, htext⟩ := Option.ite_none_right_eq_some.mp h
    obtain rfl := Option.some.inj htext
    exact ⟨source, none, none, hreviewed, hsplit, by simp [devicePaths, hsplit], rfl⟩
  · next source target hsplit =>
    obtain ⟨hreviewed, htext⟩ := Option.ite_none_right_eq_some.mp h
    obtain rfl := Option.some.inj htext
    exact ⟨source, some target, none, hreviewed, hsplit, by simp [devicePaths, hsplit], rfl⟩
  · next source target permissions hsplit =>
    obtain ⟨hreviewed, htext⟩ := Option.ite_none_right_eq_some.mp h
    obtain rfl := Option.some.inj htext
    exact ⟨source, some target, some permissions, hreviewed, hsplit, by simp [devicePaths, hsplit], rfl⟩
  · cases h

theorem reviewedDevice_long {source target permissions : Option (Sourced ProtectedString)} {text : String}
    (h : Export.reviewedDeviceValue (.long source target permissions) = some text) :
    ∃ path container access,
      ReviewedDevice (.long source target permissions) text path container access := by
  cases source with
  | none => cases h
  | some source =>
    obtain ⟨hreviewed, htext⟩ := Option.ite_none_right_eq_some.mp h
    obtain rfl := Option.some.inj htext
    refine ⟨spelling source, target.map spelling, permissions.map spelling, hreviewed, ?_, ?_, ?_⟩
    · cases target <;> cases permissions <;> rfl
    · cases target <;> rfl
    · unfold Export.reviewedDeviceParts at hreviewed
      simp only [Bool.and_eq_true] at hreviewed
      obtain ⟨⟨⟨hsource, htarget⟩, hpermissions⟩, hshape⟩ := hreviewed
      refine (splitText_device (colon_not_mem_component hsource) ?_ ?_ hshape).trans ?_
      · intro container hcontainer
        rw [hcontainer] at htarget
        exact colon_not_mem_component htarget
      · intro access haccess
        rw [haccess] at hpermissions
        exact (plainText_permissions hpermissions).2
      · cases target <;> cases permissions <;> rfl

theorem reviewedDevice {item : Device} {text : String} (h : Export.reviewedDeviceValue item = some text) :
    ∃ source target permissions, ReviewedDevice item text source target permissions := by
  cases item with
  | short value => exact reviewedDevice_short h
  | long source target permissions => exact reviewedDevice_long h

theorem isSafeDevice_iff {item : Device} {source : String} {target permissions : Option String}
    (h : ReviewedDevice item text source target permissions) :
    Import.isSafeDevice text = true ↔ (Scalar.device item).Agreed := by
  obtain ⟨hreviewed, hparts, hpaths, hsplit⟩ := h
  unfold Export.reviewedDeviceParts at hreviewed
  simp only [Bool.and_eq_true] at hreviewed
  obtain ⟨⟨⟨hsource, htarget⟩, hpermissions⟩, hshape⟩ := hreviewed
  show Import.isSafeDevice text = true ↔ ∀ path ∈ devicePaths item, ∀ ch ∈ path.toList,
    ch.isAlphanum = true ∨ ch ∈ ['_', '-', '.', '/', '@', '+']
  unfold Import.isSafeDevice
  rw [hsplit, hparts, hpaths]
  cases target with
  | none =>
    cases permissions with
    | some access => cases hshape
    | none => simp [isSafeDevicePath_iff hsource]
  | some container =>
    cases permissions with
    | none => simp [isSafeDevicePath_iff hsource, isSafeDevicePath_iff htarget]
    | some access =>
      have haccess := hpermissions
      rw [Option.all_some, Export.isReviewedDevicePermissions] at haccess
      simp only [Bool.and_eq_true] at haccess
      simp only [Option.toList_some, List.singleton_append, Bool.and_eq_true, haccess.1.1, haccess.1.2,
        haccess.2, and_true, isSafeDevicePath_iff hsource, isSafeDevicePath_iff htarget,
        List.forall_mem_cons, List.not_mem_nil, false_implies, implies_true]

theorem plainText_device {item : Device} {source : String} {target permissions : Option String}
    (h : ReviewedDevice item text source target permissions) :
    Unspaced text ∧ ((Scalar.device item).Agreed → PlainText text) := by
  obtain ⟨hreviewed, hparts, hpaths, hsplit⟩ := h
  unfold Export.reviewedDeviceParts at hreviewed
  simp only [Bool.and_eq_true] at hreviewed
  obtain ⟨⟨⟨hsource, htarget⟩, hpermissions⟩, -⟩ := hreviewed
  have hcomponent : ∀ {path : String}, Export.isReviewedDeviceComponent path = true → Unspaced path := by
    intro path hpath ch hch
    unfold Export.isReviewedDeviceComponent at hpath
    simp only [Bool.and_eq_true] at hpath
    have hspaces := hpath.1.2
    rw [Bool.not_eq_true', Bool.eq_false_iff] at hspaces
    rw [Bool.eq_false_iff]
    exact fun hspace => hspaces (List.any_eq_true.mpr ⟨ch, hch, hspace⟩)
  have hpathAlphabet : ∀ mark ∈ ['_', '-', '.', '/', '@', '+'], IsPlain mark :=
    List.forall_iff_forall_mem.mp (by decide)
  -- A part is a reviewed path, or permissions.
  have hpart : ∀ part ∈ splitText ':' text, (part ∈ devicePaths item ∧ Unspaced part) ∨ PlainText part := by
    intro part hmem
    rw [hsplit, hparts] at hmem
    rw [hpaths]
    simp only [List.mem_cons, List.mem_append, Option.mem_toList] at hmem ⊢
    rcases hmem with rfl | rfl | rfl
    · exact Or.inl ⟨Or.inl rfl, hcomponent hsource⟩
    · exact Or.inl ⟨Or.inr rfl, hcomponent htarget⟩
    · exact Or.inr (plainText_permissions hpermissions).1
  constructor
  · intro ch hch
    rcases mem_splitText ':' hch with rfl | ⟨part, hmem, hchar⟩
    · decide
    · rcases hpart part hmem with ⟨-, hunspaced⟩ | hplain
      · exact hunspaced ch hchar
      · exact hplain.unspaced ch hchar
  · intro hagreed
    apply plainText_of_parts ':' (by decide)
    intro part hmem
    rcases hpart part hmem with ⟨hpath, -⟩ | hplain
    · intro ch hch
      rcases hagreed part hpath ch hch with halnum | hmark
      · exact isPlain_of_isAlphanum halnum
      · exact hpathAlphabet ch hmark
    · exact hplain

theorem device_takenBack {item : Device} (hread : ReadsBack .addDevice text entry)
    (h : (Scalar.device item).exported? = some text) :
    TakenBack (.device item) name entry origin ↔ (Scalar.device item).Agreed := by
  obtain ⟨source, target, permissions, hreviewed⟩ := reviewedDevice h
  obtain ⟨hunspaced, hplain⟩ := plainText_device hreviewed
  have hanswer := importAlone_readsBack name origin hread
  rw [Import.scalarHandler, Import.mapDevice] at hanswer
  unfold Import.direct at hanswer
  rw [hread.spelled, trim_of_unspaced hunspaced] at hanswer
  cases hcontinued : entry.isContinued with
  | true =>
    simp only [hcontinued, if_true] at hanswer
    have hslash := List.mem_of_getLast? (hread.continued hcontinued)
    constructor
    · rintro ⟨answer, hother, ⟨reported, hreports⟩, -⟩
      rw [hanswer, Option.some.injEq] at hother
      rw [← hother] at hreports
      cases hreports
    · intro hagreed
      exact absurd rfl (hplain hagreed '\\' hslash).2
  | false =>
    simp only [hcontinued, Bool.false_eq_true, if_false] at hanswer
    have hstored : ScalarContent.device (deviceParts (.short ⟨text, false⟩)) = .device (deviceParts item) := by
      rw [← hreviewed.split]
      rfl
    have hkept : (Scalar.device item).stored
        { name := name, devices := some [⟨.short ⟨text, false⟩, [origin]⟩]
          devicesOrigins := [origin] } = [(Scalar.device item).content] :=
      congrArg (fun content => [content]) hstored
    rw [takenBack_one hanswer hkept, verdict_ite (by simp)]
    exact isSafeDevice_iff hreviewed

end Importing

/-! ## Agreement -/

/-- An exported scalar that is reported exact is taken back as it is exactly when the two grammars
agree on it. -/
theorem scalar_agreement {m : Export.Mapping} {subject decided : Export.Subject}
    {origins reported : List Provenance} {builder : Export.UnitBuilder} {scalar : Scalar} {text : String}
    {name : Identifier} {entry : TypedEntry} {origin : Provenance}
    (hexact : .exact decided reported ∈ (scalar.export m subject origins builder).log)
    (hpushed : (scalar.export m subject origins builder).value.entries =
      builder.entries ++ [⟨.container scalar.key, text⟩])
    (hread : ReadsBack scalar.key text entry) :
    TakenBack scalar name entry origin ↔ scalar.Agreed := by
  obtain ⟨exported, hexported, hvalue⟩ := export_exact hexact
  have htext : exported = text := by
    rw [hvalue] at hpushed
    have hentry := List.append_cancel_left hpushed
    simpa using hentry
  subst htext
  cases scalar with
  | sysctl parameter => exact sysctl_takenBack hread hexported
  | device item => exact device_takenBack hread hexported
  | ulimit limit => exact iff_of_true (ulimit_takenBack hread hexported) trivial
  | tmpfs value => exact iff_of_true (tmpfs_takenBack hread hexported) trivial
  | capability add value => exact iff_of_true (capability_takenBack hread hexported) trivial
  | hostname value => exact iff_of_true (hostname_takenBack hread hexported) trivial
  | stopTimeout timeout => exact iff_of_true (stopTimeout_takenBack hread hexported) trivial
  | memory value => exact iff_of_true (memory_takenBack hread hexported) trivial

/-! ## Two exported scalars -/

def scalarMapping : Export.Mapping where
  exporter := ⟨.permissive, .separateContainers, none⟩
  application := Application.new ⟨"demo", Identifier.valid_demo⟩
  podmanTarget := some ⟨⟨5, 0, 0⟩, none⟩

def scalarEntry (key : ContainerKey) (text : String) : TypedEntry :=
  ⟨"Key", .container key, true, .other, ⟨text, ⟨0, 0, 0, NativeSpan.ordered_start⟩⟩, []⟩

theorem scalarEntry_readsBack (key : ContainerKey) (text : String) :
    ReadsBack key text (scalarEntry key text) :=
  ⟨rfl, rfl, fun h => nomatch h⟩

/-- A forwarding parameter of a VLAN interface, whose name is spelled with a slash. -/
def slashedSysctl : Scalar :=
  .sysctl ⟨⟨"net.ipv4.conf.eth0/1.forwarding", false⟩, ⟨"1", false⟩⟩

def scalarService : Identifier := ⟨"web", Identifier.valid_web⟩

def scalarOrigin : Provenance := ⟨.sourceDocument, ⟨"demo", SourceId.valid_demo⟩, none⟩

def scalarExport (scalar : Scalar) : Export.Mapped Export.UnitBuilder :=
  scalar.export scalarMapping (.serviceSetting "web" "scalar") [] ⟨.container, []⟩

theorem slashedSysctl_kept_unsupported :
    .exact (.serviceSetting "web" "scalar") [] ∈ (scalarExport slashedSysctl).log ∧
    (scalarExport slashedSysctl).value.entries =
      [⟨.container .sysctl, "net.ipv4.conf.eth0/1.forwarding=1"⟩] ∧
    ¬ TakenBack slashedSysctl scalarService
      (scalarEntry .sysctl "net.ipv4.conf.eth0/1.forwarding=1") scalarOrigin := by
  refine ⟨by decide +kernel, by decide +kernel, ?_⟩
  rintro ⟨answer, hanswer, ⟨subject, hreports⟩, -⟩
  have hverdict : (importAlone scalarService
      (scalarEntry .sysctl "net.ipv4.conf.eth0/1.forwarding=1") scalarOrigin).map
        (fun answer => answer.reports.map Prod.snd) = some
          [.unsupported "Sysctl is retained but must have one safe nonempty NAME=VALUE assignment"] := by
    decide +kernel
  rw [hanswer, Option.map_some, hreports] at hverdict
  cases hverdict

def sizedMemory : Scalar := .memory ⟨"512m", false⟩

theorem scalar_agreement_memory :
    TakenBack sizedMemory scalarService (scalarEntry .memory "512m") scalarOrigin ↔ sizedMemory.Agreed :=
  have hexact : .exact (.serviceSetting "web" "scalar") [] ∈ (scalarExport sizedMemory).log := by
    decide +kernel
  have hpushed : (scalarExport sizedMemory).value.entries = [⟨.container .memory, "512m"⟩] := by
    decide +kernel
  scalar_agreement hexact hpushed (scalarEntry_readsBack .memory "512m")

end Boxferry.Quadlet
