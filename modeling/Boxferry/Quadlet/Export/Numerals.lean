import Boxferry.Quadlet.Export.Dependencies
import Boxferry.Quadlet.Export.Scalars

/-! # Exported numerals

Stop timeouts, resource limits and signals are texts that an integer parser accepts. That parser
takes a leading plus sign, and the accepted text is pushed as it stands, so the pushed texts are
decimal exactly when no accepted text is signed. -/
namespace Boxferry.Quadlet.Export
open Engine Lens Model
set_option autoImplicit false

/-! ## Accepted texts -/

def isSafeStopSignal (value : String) : Bool :=
  ((parseUnsigned (2 ^ 8) value).any fun number =>
      1 ≤ number && number ≤ 64 && (value = "0" || !startsWith value "0")) ||
    startsWith value "SIG" &&
      ((withoutPrefix "SIG" value).toList.head?.any Char.isUpper &&
        (withoutPrefix "SIG" value).toList.all fun ch => ch.isUpper || ch.isDigit)

def isDecimal (text : String) : Bool := !text.isEmpty && text.toList.all Char.isDigit

/-- A limit is decimal or the unlimited marker. -/
def isLimit (text : String) : Bool := text = "-1" || isDecimal text

/-- A signal is named or decimal. -/
def isSignal (text : String) : Bool := startsWith text "SIG" || isDecimal text

def isSigned (text : String) : Bool := startsWith text "+"

/-- The two limits of a `name=soft:hard` text. -/
def limitsOf (text : String) : Option (String × String) :=
  (splitOnce '=' text).bind fun parts => splitOnce ':' parts.2

/-- The numerals of an entry are plain decimal. -/
def plainEntry : UnitEntry → Bool
  | ⟨.container .stopTimeout, text⟩ => isDecimal text
  | ⟨.container .ulimit, text⟩ => (limitsOf text).any fun limits => isLimit limits.1 && isLimit limits.2
  | ⟨.container .stopSignal, text⟩ | ⟨.container .reloadSignal, text⟩ => isSignal text
  | _ => true

theorem isDecimal_of_parseUnsigned {bound number : Nat} {text : String}
    (h : parseUnsigned bound text = some number) : isDecimal text = !isSigned text := by
  have hdigits : ∀ chars : List Char,
      (if (chars.isEmpty || !chars.all Char.isDigit) = true then none
      else if chars.foldl (fun total ch => total * 10 + (ch.toNat - 48)) 0 < bound then
        some (chars.foldl (fun total ch => total * 10 + (ch.toNat - 48)) 0)
      else none) = some number → chars ≠ [] ∧ chars.all Char.isDigit = true := by
    intro chars hparsed
    obtain ⟨hchars, -⟩ := Option.ite_none_left_eq_some.mp hparsed
    rw [Bool.or_eq_true, not_or, Bool.not_eq_true', Bool.not_eq_false, List.isEmpty_iff] at hchars
    exact hchars
  unfold parseUnsigned at h
  unfold isDecimal isSigned startsWith
  have hempty : text.isEmpty = text.toList.isEmpty := by
    rw [Bool.eq_iff_iff, String.isEmpty_iff, List.isEmpty_iff, String.toList_eq_nil_iff]
  rw [hempty]
  cases htext : text.toList with
  | nil =>
    rw [htext] at h
    exact absurd rfl (hdigits [] h).1
  | cons first rest =>
    rw [htext] at h
    by_cases hplus : first = '+'
    · subst hplus
      simp
    · have hall := (hdigits (first :: rest) (by simpa [hplus] using h)).2
      have hleading : ("+".toList.isPrefixOf (first :: rest)) = false := by
        show ('+' == first && _) = false
        rw [beq_eq_false_iff_ne.mpr fun heq => hplus heq.symm, Bool.false_and]
      rw [hleading, hall]
      rfl

theorem isLimit_of_isSafeLimitValue {text : String} (h : isSafeLimitValue text = true) :
    isLimit text = !isSigned text := by
  unfold isSafeLimitValue at h
  simp only [Bool.or_eq_true, decide_eq_true_eq, Bool.and_eq_true] at h
  rcases h with (rfl | rfl) | ⟨-, hparsed⟩
  · decide
  · decide
  · obtain ⟨number, hnumber, -⟩ := (Option.any_eq_true _ _).mp hparsed
    by_cases hmarker : text = "-1"
    · subst hmarker
      decide
    · unfold isLimit
      rw [decide_eq_false hmarker, Bool.false_or]
      exact isDecimal_of_parseUnsigned hnumber

theorem isSigned_of_named {text : String} (h : startsWith text "SIG" = true) : isSigned text = false := by
  unfold startsWith at h
  unfold isSigned startsWith
  cases htext : text.toList with
  | nil => rfl
  | cons first rest =>
    rw [htext] at h
    have hfirst : ('S' == first) = true := (Bool.and_eq_true _ _ ▸ h : _ ∧ _).1
    rw [← beq_iff_eq.mp hfirst]
    rfl

theorem isSignal_of_isSafeStopSignal {text : String} (h : isSafeStopSignal text = true) :
    isSignal text = !isSigned text := by
  unfold isSignal
  by_cases hnamed : startsWith text "SIG" = true
  · rw [hnamed, isSigned_of_named hnamed]
    rfl
  · rw [Bool.not_eq_true] at hnamed
    unfold isSafeStopSignal at h
    rw [hnamed, Bool.false_and, Bool.or_false] at h
    obtain ⟨number, hnumber, -⟩ := (Option.any_eq_true _ _).mp h
    rw [hnamed, Bool.false_or]
    exact isDecimal_of_parseUnsigned hnumber

theorem limitsOf_text {name soft hard : String} (h : isSafeUlimit name soft hard = true) :
    limitsOf (name ++ ("=" ++ (soft ++ (":" ++ hard)))) = some (soft, hard) := by
  unfold isSafeUlimit at h
  simp only [Bool.and_eq_true, List.all_eq_true] at h
  obtain ⟨⟨⟨-, hname⟩, hsoft⟩, -⟩ := h
  have hequals : '=' ∉ name.toList := by
    intro hmem
    have hlower := hname '=' hmem
    revert hlower
    decide
  have hassignment : splitOnce '=' (name ++ ("=" ++ (soft ++ (":" ++ hard)))) =
      some (name, soft ++ (":" ++ hard)) := splitOnce_join hequals
  unfold limitsOf
  rw [hassignment]
  exact splitOnce_join (colon_not_mem_isSafeLimitValue hsoft)

/-- A safe limit assignment is plain unless one of its limits is signed. -/
theorem plainEntry_ulimit {name soft hard : String} (h : isSafeUlimit name soft hard = true) :
    plainEntry ⟨.container .ulimit, name ++ ("=" ++ (soft ++ (":" ++ hard)))⟩ =
      (!isSigned soft && !isSigned hard) := by
  show (limitsOf _).any _ = _
  rw [limitsOf_text h]
  unfold isSafeUlimit at h
  simp only [Bool.and_eq_true] at h
  rw [← isLimit_of_isSafeLimitValue h.1.2, ← isLimit_of_isSafeLimitValue h.2]
  rfl

/-! ## The four settings -/

/-- The settings of a container whose values are numerals. -/
inductive NumericSetting where
  | ulimits
  | stopSignal
  | stopTimeout
  | reloadAction
deriving DecidableEq

def resourceLimitOrigins (collectionOrigins : List Provenance) (limit : Sourced ResourceLimit) :
    List Provenance :=
  let origins := extendOrigins collectionOrigins limit.origins
  let origins := extendOrigins origins (limit.value.soft.elim [] Sourced.origins)
  extendOrigins origins (limit.value.hard.elim [] Sourced.origins)

namespace Mapping
variable (m : Mapping) (service : Service) (builder : UnitBuilder)

def setting (name : String) : Subject := .serviceSetting service.name.asStr name

def mapUlimits : Mapped UnitBuilder :=
  match service.ulimits with
  | none => pure builder
  | some limits => do
    if limits.isEmpty then
      unsupported (setting service "ulimits")
        "an explicit empty ulimits collection is retained but has no safe repeatable Quadlet reset encoding"
        service.ulimitsOrigins
    limits.zipIdx.foldlM (fun builder (limit, index) =>
      m.mapUlimit (setting service ("ulimits[" ++ toString index ++ "]"))
        (resourceLimitOrigins service.ulimitsOrigins limit) builder limit.value) builder

def mapStopSignal : Mapped UnitBuilder :=
  match service.stopSignal with
  | none => pure builder
  | some signal =>
    m.mapRawContainerValue (setting service "stop_signal") signal.origins builder signal.value
      "quadlet.container.stop-signal" .stopSignal isSafeStopSignal
      "stop signal must be a non-empty systemd-safe token or number without grammar normalization"

def mapReloadSignal (signal : ProtectedString) (subject : Subject) (origins : List Provenance) :
    Mapped UnitBuilder := do
  let available ← (if isSafeStopSignal signal.expose then
    m.capability "quadlet.container.reload-signal" subject origins else pure false)
  let answer ← (if available then
    m.push builder (.container .reloadSignal) signal.expose subject origins else pure (false, builder))
  (if answer.1 then exact subject origins
    else unsupported subject "reload signal is not safely encodable" origins)
  pure answer.2

def mapReloadAction : Mapped UnitBuilder :=
  match service.reloadAction with
  | none => pure builder
  | some reload =>
    let subject := setting service "reload_action"
    match reload.value with
    | .signal signal => m.mapReloadSignal builder signal subject reload.origins
    | .command (.exec arguments) =>
      if !arguments.isEmpty && arguments.all (fun argument => isSafeWord argument.expose false) then
        m.emit "quadlet.container.reload-cmd" (.container .reloadCmd)
          (" ".intercalate (arguments.map ProtectedString.expose)) subject reload.origins builder
      else do
        unsupported subject "reload command requires unsupported systemd command-line encoding"
          reload.origins
        pure builder
    | .command _ => do
      unsupported subject "reload command requires unsupported systemd command-line encoding"
        reload.origins
      pure builder

def mapNumericSetting : NumericSetting → Mapped UnitBuilder
  | .ulimits => m.mapUlimits service builder
  | .stopSignal => m.mapStopSignal service builder
  | .stopTimeout => match service.stopTimeout with
    | none => pure builder
    | some timeout =>
      m.mapStopTimeout (setting service "stop_timeout") timeout.origins builder timeout.value
  | .reloadAction => m.mapReloadAction service builder

/-- The entries a setting adds to the container unit. -/
def addedEntries (which : NumericSetting) : List UnitEntry :=
  (m.mapNumericSetting service builder which).value.entries.drop builder.entries.length

end Mapping

/-! ## What a setting can push -/

/-- The entry of a limit that the reviewed grammar accepts. -/
def limitEntryOf? (limit : ResourceLimit) : Option UnitEntry :=
  match limit.soft, limit.hard with
  | some soft, some hard =>
    if isSafeUlimit limit.name.expose soft.value.expose hard.value.expose then
      some ⟨.container .ulimit,
        limit.name.expose ++ ("=" ++ (soft.value.expose ++ (":" ++ hard.value.expose)))⟩
    else none
  | _, _ => none

/-- The entries of a setting when nothing refuses them. -/
def settingEntries (service : Service) : NumericSetting → List UnitEntry
  | .ulimits => (service.ulimits.getD []).filterMap fun limit => limitEntryOf? limit.value
  | .stopSignal => (service.stopSignal.filter fun signal => isSafeStopSignal signal.value.expose).toList.map
      fun signal => ⟨.container .stopSignal, signal.value.expose⟩
  | .stopTimeout => (service.stopTimeout.filter fun timeout => (parseU64 timeout.value.asStr).isSome).toList.map
      fun timeout => ⟨.container .stopTimeout, timeout.value.asStr⟩
  | .reloadAction => match service.reloadAction.map Sourced.value with
    | some (.signal signal) =>
      if isSafeStopSignal signal.expose then [⟨.container .reloadSignal, signal.expose⟩] else []
    | some (.command (.exec arguments)) =>
      if !arguments.isEmpty && arguments.all (fun argument => isSafeWord argument.expose false) then
        [⟨.container .reloadCmd, " ".intercalate (arguments.map ProtectedString.expose)⟩]
      else []
    | _ => []

/-- Every capability is available and every entry is taken. -/
def Mapping.Permits (m : Mapping) : Prop :=
  m.exporter.library = .permissive ∧ m.podmanTarget.isSome = true

/-- A step that adds some of the given entries, in order, and all of them when nothing is refused. -/
structure Adds (m : Mapping) (builder : UnitBuilder) (entries : List UnitEntry)
    (result : UnitBuilder) : Prop where
  some_added : ∃ added, added.Sublist entries ∧ result.entries = builder.entries ++ added
  all_added : m.Permits → result.entries = builder.entries ++ entries

section Adding
variable {m : Mapping} {builder : UnitBuilder}

theorem adds_nothing : Adds m builder [] builder where
  some_added := ⟨[], List.Sublist.refl _, (List.append_nil _).symm⟩
  all_added _ := (List.append_nil _).symm

theorem Adds.refused {entries : List UnitEntry} (h : ¬ m.Permits) : Adds m builder entries builder where
  some_added := ⟨[], List.nil_sublist _, (List.append_nil _).symm⟩
  all_added hpermits := absurd hpermits h

theorem Adds.append {first second : List UnitEntry} {middle last : UnitBuilder}
    (hfirst : Adds m builder first middle) (hsecond : Adds m middle second last) :
    Adds m builder (first ++ second) last where
  some_added := by
    obtain ⟨added, hadded, hmiddle⟩ := hfirst.some_added
    obtain ⟨more, hmore, hlast⟩ := hsecond.some_added
    refine ⟨added ++ more, hadded.append hmore, ?_⟩
    rw [hlast, hmiddle, List.append_assoc]
  all_added hpermits := by
    rw [hsecond.all_added hpermits, hfirst.all_added hpermits, List.append_assoc]

/-- A loop adds what its items add. -/
theorem adds_foldlM {ι : Type} {step : UnitBuilder → ι → Mapped UnitBuilder} {items : List ι}
    {entries : ι → List UnitEntry}
    (hstep : ∀ builder, ∀ item ∈ items, Adds m builder (entries item) (step builder item).value) :
    Adds m builder (items.flatMap entries) (items.foldlM step builder).value := by
  induction items generalizing builder with
  | nil => exact adds_nothing
  | cons item rest ih =>
    rw [Reports.foldlM_cons, Reports.value_bind, List.flatMap_cons]
    have hhead := hstep builder item List.mem_cons_self
    exact hhead.append (ih fun builder other hother => hstep builder other (List.mem_cons_of_mem _ hother))

theorem capability_of_permits (h : m.Permits) (name : String) (subject : Subject)
    (origins : List Provenance) : (m.capability name subject origins).value = true := by
  obtain ⟨hlibrary, htarget⟩ := h
  obtain ⟨target, htarget⟩ := Option.isSome_iff_exists.mp htarget
  unfold Mapping.capability
  rw [htarget, hlibrary]
  rfl

theorem adds_push (key : EntryKey) (value : String) (subject : Subject) (origins : List Provenance) :
    Adds m builder [⟨key, value⟩] (m.push builder key value subject origins).value.2 := by
  unfold Mapping.push
  cases hrejected : m.exporter.library.rejects builder ⟨key, value⟩ with
  | none =>
    exact ⟨⟨_, List.Sublist.refl _, rfl⟩, fun _ => rfl⟩
  | some error =>
    apply Adds.refused
    intro hpermits
    rw [hpermits.1] at hrejected
    cases hrejected

theorem adds_emit (name : String) (key : EntryKey) (value : String) (subject : Subject)
    (origins : List Provenance) :
    Adds m builder [⟨key, value⟩] (m.emit name key value subject origins builder).value := by
  unfold Mapping.emit
  rw [Reports.value_bind]
  cases havailable : (m.capability name subject origins).value with
  | true =>
    have hadds : Adds m builder [⟨key, value⟩] (m.push builder key value subject origins).value.2 :=
      adds_push key value subject origins
    simp only [if_true, Reports.value_bind]
    split <;> exact hadds
  | false =>
    apply Adds.refused
    intro hpermits
    rw [capability_of_permits hpermits] at havailable
    cases havailable

theorem adds_raw (value : ProtectedString) (capability : String) (key : ContainerKey)
    (validate : String → Bool) (reason : String) (subject : Subject) (origins : List Provenance) :
    Adds m builder (if validate value.expose then [⟨.container key, value.expose⟩] else [])
      (m.mapRawContainerValue subject origins builder value capability key validate reason).value := by
  unfold Mapping.mapRawContainerValue
  cases hvalid : validate value.expose with
  | true => exact adds_emit capability (.container key) value.expose subject origins
  | false => exact adds_nothing

theorem adds_ulimit (limit : ResourceLimit) (subject : Subject) (origins : List Provenance) :
    Adds m builder (limitEntryOf? limit).toList (m.mapUlimit subject origins builder limit).value := by
  unfold Mapping.mapUlimit limitEntryOf?
  cases hsoft : limit.soft with
  | none => exact adds_nothing
  | some soft =>
    cases hhard : limit.hard with
    | none => exact adds_nothing
    | some hard =>
      simp only
      cases hsafe : isSafeUlimit limit.name.expose soft.value.expose hard.value.expose with
      | true => exact adds_emit "quadlet.container.ulimit" (.container .ulimit) _ subject origins
      | false => exact adds_nothing

theorem adds_stopTimeout (timeout : StopTimeout) (subject : Subject) (origins : List Provenance) :
    Adds m builder
      (if (parseU64 timeout.asStr).isSome then [⟨.container .stopTimeout, timeout.asStr⟩] else [])
      (m.mapStopTimeout subject origins builder timeout).value := by
  unfold Mapping.mapStopTimeout
  cases hparsed : parseU64 timeout.asStr with
  | none => exact adds_nothing
  | some seconds =>
    simp only [Option.isSome_some, if_true, Reports.value_bind]
    have hadds : Adds m builder [⟨.container .stopTimeout, timeout.asStr⟩]
        (m.push builder (.container .stopTimeout) timeout.asStr subject origins).value.2 :=
      adds_push (.container .stopTimeout) timeout.asStr subject origins
    cases havailable : (m.capability "quadlet.container.stop-timeout" subject origins).value with
    | true =>
      simp only [if_true, Reports.value_bind]
      split
      · split <;> exact hadds
      · exact hadds
    | false =>
      apply Adds.refused
      intro hpermits
      rw [capability_of_permits hpermits] at havailable
      cases havailable

theorem adds_reloadSignal (signal : ProtectedString) (subject : Subject) (origins : List Provenance) :
    Adds m builder
      (if isSafeStopSignal signal.expose then [⟨.container .reloadSignal, signal.expose⟩] else [])
      (m.mapReloadSignal builder signal subject origins).value := by
  unfold Mapping.mapReloadSignal
  cases hsafe : isSafeStopSignal signal.expose with
  | false => exact adds_nothing
  | true =>
    simp only [if_true, Reports.value_bind, Reports.value_pure]
    cases havailable : (m.capability "quadlet.container.reload-signal" subject origins).value with
    | true => exact adds_push (.container .reloadSignal) signal.expose subject origins
    | false =>
      apply Adds.refused
      intro hpermits
      rw [capability_of_permits hpermits] at havailable
      cases havailable

end Adding

section Service
variable {m : Mapping} {builder : UnitBuilder} (service : Service)

theorem adds_ulimits : Adds m builder (settingEntries service .ulimits) (m.mapUlimits service builder).value := by
  unfold Mapping.mapUlimits settingEntries
  cases service.ulimits with
  | none => exact adds_nothing
  | some limits =>
    have hloop : Adds m builder (limits.zipIdx.flatMap fun item => (limitEntryOf? item.1.value).toList)
        (limits.zipIdx.foldlM (fun builder (item : Sourced ResourceLimit × Nat) =>
          m.mapUlimit (Mapping.setting service ("ulimits[" ++ toString item.2 ++ "]"))
            (resourceLimitOrigins service.ulimitsOrigins item.1) builder item.1.value) builder).value :=
      adds_foldlM fun builder item _ => adds_ulimit item.1.value _ _
    have hentries : (limits.zipIdx.flatMap fun item => (limitEntryOf? item.1.value).toList) =
        limits.filterMap fun limit => limitEntryOf? limit.value := by
      rw [List.filterMap_eq_flatMap_toList]
      conv_rhs => rw [← List.zipIdx_map_fst 0 limits, List.flatMap_map]
    rw [hentries] at hloop
    simp only [Option.getD_some]
    split <;> exact hloop

theorem adds_reloadAction :
    Adds m builder (settingEntries service .reloadAction) (m.mapReloadAction service builder).value := by
  unfold Mapping.mapReloadAction settingEntries
  cases service.reloadAction with
  | none => exact adds_nothing
  | some reload =>
    obtain ⟨action, origins⟩ := reload
    cases action with
    | signal signal => exact adds_reloadSignal signal _ origins
    | command command =>
      cases command with
      | exec arguments =>
        simp only [Option.map_some]
        split
        · exact adds_emit "quadlet.container.reload-cmd" (.container .reloadCmd) _ _ origins
        · exact adds_nothing
      | shell _ => exact adds_nothing
      | empty => exact adds_nothing

/-- Every setting adds entries of accepted values only, and all of them when nothing is refused. -/
theorem adds_setting (which : NumericSetting) :
    Adds m builder (settingEntries service which) (m.mapNumericSetting service builder which).value := by
  cases which with
  | ulimits => exact adds_ulimits service
  | stopSignal =>
    unfold Mapping.mapNumericSetting Mapping.mapStopSignal settingEntries
    cases service.stopSignal with
    | none => exact adds_nothing
    | some signal =>
      have hadds := @adds_raw m builder signal.value "quadlet.container.stop-signal"
        .stopSignal isSafeStopSignal
        "stop signal must be a non-empty systemd-safe token or number without grammar normalization"
        (Mapping.setting service "stop_signal") signal.origins
      rw [Option.filter_some]
      cases hsafe : isSafeStopSignal signal.value.expose with
      | true => rw [hsafe] at hadds; exact hadds
      | false => rw [hsafe] at hadds; exact hadds
  | stopTimeout =>
    unfold Mapping.mapNumericSetting settingEntries
    cases service.stopTimeout with
    | none => exact adds_nothing
    | some timeout =>
      have hadds := @adds_stopTimeout m builder timeout.value
        (Mapping.setting service "stop_timeout") timeout.origins
      rw [Option.filter_some]
      cases hparsed : (parseU64 timeout.value.asStr).isSome with
      | true => rw [hparsed] at hadds; exact hadds
      | false => rw [hparsed] at hadds; exact hadds
  | reloadAction => exact adds_reloadAction service

end Service

/-! ## Signed texts -/

def limitNumerals (limit : ResourceLimit) : List String :=
  match limit.soft, limit.hard with
  | some soft, some hard =>
    if isSafeUlimit limit.name.expose soft.value.expose hard.value.expose then
      [soft.value.expose, hard.value.expose]
    else []
  | _, _ => []

/-- The numerals and signals of a setting that its grammar accepts. -/
def acceptedNumerals (service : Service) : NumericSetting → List String
  | .ulimits => (service.ulimits.getD []).flatMap fun limit => limitNumerals limit.value
  | .stopSignal => (service.stopSignal.filter fun signal => isSafeStopSignal signal.value.expose).toList.map
      fun signal => signal.value.expose
  | .stopTimeout => (service.stopTimeout.filter fun timeout => (parseU64 timeout.value.asStr).isSome).toList.map
      fun timeout => timeout.value.asStr
  | .reloadAction => match service.reloadAction.map Sourced.value with
    | some (.signal signal) => if isSafeStopSignal signal.expose then [signal.expose] else []
    | _ => []

theorem plain_limit_iff (limit : ResourceLimit) :
    (∀ entry ∈ limitEntryOf? limit, plainEntry entry = true) ↔
      ∀ numeral ∈ limitNumerals limit, isSigned numeral = false := by
  unfold limitEntryOf? limitNumerals
  cases limit.soft with
  | none => simp
  | some soft =>
    cases limit.hard with
    | none => simp
    | some hard =>
      by_cases hsafe : isSafeUlimit limit.name.expose soft.value.expose hard.value.expose = true
      · simp [hsafe, plainEntry_ulimit hsafe]
      · simp [hsafe]

/-- The possible entries of a setting are plain when none of its accepted numerals is signed. -/
theorem plain_setting_iff (service : Service) (which : NumericSetting) :
    (∀ entry ∈ settingEntries service which, plainEntry entry = true) ↔
      ∀ numeral ∈ acceptedNumerals service which, isSigned numeral = false := by
  cases which with
  | ulimits =>
    have hlimit := fun limit : Sourced ResourceLimit => plain_limit_iff limit.value
    unfold settingEntries acceptedNumerals
    simp only [List.mem_filterMap, List.mem_flatMap]
    constructor
    · rintro hentries numeral ⟨limit, hmem, hnumeral⟩
      exact (hlimit limit).mp (fun entry hentry => hentries entry ⟨limit, hmem, hentry⟩) numeral hnumeral
    · rintro hnumerals entry ⟨limit, hmem, hentry⟩
      exact (hlimit limit).mpr (fun numeral hnumeral => hnumerals numeral ⟨limit, hmem, hnumeral⟩) entry hentry
  | stopSignal =>
    unfold settingEntries acceptedNumerals
    cases service.stopSignal with
    | none => simp
    | some signal =>
      rw [Option.filter_some]
      by_cases hsafe : isSafeStopSignal signal.value.expose = true
      · simp [hsafe, plainEntry, isSignal_of_isSafeStopSignal hsafe]
      · simp [hsafe]
  | stopTimeout =>
    unfold settingEntries acceptedNumerals
    cases service.stopTimeout with
    | none => simp
    | some timeout =>
      rw [Option.filter_some]
      cases hparsed : parseU64 timeout.value.asStr with
      | some seconds => simp [plainEntry, isDecimal_of_parseUnsigned hparsed]
      | none => simp
  | reloadAction =>
    unfold settingEntries acceptedNumerals
    cases service.reloadAction with
    | none => simp
    | some reload =>
      obtain ⟨action, origins⟩ := reload
      cases action with
      | signal signal =>
        by_cases hsafe : isSafeStopSignal signal.expose = true
        · simp [hsafe, plainEntry, isSignal_of_isSafeStopSignal hsafe]
        · simp [hsafe]
      | command command =>
        cases command with
        | exec arguments =>
          simp only [Option.map_some]
          split <;> simp [plainEntry]
        | shell _ => simp
        | empty => simp

/-- The numerals a service's container units carry are plain decimal, whatever the target and the
native library take, exactly when no numeral its grammars accept has a plus sign. -/
theorem emitted_numerals_plain (service : Service) :
    (∀ (m : Mapping) (builder : UnitBuilder) (which : NumericSetting),
        ∀ entry ∈ m.addedEntries service builder which, plainEntry entry = true) ↔
      ∀ which, ∀ numeral ∈ acceptedNumerals service which, isSigned numeral = false := by
  constructor
  · intro hplain which
    have hadds := (@adds_setting permissiveMapping ⟨.container, []⟩ service which).all_added ⟨rfl, rfl⟩
    apply (plain_setting_iff service which).mp
    intro entry hentry
    apply hplain permissiveMapping ⟨.container, []⟩ which
    unfold Mapping.addedEntries
    rw [hadds]
    exact hentry
  · intro hunsigned m builder which entry hentry
    apply (plain_setting_iff service which).mpr (hunsigned which) entry
    obtain ⟨added, hadded, hresult⟩ := (@adds_setting m builder service which).some_added
    unfold Mapping.addedEntries at hentry
    rw [hresult, List.drop_left] at hentry
    exact hadded.subset hentry

/-- A service with a signed stop timeout. -/
def signedService : Service where
  name := ⟨"web", Identifier.valid_web⟩
  stopTimeout := some ⟨⟨"+5", by decide⟩, []⟩

theorem signed_timeout_is_pushed :
    ⟨.container .stopTimeout, "+5"⟩ ∈ permissiveMapping.addedEntries signedService ⟨.container, []⟩ .stopTimeout ∧
      plainEntry ⟨.container .stopTimeout, "+5"⟩ = false := by
  decide +kernel

end Boxferry.Quadlet.Export
