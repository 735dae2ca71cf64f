import Boxferry.Library.JsonText
import Boxferry.Quadlet.Export.Core
import Boxferry.Quadlet.HostMappings

/-! # Health commands

A health command is written as a JSON array of its mode and its strings. The reader takes such an array back,
and refuses one with a line break in a string. -/
namespace Boxferry.Quadlet
open Model
set_option autoImplicit false

/-! ## Writing -/

namespace Export

def hexDigits : List Char := "0123456789abcdef".toList

def encodeCharacter (character : Char) : List Char :=
  if character = '"' then ['\\', '"']
  else if character = '\\' then ['\\', '\\']
  else if character = '\x08' then ['\\', 'b']
  else if character = '\x0c' then ['\\', 'f']
  else if character = '\n' then ['\\', 'n']
  else if character = '\r' then ['\\', 'r']
  else if character = '\t' then ['\\', 't']
  else if character ≤ '\x1f' then
    let value := character.toNat
    ['\\', 'u', '0', '0', hexDigits[(value >>> 4) &&& 0x0f]!, hexDigits[value &&& 0x0f]!]
  else [character]

def encodeElement (value : String) (index : Nat) : List Char :=
  (if 0 < index then [','] else []) ++ '"' :: (value.toList.flatMap encodeCharacter ++ ['"'])

def encodeJsonArray (values : List String) : String :=
  String.ofList ('[' :: ((values.zipIdx.flatMap fun element => encodeElement element.1 element.2) ++ [']']))

/-- The mode of a command with its strings, or why it has none. -/
def healthArguments : HealthcheckCommand → Except (String × String) (List String)
  | .exec arguments =>
    if arguments.isEmpty then .error ("health-check exec command requires at least one argument",
      "supply a command or explicitly disable the health check")
    else .ok ("CMD" :: arguments.map ProtectedString.expose)
  | .shell value =>
    if value.expose.isEmpty then .error ("health-check shell command must not be empty",
      "supply shell command text or explicitly disable the health check")
    else .ok ["CMD-SHELL", value.expose]

def isDeferredArgument (argument : String) : Bool := '\x00' ∈ argument.toList || '%' ∈ argument.toList

def Mapping.mapHealthcheckCommand (m : Mapping) (serviceName : String) (command : Sourced HealthcheckCommand)
    (builder : UnitBuilder) : Mapped UnitBuilder :=
  let subject := .serviceSetting serviceName "healthcheck.test"
  match healthArguments command.value with
  | .error (summary, reason) => do
    invalid Codes.invalidValue subject summary reason command.origins
    pure builder
  | .ok arguments =>
    if arguments.any isDeferredArgument then do
      unsupported subject "health command contains a NUL byte or unresolved systemd percent specifier"
        command.origins
      pure builder
    else m.emit "quadlet.container.health-command" (.container .healthCmd) (encodeJsonArray arguments) subject
      command.origins builder

end Export

/-! ## Reading -/

namespace Import

def isHealthShellCharacter (ch : Char) : Bool :=
  ch = ' ' || ch.isAlphanum || ch ∈ ['_', '-', '.', '/', ':', '@', '+', '=', ',']

def isSafeHealthShellCommand (value : String) : Bool :=
  !value.isEmpty && trim value = value && value.toList.all isHealthShellCharacter

def isRefusedHealthString (value : String) : Bool :=
  '\x00' ∈ value.toList || '%' ∈ value.toList || value.toList.any fun ch => ch = '\n' || ch = '\r'

/-- The command of a decoded array. -/
def healthCommandOf : List String → Except ValueIssue HealthcheckCommand
  | [] => .error (.unsupported "HealthCmd JSON array uses an unknown health-check command mode")
  | kind :: arguments =>
    if kind = "CMD" && !arguments.isEmpty then .ok (.exec (arguments.map .sensitive))
    else if kind = "CMD-SHELL" && arguments.length = 1 && arguments.all (!·.isEmpty) then
      .ok (.shell (.sensitive (arguments.headD "")))
    else if kind = "CMD" then
      .error (.invalid "CMD health check requires at least one command argument")
    else if kind = "CMD-SHELL" then
      .error (.unsupported "CMD-SHELL health check must contain exactly one non-empty shell string")
    else .error (.unsupported "HealthCmd JSON array uses an unknown health-check command mode")

/-- `fromStr` is the library's decoder of a list of strings. -/
def decodeHealthCommand (fromStr : String → Option (List String)) (value : String) :
    Except ValueIssue HealthcheckCommand :=
  if value.toList.head? ≠ some '[' then
    if !isSafeHealthShellCommand value then .error (.unsupported
      "HealthCmd requires JSON-array decoding or shell syntax outside the conservative plain-command subset")
    else .ok (.shell (.sensitive value))
  else
    match fromStr value with
    | none => .error (.unsupported "HealthCmd JSON array requires native command decoding")
    | some values =>
      if values.any isRefusedHealthString then .error (.unsupported
        "HealthCmd contains a control byte or unresolved systemd percent specifier")
      else healthCommandOf values

end Import

/-! ## The written array -/

theorem hexDigits_eq : ∀ n < 32, Export.hexDigits[(n >>> 4) &&& 0x0f]! = JsonText.hexDigit (n / 16) ∧
    Export.hexDigits[n &&& 0x0f]! = JsonText.hexDigit (n % 16) := by
  decide

theorem le_control_iff (character : Char) : character ≤ '\x1f' ↔ character.toNat < 32 := by
  rw [Char.le_def, UInt32.le_iff_toNat_le]
  exact Nat.lt_succ_iff.symm

theorem encodeCharacter_eq (character : Char) : Export.encodeCharacter character = JsonText.escapeChar character := by
  by_cases hescape : character ∈ JsonText.compactEscapes.map Prod.fst
  · have hall : ∀ escaped ∈ JsonText.compactEscapes.map Prod.fst,
        Export.encodeCharacter escaped = JsonText.escapeChar escaped :=
      List.forall_iff_forall_mem.mp (by decide)
    exact hall character hescape
  · have hlookup : JsonText.compactEscapes.lookup character = none := by
      rw [List.lookup_eq_none_iff]
      intro pair hpair
      have hne : character ≠ pair.1 := fun h => hescape (h ▸ List.mem_map_of_mem hpair)
      simpa using hne
    simp only [JsonText.compactEscapes, List.map_cons, List.map_nil, List.mem_cons, List.not_mem_nil, or_false,
      not_or] at hescape
    obtain ⟨hquote, hslash, hline, hreturn, htab, hback, hfeed⟩ := hescape
    unfold Export.encodeCharacter JsonText.escapeChar
    rw [hlookup, if_neg hquote, if_neg hslash, if_neg hback, if_neg hfeed, if_neg hline, if_neg hreturn,
      if_neg htab]
    by_cases hcontrol : character.toNat < 32
    · have hdigits := hexDigits_eq character.toNat hcontrol
      rw [if_pos ((le_control_iff character).mpr hcontrol)]
      simp only
      rw [if_pos hcontrol, hdigits.1, hdigits.2]
    · rw [if_neg fun h => hcontrol ((le_control_iff character).mp h)]
      simp only
      rw [if_neg hcontrol]

theorem encodeElement_eq (value : String) (index : Nat) :
    Export.encodeElement value index = (if 0 < index then [','] else []) ++ JsonText.quoted value.toList := by
  unfold Export.encodeElement JsonText.quoted JsonText.escape
  rw [funext encodeCharacter_eq]

theorem encodeElements_eq (values : List String) (index : Nat) (hindex : 0 < index) :
    ((values.zipIdx index).flatMap fun element => Export.encodeElement element.1 element.2) ++ [']'] =
      JsonText.moreStrings (values.map String.toList) := by
  induction values generalizing index with
  | nil => rfl
  | cons value rest ih =>
    rw [List.zipIdx_cons, List.flatMap_cons, List.append_assoc, ih (index + 1) (Nat.succ_pos index),
      encodeElement_eq, if_pos hindex, List.append_assoc]
    rfl

theorem encodeJsonArray_eq (values : List String) :
    (Export.encodeJsonArray values).toList = JsonText.stringArray (values.map String.toList) := by
  unfold Export.encodeJsonArray
  rw [String.toList_ofList]
  cases values with
  | nil => rfl
  | cons value rest =>
    rw [List.zipIdx_cons, List.flatMap_cons, List.append_assoc, encodeElements_eq rest 1 Nat.one_pos,
      encodeElement_eq]
    rfl

/-- The array of every list of strings is JSON text that spells exactly these strings. -/
theorem readStringArray_encodeJsonArray (values : List String) :
    JsonText.readStringArray (Export.encodeJsonArray values).toList = some (values.map String.toList) := by
  rw [encodeJsonArray_eq]
  exact JsonText.readStringArray_stringArray _

theorem encodeJsonArray_visible {values : List String} {out : Char}
    (h : out ∈ (Export.encodeJsonArray values).toList) : 32 ≤ out.toNat := by
  rw [encodeJsonArray_eq] at h
  exact JsonText.stringArray_visible h

theorem head_encodeJsonArray (values : List String) : (Export.encodeJsonArray values).toList.head? = some '[' := by
  unfold Export.encodeJsonArray
  rw [String.toList_ofList]
  rfl

/-! ## Reading the array back -/

/-- The library decodes every standard JSON array of strings. -/
def DecodesStandard (fromStr : String → Option (List String)) : Prop :=
  ∀ text values, JsonText.readStringArray text.toList = some (values.map String.toList) → fromStr text = some values

/-- The form of a command with its strings. -/
def exposedCommand : HealthcheckCommand → List String ⊕ String
  | .exec arguments => .inl (arguments.map ProtectedString.expose)
  | .shell value => .inr value.expose

def commandStrings : HealthcheckCommand → List String
  | .exec arguments => arguments.map ProtectedString.expose
  | .shell value => [value.expose]

def HasLineBreak (text : String) : Prop := '\n' ∈ text.toList ∨ '\r' ∈ text.toList

/-- The text is decoded to a command of the same form with the same strings. -/
def DecodesTo (fromStr : String → Option (List String)) (text : String) (command : HealthcheckCommand) : Prop :=
  ∃ decoded, Import.decodeHealthCommand fromStr text = .ok decoded ∧ exposedCommand decoded = exposedCommand command

theorem healthArguments_ok {command : HealthcheckCommand} {arguments : List String}
    (h : Export.healthArguments command = .ok arguments) :
    ∃ mode ∈ ["CMD", "CMD-SHELL"], arguments = mode :: commandStrings command := by
  cases command with
  | exec values =>
    simp only [Export.healthArguments] at h
    split at h
    · cases h
    · cases h
      exact ⟨"CMD", by decide, rfl⟩
  | shell value =>
    simp only [Export.healthArguments] at h
    split at h
    · cases h
    · cases h
      exact ⟨"CMD-SHELL", by decide, rfl⟩

theorem exposed_sensitive (values : List String) :
    exposedCommand (.exec (values.map ProtectedString.sensitive)) = .inl values := by
  show Sum.inl ((values.map ProtectedString.sensitive).map ProtectedString.expose) = Sum.inl values
  rw [List.map_map]
  exact congrArg Sum.inl (List.map_id values)

theorem healthCommandOf_arguments {command : HealthcheckCommand} {arguments : List String}
    (h : Export.healthArguments command = .ok arguments) :
    ∃ decoded, Import.healthCommandOf arguments = .ok decoded ∧ exposedCommand decoded = exposedCommand command := by
  cases command with
  | exec values =>
    simp only [Export.healthArguments] at h
    split at h
    · cases h
    · next hsome =>
      cases h
      have hmode : (decide ("CMD" = "CMD") && !(values.map ProtectedString.expose).isEmpty) = true := by
        simpa using hsome
      refine ⟨_, if_pos hmode, ?_⟩
      exact exposed_sensitive _
  | shell value =>
    simp only [Export.healthArguments] at h
    split at h
    · cases h
    · next hsome =>
      cases h
      have hmode : (decide ("CMD-SHELL" = "CMD-SHELL") && decide ([value.expose].length = 1) &&
          [value.expose].all (!·.isEmpty)) = true := by simpa using hsome
      exact ⟨.shell (.sensitive value.expose), if_pos hmode, rfl⟩

theorem isRefusedHealthString_iff {text : String} (h : Export.isDeferredArgument text = false) :
    Import.isRefusedHealthString text = true ↔ HasLineBreak text := by
  unfold Export.isDeferredArgument at h
  unfold Import.isRefusedHealthString HasLineBreak
  rw [h, Bool.false_or, List.any_eq_true]
  constructor
  · rintro ⟨ch, hmem, hbreak⟩
    rw [Bool.or_eq_true, decide_eq_true_iff, decide_eq_true_iff] at hbreak
    rcases hbreak with rfl | rfl
    · exact Or.inl hmem
    · exact Or.inr hmem
  · rintro (hmem | hmem)
    · exact ⟨'\n', hmem, by decide⟩
    · exact ⟨'\r', hmem, by decide⟩

theorem decodeHealthCommand_encoded {fromStr : String → Option (List String)} (hserde : DecodesStandard fromStr)
    (values : List String) : Import.decodeHealthCommand fromStr (Export.encodeJsonArray values) =
      if values.any Import.isRefusedHealthString then .error (.unsupported
        "HealthCmd contains a control byte or unresolved systemd percent specifier")
      else Import.healthCommandOf values := by
  unfold Import.decodeHealthCommand
  rw [if_neg (not_not_intro (head_encodeJsonArray values)),
    hserde _ values (readStringArray_encodeJsonArray values)]

/-- An array of accepted strings is read back exactly when none of the strings has a line break. -/
theorem decodesTo_iff {fromStr : String → Option (List String)} (hserde : DecodesStandard fromStr)
    {command : HealthcheckCommand} {arguments : List String} (h : Export.healthArguments command = .ok arguments)
    (haccepted : arguments.any Export.isDeferredArgument = false) :
    DecodesTo fromStr (Export.encodeJsonArray arguments) command ↔
      ∀ text ∈ commandStrings command, ¬ HasLineBreak text := by
  obtain ⟨mode, hmode, rfl⟩ := healthArguments_ok h
  have hplain : Import.isRefusedHealthString mode = false := by
    have hall : ∀ mode ∈ ["CMD", "CMD-SHELL"], Import.isRefusedHealthString mode = false := by decide
    exact hall mode hmode
  rw [List.any_cons, Bool.or_eq_false_iff] at haccepted
  have hrefused : (mode :: commandStrings command).any Import.isRefusedHealthString = true ↔
      ∃ text ∈ commandStrings command, HasLineBreak text := by
    rw [List.any_cons, hplain, Bool.false_or, List.any_eq_true]
    refine exists_congr fun text => and_congr_right fun htext => ?_
    exact isRefusedHealthString_iff (Bool.eq_false_iff.mpr (List.any_eq_false.mp haccepted.2 text htext))
  unfold DecodesTo
  rw [decodeHealthCommand_encoded hserde]
  constructor
  · rintro ⟨decoded, hdecoded, -⟩ text htext hbreak
    rw [if_pos (hrefused.mpr ⟨text, htext, hbreak⟩)] at hdecoded
    cases hdecoded
  · intro hclean
    rw [if_neg fun hany => by
      obtain ⟨text, htext, hbreak⟩ := hrefused.mp hany
      exact hclean text htext hbreak]
    exact healthCommandOf_arguments h

/-! ## Emitted commands -/

section Emitted
variable {m : Export.Mapping} {serviceName : String} {decided : Export.Subject} {origins : List Provenance}
  {command : Sourced HealthcheckCommand} {builder : Export.UnitBuilder}

theorem mapHealthcheckCommand_exact
    (h : .exact decided origins ∈ (m.mapHealthcheckCommand serviceName command builder).log) :
    ∃ arguments, Export.healthArguments command.value = .ok arguments ∧
      arguments.any Export.isDeferredArgument = false ∧
      (m.mapHealthcheckCommand serviceName command builder).value.entries =
        builder.entries ++ [⟨.container .healthCmd, Export.encodeJsonArray arguments⟩] := by
  unfold Export.Mapping.mapHealthcheckCommand at h ⊢
  cases harguments : Export.healthArguments command.value with
  | error failure =>
    rw [harguments] at h
    simp [Export.invalid, Export.loss] at h
  | ok arguments =>
    rw [harguments] at h
    simp only at h ⊢
    by_cases hdeferred : arguments.any Export.isDeferredArgument = true
    · rw [if_pos hdeferred] at h
      simp [Export.unsupported, Export.loss] at h
    · rw [if_neg hdeferred] at h ⊢
      exact ⟨arguments, rfl, Bool.eq_false_iff.mpr hdeferred, by rw [m.emit_exact h]⟩

/-- Every array is JSON text of its strings. A command that is reported exact was emitted as one line of text,
and the text is read back exactly when no string of the command has a line break. -/
theorem health_command_codec {fromStr : String → Option (List String)} (hserde : DecodesStandard fromStr) :
    (∀ values, JsonText.readStringArray (Export.encodeJsonArray values).toList =
      some (values.map String.toList)) ∧
    (.exact decided origins ∈ (m.mapHealthcheckCommand serviceName command builder).log →
      ∃ text, (m.mapHealthcheckCommand serviceName command builder).value.entries =
          builder.entries ++ [⟨.container .healthCmd, text⟩] ∧ ¬ HasLineBreak text ∧
        (DecodesTo fromStr text command.value ↔ ∀ text ∈ commandStrings command.value, ¬ HasLineBreak text)) := by
  refine ⟨readStringArray_encodeJsonArray, fun h => ?_⟩
  obtain ⟨arguments, harguments, haccepted, hentries⟩ := mapHealthcheckCommand_exact h
  refine ⟨_, hentries, ?_, decodesTo_iff hserde harguments haccepted⟩
  rintro (hbreak | hbreak)
  · exact absurd (encodeJsonArray_visible hbreak) (by decide)
  · exact absurd (encodeJsonArray_visible hbreak) (by decide)

end Emitted

/-- A decoder of standard JSON arrays of strings. -/
def standardStrings (text : String) : Option (List String) :=
  (JsonText.readStringArray text.toList).map fun values => values.map String.ofList

theorem standardStrings_decodes : DecodesStandard standardStrings := by
  intro text values h
  unfold standardStrings
  rw [h, Option.map_some, List.map_map]
  exact congrArg some ((List.map_congr_left fun value _ => String.ofList_toList).trans (List.map_id values))

def shellCommand (text : String) : Sourced HealthcheckCommand := ⟨.shell (.plain text), []⟩

theorem health_command_codec_shell :
    let mapped := Export.permissiveMapping.mapHealthcheckCommand "web" (shellCommand "curl \"a\"") ⟨.container, []⟩
    ∃ text, mapped.value.entries = [⟨.container .healthCmd, text⟩] ∧ ¬ HasLineBreak text ∧
      DecodesTo standardStrings text (shellCommand "curl \"a\"").value := by
  obtain ⟨text, hentries, hline, hdecodes⟩ := (@health_command_codec Export.permissiveMapping "web"
    (.serviceSetting "web" "healthcheck.test") [] (shellCommand "curl \"a\"") ⟨.container, []⟩ _
    standardStrings_decodes).2 (by decide +kernel)
  refine ⟨text, hentries, hline, hdecodes.mpr ?_⟩
  unfold HasLineBreak
  decide +kernel

/-- A line break is escaped, reported exact and refused by the reader. -/
theorem escaped_line_break_is_refused :
    let mapped := Export.permissiveMapping.mapHealthcheckCommand "web" (shellCommand "a\nb") ⟨.container, []⟩
    .exact (.serviceSetting "web" "healthcheck.test") [] ∈ mapped.log ∧
      mapped.value.entries = [⟨.container .healthCmd, "[\"CMD-SHELL\",\"a\\nb\"]"⟩] ∧
      Import.decodeHealthCommand standardStrings "[\"CMD-SHELL\",\"a\\nb\"]" =
        .error (.unsupported "HealthCmd contains a control byte or unresolved systemd percent specifier") := by
  decide +kernel

end Boxferry.Quadlet
