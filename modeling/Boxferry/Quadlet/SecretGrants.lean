import Boxferry.Quadlet.Export.Command
import Boxferry.Quadlet.Export.Numerals
import Boxferry.Quadlet.HostMappings

/-! # Secret grants

A grant is written as the runtime name of its secret and a list of options. The reader takes the name
and the options apart at commas, each option at its first equals sign. Every part of the text is checked
for the two marks before it is written, except a target that stands for a renamed secret. -/
namespace Boxferry.Quadlet
open Model
set_option autoImplicit false

def isSafeSecretComponent (value : String) : Bool :=
  Export.isSafeWord value false && !value.toList.any (· ∈ [',', '='])

/-! ## Modes -/

def isOctal (ch : Char) : Bool := '0' ≤ ch && ch ≤ '7'

/-- `u16::from_str_radix` of octal digits. -/
def octalValue (digits : List Char) : Nat :=
  digits.foldl (fun total ch => total * 8 + (ch.toNat - 48)) 0

/-- The four digits of the octal format `04o`. -/
def octalText (mode : Nat) : String := String.ofList (List.leftpad 4 '0' (Nat.toDigits 8 mode))

def modeDigits (value : String) : List Char := (withoutPrefix "0o" value).toList

def normalizeSecretMode (value : String) : Option String :=
  let digits := modeDigits value
  if digits.isEmpty || 4 < digits.length || !digits.all isOctal then none
  else
    let mode := octalValue digits
    if 0o777 < mode || mode &&& 0o222 ≠ 0 then none else some (octalText mode)

def isPodmanSecretMode (value : String) : Bool :=
  !value.isEmpty && len value ≤ 4 && value.toList.all isOctal && octalValue value.toList ≤ 0o777

/-! ## Writing -/

namespace Export

def targetOption (grant : ResourceGrant) (runtimeName source : String) : Except String (List String) :=
  match grant.target with
  | some target =>
    if isSafeSecretComponent target.value.expose then .ok ["target" ++ ("=" ++ target.value.expose)]
    else .error "secret target cannot be encoded in the reviewed Quadlet Secret grammar"
  | none => if runtimeName ≠ source then .ok ["target" ++ ("=" ++ source)] else .ok []

def idOption (name : String) : Option (Sourced ProtectedString) → Except String (List String)
  | none => .ok []
  | some value =>
    if value.value.expose.isEmpty || !value.value.expose.toList.all Char.isDigit then
      .error "secret UID and GID options require non-negative decimal integers"
    else .ok [name ++ ("=" ++ value.value.expose)]

def modeOption : Option (Sourced ProtectedString) → Except String (List String)
  | none => .ok []
  | some mode =>
    match normalizeSecretMode mode.value.expose with
    | none => .error "secret mode must be a one-to-four-digit octal value without writable bits"
    | some mode => .ok ["mode" ++ ("=" ++ mode)]

def podmanSecretOptions (grant : ResourceGrant) (runtimeName source : String) :
    Except String (List String) := do
  let target ← targetOption grant runtimeName source
  let uid ← idOption "uid" grant.uid
  let gid ← idOption "gid" grant.gid
  let mode ← modeOption grant.mode
  pure (target ++ (uid ++ (gid ++ mode)))

def secretGrantOrigins (grant : Sourced ResourceGrant) (secret : Sourced Secret) : List Provenance :=
  let sources := [grant.value.target, grant.value.uid, grant.value.gid, grant.value.mode, secret.value.runtimeName]
  extendOrigins (sources.foldl (fun origins value => extendOrigins origins (value.elim [] Sourced.origins))
    grant.origins) secret.origins

def runtimeName (secret : Secret) : String :=
  secret.runtimeName.elim secret.name.asStr fun name => name.value.expose

def grantText (runtimeName : String) (options : List String) : String :=
  if options.isEmpty then runtimeName else runtimeName ++ ("," ++ joinText ',' options)

/-- Why a grant has no entry. -/
inductive SecretRefusal where
  | missing (origins : List Provenance)
  | unsupported (reason : String) (origins : List Provenance)

namespace Mapping
variable (m : Mapping)

/-- The first secret that a grant names. -/
def secretOf (grant : ResourceGrant) : Option (Sourced Secret) :=
  m.application.secrets.find? fun secret => secret.value.name.asStr = grant.source.expose

/-- The value and the origins of a grant's entry. -/
def secretGrantValue (grant : Sourced ResourceGrant) : Except SecretRefusal (String × List Provenance) :=
  if grant.value.source.isSensitive then .error (.unsupported
    "a sensitive interpolated secret identifier cannot be emitted into a unit file safely" grant.origins)
  else
    match m.secretOf grant.value with
    | none => .error (.missing grant.origins)
    | some secret =>
      let origins := secretGrantOrigins grant secret
      if secret.value.ownership ≠ .external ∨ secret.value.material.isSome then .error (.unsupported
        "only pre-existing external Podman secrets can be consumed without an out-of-band creation step"
        origins)
      else if (secret.value.runtimeName.any fun name => name.value.isSensitive) ||
          !isSafeSecretComponent (runtimeName secret.value) then .error (.unsupported
        "external secret runtime name cannot be encoded in the reviewed Quadlet Secret grammar" origins)
      else
        match podmanSecretOptions grant.value (runtimeName secret.value) grant.value.source.expose with
        | .error reason => .error (.unsupported reason origins)
        | .ok options => .ok (grantText (runtimeName secret.value) options, origins)

def mapSecretGrant (subject : Subject) (grant : Sourced ResourceGrant) (builder : UnitBuilder) :
    Mapped UnitBuilder :=
  match m.secretGrantValue grant with
  | .ok (value, origins) =>
    m.emit "quadlet.container.secret" (.container .secret) value subject origins builder
  | .error (.unsupported reason origins) => do
    unsupported subject reason origins
    pure builder
  | .error (.missing origins) => do
    invalid Codes.invalidValue subject "secret grant references a missing application resource"
      "declare the referenced secret before converting the service grant" origins
    pure builder

end Mapping
end Export

/-! ## Reading -/

namespace Import

structure DecodedSecretGrant where
  source : Identifier
  target : Option String
  uid : Option String
  gid : Option String
  mode : Option String
  hasOptions : Bool
deriving DecidableEq

/-- The options read so far. -/
structure SecretOptions where
  target : Option String := none
  uid : Option String := none
  gid : Option String := none
  mode : Option String := none
  secretType : Option String := none
  seen : List String := []
deriving DecidableEq

def isDecimal (value : String) : Bool := !value.isEmpty && value.toList.all Char.isDigit

/-- One option with a name that is new. -/
def readSecretOption (options : SecretOptions) (name value : String) : Except ValueIssue SecretOptions :=
  match name with
  | "type" =>
    if value ∈ ["mount", "env"] then .ok { options with secretType := some value }
    else .error (.invalid "Secret type must be mount or env")
  | "target" =>
    if isSafeSecretComponent value then .ok { options with target := some value }
    else .error (.unsupported "secret target requires native quoting or target-specific interpretation")
  | "uid" =>
    if isDecimal value then .ok { options with uid := some value }
    else .error (.invalid "secret UID and GID options require non-negative decimal integers")
  | "gid" =>
    if isDecimal value then .ok { options with gid := some value }
    else .error (.invalid "secret UID and GID options require non-negative decimal integers")
  | "mode" =>
    if isPodmanSecretMode value then .ok { options with mode := some value }
    else .error (.invalid "secret mode must be a one-to-four-digit octal value no greater than 0777")
  | _ => .error (.unsupported "Secret option is outside the reviewed Podman mount-secret grammar")

def decodeSecretOption (options : SecretOptions) (option : String) : Except ValueIssue SecretOptions :=
  match splitOnce '=' option with
  | none => .error (.invalid "Secret option must use name=value syntax")
  | some (name, value) =>
    if name ∈ options.seen then .error (.invalid "Secret option is declared more than once")
    else readSecretOption { options with seen := options.seen ++ [name] } name value

def decodeSecretGrant (value : String) : Except ValueIssue DecodedSecretGrant :=
  let parts := splitText ',' value
  let source := parts.headD ""
  if !isSafeSecretComponent source then .error (.unsupported
    "secret name requires native quoting or target-specific interpretation")
  else
    match Identifier.new source with
    | .error _ => .error (.invalid "secret name cannot enter the neutral identifier model")
    | .ok source => do
      let options ← parts.tail.foldlM decodeSecretOption {}
      if options.secretType = some "env" then .error (.unsupported
        "environment-exposed Podman secrets require a neutral grant exposure field")
      else .ok ⟨source, options.target, options.uid, options.gid, options.mode, !parts.tail.isEmpty⟩

end Import

/-! ## Safe parts -/

theorem comma_not_mem_component {value : String} (h : isSafeSecretComponent value = true) :
    ',' ∉ value.toList := by
  unfold isSafeSecretComponent at h
  rw [Bool.and_eq_true, Bool.not_eq_true', List.any_eq_false] at h
  intro hcomma
  exact h.2 ',' hcomma (by decide)

theorem comma_not_mem_digits {digits : List Char} {accepts : Char → Bool} (hcomma : accepts ',' = false)
    (h : digits.all accepts = true) : ',' ∉ digits := by
  intro hmem
  rw [List.all_eq_true.mp h ',' hmem] at hcomma
  cases hcomma

theorem octalDigits_mode {mode : Nat} (h : mode ≤ 0o777) :
    let digits := List.leftpad 4 '0' (Nat.toDigits 8 mode)
    (['0', 'o'].isPrefixOf digits = false ∧ Utf8Text.size digits = 4) ∧ digits.length = 4 ∧
      digits.all isOctal = true ∧ octalValue digits = mode := by
  have hall : ∀ mode : Fin 512, let digits := List.leftpad 4 '0' (Nat.toDigits 8 mode)
      (['0', 'o'].isPrefixOf digits = false ∧ Utf8Text.size digits = 4) ∧ digits.length = 4 ∧
        digits.all isOctal = true ∧ octalValue digits = mode := by
    decide +kernel
  exact hall ⟨mode, Nat.lt_succ_of_le h⟩

/-- The octal format of an accepted mode is accepted, has no other spelling and the same value. -/
theorem octalText_mode {mode : Nat} (h : mode ≤ 0o777) :
    modeDigits (octalText mode) = (octalText mode).toList ∧ (octalText mode).toList.length = 4 ∧
      (octalText mode).toList.all isOctal = true ∧ octalValue (octalText mode).toList = mode ∧
      isPodmanSecretMode (octalText mode) = true := by
  obtain ⟨⟨hplain, hsize⟩, hlength, hoctal, hvalue⟩ := octalDigits_mode h
  have hdigits : (octalText mode).toList = List.leftpad 4 '0' (Nat.toDigits 8 mode) := String.toList_ofList
  rw [← hdigits] at hplain hsize hlength hoctal hvalue
  refine ⟨?_, hlength, hoctal, hvalue, ?_⟩
  · unfold modeDigits withoutPrefix startsWith
    have hmarked : "0o".toList.isPrefixOf (octalText mode).toList = false := hplain
    rw [hmarked]
    rfl
  · have hbytes : len (octalText mode) = 4 := by
      rw [← length_bytes, Utf8Text.length_bytes_toList, hsize]
    have hnonempty : (octalText mode).isEmpty = false := by
      rw [Bool.eq_false_iff, ne_eq, String.isEmpty_iff]
      intro hempty
      rw [hempty] at hlength
      cases hlength
    unfold isPodmanSecretMode
    simp [hbytes, hnonempty, hoctal, hvalue, h]

theorem normalizeSecretMode_some {value normal : String} (h : normalizeSecretMode value = some normal) :
    octalValue (modeDigits value) ≤ 0o777 ∧ octalValue (modeDigits value) &&& 0o222 = 0 ∧
      normal = octalText (octalValue (modeDigits value)) := by
  unfold normalizeSecretMode at h
  simp only at h
  split at h
  · cases h
  · split at h
    · cases h
    · next hmode =>
      rw [Bool.or_eq_true, not_or, decide_eq_true_eq, decide_eq_true_eq] at hmode
      exact ⟨by omega, not_not.mp hmode.2, (Option.some.inj h).symm⟩

/-- A normalized mode is normal, and it has the value of the text it came from. -/
theorem normalize_normal {value normal : String} (h : normalizeSecretMode value = some normal) :
    normalizeSecretMode normal = some normal ∧ octalValue (modeDigits normal) = octalValue (modeDigits value) := by
  obtain ⟨hsmall, hwritable, rfl⟩ := normalizeSecretMode_some h
  obtain ⟨hdigits, hlength, hoctal, hvalue, -⟩ := octalText_mode hsmall
  rw [hdigits]
  refine ⟨?_, hvalue⟩
  unfold normalizeSecretMode
  have hnonempty : (octalText (octalValue (modeDigits value))).toList ≠ [] := by
    intro hempty
    rw [hempty] at hlength
    cases hlength
  simp [hdigits, hlength, hoctal, hvalue, hwritable, hnonempty]
  omega

/-! ## Fields -/

def fieldTexts (name : String) (field : Option String) : List String :=
  field.toList.map fun value => name ++ ("=" ++ value)

def fieldNames (name : String) (field : Option String) : List String := field.toList.map fun _ => name

/-- The target a grant writes: its own, or the declared name of a renamed secret. -/
def writtenTarget (grant : ResourceGrant) (runtimeName source : String) : Option String :=
  match grant.target with
  | some target => some target.value.expose
  | none => if runtimeName ≠ source then some source else none

def writtenMode (grant : ResourceGrant) : Option String :=
  grant.mode.bind fun mode => normalizeSecretMode mode.value.expose

def exposed (value : Option (Sourced ProtectedString)) : Option String :=
  value.map fun value => value.value.expose

theorem targetOption_ok {grant : ResourceGrant} {runtimeName source : String} {options : List String}
    (h : Export.targetOption grant runtimeName source = .ok options) :
    options = fieldTexts "target" (writtenTarget grant runtimeName source) ∧
      ∀ target ∈ exposed grant.target, isSafeSecretComponent target = true := by
  unfold Export.targetOption at h
  unfold writtenTarget exposed
  cases htarget : grant.target with
  | some target =>
    rw [htarget] at h
    obtain ⟨hsafe, rfl⟩ := Results.accept_eq_ok.mp h
    exact ⟨rfl, by simpa using hsafe⟩
  | none =>
    rw [htarget] at h
    refine ⟨?_, by simp⟩
    simp only at h ⊢
    split at h <;> (cases h; simp_all [fieldTexts])

theorem idOption_ok {name : String} {value : Option (Sourced ProtectedString)} {options : List String}
    (h : Export.idOption name value = .ok options) :
    options = fieldTexts name (exposed value) ∧ ∀ id ∈ exposed value, Import.isDecimal id = true := by
  cases value with
  | none =>
    cases h
    exact ⟨rfl, by simp [exposed]⟩
  | some value =>
    obtain ⟨hdigits, hoptions⟩ := Results.guard_eq_ok.mp h
    cases hoptions
    refine ⟨rfl, ?_⟩
    simpa [exposed, Import.isDecimal] using hdigits

theorem modeOption_ok {grant : ResourceGrant} {options : List String}
    (h : Export.modeOption grant.mode = .ok options) :
    options = fieldTexts "mode" (writtenMode grant) ∧
      (writtenMode grant).isSome = grant.mode.isSome := by
  unfold writtenMode
  cases hmode : grant.mode with
  | none =>
    rw [hmode] at h
    cases h
    exact ⟨rfl, rfl⟩
  | some mode =>
    rw [hmode] at h
    unfold Export.modeOption at h
    cases hnormal : normalizeSecretMode mode.value.expose with
    | none =>
      simp only [hnormal] at h
      cases h
    | some normal =>
      simp only [hnormal] at h
      cases h
      simp [fieldTexts, hnormal]

/-- Writing the fields of a grant. -/
theorem podmanSecretOptions_ok {grant : ResourceGrant} {runtimeName source : String} {options : List String}
    (h : Export.podmanSecretOptions grant runtimeName source = .ok options) :
    options = fieldTexts "target" (writtenTarget grant runtimeName source) ++
        (fieldTexts "uid" (exposed grant.uid) ++
          (fieldTexts "gid" (exposed grant.gid) ++ fieldTexts "mode" (writtenMode grant))) ∧
      (∀ target ∈ exposed grant.target, isSafeSecretComponent target = true) ∧
      (∀ uid ∈ exposed grant.uid, Import.isDecimal uid = true) ∧
      (∀ gid ∈ exposed grant.gid, Import.isDecimal gid = true) := by
  unfold Export.podmanSecretOptions at h
  obtain ⟨target, htarget, h⟩ := Results.bind_eq_ok.mp h
  obtain ⟨uid, huid, h⟩ := Results.bind_eq_ok.mp h
  obtain ⟨gid, hgid, h⟩ := Results.bind_eq_ok.mp h
  obtain ⟨mode, hmode, h⟩ := Results.bind_eq_ok.mp h
  obtain ⟨rfl, htargets⟩ := targetOption_ok htarget
  obtain ⟨rfl, huids⟩ := idOption_ok huid
  obtain ⟨rfl, hgids⟩ := idOption_ok hgid
  obtain ⟨rfl, -⟩ := modeOption_ok hmode
  exact ⟨(Except.ok.inj h).symm, htargets, huids, hgids⟩

/-! ## Reading the fields -/

/-- A field that is absent leaves the options as they are, and one that is present is read once. -/
theorem fold_field {name : String} {field : Option String} {options : Import.SecretOptions}
    {f : Option String → Import.SecretOptions} (hname : '=' ∉ name.toList) (hnew : name ∉ options.seen)
    (hnone : f none = options)
    (hread : ∀ value ∈ field, Import.readSecretOption { options with seen := options.seen ++ [name] } name value =
      .ok (f (some value))) :
    (fieldTexts name field).foldlM Import.decodeSecretOption options = .ok (f field) := by
  cases field with
  | none =>
    rw [hnone]
    rfl
  | some value =>
    have hsplit : splitOnce '=' (name ++ ("=" ++ value)) = some (name, value) := splitOnce_join hname
    have hdecoded : Import.decodeSecretOption options (name ++ ("=" ++ value)) = .ok (f (some value)) := by
      unfold Import.decodeSecretOption
      simp only [hsplit, if_neg hnew]
      exact hread value rfl
    show [name ++ ("=" ++ value)].foldlM Import.decodeSecretOption options = _
    rw [List.foldlM_cons, hdecoded]
    rfl

theorem not_mem_fieldNames {name other : String} {field : Option String} (h : other ≠ name) :
    other ∉ fieldNames name field := by
  intro hmem
  obtain ⟨value, -, rfl⟩ := List.mem_map.mp hmem
  exact h rfl

/-- The fields of a grant are read back. -/
theorem fold_fields {target uid gid mode : Option String}
    (htarget : ∀ value ∈ target, isSafeSecretComponent value = true)
    (huid : ∀ value ∈ uid, Import.isDecimal value = true) (hgid : ∀ value ∈ gid, Import.isDecimal value = true)
    (hmode : ∀ value ∈ mode, isPodmanSecretMode value = true) :
    ∃ seen, (fieldTexts "target" target ++ (fieldTexts "uid" uid ++ (fieldTexts "gid" gid ++
      fieldTexts "mode" mode))).foldlM Import.decodeSecretOption {} = .ok ⟨target, uid, gid, mode, none, seen⟩ := by
  let afterTarget : Import.SecretOptions := { target, seen := fieldNames "target" target }
  let afterUid : Import.SecretOptions := { afterTarget with uid, seen := afterTarget.seen ++ fieldNames "uid" uid }
  let afterGid : Import.SecretOptions := { afterUid with gid, seen := afterUid.seen ++ fieldNames "gid" gid }
  have hfirst : (fieldTexts "target" target).foldlM Import.decodeSecretOption {} = .ok afterTarget := by
    apply fold_field (f := fun value => { target := value, seen := fieldNames "target" value }) (by decide)
      (by simp [fieldNames]) rfl
    intro value hvalue
    simp [Import.readSecretOption, htarget value hvalue, fieldNames]
  have hsecond : (fieldTexts "uid" uid).foldlM Import.decodeSecretOption afterTarget = .ok afterUid := by
    apply fold_field (f := fun value =>
        { afterTarget with uid := value, seen := afterTarget.seen ++ fieldNames "uid" value }) (by decide)
      (not_mem_fieldNames (by decide)) (by simp [afterTarget, fieldNames])
    intro value hvalue
    simp [Import.readSecretOption, huid value hvalue, fieldNames]
  have hthird : (fieldTexts "gid" gid).foldlM Import.decodeSecretOption afterUid = .ok afterGid := by
    apply fold_field (f := fun value =>
        { afterUid with gid := value, seen := afterUid.seen ++ fieldNames "gid" value }) (by decide)
      (List.not_mem_append (not_mem_fieldNames (by decide)) (not_mem_fieldNames (by decide)))
      (by simp [afterUid, afterTarget, fieldNames])
    intro value hvalue
    simp [Import.readSecretOption, hgid value hvalue, fieldNames]
  have hfourth : (fieldTexts "mode" mode).foldlM Import.decodeSecretOption afterGid =
      .ok { afterGid with mode, seen := afterGid.seen ++ fieldNames "mode" mode } := by
    apply fold_field (f := fun value =>
        { afterGid with mode := value, seen := afterGid.seen ++ fieldNames "mode" value }) (by decide)
      (List.not_mem_append (List.not_mem_append (not_mem_fieldNames (by decide))
        (not_mem_fieldNames (by decide))) (not_mem_fieldNames (by decide)))
      (by simp [afterGid, afterUid, afterTarget, fieldNames])
    intro value hvalue
    simp [Import.readSecretOption, hmode value hvalue, fieldNames]
  refine ⟨afterGid.seen ++ fieldNames "mode" mode, ?_⟩
  rw [List.foldlM_append, hfirst]
  show ((fieldTexts "uid" uid ++ _).foldlM Import.decodeSecretOption afterTarget) = _
  rw [List.foldlM_append, hsecond]
  show ((fieldTexts "gid" gid ++ _).foldlM Import.decodeSecretOption afterUid) = _
  rw [List.foldlM_append, hthird]
  exact hfourth

/-! ## The grant -/

/-- Splitting a grant's text gives back its parts. -/
theorem splitText_grantText {name : String} {options : List String} (hname : ',' ∉ name.toList)
    (hoptions : ∀ option ∈ options, ',' ∉ option.toList) :
    splitText ',' (Export.grantText name options) = name :: options := by
  have htext : Export.grantText name options = joinText ',' (name :: options) := by
    unfold Export.grantText joinText
    cases options with
    | nil => simp
    | cons first rest =>
      simp only [List.map_cons, List.intercalate_cons_cons]
      apply String.toList_inj.mp
      simp
  rw [htext]
  apply splitText_join ',' (name :: options) (by simp)
  intro part hpart
  rcases List.mem_cons.mp hpart with rfl | hpart
  · exact hname
  · exact hoptions part hpart

theorem comma_not_mem_fieldTexts {name : String} {field : Option String} (hname : ',' ∉ name.toList)
    (hfield : ∀ value ∈ field, ',' ∉ value.toList) :
    ∀ option ∈ fieldTexts name field, ',' ∉ option.toList := by
  intro option hoption
  obtain ⟨value, hvalue, rfl⟩ := List.mem_map.mp hoption
  rw [String.toList_append, String.toList_append, List.mem_append, List.mem_append]
  rintro (hcomma | hcomma | hcomma)
  · exact hname hcomma
  · revert hcomma
    decide
  · exact hfield value (Option.mem_toList.mp hvalue) hcomma

/-- The target inside the container: the declared one, or the source of the grant. -/
def effectiveTarget (grant : ResourceGrant) : String := (exposed grant.target).getD grant.source.expose

/-- Reading the text gives the grant back: the runtime name as the source, the effective target, and the
other options, with the mode normalized. -/
def ReadsGrant (text runtimeName : String) (grant : ResourceGrant) : Prop :=
  ∃ decoded, Import.decodeSecretGrant text = .ok decoded ∧ decoded.source.asStr = runtimeName ∧
    decoded.target.getD decoded.source.asStr = effectiveTarget grant ∧
    decoded.uid = exposed grant.uid ∧ decoded.gid = exposed grant.gid ∧ decoded.mode = writtenMode grant

/-- Normalized modes are normal and keep their value. -/
def ModesKept : Prop :=
  ∀ value normal, normalizeSecretMode value = some normal →
    normalizeSecretMode normal = some normal ∧ octalValue (modeDigits normal) = octalValue (modeDigits value)

section Grant
variable {grant : ResourceGrant} {runtimeName : String} {options : List String}

theorem isPodmanSecretMode_written {mode : String} (h : mode ∈ writtenMode grant) :
    isPodmanSecretMode mode = true := by
  unfold writtenMode at h
  obtain ⟨given, -, hnormal⟩ := Option.bind_eq_some_iff.mp h
  obtain ⟨hsmall, -, rfl⟩ := normalizeSecretMode_some hnormal
  exact (octalText_mode hsmall).2.2.2.2

theorem identifier_of_component {value : String} (h : isSafeSecretComponent value = true) :
    validateText "identifier" value = .ok () := by
  unfold isSafeSecretComponent Export.isSafeWord at h
  simp only [Bool.false_or, Bool.and_eq_true, Bool.not_eq_true', List.all_eq_true] at h
  obtain ⟨⟨hnonempty, hchars⟩, -⟩ := h
  apply validateText_of_clean
  · rw [ne_eq, ← String.isEmpty_iff, hnonempty]
    decide
  · intro hnul
    have hallowed := hchars '\x00' hnul
    revert hallowed
    decide

theorem decode_grantText {target uid gid mode : Option String} {seen : List String}
    (hname : isSafeSecretComponent runtimeName = true) (hcommas : ∀ option ∈ options, ',' ∉ option.toList)
    (hfold : options.foldlM Import.decodeSecretOption {} = .ok ⟨target, uid, gid, mode, none, seen⟩) :
    Import.decodeSecretGrant (Export.grantText runtimeName options) =
      .ok ⟨⟨runtimeName, identifier_of_component hname⟩, target, uid, gid, mode, !options.isEmpty⟩ := by
  unfold Import.decodeSecretGrant
  rw [splitText_grantText (comma_not_mem_component hname) hcommas]
  simp only [List.headD_cons, List.tail_cons, hname, Bool.not_true, Bool.false_eq_true, if_false,
    Identifier.new_ok (identifier_of_component hname), hfold]
  rfl

theorem readsGrant_of_safe (hname : isSafeSecretComponent runtimeName = true)
    (hoptions : Export.podmanSecretOptions grant runtimeName grant.source.expose = .ok options)
    (hsafe : grant.target.isSome = true ∨ runtimeName = grant.source.expose ∨
      isSafeSecretComponent grant.source.expose = true) :
    ReadsGrant (Export.grantText runtimeName options) runtimeName grant := by
  obtain ⟨rfl, htargets, huids, hgids⟩ := podmanSecretOptions_ok hoptions
  have hwritten : ∀ target ∈ writtenTarget grant runtimeName grant.source.expose,
      isSafeSecretComponent target = true := by
    unfold writtenTarget
    unfold exposed at htargets
    cases htarget : grant.target with
    | some target =>
      rw [htarget] at htargets
      exact htargets
    | none =>
      rw [htarget] at hsafe
      simp only
      intro target hmem
      obtain ⟨hrenamed, htarget⟩ := Option.ite_none_right_eq_some.mp hmem
      rw [← Option.some.inj htarget]
      rcases hsafe with hsome | hsame | hsafe
      · cases hsome
      · exact absurd hsame hrenamed
      · exact hsafe
  have hdecimal : ∀ {field : Option String}, (∀ id ∈ field, Import.isDecimal id = true) →
      ∀ id ∈ field, ',' ∉ id.toList := by
    intro field hfield id hid
    have hdigits := hfield id hid
    unfold Import.isDecimal at hdigits
    rw [Bool.and_eq_true] at hdigits
    exact comma_not_mem_digits (by decide) hdigits.2
  have hmodes : ∀ mode ∈ writtenMode grant, ',' ∉ mode.toList := by
    intro mode hmode
    have haccepted := isPodmanSecretMode_written hmode
    unfold isPodmanSecretMode at haccepted
    simp only [Bool.and_eq_true] at haccepted
    exact comma_not_mem_digits (by decide) haccepted.1.2
  have hcommas : ∀ option ∈ fieldTexts "target" (writtenTarget grant runtimeName grant.source.expose) ++
      (fieldTexts "uid" (exposed grant.uid) ++ (fieldTexts "gid" (exposed grant.gid) ++
        fieldTexts "mode" (writtenMode grant))), ',' ∉ option.toList := by
    simp only [List.forall_mem_append]
    exact ⟨comma_not_mem_fieldTexts (by decide) fun target hmem => comma_not_mem_component (hwritten target hmem),
      comma_not_mem_fieldTexts (by decide) (hdecimal huids),
      comma_not_mem_fieldTexts (by decide) (hdecimal hgids), comma_not_mem_fieldTexts (by decide) hmodes⟩
  obtain ⟨seen, hfold⟩ := fold_fields hwritten huids hgids fun mode (hmode : mode ∈ writtenMode grant) =>
    isPodmanSecretMode_written hmode
  refine ⟨_, decode_grantText hname hcommas hfold, rfl, ?_, rfl, rfl, rfl⟩
  unfold writtenTarget effectiveTarget exposed
  cases grant.target with
  | some target => rfl
  | none =>
    by_cases hsame : runtimeName = grant.source.expose
    · simp [hsame]
    · simp [hsame]

/-- Every step of the reader checks the target. -/
theorem safe_target_of_decodeSecretOption {options next : Import.SecretOptions} {option : String}
    (hsafe : ∀ target ∈ options.target, isSafeSecretComponent target = true)
    (h : Import.decodeSecretOption options option = .ok next) :
    ∀ target ∈ next.target, isSafeSecretComponent target = true := by
  unfold Import.decodeSecretOption at h
  cases hsplit : splitOnce '=' option with
  | none =>
    rw [hsplit] at h
    cases h
  | some parts =>
    rw [hsplit] at h
    obtain ⟨-, h⟩ := Results.guard_eq_ok.mp h
    unfold Import.readSecretOption at h
    split at h
    case h_2 =>
      obtain ⟨htarget, rfl⟩ := Results.accept_eq_ok.mp h
      simpa using htarget
    case h_6 => cases h
    all_goals
      obtain ⟨-, rfl⟩ := Results.accept_eq_ok.mp h
      exact hsafe

theorem safe_target_of_decode {text : String} {decoded : Import.DecodedSecretGrant}
    (h : Import.decodeSecretGrant text = .ok decoded) :
    ∀ target ∈ decoded.target, isSafeSecretComponent target = true := by
  unfold Import.decodeSecretGrant at h
  simp only at h
  obtain ⟨-, h⟩ := Results.guard_eq_ok.mp h
  split at h
  · cases h
  · obtain ⟨options, hfold, h⟩ := Results.bind_eq_ok.mp h
    obtain ⟨-, h⟩ := Results.guard_eq_ok.mp h
    cases h
    exact Results.foldlM_invariant hfold (by simp) fun _ _ _ hsafe hstep =>
      safe_target_of_decodeSecretOption hsafe hstep

/-- A grant that is read back has a target the reader accepts, or needs none. -/
theorem safe_of_readsGrant {text : String} (h : ReadsGrant text runtimeName grant) :
    grant.target.isSome = true ∨ runtimeName = grant.source.expose ∨
      isSafeSecretComponent grant.source.expose = true := by
  obtain ⟨decoded, hdecoded, hsource, htarget, -⟩ := h
  cases hgrant : grant.target with
  | some target => exact Or.inl rfl
  | none =>
    right
    unfold effectiveTarget exposed at htarget
    rw [hgrant, hsource] at htarget
    cases hread : decoded.target with
    | none =>
      rw [hread] at htarget
      exact Or.inl htarget
    | some target =>
      rw [hread] at htarget
      have hsafe := safe_target_of_decode hdecoded target hread
      rw [show target = grant.source.expose from htarget] at hsafe
      exact Or.inr hsafe

end Grant

/-! ## The exporter -/

section Emitted
variable {m : Export.Mapping} {subject : Export.Subject} {grant : Sourced ResourceGrant}
  {builder : Export.UnitBuilder} {value : String} {origins : List Provenance}

/-- The runtime name of the secret a grant names. -/
def secretRuntimeName (m : Export.Mapping) (grant : ResourceGrant) : String :=
  (m.secretOf grant).elim grant.source.expose fun secret => Export.runtimeName secret.value

theorem secretGrantValue_ok (h : m.secretGrantValue grant = .ok (value, origins)) :
    ∃ options, isSafeSecretComponent (secretRuntimeName m grant.value) = true ∧
      Export.podmanSecretOptions grant.value (secretRuntimeName m grant.value) grant.value.source.expose =
        .ok options ∧
      value = Export.grantText (secretRuntimeName m grant.value) options := by
  unfold Export.Mapping.secretGrantValue at h
  unfold secretRuntimeName
  obtain ⟨-, h⟩ := Results.guard_eq_ok.mp h
  cases hsecret : m.secretOf grant.value with
  | none =>
    rw [hsecret] at h
    cases h
  | some secret =>
    rw [hsecret] at h
    obtain ⟨-, h⟩ := Results.guard_eq_ok.mp h
    obtain ⟨hname, h⟩ := Results.guard_eq_ok.mp h
    rw [Bool.or_eq_true, not_or, Bool.not_eq_true', Bool.not_eq_false] at hname
    cases hoptions : Export.podmanSecretOptions grant.value (Export.runtimeName secret.value)
        grant.value.source.expose with
    | error reason =>
      rw [hoptions] at h
      cases h
    | ok options =>
      rw [hoptions] at h
      cases h
      exact ⟨options, hname.2, hoptions, rfl⟩

theorem secretGrantValue_of_emitted
    (h : (m.mapSecretGrant subject grant builder).value.entries =
      builder.entries ++ [⟨.container .secret, value⟩]) :
    ∃ origins, m.secretGrantValue grant = .ok (value, origins) := by
  unfold Export.Mapping.mapSecretGrant at h
  cases hvalue : m.secretGrantValue grant with
  | error refusal =>
    rw [hvalue] at h
    cases refusal <;> exact absurd h.symm (by simp [Export.unsupported, Export.invalid, Export.loss])
  | ok written =>
    rw [hvalue] at h
    obtain ⟨text, origins⟩ := written
    obtain ⟨added, hadded, hentries⟩ := (@Export.adds_emit m builder "quadlet.container.secret"
      (.container .secret) text subject origins).some_added
    have hsame : added = [⟨.container .secret, value⟩] := List.append_cancel_left (hentries.symm.trans h)
    rw [hsame, List.singleton_sublist, List.mem_singleton] at hadded
    cases hadded
    exact ⟨origins, rfl⟩

/-- An emitted grant is read back exactly when its target is declared, the secret is not renamed, or the
declared name of the secret is safe to stand as the target. -/
theorem secret_grant_codec
    (h : (m.mapSecretGrant subject grant builder).value.entries =
      builder.entries ++ [⟨.container .secret, value⟩]) :
    (ReadsGrant value (secretRuntimeName m grant.value) grant.value ∧ ModesKept) ↔
      grant.value.target.isSome = true ∨ secretRuntimeName m grant.value = grant.value.source.expose ∨
        isSafeSecretComponent grant.value.source.expose = true := by
  obtain ⟨origins, hvalue⟩ := secretGrantValue_of_emitted h
  obtain ⟨options, hname, hoptions, rfl⟩ := secretGrantValue_ok hvalue
  constructor
  · rintro ⟨hread, -⟩
    exact safe_of_readsGrant hread
  · intro hsafe
    exact ⟨readsGrant_of_safe hname hoptions hsafe, fun value normal hnormal => normalize_normal hnormal⟩

end Emitted

/-- An exporter for one external secret that is named `db` at runtime. -/
def renamedSecret (name : Identifier) : Export.Mapping :=
  { Export.permissiveMapping with
    application := { Application.new ⟨"app", Identifier.valid_app⟩ with
      secrets := [⟨⟨name, .external, some ⟨.plain "db", []⟩, none⟩, []⟩] } }

def shortGrant (source : String) (valid : validateText "resource grant source" source = .ok ()) :
    Sourced ResourceGrant :=
  ⟨⟨.plain source, .short, none, none, none, none, valid⟩, []⟩

theorem secret_grant_codec_database :
    ReadsGrant "db,target=database" "db" (shortGrant "database" (by decide)).value ∧ ModesKept :=
  (@secret_grant_codec (renamedSecret ⟨"database", by decide⟩) (.other "secret")
    (shortGrant "database" (by decide)) ⟨.container, []⟩ "db,target=database" (by decide +kernel)).mpr
    (Or.inr (Or.inr (by decide)))

/-- A declared name with a comma: the reader takes part of the name for a user id. -/
theorem declared_name_becomes_uid :
    ((renamedSecret ⟨"db,uid=0", by decide⟩).mapSecretGrant (.other "secret")
        (shortGrant "db,uid=0" (by decide)) ⟨.container, []⟩).value.entries =
        [⟨.container .secret, "db,target=db,uid=0"⟩] ∧
      Import.decodeSecretGrant "db,target=db,uid=0" =
        .ok ⟨⟨"db", by decide⟩, some "db", some "0", none, none, true⟩ ∧
      ¬ ReadsGrant "db,target=db,uid=0" "db" (shortGrant "db,uid=0" (by decide)).value := by
  have hdecoded : Import.decodeSecretGrant "db,target=db,uid=0" =
      .ok ⟨⟨"db", by decide⟩, some "db", some "0", none, none, true⟩ := by
    decide +kernel
  refine ⟨by decide +kernel, hdecoded, ?_⟩
  rintro ⟨decoded, hread, -, -, huid, -⟩
  rw [hdecoded] at hread
  cases hread
  cases huid

end Boxferry.Quadlet
