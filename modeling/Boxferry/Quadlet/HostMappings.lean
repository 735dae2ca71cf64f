import Boxferry.Library.Related
import Boxferry.Library.Results
import Boxferry.Model.Service
import Boxferry.Model.Text
import Boxferry.Quadlet.Export.Core
import Boxferry.Quadlet.Import.Core

/-! # Host mappings

A host mapping is written as `hostname:address`. The reader cuts at the last colon that a bracket
follows when the text ends in a bracket, and at the last colon otherwise. No hostname has a colon, and
every address that has one is written in brackets. -/
namespace Boxferry.Quadlet
open Model
set_option autoImplicit false

/-! ## Writing -/

namespace Export

/-- The text of a host mapping, or the reason why it has none. -/
def hostMappingText (mapping : HostMapping) : Except String String :=
  let hostname := mapping.hostname.asStr
  if !isNativeAtom hostname then .error "host mapping name requires target-specific encoding"
  else
    match mapping.address.kind with
    | .ipv4 | .hostGateway | .ipv6 true => .ok (hostname ++ (":" ++ mapping.address.raw))
    | .ipv6 false => .ok (hostname ++ (":" ++ ("[" ++ (mapping.address.raw ++ "]"))))
    | .other => .error "host mapping address is deferred or implementation-specific"

def encodeHostMapping (subject : Subject) (mapping : HostMapping) (origins : List Provenance) :
    Mapped (Option String) :=
  match hostMappingText mapping with
  | .ok text => pure (some text)
  | .error reason => do
    unsupported subject reason origins
    pure none

end Export

/-! ## Reading -/

namespace Import

inductive ValueIssue where
  | unsupported (reason : String)
  | invalid (reason : String)
deriving DecidableEq

/-- The text before and after the last character where a cut is allowed. -/
def splitAtLast (cuts : Char → List Char → Bool) : List Char → Option (List Char × List Char)
  | [] => none
  | ch :: rest =>
    match splitAtLast cuts rest with
    | some (before, after) => some (ch :: before, after)
    | none => if cuts ch rest then some ([], rest) else none

/-- `str::rsplit_once` at one character. -/
def atChar (mark ch : Char) (_ : List Char) : Bool := ch = mark

/-- The colon of `str::rfind` for `:[`. -/
def atBracket (ch : Char) (rest : List Char) : Bool := ch = ':' && rest.head? = some '['

def splitHostMapping (value : String) : Except ValueIssue (List Char × List Char) :=
  if value.toList.getLast? = some ']' then
    match splitAtLast atBracket value.toList with
    | none => .error (.unsupported
      "AddHost bracketed address is outside the exact hostname:address subset")
    | some parts => .ok parts
  else
    match splitAtLast (atChar ':') value.toList with
    | none => .error (.invalid "AddHost must contain hostname:address")
    | some parts => .ok parts

def decodeHostname (address : HostAddress) (hostname : String) : Except ValueIssue HostMapping :=
  if !Export.isNativeAtom hostname then .error (.unsupported
    "AddHost hostname requires native quoting or target-specific interpretation")
  else
    match Identifier.new hostname with
    | .error _ => .error (.invalid "AddHost hostname cannot enter the neutral identifier model")
    | .ok hostname => .ok ⟨hostname, address⟩

def decodeHostMappings (value : String) : Except ValueIssue (List HostMapping) := do
  let (hostnames, address) ← splitHostMapping value
  if hostnames.isEmpty then .error (.invalid "AddHost must contain at least one hostname")
  else
    match HostAddress.new (String.ofList address) with
    | .error _ => .error (.invalid "AddHost address is empty or invalid")
    | .ok address =>
      if address.kind = .other then .error (.unsupported
        "AddHost address is deferred or implementation-specific")
      else (splitText ';' (String.ofList hostnames)).mapM (decodeHostname address)

end Import

/-! ## Cutting -/

section Cutting
variable {cuts : Char → List Char → Bool}

theorem splitAtLast_nil : Import.splitAtLast cuts [] = none := rfl

theorem splitAtLast_cons (ch : Char) (rest : List Char) :
    Import.splitAtLast cuts (ch :: rest) = match Import.splitAtLast cuts rest with
      | some (before, after) => some (ch :: before, after)
      | none => if cuts ch rest then some ([], rest) else none := rfl

theorem splitAtLast_append {before after : List Char} {ch : Char} (hcut : cuts ch after = true)
    (hafter : Import.splitAtLast cuts after = none) :
    Import.splitAtLast cuts (before ++ ch :: after) = some (before, after) := by
  induction before with
  | nil =>
    rw [List.nil_append, splitAtLast_cons, hafter]
    exact if_pos hcut
  | cons head before ih =>
    rw [List.cons_append, splitAtLast_cons, ih]

theorem splitAtLast_eq_some {text before after : List Char}
    (h : Import.splitAtLast cuts text = some (before, after)) :
    ∃ ch, text = before ++ ch :: after ∧ cuts ch after = true ∧ Import.splitAtLast cuts after = none := by
  induction text generalizing before with
  | nil => cases h
  | cons head rest ih =>
    rw [splitAtLast_cons] at h
    cases hrest : Import.splitAtLast cuts rest with
    | some parts =>
      rw [hrest] at h
      cases h
      obtain ⟨ch, hsplit, hcut, hnone⟩ := ih hrest
      exact ⟨ch, by rw [hsplit]; rfl, hcut, hnone⟩
    | none =>
      rw [hrest] at h
      obtain ⟨hcut, hparts⟩ := Option.ite_none_right_eq_some.mp h
      cases hparts
      exact ⟨head, rfl, hcut, hrest⟩

theorem splitAtLast_eq_none {mark : Char} {text : List Char} :
    Import.splitAtLast (Import.atChar mark) text = none ↔ mark ∉ text := by
  induction text with
  | nil => simp [splitAtLast_nil]
  | cons head rest ih =>
    rw [splitAtLast_cons]
    cases hrest : Import.splitAtLast (Import.atChar mark) rest with
    | some parts =>
      have hmark : mark ∈ rest := by
        by_contra hnone
        rw [ih.mpr hnone] at hrest
        cases hrest
      simp [hmark]
    | none =>
      have hnone := ih.mp hrest
      simp [Import.atChar, hnone, eq_comm]

/-- The text is cut at its last mark. -/
theorem splitAtLast_mark {mark : Char} {before after : List Char} (h : mark ∉ after) :
    Import.splitAtLast (Import.atChar mark) (before ++ mark :: after) = some (before, after) :=
  splitAtLast_append (decide_eq_true rfl) (splitAtLast_eq_none.mpr h)

/-- A text that opens at most one bracket, at its front, has no colon before a bracket. -/
theorem splitAtLast_bracket {text : List Char} (h : '[' ∉ text.tail) :
    Import.splitAtLast Import.atBracket text = none := by
  induction text with
  | nil => rfl
  | cons head rest ih =>
    have hrest : '[' ∉ rest := h
    rw [splitAtLast_cons]
    rw [ih fun hmem => hrest (List.mem_of_mem_tail hmem)]
    have hhead : Import.atBracket head rest = false := by
      unfold Import.atBracket
      rw [Bool.and_eq_false_iff]
      right
      rw [decide_eq_false_iff_not]
      exact fun hbracket => hrest (List.mem_of_mem_head? hbracket)
    rw [hhead]
    rfl

end Cutting

/-! ## Addresses -/

/-- An address that is read back from behind a hostname: a text without colons, or one in brackets. -/
def IsWritten (raw : List Char) : Prop :=
  (':' ∉ raw ∧ raw.getLast? ≠ some ']') ∨ ∃ inner, raw = '[' :: (inner ++ [']']) ∧ '[' ∉ inner

theorem unbracketed_cases (raw : String) :
    (unbracketed raw = raw ∧ ¬ (raw.toList.head? = some '[' ∧ raw.toList.getLast? = some ']')) ∨
      ∃ inner, raw.toList = '[' :: (inner ++ [']']) ∧ unbracketed raw = String.ofList inner := by
  unfold unbracketed
  split
  · next rest hraw =>
    split
    · next hlast =>
      right
      refine ⟨rest.dropLast, ?_, rfl⟩
      rw [hraw, List.dropLast_append_getLast? ']' hlast]
    · next hlast =>
      refine Or.inl ⟨rfl, ?_⟩
      rintro ⟨-, hclosed⟩
      rw [hraw, List.getLast?_cons] at hclosed
      cases hrest : rest.getLast? with
      | none => simp [hrest] at hclosed
      | some ch =>
        rw [hrest, Option.getD_some] at hclosed
        exact hlast (hrest.trans hclosed)
  · next hopen =>
    refine Or.inl ⟨rfl, ?_⟩
    rintro ⟨hhead, -⟩
    obtain ⟨rest, hrest⟩ := List.head?_eq_some_iff.mp hhead
    exact hopen rest hrest

theorem bracket_not_address : ¬ IpText.IsAddressChar '[' ∧ ¬ IpText.IsAddressChar ']' := by
  unfold IpText.IsAddressChar
  decide

theorem isWritten_of_address {raw : String} {family : IpText.Family}
    (hparse : IpText.parse (unbracketed raw) = some family)
    (hplain : unbracketed raw = raw → ':' ∉ raw.toList) : IsWritten raw.toList := by
  have haddress := IpText.address_of_parse hparse
  rcases unbracketed_cases raw with ⟨hsame, -⟩ | ⟨inner, hraw, hinner⟩
  · refine Or.inl ⟨hplain hsame, ?_⟩
    intro hlast
    rw [hsame] at haddress
    exact bracket_not_address.2 (haddress ']' (List.mem_of_getLast? hlast))
  · refine Or.inr ⟨inner, hraw, ?_⟩
    intro hopen
    rw [hinner, String.toList_ofList] at haddress
    exact bracket_not_address.1 (haddress '[' hopen)

/-- An address that a host mapping writes as it stands is read back from behind the hostname. -/
theorem isWritten_of_kind {raw : String} (hother : classifyHostAddress raw ≠ .other)
    (hbare : classifyHostAddress raw ≠ .ipv6 false) : IsWritten raw.toList := by
  unfold classifyHostAddress at hother hbare
  by_cases hgateway : raw = "host-gateway"
  · rw [hgateway]
    exact Or.inl (by decide)
  · rw [if_neg hgateway] at hother hbare
    cases hparse : IpText.parse (unbracketed raw) with
    | none =>
      rw [hparse] at hother
      exact absurd rfl hother
    | some family =>
      apply isWritten_of_address hparse
      intro hsame hcolon
      rw [hparse] at hbare
      cases family with
      | v4 =>
        rw [hsame] at hparse
        have hquad := IpText.quad_of_parse hparse ':' hcolon
        revert hquad
        unfold IpText.IsQuadChar
        decide
      | v6 =>
        apply hbare
        rw [hsame] at hparse
        have hopen : raw.toList.head? ≠ some '[' := by
          intro hhead
          exact bracket_not_address.1 (IpText.address_of_parse hparse '[' (List.mem_of_mem_head? hhead))
        simp [hopen]

theorem toList_brackets (raw : String) : ("[" ++ (raw ++ "]")).toList = '[' :: (raw.toList ++ [']']) := by
  rw [String.toList_append, String.toList_append]
  rfl

theorem unbracketed_brackets (raw : String) : unbracketed ("[" ++ (raw ++ "]")) = raw := by
  unfold unbracketed
  rw [toList_brackets]
  simp

theorem parse_of_ipv6 {raw : String} {bracketed : Bool} (h : classifyHostAddress raw = .ipv6 bracketed) :
    IpText.parse (unbracketed raw) = some .v6 ∧
      bracketed = (raw.toList.head? == some '[' && raw.toList.getLast? == some ']') := by
  unfold classifyHostAddress at h
  split at h
  · cases h
  · split at h
    · cases h
    · next hparse => exact ⟨hparse, (HostAddressKind.ipv6.inj h).symm⟩
    · cases h

/-- Brackets around an address without them. -/
theorem classify_bracketed {raw : String} (h : classifyHostAddress raw = .ipv6 false) :
    classifyHostAddress ("[" ++ (raw ++ "]")) = .ipv6 true ∧ IsWritten ("[" ++ (raw ++ "]")).toList := by
  have hparse : IpText.parse raw = some .v6 := by
    obtain ⟨hparse, hbrackets⟩ := parse_of_ipv6 h
    rcases unbracketed_cases raw with ⟨hsame, -⟩ | ⟨inner, hraw, -⟩
    · rw [← hsame]
      exact hparse
    · rw [hraw] at hbrackets
      simp [List.getLast?_cons] at hbrackets
  have hgateway : "[" ++ (raw ++ "]") ≠ "host-gateway" := by
    intro heq
    have htext := toList_brackets raw
    rw [heq] at htext
    cases htext
  constructor
  · unfold classifyHostAddress
    rw [if_neg hgateway, unbracketed_brackets, hparse, toList_brackets]
    simp [List.getLast?_cons]
  · refine Or.inr ⟨raw.toList, toList_brackets raw, ?_⟩
    intro hopen
    exact bracket_not_address.1 (IpText.address_of_parse hparse '[' hopen)

/-! ## Hostnames -/

theorem atom_chars {hostname : String} (h : Export.isNativeAtom hostname = true) :
    hostname.toList ≠ [] ∧ ':' ∉ hostname.toList ∧ ';' ∉ hostname.toList := by
  unfold Export.isNativeAtom at h
  simp only [Bool.and_eq_true, List.all_eq_true] at h
  obtain ⟨⟨hfirst, -⟩, hchars⟩ := h
  refine ⟨?_, ?_, ?_⟩
  · intro hempty
    rw [hempty] at hfirst
    cases hfirst
  · intro hcolon
    have hallowed := hchars ':' hcolon
    revert hallowed
    decide
  · intro hsemicolon
    have hallowed := hchars ';' hsemicolon
    revert hallowed
    decide

theorem splitText_of_not_mem {separator : Char} {text : String} (h : separator ∉ text.toList) :
    splitText separator text = [text] := by
  have hjoined := splitText_join separator [text] (by simp) (by simpa using h)
  rwa [List.map_singleton, List.intercalate_singleton, String.ofList_toList] at hjoined

/-! ## Reading back -/

/-- The text of a hostname and a written address is cut between them. -/
theorem splitHostMapping_written {hostname raw : String} (hnonempty : raw.toList ≠ []) (h : IsWritten raw.toList) :
    Import.splitHostMapping (hostname ++ (":" ++ raw)) = .ok (hostname.toList, raw.toList) := by
  have htext : (hostname ++ (":" ++ raw)).toList = hostname.toList ++ ':' :: raw.toList := by
    rw [String.toList_append, String.toList_append]
    rfl
  have hlast : (hostname.toList ++ ':' :: raw.toList).getLast? = raw.toList.getLast? := by
    rw [List.getLast?_append, List.getLast?_cons]
    cases hraw : raw.toList.getLast? with
    | none => exact absurd (List.getLast?_eq_none_iff.mp hraw) hnonempty
    | some last => rfl
  unfold Import.splitHostMapping
  rw [htext, hlast]
  rcases h with ⟨hcolon, hopen⟩ | ⟨inner, hraw, hinner⟩
  · rw [if_neg hopen, splitAtLast_mark hcolon]
  · have hclosed : raw.toList.getLast? = some ']' := by
      rw [hraw]
      simp [List.getLast?_cons]
    have htail : '[' ∉ raw.toList.tail := by
      rw [hraw]
      simpa using hinner
    have hcut : Import.atBracket ':' raw.toList = true := by
      rw [hraw]
      rfl
    rw [if_pos hclosed, splitAtLast_append hcut (splitAtLast_bracket htail)]

theorem hostAddress_nonempty (address : HostAddress) : address.raw.toList ≠ [] := by
  intro hempty
  have hvalid := address.valid
  rw [String.toList_eq_nil_iff.mp hempty] at hvalid
  cases hvalid

theorem hostAddress_new (address : HostAddress) : HostAddress.new address.raw = .ok address := by
  unfold HostAddress.new
  split
  · rfl
  · next hbad =>
    rw [address.valid] at hbad
    cases hbad

theorem hostAddress_raw {raw : String} {address : HostAddress} (h : HostAddress.new raw = .ok address) :
    address.raw = raw := by
  unfold HostAddress.new at h
  split at h
  · cases h
    rfl
  · cases h

/-- A written address behind a native atom is read back as one mapping. -/
theorem decode_written {hostname : Identifier} {address : HostAddress}
    (hatom : Export.isNativeAtom hostname.asStr = true) (hkind : address.kind ≠ .other)
    (h : IsWritten address.raw.toList) :
    Import.decodeHostMappings (hostname.asStr ++ (":" ++ address.raw)) = .ok [⟨hostname, address⟩] := by
  obtain ⟨hnonempty, -, hsemicolon⟩ := atom_chars hatom
  have hname : Import.decodeHostname address hostname.asStr = .ok ⟨hostname, address⟩ := by
    unfold Import.decodeHostname
    rw [hatom, Identifier.new_ok hostname.valid]
    rfl
  unfold Import.decodeHostMappings
  rw [splitHostMapping_written (hostAddress_nonempty address) h]
  simp only [bind, Except.bind, String.ofList_toList, hostAddress_new, if_neg hkind,
    splitText_of_not_mem hsemicolon, List.isEmpty_eq_false_iff.mpr hnonempty, Bool.false_eq_true, if_false]
  rw [Results.mapM_eq_ok]
  exact .cons hname .nil

/-- What the exporter writes: a native atom, and the address in brackets when it needs them. -/
theorem hostMappingText_ok {mapping : HostMapping} {text : String}
    (h : Export.hostMappingText mapping = .ok text) :
    Export.isNativeAtom mapping.hostname.asStr = true ∧
      ((mapping.address.kind = .ipv6 false ∧
          text = mapping.hostname.asStr ++ (":" ++ ("[" ++ (mapping.address.raw ++ "]")))) ∨
        (mapping.address.kind ≠ .ipv6 false ∧ mapping.address.kind ≠ .other ∧
          text = mapping.hostname.asStr ++ (":" ++ mapping.address.raw))) := by
  unfold Export.hostMappingText at h
  simp only at h
  split at h
  · cases h
  · next hatom =>
    rw [Bool.not_eq_true', Bool.not_eq_false] at hatom
    refine ⟨hatom, ?_⟩
    have hbare : mapping.address.kind ≠ .ipv6 false → mapping.address.kind ≠ .other →
        text = mapping.hostname.asStr ++ (":" ++ mapping.address.raw) →
        (mapping.address.kind = .ipv6 false ∧
          text = mapping.hostname.asStr ++ (":" ++ ("[" ++ (mapping.address.raw ++ "]")))) ∨
        (mapping.address.kind ≠ .ipv6 false ∧ mapping.address.kind ≠ .other ∧
          text = mapping.hostname.asStr ++ (":" ++ mapping.address.raw)) :=
      fun hbracketed hother htext => Or.inr ⟨hbracketed, hother, htext⟩
    cases hkind : mapping.address.kind with
    | ipv4 | hostGateway =>
      rw [hkind] at h hbare
      exact hbare (by simp) (by simp) (Except.ok.inj h).symm
    | other =>
      rw [hkind] at h
      cases h
    | ipv6 bracketed =>
      rw [hkind] at h hbare
      cases bracketed with
      | true => exact hbare (by simp) (by simp) (Except.ok.inj h).symm
      | false => exact Or.inl ⟨rfl, (Except.ok.inj h).symm⟩

/-- The address that is read back: the same one, or the same one in the brackets it needs. -/
def SameAddress (decoded original : HostAddress) : Prop :=
  decoded = original ∨ (original.kind = .ipv6 false ∧ decoded.kind = .ipv6 true ∧
    decoded.raw = "[" ++ (original.raw ++ "]"))

/-- The bracketed spelling of an address without brackets. -/
theorem exists_bracketed {address : HostAddress} (h : address.kind = .ipv6 false) :
    ∃ other : HostAddress, other.raw = "[" ++ (address.raw ++ "]") ∧ other.kind = .ipv6 true ∧
      IsWritten other.raw.toList := by
  obtain ⟨hkind, hwritten⟩ := classify_bracketed h
  have hnonempty : "[" ++ (address.raw ++ "]") ≠ "" := by
    intro hempty
    have htext := toList_brackets address.raw
    rw [hempty] at htext
    cases htext
  have hclean : '\x00' ∉ ("[" ++ (address.raw ++ "]")).toList := by
    rw [toList_brackets]
    simp [clean_of_valid address.valid]
  exact ⟨⟨_, validateText_of_clean hnonempty hclean⟩, rfl, hkind, hwritten⟩

theorem decode_of_encode {mapping : HostMapping} {text : String}
    (h : Export.hostMappingText mapping = .ok text) :
    ∃ decoded, Import.decodeHostMappings text = .ok [decoded] ∧ decoded.hostname = mapping.hostname ∧
      SameAddress decoded.address mapping.address := by
  obtain ⟨hatom, ⟨hbare, rfl⟩ | ⟨hbare, hother, rfl⟩⟩ := hostMappingText_ok h
  · obtain ⟨other, hraw, hkind, hwritten⟩ := exists_bracketed hbare
    have hdecoded := decode_written hatom (by rw [hkind]; simp) hwritten
    rw [hraw] at hdecoded
    exact ⟨⟨mapping.hostname, other⟩, hdecoded, rfl, Or.inr ⟨hbare, hkind, hraw⟩⟩
  · refine ⟨mapping, ?_, rfl, Or.inl rfl⟩
    exact decode_written hatom hother (isWritten_of_kind hother hbare)

/-! ## Writing back -/

/-- A decoded address needs no brackets: it has them, or it has no colon. -/
theorem bracketed_of_split {value : String} {hostnames address : List Char}
    (h : Import.splitHostMapping value = .ok (hostnames, address)) :
    classifyHostAddress (String.ofList address) ≠ .ipv6 false := by
  intro hbare
  obtain ⟨hparse, hbrackets⟩ := parse_of_ipv6 hbare
  rw [String.toList_ofList] at hbrackets
  unfold Import.splitHostMapping at h
  split at h
  · next hclosed =>
    cases hparts : Import.splitAtLast Import.atBracket value.toList with
    | none =>
      rw [hparts] at h
      cases h
    | some parts =>
      rw [hparts] at h
      cases h
      obtain ⟨ch, hvalue, hcut, -⟩ := splitAtLast_eq_some hparts
      unfold Import.atBracket at hcut
      rw [Bool.and_eq_true, decide_eq_true_eq, decide_eq_true_eq] at hcut
      obtain ⟨rest, rfl⟩ := List.head?_eq_some_iff.mp hcut.2
      have hlast : rest.getLast?.getD '[' = ']' := by
        rw [hvalue, List.getLast?_append, List.getLast?_cons, List.getLast?_cons] at hclosed
        exact Option.some.inj hclosed
      rw [List.getLast?_cons, List.head?_cons, hlast] at hbrackets
      simp at hbrackets
  · cases hparts : Import.splitAtLast (Import.atChar ':') value.toList with
    | none =>
      rw [hparts] at h
      cases h
    | some parts =>
      rw [hparts] at h
      cases h
      obtain ⟨ch, -, -, hlast⟩ := splitAtLast_eq_some hparts
      apply splitAtLast_eq_none.mp hlast
      have hcolon := IpText.colon_of_parse hparse
      rcases unbracketed_cases (String.ofList address) with ⟨hsame, -⟩ | ⟨inner, hraw, hinner⟩
      · rwa [hsame, String.toList_ofList] at hcolon
      · rw [hinner, String.toList_ofList] at hcolon
        rw [String.toList_ofList] at hraw
        rw [hraw]
        simp [hcolon]

/-- What the importer accepts: native atoms, each with the one address. -/
theorem decodeHostMappings_ok {value : String} {mappings : List HostMapping}
    (h : Import.decodeHostMappings value = .ok mappings) :
    ∀ mapping ∈ mappings, Export.isNativeAtom mapping.hostname.asStr = true ∧
      mapping.address.kind ≠ .ipv6 false ∧ mapping.address.kind ≠ .other := by
  unfold Import.decodeHostMappings at h
  obtain ⟨⟨hostnames, raw⟩, hsplit, h⟩ := Results.bind_eq_ok.mp h
  obtain ⟨-, h⟩ := Results.guard_eq_ok.mp h
  cases hnew : HostAddress.new (String.ofList raw) with
  | error failure =>
    rw [hnew] at h
    cases h
  | ok address =>
    rw [hnew] at h
    obtain ⟨hother, h⟩ := Results.guard_eq_ok.mp h
    have hraw : address.raw = String.ofList raw := hostAddress_raw hnew
    have hbare : address.kind ≠ .ipv6 false := by
      unfold HostAddress.kind
      rw [hraw]
      exact bracketed_of_split hsplit
    have hdecoded := Results.mapM_eq_ok.mp h
    intro mapping hmapping
    obtain ⟨hostname, -, hname⟩ := Related.exists_left hdecoded mapping hmapping
    unfold Import.decodeHostname at hname
    obtain ⟨hatom, hname⟩ := Results.guard_eq_ok.mp hname
    rw [Bool.not_eq_true', Bool.not_eq_false] at hatom
    cases hidentifier : Identifier.new hostname with
    | error failure =>
      rw [hidentifier] at hname
      cases hname
    | ok name =>
      rw [hidentifier] at hname
      cases hname
      rw [← Identifier.new_asStr hidentifier] at hatom
      exact ⟨hatom, hbare, hother⟩

/-- A decoded mapping is written as a text that is read back as that mapping alone. -/
theorem encode_of_decode {value : String} {mappings : List HostMapping}
    (h : Import.decodeHostMappings value = .ok mappings) :
    ∀ mapping ∈ mappings, ∃ text, Export.hostMappingText mapping = .ok text ∧
      Import.decodeHostMappings text = .ok [mapping] := by
  intro mapping hmapping
  obtain ⟨hatom, hbare, hother⟩ := decodeHostMappings_ok h mapping hmapping
  refine ⟨mapping.hostname.asStr ++ (":" ++ mapping.address.raw), ?_,
    decode_written hatom hother (isWritten_of_kind hother hbare)⟩
  unfold Export.hostMappingText
  simp only [hatom, Bool.not_true, Bool.false_eq_true, if_false]
  split
  · rfl
  · rfl
  · rfl
  · next hkind => exact absurd hkind hbare
  · next hkind => exact absurd hkind hother

/-- Host mappings are read back as they were written, up to brackets around an address, and what was
read is written and read back unchanged. -/
theorem host_mapping_codec :
    (∀ (subject : Export.Subject) (origins : List Provenance) (mapping : HostMapping) (text : String),
      (Export.encodeHostMapping subject mapping origins).value = some text →
        ∃ decoded, Import.decodeHostMappings text = .ok [decoded] ∧ decoded.hostname = mapping.hostname ∧
          SameAddress decoded.address mapping.address) ∧
      ∀ (value : String) (mappings : List HostMapping), Import.decodeHostMappings value = .ok mappings →
        ∀ mapping ∈ mappings, ∀ (subject : Export.Subject) (origins : List Provenance),
          ∃ text, (Export.encodeHostMapping subject mapping origins).value = some text ∧
            Import.decodeHostMappings text = .ok [mapping] := by
  constructor
  · intro subject origins mapping text h
    apply decode_of_encode
    unfold Export.encodeHostMapping at h
    cases htext : Export.hostMappingText mapping with
    | error reason =>
      rw [htext] at h
      cases h
    | ok written =>
      rw [htext] at h
      cases h
      rfl
  · intro value mappings h mapping hmapping subject origins
    obtain ⟨text, htext, hdecoded⟩ := encode_of_decode h mapping hmapping
    refine ⟨text, ?_, hdecoded⟩
    unfold Export.encodeHostMapping
    rw [htext]
    rfl

end Boxferry.Quadlet
