import Boxferry.Library.Decimal
import Boxferry.Quadlet.Export.SinglePod
import Boxferry.Quadlet.HostMappings

/-! # Published ports

A port is written as `[host:][published]:container/protocol`. The writer takes any text of digits and dots
for an IPv4 address; the reader takes four octets. -/
namespace Boxferry.Quadlet
open Model
set_option autoImplicit false

/-! ## Writing -/

namespace Export

def isIpv4Spelling (value : String) : Bool :=
  !value.isEmpty && value.toList.all fun ch => ch.isDigit || ch = '.'

def portText (port : UInt16) : String := toString port.toNat

def hostPrefix : Option String → Except String String
  | none => .ok ""
  | some address =>
    if isIpv4Spelling address then .ok (address ++ ":")
    else .error "host address requires a Quadlet port form not yet encoded"

/-- The text of a port, or the reason why it has none. -/
def encodePort (port : Port) : Except String String :=
  match protocolName port.protocol with
  | none => .error "unknown port protocol"
  | some protocol => do
    let host ← hostPrefix port.hostAddress
    let publication := match port.published with
      | some published => host ++ (portText published ++ (":" ++ portText port.container))
      | none =>
        if host.isEmpty then portText port.container else host ++ (":" ++ portText port.container)
    pure (publication ++ ("/" ++ protocol))

/-- `map_port` and `map_pod_port`: one entry under the key of the unit that publishes the port. -/
def Mapping.mapPublishedPort (m : Mapping) (capability : String) (key : EntryKey) (subject : Subject)
    (port : Sourced Port) (builder : UnitBuilder) : Mapped UnitBuilder :=
  match encodePort port.value with
  | .error reason => do
    unsupported subject reason port.origins
    pure builder
  | .ok encoded => m.emit capability key encoded subject port.origins builder

def Mapping.mapPort (m : Mapping) (subject : Subject) (port : Sourced Port) (builder : UnitBuilder) :
    Mapped UnitBuilder :=
  m.mapPublishedPort "quadlet.container.publish-port" (.container .publishPort) subject port builder

def Mapping.mapPodPort (m : Mapping) (subject : Subject) (port : Sourced Port) (builder : UnitBuilder) :
    Mapped UnitBuilder :=
  m.mapPublishedPort "quadlet.pod.publish-port" (.pod .publishPort) subject port builder

end Export

/-! ## Reading -/

namespace Import

inductive NativePortProtocol where
  | tcp
  | udp
  | sctp
  | other
deriving DecidableEq

structure NativePortRange where
  start : UInt16
  finish : UInt16
deriving DecidableEq

def NativePortRange.isSingle (range : NativePortRange) : Bool := range.start = range.finish

/-- A publication as the native library hands it over. -/
structure NativePortSpecification where
  host : Option String
  published : Option NativePortRange
  container : NativePortRange
  protocol : NativePortProtocol
deriving DecidableEq

def betweenBrackets (host : String) : Option (List Char) :=
  match host.toList with
  | '[' :: rest => if rest.getLast? = some ']' then some rest.dropLast else none
  | _ => none

def normalizeNativeHost (host : String) : Except ValueIssue String :=
  match betweenBrackets host with
  | some address =>
    if IpText.readIpv6 address = some [] then .ok (String.ofList address)
    else .error (.unsupported "bracketed PublishPort host is not a literal IPv6 address")
  | none =>
    if IpText.readIpv4 host.toList = some [] then .ok host
    else .error (.unsupported "PublishPort host is not a literal IPv4 or bracketed IPv6 address")

def neutralProtocol : NativePortProtocol → Option Protocol
  | .tcp => some .tcp
  | .udp => some .udp
  | .sctp => some .sctp
  | .other => none

def neutralPort (publication : NativePortSpecification) : Except ValueIssue Port :=
  if !publication.container.isSingle || (publication.published.any fun port => !port.isSingle) then
    .error (.unsupported
      "native port ranges are valid but are not represented by the neutral scalar port model")
  else
    match neutralProtocol publication.protocol with
    | none => .error (.unsupported
      "a newer QuadletLens port protocol is not represented by this neutral-model adapter")
    | some protocol => do
      let hostAddress ← publication.host.mapM normalizeNativeHost
      match Port.new publication.container.start (publication.published.map NativePortRange.start)
          hostAddress protocol with
      | .error _ => .error (.invalid "decoded PublishPort value cannot enter the neutral port model")
      | .ok port => .ok port

/-! The native library reads a publication; this is its reading from the right. -/

def readProtocol : List Char → Option NativePortProtocol
  | ['t', 'c', 'p'] => some .tcp
  | ['u', 'd', 'p'] => some .udp
  | ['s', 'c', 't', 'p'] => some .sctp
  | _ => none

def readPort (digits : List Char) : Option NativePortRange :=
  (Decimal.read digits).bind fun number =>
    if number < 2 ^ 16 then some ⟨.ofNat number, .ofNat number⟩ else none

/-- No digits stand for a port that the host picks. -/
def readPublished (digits : List Char) : Option (Option NativePortRange) :=
  if digits.isEmpty then some none else (readPort digits).map some

/-- What stands before the container port: a published port, behind the host if there is one. -/
def readFront (front : List Char) (container : NativePortRange) (protocol : NativePortProtocol) :
    Option NativePortSpecification :=
  match splitAtLast (atChar ':') front with
  | none => (readPublished front).map fun published => ⟨none, published, container, protocol⟩
  | some (host, digits) => (readPublished digits).map fun published =>
      ⟨some (String.ofList host), published, container, protocol⟩

def readPorts (ports : List Char) (protocol : NativePortProtocol) : Option NativePortSpecification :=
  match splitAtLast (atChar ':') ports with
  | none => (readPort ports).map fun container => ⟨none, none, container, protocol⟩
  | some (front, digits) => (readPort digits).bind fun container => readFront front container protocol

def readPublication (text : String) : Option NativePortSpecification := do
  let (ports, protocol) ← splitAtLast (atChar '/') text.toList
  let protocol ← readProtocol protocol
  readPorts ports protocol

end Import
/-! ## The text of a port -/

def nativeProtocol : Protocol → Import.NativePortProtocol
  | .tcp => .tcp
  | .udp => .udp
  | .sctp => .sctp
  | .other _ => .other

def single (port : UInt16) : Import.NativePortRange := ⟨port, port⟩

def specificationOf (port : Port) : Import.NativePortSpecification :=
  ⟨port.hostAddress, port.published.map single, single port.container, nativeProtocol port.protocol⟩

theorem toList_portText (port : UInt16) : (Export.portText port).toList = Nat.toDigits 10 port.toNat :=
  Nat.toList_repr

theorem readPort_portText (port : UInt16) :
    Import.readPort (Export.portText port).toList = some (single port) := by
  unfold Import.readPort
  rw [toList_portText, Decimal.read_toDigits, Option.bind_some, if_pos port.toNat_lt]
  simp [single]

theorem readPublished_portText (port : UInt16) :
    Import.readPublished (Export.portText port).toList = some (some (single port)) := by
  have hnonempty : (Export.portText port).toList.isEmpty = false := by
    cases hdigits : (Export.portText port).toList with
    | nil =>
      have hread := readPort_portText port
      rw [hdigits] at hread
      cases hread
    | cons first rest => rfl
  unfold Import.readPublished
  rw [hnonempty, readPort_portText]
  rfl

theorem not_mem_portText {mark : Char} (port : UInt16) (h : mark.isDigit = false) :
    mark ∉ (Export.portText port).toList := by
  intro hmem
  rw [toList_portText] at hmem
  rw [Decimal.digits_isDigit _ mark hmem] at h
  cases h

theorem readProtocol_name {protocol : Protocol} {name : String} (h : Export.protocolName protocol = some name) :
    Import.readProtocol name.toList = some (nativeProtocol protocol) ∧ '/' ∉ name.toList := by
  cases protocol with
  | other _ => cases h
  | _ =>
    cases h
    exact ⟨rfl, by decide⟩

theorem readPublication_protocol {publication name : String} {protocol : Protocol}
    (h : Export.protocolName protocol = some name) :
    Import.readPublication (publication ++ ("/" ++ name)) =
      Import.readPorts publication.toList (nativeProtocol protocol) := by
  obtain ⟨hname, hslash⟩ := readProtocol_name h
  have htext : (publication ++ ("/" ++ name)).toList = publication.toList ++ '/' :: name.toList := by
    simp
  unfold Import.readPublication
  rw [htext, splitAtLast_mark hslash]
  simp only [Option.bind_eq_bind, Option.bind_some, hname]

theorem readPorts_front (front : List Char) (container : UInt16) (protocol : Import.NativePortProtocol) :
    Import.readPorts (front ++ ':' :: (Export.portText container).toList) protocol =
      Import.readFront front (single container) protocol := by
  unfold Import.readPorts
  rw [splitAtLast_mark (not_mem_portText container (by decide))]
  simp only [readPort_portText, Option.bind_some]

theorem readFront_host {host published : List Char} (container : Import.NativePortRange)
    (protocol : Import.NativePortProtocol) (h : ':' ∉ published) :
    Import.readFront (host ++ ':' :: published) container protocol =
      (Import.readPublished published).map
        fun published => ⟨some (String.ofList host), published, container, protocol⟩ := by
  unfold Import.readFront
  rw [splitAtLast_mark h]

/-- Reading an encoded port from the right finds its parts in all four shapes. -/
theorem readPublication_encodePort {port : Port} {text : String} (h : Export.encodePort port = .ok text) :
    Import.readPublication text = some (specificationOf port) := by
  obtain ⟨container, published, hostAddress, protocol, hnonzero⟩ := port
  unfold Export.encodePort at h
  cases hname : Export.protocolName protocol with
  | none =>
    simp only [hname] at h
    cases h
  | some name =>
    simp only [hname] at h
    obtain ⟨host, hhost, h⟩ := Results.bind_eq_ok.mp h
    cases h
    rw [readPublication_protocol hname]
    have hcontainer := not_mem_portText container (show (':' : Char).isDigit = false by decide)
    cases hostAddress with
    | none =>
      cases hhost
      cases published with
      | none =>
        show Import.readPorts (Export.portText container).toList _ = _
        unfold Import.readPorts
        rw [splitAtLast_eq_none.mpr hcontainer]
        simp only [readPort_portText, Option.map_some]
        rfl
      | some published =>
        have hpublished := not_mem_portText published (show (':' : Char).isDigit = false by decide)
        have hports : ("" ++ (Export.portText published ++ (":" ++ Export.portText container))).toList =
            (Export.portText published).toList ++ ':' :: (Export.portText container).toList := by
          simp
        rw [hports, readPorts_front]
        unfold Import.readFront
        rw [splitAtLast_eq_none.mpr hpublished]
        simp only [readPublished_portText, Option.map_some]
        rfl
    | some address =>
      obtain ⟨-, hhost⟩ := Results.accept_eq_ok.mp hhost
      cases hhost
      cases published with
      | none =>
        have hnonempty : (address ++ ":").isEmpty = false := by
          rw [Bool.eq_false_iff, ne_eq, String.isEmpty_iff, ← String.toList_eq_nil_iff]
          simp
        have hports : (address ++ ":" ++ (":" ++ Export.portText container)).toList =
            (address.toList ++ [':']) ++ ':' :: (Export.portText container).toList := by
          simp
        simp only [hnonempty, Bool.false_eq_true, if_false]
        rw [hports, readPorts_front, readFront_host _ _ (by simp), String.ofList_toList]
        rfl
      | some published =>
        have hpublished := not_mem_portText published (show (':' : Char).isDigit = false by decide)
        have hports : (address ++ ":" ++ (Export.portText published ++ (":" ++ Export.portText container))).toList =
            (address.toList ++ ':' :: (Export.portText published).toList) ++
              ':' :: (Export.portText container).toList := by
          simp
        rw [hports, readPorts_front, readFront_host _ _ hpublished, readPublished_portText,
          String.ofList_toList]
        rfl

/-! ## Addresses -/

/-- `str::parse` of an IPv4 address succeeds. -/
def IsIpv4Literal (host : String) : Prop := IpText.readIpv4 host.toList = some []

instance (host : String) : Decidable (IsIpv4Literal host) := inferInstanceAs (Decidable (_ = _))

/-- A spelling of digits and dots is taken as it is, or not at all. -/
theorem normalizeNativeHost_spelling {host : String} (h : Export.isIpv4Spelling host = true) :
    Import.normalizeNativeHost host = .ok host ↔ IsIpv4Literal host := by
  have hopen : Import.betweenBrackets host = none := by
    unfold Import.betweenBrackets
    split
    · next rest hhost =>
      unfold Export.isIpv4Spelling at h
      rw [Bool.and_eq_true, List.all_eq_true, hhost] at h
      exact absurd (h.2 '[' List.mem_cons_self) (by decide)
    · rfl
  unfold Import.normalizeNativeHost
  rw [hopen]
  exact Results.accept_eq_ok.trans (and_iff_left rfl)

/-- A port is decoded to itself when its host is. -/
theorem neutralPort_specification {port : Port} {name : String}
    (hname : Export.protocolName port.protocol = some name) :
    Import.neutralPort (specificationOf port) = .ok port ↔
      ∀ host ∈ port.hostAddress, Import.normalizeNativeHost host = .ok host := by
  obtain ⟨container, published, hostAddress, protocol, hnonzero⟩ := port
  have hprotocol : Import.neutralProtocol (nativeProtocol protocol) = some protocol := by
    cases protocol with
    | other _ => cases hname
    | _ => rfl
  have hsingle : (published.map single).any (fun port => !port.isSingle) = false := by
    cases published with
    | none => rfl
    | some published => simp [single, Import.NativePortRange.isSingle]
  have hstart : (published.map single).map Import.NativePortRange.start = published := by
    cases published <;> rfl
  have hcontainer : (single container).isSingle = true := decide_eq_true rfl
  have hport : ∀ host, Port.new (single container).start published host protocol =
      .ok ⟨container, published, host, protocol, hnonzero⟩ := fun host => dif_neg hnonzero
  unfold Import.neutralPort specificationOf
  simp only [hsingle, hcontainer, hprotocol, hstart, Bool.not_true, Bool.or_false, Bool.false_eq_true, if_false]
  rw [Results.bind_eq_ok]
  simp only [hport, Except.ok.injEq, Port.mk.injEq, true_and, and_true]
  cases hostAddress with
  | none => simp [pure, Except.pure]
  | some host =>
    rw [Option.mapM_some]
    constructor
    · rintro ⟨value, hvalue, rfl⟩ other hother
      cases hhost : Import.normalizeNativeHost host with
      | error issue =>
        rw [hhost] at hvalue
        cases hvalue
      | ok normal =>
        rw [hhost] at hvalue
        cases hvalue
        rw [← Option.mem_some.mp hother, hhost]
    · intro hhost
      refine ⟨some host, ?_, rfl⟩
      rw [hhost host rfl]
      rfl

/-! ## The exporter -/

/-- What is emitted for a port reads back as the port: the parts of the text, the host as a literal
address, and the port of the model. -/
structure Recovers (text : String) (port : Port) : Prop where
  parts : Import.readPublication text = some (specificationOf port)
  host : ∀ host ∈ port.hostAddress, Import.normalizeNativeHost host = .ok host
  port : Import.neutralPort (specificationOf port) = .ok port

theorem encodePort_ok {port : Port} {text : String} (h : Export.encodePort port = .ok text) :
    (∃ name, Export.protocolName port.protocol = some name) ∧
      ∀ host ∈ port.hostAddress, Export.isIpv4Spelling host = true := by
  unfold Export.encodePort at h
  cases hname : Export.protocolName port.protocol with
  | none =>
    simp only [hname] at h
    cases h
  | some name =>
    simp only [hname] at h
    refine ⟨⟨name, rfl⟩, ?_⟩
    obtain ⟨written, hwritten, -⟩ := Results.bind_eq_ok.mp h
    intro host hhost
    rw [Option.mem_def.mp hhost] at hwritten
    exact (Results.accept_eq_ok.mp hwritten).1

theorem recovers_iff {port : Port} {text : String} (h : Export.encodePort port = .ok text) :
    Recovers text port ↔ ∀ host ∈ port.hostAddress, IsIpv4Literal host := by
  obtain ⟨⟨name, hname⟩, hspelling⟩ := encodePort_ok h
  constructor
  · intro hrecovers host hhost
    exact (normalizeNativeHost_spelling (hspelling host hhost)).mp (hrecovers.host host hhost)
  · intro hliteral
    have hhosts : ∀ host ∈ port.hostAddress, Import.normalizeNativeHost host = .ok host :=
      fun host hhost => (normalizeNativeHost_spelling (hspelling host hhost)).mpr (hliteral host hhost)
    exact ⟨readPublication_encodePort h, hhosts, (neutralPort_specification hname).mpr hhosts⟩

section Emitted
variable {m : Export.Mapping} {capability : String} {key : Export.EntryKey} {subject decided : Export.Subject}
  {origins : List Provenance} {port : Sourced Port} {builder : Export.UnitBuilder}

/-- A port that is reported exact was emitted as its text, and the text reads back as the port exactly
when the host, if there is one, is a literal IPv4 address. -/
theorem published_port_recovered
    (h : .exact decided origins ∈ (m.mapPublishedPort capability key subject port builder).log) :
    ∃ text, (m.mapPublishedPort capability key subject port builder).value.entries =
        builder.entries ++ [⟨key, text⟩] ∧
      (Recovers text port.value ↔ ∀ host ∈ port.value.hostAddress, IsIpv4Literal host) := by
  unfold Export.Mapping.mapPublishedPort at h ⊢
  cases hencoded : Export.encodePort port.value with
  | error reason =>
    rw [hencoded] at h
    simp [Export.unsupported, Export.loss] at h
  | ok text =>
    rw [hencoded] at h
    refine ⟨text, ?_, recovers_iff hencoded⟩
    simp only
    rw [m.emit_exact h]

end Emitted

/-- Port 80 at a host, published at port 8080. -/
def webPort (host : String) : Sourced Port := ⟨⟨80, some 8080, some host, .tcp, Port.nonzero_http⟩, []⟩

theorem published_port_recovered_loopback :
    ∃ text, (Export.permissiveMapping.mapPort (.other "port") (webPort "127.0.0.1") ⟨.container, []⟩).value.entries =
        [⟨.container .publishPort, text⟩] ∧
      (Recovers text (webPort "127.0.0.1").value ↔
        ∀ host ∈ (webPort "127.0.0.1").value.hostAddress, IsIpv4Literal host) :=
  @published_port_recovered Export.permissiveMapping "quadlet.container.publish-port" (.container .publishPort)
    (.other "port") (.other "port") [] (webPort "127.0.0.1") ⟨.container, []⟩ (by decide +kernel)

/-- Digits and dots that are no address are emitted as exact and refused by the reader. -/
theorem short_host_is_refused :
    .exact (.other "port") [] ∈
        (Export.permissiveMapping.mapPort (.other "port") (webPort "1.2") ⟨.container, []⟩).log ∧
      (Export.permissiveMapping.mapPort (.other "port") (webPort "1.2") ⟨.container, []⟩).value.entries =
        [⟨.container .publishPort, "1.2:8080:80/tcp"⟩] ∧
      Import.normalizeNativeHost "1.2" =
        .error (.unsupported "PublishPort host is not a literal IPv4 or bracketed IPv6 address") ∧
      ¬ Recovers "1.2:8080:80/tcp" (webPort "1.2").value := by
  refine ⟨by decide +kernel, by decide +kernel, by decide +kernel, ?_⟩
  intro hrecovers
  exact absurd (hrecovers.host "1.2" rfl) (by decide +kernel)

end Boxferry.Quadlet
