import Boxferry.Library.Results
import Boxferry.Library.UnitWords
import Boxferry.Quadlet.Export.Core

/-! # Container commands

The words a container's `Exec=` value is made of, and what the reference
reading of that value gives back. -/
namespace Boxferry.Quadlet.Export
open Engine Model
set_option autoImplicit false

/-! ## Words -/

/-- `u8::is_ascii_alphanumeric` or one of the reviewed marks, for every byte of the value. -/
def isSafeWord (value : String) (allowEmpty : Bool) : Bool :=
  (allowEmpty || !value.isEmpty) &&
    value.toList.all fun ch =>
      ch.isAlphanum || ch ∈ ['_', '-', '.', '/', ':', '@', '+', '=', ',']

/-- `str::replace` of one character. -/
def replaceChar (target : Char) (replacement : List Char) (text : List Char) : List Char :=
  text.flatMap fun ch => if ch = target then replacement else [ch]

def encodeQuadletWord (value : String) : Option String :=
  if value.toList.any fun ch =>
      ch == '\x00' || ch == '\r' || ch == '\n' || isControl ch then none
  else if isSafeWord value false then some value
  else
    some (String.ofList ('"' :: replaceChar '"' ['\\', '"']
      (replaceChar '\\' ['\\', '\\'] value.toList) ++ ['"']))

theorem replaceChar_quote (text : List Char) :
    replaceChar '"' ['\\', '"'] (replaceChar '\\' ['\\', '\\'] text) =
      text.flatMap UnitWords.escape := by
  unfold replaceChar
  rw [List.flatMap_assoc]
  congr 1
  funext ch
  unfold UnitWords.escape
  by_cases hslash : ch = '\\'
  · simp [hslash]
  · by_cases hquote : ch = '"'
    · simp [hquote]
    · simp [hslash, hquote]

theorem isSafeWord_chars {value : String} (h : isSafeWord value false = true) :
    value.toList ≠ [] ∧ ∀ ch ∈ value.toList, ch ≠ ' ' ∧ ch ≠ '"' := by
  unfold isSafeWord at h
  simp only [Bool.false_or, Bool.and_eq_true, Bool.not_eq_true', List.all_eq_true] at h
  obtain ⟨hnonempty, hchars⟩ := h
  constructor
  · intro hnil
    rw [String.toList_eq_nil_iff.mp hnil] at hnonempty
    cases hnonempty
  · intro ch hmem
    have hsafe := hchars ch hmem
    constructor
    · rintro rfl
      revert hsafe
      decide
    · rintro rfl
      revert hsafe
      decide

/-- An encoded word is spelled so that the reference reader takes it for the argument. -/
theorem encodeQuadletWord_spells {value encoded : String} (h : encodeQuadletWord value = some encoded) :
    UnitWords.Spells encoded.toList value.toList := by
  unfold encodeQuadletWord at h
  split at h
  · cases h
  · split at h
    · next hsafe =>
      rw [← Option.some.inj h]
      obtain ⟨hnonempty, hchars⟩ := isSafeWord_chars hsafe
      exact UnitWords.bare_spells hnonempty hchars
    · rw [← Option.some.inj h, String.toList_ofList, replaceChar_quote]
      exact UnitWords.quote_spells value.toList

/-! ## Commands -/

/-- Authored `$` syntax that no runtime observation or conversion decision has settled. -/
def containsUnresolvedSourceVariable (value : String) (origins : List Provenance) : Bool :=
  containsChar value '$' && origins.any (fun origin => origin.kind == .sourceDocument) &&
    !origins.any fun origin =>
      origin.kind == .runtimeObservation || origin.kind == .conversionDecision

/-- The value of a command that can be written, or the reason why it cannot. -/
def commandValue (command : Sourced Command) : Except String String :=
  match command.value with
  | .exec arguments =>
    if arguments.any fun argument =>
        containsUnresolvedSourceVariable argument.expose command.origins then
      .error "command argument contains unresolved authored variable syntax"
    else if arguments.isEmpty then .error "exec-form command requires at least one argument"
    else
      match arguments.mapM fun argument => encodeQuadletWord argument.expose with
      | some words => .ok (" ".intercalate words)
      | none =>
        .error "command argument contains a physical line break, NUL byte, or control character"
  | .shell _ => .error "shell-form command semantics are not yet encoded for Quadlet Exec"
  | .empty => .error "explicit command clearing is not yet represented by the Quadlet adapter"

def Mapping.mapCommand (m : Mapping) (service : String) (command : Sourced Command)
    (builder : UnitBuilder) : Mapped UnitBuilder :=
  match commandValue command with
  | .ok value =>
    m.emit "quadlet.container.exec" (.container .exec) value (.serviceSetting service "command")
      command.origins builder
  | .error reason => do
    unsupported (.serviceSetting service "command") reason command.origins
    pure builder

/-! ## Reading back -/

theorem commandValue_exec {arguments : List ProtectedString} {origins : List Provenance}
    {value : String} (h : commandValue ⟨.exec arguments, origins⟩ = .ok value) :
    UnitWords.read value = some (arguments.map ProtectedString.expose) ↔
      ∀ argument ∈ arguments, '%' ∉ argument.expose.toList := by
  unfold commandValue at h
  simp only at h
  rw [Results.guard_eq_ok, Results.guard_eq_ok] at h
  obtain ⟨-, -, hwords⟩ := h
  split at hwords
  · next words hencoded =>
    rw [← Except.ok.inj hwords]
    have hmapped : (arguments.map ProtectedString.expose).mapM encodeQuadletWord = some words := by
      rw [List.mapM_map]
      exact hencoded
    have hspelled := UnitWords.forall_spells_mapM
      (fun text spelling hspelling => encodeQuadletWord_spells hspelling) hmapped
    rw [UnitWords.read_joined hspelled, List.forall_mem_map]
  · cases hwords

/-- The `Exec=` value of a command reported exact stands for the arguments exactly when no
argument has a percent sign: the encoder does not double it. -/
theorem mapCommand_exec_readsBack (m : Mapping) (service : String)
    (arguments : List ProtectedString) (origins reported : List Provenance) (builder : UnitBuilder)
    (h : .exact (.serviceSetting service "command") reported ∈
      (m.mapCommand service ⟨.exec arguments, origins⟩ builder).log) :
    (∃ value, (m.mapCommand service ⟨.exec arguments, origins⟩ builder).value =
        { builder with entries := builder.entries ++ [⟨.container .exec, value⟩] } ∧
      UnitWords.read value = some (arguments.map ProtectedString.expose)) ↔
        ∀ argument ∈ arguments, '%' ∉ argument.expose.toList := by
  unfold Mapping.mapCommand at h ⊢
  cases hvalue : commandValue ⟨.exec arguments, origins⟩ with
  | error reason =>
    rw [hvalue] at h
    simp [unsupported, loss] at h
  | ok value =>
    rw [hvalue] at h
    simp only at h ⊢
    rw [← commandValue_exec hvalue, m.emit_exact h]
    constructor
    · intro hread
      obtain ⟨emitted, hentries, hread⟩ := hread
      have hentry := List.append_cancel_left (UnitBuilder.mk.inj hentries).2
      rw [(UnitEntry.mk.inj (List.cons.inj hentry).1).2]
      exact hread
    · intro hread
      exact ⟨value, rfl, hread⟩

/-- An exporter for separate containers whose native library takes everything. -/
def plainMapping : Mapping where
  exporter := ⟨.permissive, .separateContainers, none⟩
  application := .new ⟨"app", rfl⟩
  podmanTarget := some ⟨⟨5, 0, 0⟩, none⟩

theorem mapCommand_exec_readsBack_echo :
    ∃ value, (plainMapping.mapCommand "web" ⟨.exec [.plain "echo", .plain "a \"b\""], []⟩
        ⟨.container, []⟩).value = ⟨.container, [⟨.container .exec, value⟩]⟩ ∧
      UnitWords.read value = some ["echo", "a \"b\""] :=
  (mapCommand_exec_readsBack plainMapping "web" [.plain "echo", .plain "a \"b\""] [] []
    ⟨.container, []⟩ (by decide)).mpr (by decide)

/-- `Exec(["100%"])` is reported exact, but its value is a live specifier. -/
theorem mapCommand_exec_live :
    ¬ ∀ (m : Mapping) (service : String) (arguments : List ProtectedString)
        (origins reported : List Provenance) (builder : UnitBuilder),
      .exact (.serviceSetting service "command") reported ∈
          (m.mapCommand service ⟨.exec arguments, origins⟩ builder).log →
        ∃ value, (m.mapCommand service ⟨.exec arguments, origins⟩ builder).value =
            { builder with entries := builder.entries ++ [⟨.container .exec, value⟩] } ∧
          UnitWords.read value = some (arguments.map ProtectedString.expose) := by
  intro hclaim
  have hlog : (plainMapping.mapCommand "web" ⟨.exec [.plain "100%"], []⟩ ⟨.container, []⟩).log =
      [.exact (.serviceSetting "web" "command") []] := by rfl
  obtain ⟨value, hvalue, hread⟩ := hclaim plainMapping "web" [.plain "100%"] [] []
    ⟨.container, []⟩ (by rw [hlog]; exact List.mem_cons_self)
  have hemitted : (plainMapping.mapCommand "web" ⟨.exec [.plain "100%"], []⟩ ⟨.container, []⟩).value =
      ⟨.container, [⟨.container .exec, "\"100%\""⟩]⟩ := by rfl
  rw [hemitted] at hvalue
  have hentry := (UnitBuilder.mk.inj hvalue).2
  rw [List.nil_append] at hentry
  rw [← (UnitEntry.mk.inj (List.cons.inj hentry).1).2] at hread
  revert hread
  decide

end Boxferry.Quadlet.Export
