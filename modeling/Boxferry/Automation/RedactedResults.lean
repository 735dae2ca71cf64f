import Boxferry.Automation.OpaqueRuns
import Boxferry.Automation.RenderedTexts
import Boxferry.Library.StableSort

/-! # Redacted results

The texts of a command that is no opaque one are redacted by one hidden value after the other, longer
ones first. What is redacted for one value is text for the next. -/
namespace Boxferry.Automation.Runner
open Reporting (CodePoint PyText protectedValues)
set_option autoImplicit false

def points (text : String) : PyText := text.toList.map .scalar

def redactedMark : PyText := .scalar '[' :: points "REDACTED" ++ [.scalar ']']

/-- `text.replace(secret, "[REDACTED]")` for a secret that is not empty -/
def redactOne (text secret : PyText) : PyText :=
  if secret = [] then text else Rewriting.rewrite [(secret, redactedMark)] 0 text

def redact (runtime : Reporting.Runtime) (value : PyText) (secrets : List PyText) : PyText :=
  (StableSort.sortBy (fun secret => OrderDual.toDual secret.length) (runtime.order secrets.dedup)).foldl redactOne value

/-- The values of options that `_SENSITIVE_OPTION` finds. -/
def argumentSecrets (sensitive : PyText → Bool) : List PyText → List PyText
  | [] => []
  | argument :: rest =>
    let name := argument.takeWhile (· ≠ .scalar '=')
    (if name.head? = some (.scalar '-') && sensitive name then
      if name = argument then rest.take 1 else [argument.drop (name.length + 1)]
    else []) ++ argumentSecrets sensitive rest

/-- A command, and what of it and its abort hook is shown. -/
structure Command where
  environment : List (PyText × PyText)
  secrets : List PyText
  argv : List PyText
  stdout : Bytes
  stderr : Bytes
  stage : PyText
  cause : PyText
  affectedInput : PyText
  evidenceLink : PyText
  abortCause : PyText
  hookError : PyText

section Texts
variable (runtime : Reporting.Runtime) (sensitive : PyText → Bool) (command : Command)

def Command.hidden : List PyText :=
  protectedValues runtime command.environment ++ command.secrets ++ argumentSecrets sensitive command.argv

/-- The redacted texts: the output, the diagnostic, and the context and the failure of the abort hook. -/
def Command.texts : List PyText :=
  let shown (text : PyText) := redact runtime text (command.hidden runtime sensitive)
  let decoded (bytes : Bytes) := (Utf8Replace.decode bytes).map CodePoint.scalar
  [shown (decoded command.stdout), shown (decoded command.stderr), shown command.stage, shown command.cause,
    shown command.affectedInput, shown command.evidenceLink, (shown command.abortCause).take 2048,
    (shown command.hookError).take 512]

variable {runtime sensitive} {value text : PyText} {secrets : List PyText}

/-- No mark has a part of the value. -/
structure Unmarked (value : PyText) : Prop where
  nonempty : value ≠ []
  opening : .scalar '[' ∉ value
  closing : .scalar ']' ∉ value
  inner : ¬ value <:+: redactedMark

theorem Unmarked.absent_redactOne (h : Unmarked value) {secret : PyText} (habsent : value = secret ∨ ¬ value <:+: text) :
    ¬ value <:+: redactOne text secret := by
  unfold redactOne
  split
  · next hnil => exact habsent.resolve_left fun hsame => h.nonempty (hsame.trans hnil)
  · next hne => exact Rewriting.absent_rewrite hne h.nonempty h.opening h.closing h.inner habsent

theorem Unmarked.absent_foldl (h : Unmarked value) (habsent : value ∈ secrets ∨ ¬ value <:+: text) :
    ¬ value <:+: secrets.foldl redactOne text := by
  induction secrets generalizing text with
  | nil => exact habsent.resolve_left List.not_mem_nil
  | cons secret rest ih =>
    apply ih
    rw [List.mem_cons, or_assoc, or_left_comm] at habsent
    exact habsent.imp_right h.absent_redactOne

/-- A hidden value that no mark has a part of is in none of the redacted texts. -/
theorem hidden_values_absent (h : Unmarked value) (hhidden : value ∈ command.hidden runtime sensitive) :
    ∀ shown ∈ command.texts runtime sensitive, ¬ value <:+: shown := by
  have habsent : ∀ text, ¬ value <:+: redact runtime text (command.hidden runtime sensitive) := by
    refine fun text => h.absent_foldl (Or.inl ?_)
    rw [StableSort.mem_sortBy, (runtime.order_perm _).mem_iff, List.mem_dedup]
    exact hhidden
  have hcut : ∀ text count, ¬ value <:+: (redact runtime text (command.hidden runtime sensitive)).take count :=
    fun text count hin => habsent text (hin.trans (List.take_prefix _ _).isInfix)
  simp [Command.texts, habsent, hcut]

end Texts

theorem hidden_values_absent_stage :
    ¬ points "hush" <:+: redact Reporting.sampleRuntime (points "hush hush") [points "hush"] :=
  @hidden_values_absent Reporting.sampleRuntime (fun _ => false)
    ⟨[], [points "hush"], [], [], [], points "hush hush", [], [], [], [], []⟩ _
    ⟨by decide, by decide, by decide, by decide⟩ List.mem_cons_self _
    (List.mem_cons_of_mem _ (List.mem_cons_of_mem _ List.mem_cons_self))

end Boxferry.Automation.Runner
