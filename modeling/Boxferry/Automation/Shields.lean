import Boxferry.Library.Utf8Replace
import Mathlib.Data.List.Dedup
import Mathlib.Data.List.Infix
import Mathlib.Data.List.Sort

/-! # Shields

The sanitization of test output: the byte patterns that are protected, the stream that rewrites
them and workflow command syntax, the windows that keep its beginning and its end, and the logs of
two channels that share one reserve. -/
namespace Boxferry.Automation.Reporting
open Rewriting Utf8Replace
set_option autoImplicit false

/-! ## Texts -/

/-- A code point of a Python string, which may be a surrogate on its own. -/
inductive CodePoint where
  | scalar (ch : Char)
  | surrogate (index : Fin 0x800)
deriving DecidableEq

abbrev PyText := List CodePoint

/-- `value.encode("utf-8")`, which fails at a surrogate. -/
def encodeStrict : PyText → Option (List UInt8)
  | [] => some []
  | .scalar ch :: rest => (encodeStrict rest).map (String.utf8EncodeChar ch ++ ·)
  | .surrogate _ :: _ => none

def CodePoint.replaced : CodePoint → Char
  | scalar ch => ch
  | surrogate _ => '?'

/-- `value.encode("utf-8", "replace")` -/
def encodeReplace (value : PyText) : List UInt8 := encode (value.map CodePoint.replaced)

def ascii (text : String) : List UInt8 := encode text.toList

/-! ## Protected patterns -/

/-- `str.upper`, and the order in which a set of texts is iterated. -/
structure Runtime where
  upper : PyText → PyText
  order : List PyText → List PyText
  order_perm : ∀ list, (order list).Perm list

def sensitiveMarkers : List PyText :=
  ["TOKEN", "SECRET", "PASSWORD", "CREDENTIAL", "PRIVATE_KEY", "AUTHORIZATION"].map fun marker =>
    marker.toList.map .scalar

/-- The values of an environment that are protected. -/
def protectedValues (runtime : Runtime) (environment : List (PyText × PyText)) : List PyText :=
  (environment.filter fun entry => decide (4 ≤ entry.2.length) &&
    sensitiveMarkers.any fun marker => decide (marker <:+: runtime.upper entry.1)).map Prod.snd

inductive Refusal where
  | value (text : String)
  | unicode
deriving DecidableEq

def encodePatterns : Nat → List PyText → Except Refusal (List (List UInt8))
  | _, [] => .ok []
  | total, value :: rest =>
    if 16 * 1024 < value.length then .error (.value "protected-pattern length budget exceeded")
    else
      match encodeStrict value with
      | none => .error .unicode
      | some data =>
        if 16 * 1024 < data.length ∨ 64 * 1024 < total + data.length then
          .error (.value "protected-pattern byte budget exceeded")
        else (encodePatterns (total + data.length) rest).map (data :: ·)

/-- The text of a resolved path. -/
structure Root where
  text : PyText
  nonempty : text ≠ []

structure Shield where
  patterns : List (List UInt8 × List UInt8)
  overlap : Nat

def star : List UInt8 := ascii "*"

/-- What the checkout path is replaced by; it must not show a protected value. -/
def checkoutLabel (encoded : List (List UInt8)) : List UInt8 :=
  if encoded.any fun value => decide (value <:+: ascii "<repository>") then star else ascii "<repository>"

/-- The shield of the encoded values and the encoded checkout path. -/
def Shield.ofPatterns (encoded : List (List UInt8)) (checkout : List UInt8) : Shield where
  patterns := (encoded.map (fun value => (value, star)) ++ [(checkout, checkoutLabel encoded)]).insertionSort
    fun first second => second.1.length ≤ first.1.length
  overlap := (encoded ++ [checkout]).foldl (fun longest value => max longest value.length) 3 - 1

/-- `Shield(root, environment)` -/
def Shield.new (runtime : Runtime) (root : Root) (environment : List (PyText × PyText)) : Except Refusal Shield :=
  let secrets := (runtime.order (protectedValues runtime environment).dedup).insertionSort
    fun first second => second.length ≤ first.length
  if 64 < secrets.length + 1 then .error (.value "protected-pattern count budget exceeded")
  else (encodePatterns 0 (secrets ++ [root.text])).map fun encoded =>
    Shield.ofPatterns encoded.dropLast (encoded.getLast?.getD [])

/-! ## Sanitizer -/

def chunkBytes : Nat := 32 * 1024

/-- The rules in their order: the protected patterns, and the syntax of workflow commands. -/
def Shield.rules (shield : Shield) : List (List UInt8 × List UInt8) :=
  shield.patterns ++ [(ascii "::", ascii ": :"), (ascii "##[", ascii "# #[")]

/-- `Sanitizer.feed`: the result, and the bytes that stay pending. -/
def feed (shield : Shield) (pending value : List UInt8) (final : Bool) : Except Refusal (List UInt8 × List UInt8) :=
  if chunkBytes < value.length then .error (.value "capture chunk budget exceeded")
  else
    let data := pending ++ value
    .ok (scan shield.rules (if final then data.length else data.length - shield.overlap) 0 data)

/-- `Sanitizer.finish` -/
def finish (shield : Shield) (pending : List UInt8) : Except Refusal (List UInt8 × List UInt8) :=
  feed shield pending [] true

/-- The results of one feed for each chunk, each with what it leaves pending. -/
def feeds (shield : Shield) : List UInt8 → List (List UInt8) → Except Refusal (List (List UInt8 × List UInt8))
  | _, [] => .ok []
  | pending, chunk :: rest => do
    let found ← feed shield pending chunk false
    let others ← feeds shield found.2 rest
    return found :: others

/-- The concatenated results of the feeds and of the finish. -/
def sanitize (shield : Shield) (chunks : List (List UInt8)) : Except Refusal (List UInt8) := do
  let found ← feeds shield [] chunks
  let last ← finish shield ((found.map Prod.snd).getLast?.getD [])
  return (found.map Prod.fst).flatten ++ last.1

/-! ## Windows -/

structure Window where
  headLimit : Nat
  tailLimit : Nat
  head : List UInt8
  tail : List UInt8
  total : Nat

namespace Window

/-- `Window(head, tail)` -/
def new (headLimit tailLimit : Nat) : Window := ⟨headLimit, tailLimit, [], [], 0⟩

def add (window : Window) (data : List UInt8) : Window :=
  let room := window.headLimit - window.head.length
  let tail := window.tail ++ data.drop room
  { window with
    total := window.total + data.length
    head := window.head ++ data.take room
    tail := if window.tailLimit = 0 then window.tail else tail.drop (tail.length - window.tailLimit) }

def omitted (window : Window) : Nat := window.total - window.head.length - window.tail.length

/-- What stands for the omitted bytes. -/
def marker (window : Window) : List Char :=
  if window.omitted = 0 then [] else ("\n[omitted " ++ toString window.omitted ++ " sanitized bytes]\n").toList

def render (window : Window) : List UInt8 := window.head ++ encode window.marker ++ window.tail

end Window

/-! ## Logs -/

structure Bounds where
  original : Nat
  head : Nat
  tail : Nat

inductive Channel where
  | stdout
  | stderr
deriving DecidableEq

def Channel.name : Channel → String
  | stdout => "stdout"
  | stderr => "stderr"

/-- The stream, the decoder and the window of one channel. -/
structure Lane where
  pending : List UInt8
  decoder : Option Pending
  window : Window

structure Logs where
  bounds : Bounds
  lanes : Channel → Lane
  headLeft : Nat
  original : Nat
  exceeded : Bool

namespace Logs

/-- `Logs(shield, bounds)` -/
def new (bounds : Bounds) : Logs :=
  ⟨bounds, fun _ => ⟨[], none, Window.new 0 (bounds.tail / 2)⟩, bounds.head, 0, false⟩

/-- `_retain` -/
def retain (logs : Logs) (name : Channel) (data : List UInt8) : Logs :=
  let lane := logs.lanes name
  if logs.exceeded then
    let window := { lane.window with total := lane.window.total + data.length }
    { logs with lanes := Function.update logs.lanes name { lane with window := window } }
  else
    let take := min logs.headLeft data.length
    let window := { lane.window with head := lane.window.head ++ data.take take, total := lane.window.total + take }
    { logs with
      lanes := Function.update logs.lanes name { lane with window := window.add (data.drop take) }
      headLeft := logs.headLeft - take }

/-- The stream and the decoder of a channel after they have taken bytes. -/
def advance (logs : Logs) (name : Channel) (pending : List UInt8) (decoder : Option Pending) : Logs :=
  { logs with lanes := Function.update logs.lanes name { logs.lanes name with pending, decoder } }

def add (shield : Shield) (logs : Logs) (name : Channel) (data : List UInt8) : Except Refusal Logs := do
  let original := logs.original + data.length
  let logs := { logs with original, exceeded := logs.exceeded || decide (logs.bounds.original < original) }
  let safe ← feed shield (logs.lanes name).pending data false
  let text := decodeFrom (logs.lanes name).decoder safe.1
  return (logs.advance name safe.2 text.2).retain name (encode text.1)

def finishChannel (shield : Shield) (logs : Logs) (name : Channel) : Except Refusal Logs := do
  let safe ← Reporting.finish shield (logs.lanes name).pending
  let text := textFrom (logs.lanes name).decoder safe.1
  return (logs.advance name safe.2 none).retain name (encode text)

def finish (shield : Shield) (logs : Logs) : Except Refusal Logs := do
  let logs ← logs.finishChannel shield .stdout
  logs.finishChannel shield .stderr

/-- The logs after chunks that arrived on the two channels in any order. -/
def run (shield : Shield) (bounds : Bounds) (events : List (Channel × List UInt8)) : Except Refusal Logs :=
  events.foldlM (fun logs event => logs.add shield event.1 event.2) (new bounds)

/-- The transcript of the report. -/
def transcript (logs : Logs) : List Char :=
  let part := fun (name : Channel) => ("[" ++ name.name ++ "]\n").toList ++ decode (logs.lanes name).window.render
  part .stdout ++ '\n' :: part .stderr

def sanitizedBytes (logs : Logs) : Nat := (logs.lanes .stdout).window.total + (logs.lanes .stderr).window.total

def omittedBytes (logs : Logs) : Nat := (logs.lanes .stdout).window.omitted + (logs.lanes .stderr).window.omitted

end Logs

/-! ## Rendered texts -/

/-- The slices of a text by which it is encoded. -/
def slices (value : PyText) : List PyText :=
  (List.range ((value.length + (chunkBytes / 4 - 1)) / (chunkBytes / 4))).map fun index =>
    (value.drop (index * (chunkBytes / 4))).take (chunkBytes / 4)

/-- Takes the reserve of the omission marker off both sides of the cut. -/
def Window.reserve (window : Window) (limit : Nat) : Window :=
  if window.omitted = 0 then window
  else
    let reserve := min 64 (limit / 4)
    { window with
      head := window.head.take (window.head.length - reserve)
      tail := window.tail.drop (min reserve window.tail.length) }

/-- The window of the sanitized values, before the marker has its reserve. -/
def retained (shield : Shield) (values : List PyText) (limit : Nat) : Except Refusal Window := do
  let found ← feeds shield [] ((values.flatMap slices).map encodeReplace)
  let last ← finish shield ((found.map Prod.snd).getLast?.getD [])
  return (found.map Prod.fst ++ [last.1]).foldl Window.add (Window.new (limit / 2) (limit - limit / 2))

/-- `Shield.parts`: the text, and the number of omitted bytes. -/
def Shield.parts (shield : Shield) (values : List PyText) (limit : Nat) : Except Refusal (List Char × Nat) :=
  if limit < 128 then .error (.value "rendered text reserve is too small")
  else do
    let window ← retained shield values limit
    let window := window.reserve limit
    let text := decode window.render
    if limit < Utf8Text.size text then .error (.value "rendered text byte budget exceeded")
    else return (text, window.omitted)

/-- `Shield.text` -/
def Shield.text (shield : Shield) (value : PyText) (limit : Nat) : Except Refusal (List Char) :=
  (shield.parts [value] limit).map Prod.fst

end Boxferry.Automation.Reporting
