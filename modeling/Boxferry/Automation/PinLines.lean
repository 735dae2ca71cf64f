import Boxferry.Automation.FirstPartyScope
import Boxferry.Library.TextLines

/-! # Lines with pins

The readers of one line of a workflow: mapping lines, plain or quoted scalars, headers of block
scalars, and the names of actions and reusable workflows that end in a revision. -/
namespace Boxferry.Automation.PinUpgrades
open FirstParty
set_option autoImplicit false

abbrev Text := List Char

/-! ## Python texts -/

/-- `str.isspace` of one character, which is `\s` in a pattern. -/
def isSpace (ch : Char) : Bool :=
  (9 ≤ ch.toNat && ch.toNat ≤ 13) || (28 ≤ ch.toNat && ch.toNat ≤ 32) || (0x2000 ≤ ch.toNat && ch.toNat ≤ 0x200a) ||
    ch.toNat ∈ [0x85, 0xa0, 0x1680, 0x2028, 0x2029, 0x202f, 0x205f, 0x3000]

/-- Where `str.splitlines` ends a line. -/
def endsLine (ch : Char) (rest : Text) : Bool :=
  if ch = '\r' then rest.head? != some '\n'
  else ch.toNat ∈ [10, 11, 12, 28, 29, 30, 0x85, 0x2028, 0x2029]

/-- `str.splitlines(keepends=True)` -/
def splitlines (text : Text) : List Text := TextLines.lines endsLine text

def lstrip (text : Text) : Text := text.dropWhile isSpace

def strip (text : Text) : Text := ((lstrip text).reverse.dropWhile isSpace).reverse

/-- `str.removesuffix` -/
def removeSuffix (text ending : Text) : Text :=
  if ending.isSuffixOf text then text.take (text.length - ending.length) else text

/-- `[ \t]` -/
def isBlank (ch : Char) : Bool := ch == ' ' || ch == '\t'

/-- `[^\r\n]` -/
def inLine (ch : Char) : Bool := ch != '\r' && ch != '\n'

/-- `(\r?\n)?\Z` -/
def isEnding (text : Text) : Bool := [[], ['\n'], ['\r', '\n']].contains text

/-- `SHA`: forty lowercase hexadecimal digits. -/
def isRevision (text : Text) : Bool := text.length == 40 && text.all isHexChar

/-- `line.lstrip(" ")`, and the number of blanks before it. -/
def unindented (line : Text) : Text := line.dropWhile (· == ' ')

def indentOf (line : Text) : Nat := line.length - (unindented line).length

/-- A line that is blank or a comment. -/
def isSilent (line : Text) : Bool := (strip (unindented line)).isEmpty || (unindented line).head? == some '#'

/-! ## Mapping lines -/

/-- The groups of `mapping`. -/
structure MappingLine where
  indent : Nat
  sequence : Bool
  key : Text
  value : Text
  ending : Text
deriving DecidableEq

def isKeyStart (ch : Char) : Bool := ('A' ≤ ch && ch ≤ 'Z') || ('a' ≤ ch && ch ≤ 'z') || ch == '_'

def isKeyChar (ch : Char) : Bool := isKeyStart ch || ('0' ≤ ch && ch ≤ '9') || ch == '-'

def dash : Text := ['-', ' ']

/-- What follows the indentation and the dash of a sequence. -/
def itemOf (line : Text) : Text :=
  if dash.isPrefixOf (unindented line) then (unindented line).drop 2 else unindented line

/-- `mapping.fullmatch(line)` -/
def mapping (line : Text) : Option MappingLine :=
  let key := (itemOf line).takeWhile isKeyChar
  let rest := (itemOf line).dropWhile isKeyChar
  let ending := rest.tail.dropWhile inLine
  if key.head?.any isKeyStart && rest.head? == some ':' && isEnding ending then
    some ⟨indentOf line, dash.isPrefixOf (unindented line), key, rest.tail.takeWhile inLine, ending⟩
  else none

/-- What stands before the value. -/
def MappingLine.front (found : MappingLine) : Text :=
  List.replicate found.indent ' ' ++ (if found.sequence then dash else []) ++ found.key ++ [':']

/-- `match.start("value")` -/
def MappingLine.start (found : MappingLine) : Nat :=
  found.indent + (if found.sequence then 2 else 0) + found.key.length + 1

/-- The column of the key. -/
def MappingLine.column (found : MappingLine) : Nat := found.indent + if found.sequence then 2 else 0

/-! ## Values -/

/-- The groups of `scalar`, and the text around them. -/
structure Scalar where
  blanks : Text
  quote : Text
  token : Text
  trailing : Text
  comment : Text
deriving DecidableEq

def isQuote (ch : Char) : Bool := ch == '\x27' || ch == '"'

/-- A character of a token: no quote, no white space and no number sign. -/
def isTokenChar (ch : Char) : Bool := !isQuote ch && !isSpace ch && ch != '#'

/-- `(?:\#[^\r\n]*)?\Z` -/
def isComment (text : Text) : Bool := text.isEmpty || (text.head? == some '#' && text.all inLine)

/-- `['\"]?` -/
def openQuote (text : Text) : Text := if text.head?.any isQuote then text.take 1 else []

/-- `scalar.fullmatch(value)` -/
def scalar (value : Text) : Option Scalar :=
  let text := value.dropWhile isBlank
  let quote := openQuote text
  let body := text.drop quote.length
  let closed := body.dropWhile isTokenChar
  let rest := closed.drop quote.length
  let comment := rest.dropWhile isBlank
  if !(body.takeWhile isTokenChar).isEmpty && quote.isPrefixOf closed && isComment comment then
    some ⟨value.takeWhile isBlank, quote, body.takeWhile isTokenChar, rest.takeWhile isBlank, comment⟩
  else none

/-- `literal.start("token")` -/
def Scalar.start (literal : Scalar) : Nat := literal.blanks.length + literal.quote.length

/-- Whether a quoted text that has been opened is closed in its line, after a character that is
skipped or not. -/
def closes (quote : Char) : Bool → Text → Bool
  | _, [] => false
  | true, _ :: rest => closes quote false rest
  | false, ch :: rest =>
    if quote = '"' ∧ ch = '\\' then closes quote true rest
    else if ch = quote then
      if quote = '\x27' ∧ rest.head? = some '\x27' then closes quote true rest
      else (strip rest).isEmpty || (strip rest).head? == some '#'
    else closes quote false rest

def quotedLine (value : Text) : Bool :=
  match lstrip value with
  | [] => true
  | quote :: rest => if isQuote quote then closes quote false rest else true

/-- `[|>][1-9+-]*[ \t]*(?:\#.*)?\Z` -/
def isBlockIndicator (text : Text) : Bool :=
  let rest := (text.tail.dropWhile fun ch => ('1' ≤ ch && ch ≤ '9') || ch == '+' || ch == '-').dropWhile isBlank
  text.head?.any (fun ch => ch == '|' || ch == '>') &&
    (rest.isEmpty || (rest.head? == some '#' && rest.all (· != '\n')))

/-- `block.fullmatch`, for a text with at most so many tags and anchors. -/
def isBlockWith : Nat → Text → Bool
  | 0, text => isBlockIndicator text
  | count + 1, text =>
    if text.head?.any fun ch => ch == '!' || ch == '&' then
      let rest := text.tail.dropWhile fun ch => !isSpace ch
      !(text.tail.takeWhile fun ch => !isSpace ch).isEmpty && rest.head?.any isBlank &&
        isBlockWith count (rest.dropWhile isBlank)
    else isBlockIndicator text

def isBlock (text : Text) : Bool := isBlockWith text.length text

/-! ## Names that end in a revision -/

def sharedWorkflow : Text := "Strukturpiloten/boxferry/.github/workflows/shared-".toList

/-- `shared.fullmatch(token)` -/
def shared (before token : Text) : Bool :=
  let name := token.drop sharedWorkflow.length
  let isNameChar := fun ch : Char => ('a' ≤ ch && ch ≤ 'z') || ('0' ≤ ch && ch ≤ '9') || ch == '-'
  sharedWorkflow.isPrefixOf token && !(name.takeWhile isNameChar).isEmpty &&
    name.dropWhile isNameChar == ".yml@".toList ++ before

def localAction : Text := "./_automation/.github/actions/shared-source".toList

def localStepActions : List Text :=
  ["./_automation/.github/actions/shared-node".toList, "./_automation/.github/actions/shared-crate-publish".toList]

def checkoutAction : Text := "actions/checkout@".toList

/-- `checkout.fullmatch(token)` -/
def checkout (token : Text) : Bool := checkoutAction.isPrefixOf token && isRevision (token.drop checkoutAction.length)

def renovateNote : Text :=
  ("# renovate: datasource=github-digest " ++
    "depName=Strukturpiloten/boxferry currentValue=automation-v1").toList

/-- The indentation of a line that `annotation` matches. -/
def annotation (line : Text) : Option Nat :=
  let text := unindented line
  if renovateNote.isPrefixOf text && isEnding ((text.drop renovateNote.length).dropWhile isBlank) then
    some (indentOf line)
  else none

/-! ## What was read -/

variable {line value text before token : Text} {found : MappingLine} {literal : Scalar} {ch : Char}

theorem replicate_append_unindented (line : Text) : List.replicate (indentOf line) ' ' ++ unindented line = line := by
  have happend := @List.takeWhile_append_dropWhile _ (· == ' ') line
  have hlength : (line.takeWhile (· == ' ')).length = indentOf line := by
    unfold indentOf unindented
    have h := congrArg List.length happend
    rw [List.length_append] at h
    omega
  have hblanks : line.takeWhile (· == ' ') = List.replicate (indentOf line) ' ' := by
    rw [List.eq_replicate_iff]
    refine ⟨hlength, fun ch hch => ?_⟩
    have h := List.mem_takeWhile_imp hch
    exact eq_of_beq h
  rw [← hblanks]
  exact happend

/-- A line that is read as a mapping line is its parts, written out. -/
structure MappingLine.Reads (found : MappingLine) (line : Text) : Prop where
  text : line = found.front ++ found.value ++ found.ending
  indent : found.indent = indentOf line
  sequence : found.sequence = dash.isPrefixOf (unindented line)
  first : found.key.head?.any isKeyStart = true
  ending : isEnding found.ending = true

theorem dash_append_itemOf (line : Text) :
    (if dash.isPrefixOf (unindented line) then dash else []) ++ itemOf line = unindented line := by
  unfold itemOf
  by_cases hdash : dash.isPrefixOf (unindented line) = true
  · rw [if_pos hdash, if_pos hdash]
    obtain ⟨more, hmore⟩ := List.isPrefixOf_iff_prefix.mp hdash
    rw [← hmore]
    rfl
  · rw [if_neg hdash, if_neg hdash, List.nil_append]

theorem mapping_reads (h : mapping line = some found) : found.Reads line := by
  unfold mapping at h
  simp only at h
  split at h
  next hcond =>
    rw [Option.some.injEq] at h
    subst h
    rw [Bool.and_eq_true, Bool.and_eq_true, beq_iff_eq] at hcond
    obtain ⟨⟨hfirst, hcolon⟩, hending⟩ := hcond
    refine ⟨?_, rfl, rfl, hfirst, hending⟩
    generalize hitem : itemOf line = item at hcolon
    have hrest : item.dropWhile isKeyChar = ':' :: (item.dropWhile isKeyChar).tail := by
      cases hdrop : item.dropWhile isKeyChar with
      | nil =>
        rw [hdrop] at hcolon
        cases hcolon
      | cons other rest =>
        rw [hdrop, List.head?_cons, Option.some.injEq] at hcolon
        rw [hcolon, List.tail_cons]
    have hvalue : (item.dropWhile isKeyChar).tail.takeWhile inLine ++ (item.dropWhile isKeyChar).tail.dropWhile inLine =
        (item.dropWhile isKeyChar).tail := List.takeWhile_append_dropWhile
    have hkey : item.takeWhile isKeyChar ++ item.dropWhile isKeyChar = item := List.takeWhile_append_dropWhile
    calc line = List.replicate (indentOf line) ' ' ++ unindented line := (replicate_append_unindented line).symm
      _ = List.replicate (indentOf line) ' ' ++ ((if dash.isPrefixOf (unindented line) = true then dash else []) ++
            (item.takeWhile isKeyChar ++ (':' :: ((item.dropWhile isKeyChar).tail.takeWhile inLine ++
              (item.dropWhile isKeyChar).tail.dropWhile inLine)))) := by
        rw [hvalue, ← hrest, hkey, ← hitem, dash_append_itemOf]
      _ = _ := by
        unfold MappingLine.front
        simp only [List.append_assoc, List.cons_append, List.nil_append]
  next => cases h

theorem MappingLine.length_front (found : MappingLine) : found.front.length = found.start := by
  unfold MappingLine.front MappingLine.start
  rw [List.length_append, List.length_append, List.length_append, List.length_replicate]
  cases found.sequence with
  | false => rfl
  | true => rfl

theorem isKeyStart_bounds (h : isKeyStart ch = true) : 65 ≤ ch.toNat ∧ ch.toNat ≤ 122 := by
  unfold isKeyStart at h
  simp only [Bool.or_eq_true, Bool.and_eq_true, decide_eq_true_eq, beq_iff_eq] at h
  obtain (⟨hlow, hhigh⟩ | ⟨hlow, hhigh⟩) | rfl := h
  · have h₁ : 65 ≤ ch.toNat := hlow
    have h₂ : ch.toNat ≤ 90 := hhigh
    omega
  · have h₁ : 97 ≤ ch.toNat := hlow
    have h₂ : ch.toNat ≤ 122 := hhigh
    omega
  · decide

theorem strip_ne_nil (hmem : ch ∈ text) (hspace : isSpace ch = false) : strip text ≠ [] := by
  intro h
  unfold strip lstrip at h
  rw [List.reverse_eq_nil_iff, List.dropWhile_eq_nil_iff] at h
  have hkept : ch ∈ text.dropWhile isSpace := by
    rw [← @List.takeWhile_append_dropWhile _ isSpace text, List.mem_append] at hmem
    obtain hmem | hmem := hmem
    · rw [List.mem_takeWhile_imp hmem] at hspace
      cases hspace
    · exact hmem
  rw [h ch (List.mem_reverse.mpr hkept)] at hspace
  cases hspace

theorem not_silent (h : (unindented line).head? = some ch) (hspace : isSpace ch = false) (hhash : ch ≠ '#') :
    isSilent line = false := by
  unfold isSilent
  rw [Bool.or_eq_false_iff, h]
  constructor
  · rw [List.isEmpty_eq_false_iff]
    exact strip_ne_nil (List.mem_of_mem_head? h) hspace
  · rw [beq_eq_false_iff_ne]
    intro hsome
    exact hhash (Option.some.inj hsome)

/-- A mapping line begins with its key or with a dash. -/
theorem mapping_not_silent (h : mapping line = some found) : isSilent line = false := by
  have hreads := mapping_reads h
  have hline : unindented line = (if found.sequence then dash else []) ++ found.key ++ [':'] ++ found.value ++ found.ending := by
    have happend := replicate_append_unindented line
    nth_rewrite 3 [hreads.text] at happend
    unfold MappingLine.front at happend
    rw [hreads.indent] at happend
    simp only [List.append_assoc, List.append_cancel_left_eq] at happend
    rw [happend]
    simp only [List.append_assoc]
  by_cases hseq : found.sequence = true
  · have hhead : (unindented line).head? = some '-' := by
      rw [hline, hseq]
      rfl
    exact not_silent hhead (by decide) (by decide)
  · have hfirst := hreads.first
    cases hkey : found.key with
    | nil =>
      rw [hkey] at hfirst
      cases hfirst
    | cons first rest =>
      rw [hkey] at hfirst
      have hbounds := isKeyStart_bounds hfirst
      have hhead : (unindented line).head? = some first := by
        rw [hline, if_neg hseq, hkey]
        rfl
      apply not_silent hhead
      · unfold isSpace
        simp only [List.mem_cons, List.not_mem_nil, or_false, Bool.or_eq_false_iff, Bool.and_eq_false_iff,
          decide_eq_false_iff_not]
        omega
      · rintro rfl
        exact absurd hbounds.1 (by decide)

/-- A value that is read as a scalar is its parts, written out. -/
structure Scalar.Reads (literal : Scalar) (value : Text) : Prop where
  text : value = literal.blanks ++ literal.quote ++ literal.token ++ literal.quote ++ literal.trailing ++ literal.comment
  blanks : ∀ ch ∈ literal.blanks ++ literal.trailing, isBlank ch = true
  quote : literal.quote = [] ∨ ∃ ch, literal.quote = [ch] ∧ isQuote ch = true
  token : ∀ ch ∈ literal.token, isTokenChar ch = true
  comment : isComment literal.comment = true

theorem openQuote_spec (text : Text) :
    (openQuote text = [] ∨ ∃ ch, openQuote text = [ch] ∧ isQuote ch = true) ∧ openQuote text <+: text := by
  unfold openQuote
  by_cases hany : text.head?.any isQuote = true
  · rw [if_pos hany]
    refine ⟨?_, List.take_prefix 1 text⟩
    cases text with
    | nil => exact Or.inl rfl
    | cons first rest => exact Or.inr ⟨first, rfl, hany⟩
  · rw [if_neg hany]
    exact ⟨Or.inl rfl, List.nil_prefix⟩

theorem scalar_reads (h : scalar value = some literal) : literal.Reads value := by
  unfold scalar at h
  simp only at h
  split at h
  next hcond =>
    rw [Option.some.injEq] at h
    subst h
    rw [Bool.and_eq_true, Bool.and_eq_true] at hcond
    obtain ⟨⟨-, hclosed⟩, hcomment⟩ := hcond
    generalize hstart : value.dropWhile isBlank = start at hclosed hcomment
    obtain ⟨hquote, hopen⟩ := openQuote_spec start
    generalize openQuote start = quote at hquote hopen hclosed hcomment
    obtain ⟨body, hbody⟩ := hopen
    have hdrop : start.drop quote.length = body := by
      rw [← hbody]
      exact List.drop_left
    rw [hdrop] at hclosed hcomment
    obtain ⟨rest, hrest⟩ := List.isPrefixOf_iff_prefix.mp hclosed
    have hdropped : (body.dropWhile isTokenChar).drop quote.length = rest := by
      rw [← hrest]
      exact List.drop_left
    rw [hdropped] at hcomment
    constructor
    · simp only [hdrop, hdropped]
      calc value = value.takeWhile isBlank ++ (quote ++ (body.takeWhile isTokenChar ++ body.dropWhile isTokenChar)) := by
            rw [List.takeWhile_append_dropWhile, hbody, ← hstart, List.takeWhile_append_dropWhile]
        _ = value.takeWhile isBlank ++ (quote ++ (body.takeWhile isTokenChar ++
              (quote ++ (rest.takeWhile isBlank ++ rest.dropWhile isBlank)))) := by
            rw [@List.takeWhile_append_dropWhile _ isBlank rest, hrest]
        _ = _ := by simp only [List.append_assoc]
    · intro ch hch
      rw [List.mem_append] at hch
      obtain hch | hch := hch
      · exact List.mem_takeWhile_imp hch
      · exact List.mem_takeWhile_imp hch
    · exact hquote
    · intro ch hch
      exact List.mem_takeWhile_imp hch
    · simp only [hdrop, hdropped]
      exact hcomment
  next => cases h

theorem shared_reads (h : shared before token = true) : ∃ owner, token = owner ++ ['@'] ++ before := by
  unfold shared at h
  rw [Bool.and_eq_true, Bool.and_eq_true, beq_iff_eq] at h
  obtain ⟨⟨hfront, -⟩, hrest⟩ := h
  generalize sharedWorkflow = front at hfront hrest
  obtain ⟨name, rfl⟩ := List.isPrefixOf_iff_prefix.mp hfront
  rw [List.drop_left] at hrest
  refine ⟨front ++ (name.takeWhile fun ch => ('a' ≤ ch && ch ≤ 'z') || ('0' ≤ ch && ch ≤ '9') || ch == '-') ++
    ".yml".toList, ?_⟩
  have hyml : ".yml@".toList = ".yml".toList ++ ['@'] := by decide
  rw [hyml] at hrest
  rw [List.append_assoc, List.append_assoc, List.append_assoc, ← List.append_assoc ".yml".toList, ← hrest,
    List.takeWhile_append_dropWhile]

theorem removeSuffix_append (owner before : Text) : removeSuffix (owner ++ before) before = owner := by
  unfold removeSuffix
  rw [if_pos (List.isSuffixOf_iff_suffix.mpr (List.suffix_append owner before)), List.length_append,
    Nat.add_sub_cancel, List.take_left]

end Boxferry.Automation.PinUpgrades
