import Boxferry.Automation.PinLines
import Boxferry.Library.FencedWords

/-! # The scan for pins

The scan of a workflow line by line: a stack of the mappings that are open, the block scalar that
is skipped, and the pins that are replaced where the mapping they stand in owns them. -/
namespace Boxferry.Automation.PinUpgrades
set_option autoImplicit false

/-! ## Frames -/

inductive FrameKind where
  | jobs
  | job
  | steps
  | step
  | env
  | inputs
  | other
deriving DecidableEq

/-- `PinFrame`. The owner of a frame for `with` is the frame below it: it stays there as long as
the frame is open. -/
structure PinFrame where
  indent : Nat
  kind : FrameKind
  uses : Text := []
  repository : Bool := false
  keys : List Text := []
deriving DecidableEq

/-- The frames, the innermost first, the keys of the root, and the indentation of an open block
scalar. -/
structure Scan where
  frames : List PinFrame := []
  rootKeys : List Text := []
  blockIndent : Option Nat := none
deriving DecidableEq

/-- A line after the scan, and whether a pin of it was replaced. -/
structure Outcome where
  scan : Scan
  line : Text
  replaced : Bool
deriving DecidableEq

def usesKey : Text := "uses".toList
def shaVariable : Text := "AUTOMATION_SHA".toList
def shaInput : Text := "automation_sha".toList
def shaOption : Text := "automation-sha".toList
def refKey : Text := "ref".toList
def repositoryKey : Text := "repository".toList
def firstParty : Text := "Strukturpiloten/boxferry".toList

/-- The key of a line is taken in the mapping the line belongs to, which must not hold it. -/
def claimKey (rootKeys : List Text) (column : Nat) (key : Text) :
    List PinFrame → Option (List Text × List PinFrame)
  | [] =>
    if column = 0 then if rootKeys.contains key then none else some (key :: rootKeys, []) else some (rootKeys, [])
  | parent :: below =>
    if column = parent.indent + 2 then
      if parent.keys.contains key then none else some (rootKeys, { parent with keys := key :: parent.keys } :: below)
    else some (rootKeys, parent :: below)

/-- `direct_owner` -/
def directOwner (frames : List PinFrame) (column : Nat) : Bool :=
  frames.head?.any fun parent =>
    (parent.kind == .job || parent.kind == .step) && column == parent.indent + 2

/-- Whether an input of an action or a reusable workflow is a pin that its caller owns. -/
def ownsInput (before : Text) (previous : Option Text) (parent owner : PinFrame) (key : Text) (indent : Nat) : Bool :=
  if key == shaInput || key == shaOption then
    shared before owner.uses || owner.uses == localAction ||
      (key == shaOption && owner.kind == .step && localStepActions.contains owner.uses)
  else key == refKey && parent.repository && checkout owner.uses &&
    (previous.bind annotation).any (· == indent)

/-- `replace` -/
def replaces (before : Text) (previous : Option Text) (frames : List PinFrame) (column indent : Nat)
    (key : Text) (token : Option Text) : Bool :=
  if key == usesKey && directOwner frames column && token.isSome then token.any (shared before)
  else match frames with
    | [] => false
    | parent :: below =>
      token == some before && column == parent.indent + 2 &&
        ((parent.kind == .env && key == shaVariable) ||
          (parent.kind == .inputs && below.head?.any fun owner => ownsInput before previous parent owner key indent))

/-- What the innermost frame keeps of a line: the action it uses, the repository it checks out. -/
def noteLine (column : Nat) (key : Text) (token : Option Text) : List PinFrame → List PinFrame
  | [] => []
  | parent :: below =>
    let parent := if key == usesKey && directOwner (parent :: below) column then
      { parent with uses := token.getD parent.uses } else parent
    let parent := if parent.kind == .inputs && below.head?.any (fun owner => owner.kind == .step && checkout owner.uses) &&
        column == parent.indent + 2 && key == repositoryKey then
      { parent with repository := token == some firstParty } else parent
    parent :: below

/-- The kind of the mapping that a line with no value opens. -/
def kindOf (frames : List PinFrame) (column : Nat) (key : Text) : FrameKind :=
  match frames with
  | [] =>
    if key == "jobs".toList && column == 0 then .jobs
    else if key == "env".toList && column == 0 then .env else .other
  | parent :: below =>
    let direct := directOwner (parent :: below) column
    if parent.kind == .jobs && column == parent.indent + 2 then .job
    else if key == "steps".toList && direct && parent.kind == .job then .steps
    else if key == "env".toList && direct then .env
    else if key == "with".toList && direct then .inputs else .other

/-- The line with its pin replaced, at the offsets of the token. -/
def replacePin (before after line : Text) (found : MappingLine) (literal : Scalar) : Text :=
  let start := found.start + literal.start
  line.take start ++ (removeSuffix literal.token before ++ after) ++ line.drop (start + literal.token.length)

/-! ## Lines -/

/-- A mapping line below the frames that are left open, with the frame of its own step. -/
def scanEntry (before after : Text) (previous : Option Text) (rootKeys : List Text) (frames : List PinFrame)
    (found : MappingLine) (line : Text) : Option Outcome :=
  match claimKey rootKeys found.column found.key frames with
  | none => none
  | some (rootKeys, frames) =>
    if !quotedLine found.value then none
    else if isBlock (strip found.value) then
      some { scan := { frames, rootKeys, blockIndent := some found.indent }, line, replaced := false }
    else
      let literal := scalar found.value
      let token := literal.map Scalar.token
      let replaced := replaces before previous frames found.column found.indent found.key token
      let noted := noteLine found.column found.key token frames
      let line := if replaced then (literal.map (replacePin before after line found)).getD line else line
      let frames := if (strip found.value).isEmpty || (lstrip found.value).head? == some '#' then
        { indent := found.column, kind := kindOf noted found.column found.key } :: noted else noted
      some { scan := { frames, rootKeys }, line, replaced }

/-- One line. The scan ends where the ownership of a pin would not be clear. -/
def scanLine (before after : Text) (previous : Option Text) (scan : Scan) (line : Text) : Option Outcome :=
  if isSilent line || scan.blockIndent.any (· < indentOf line) then some { scan, line, replaced := false }
  else if (unindented line).head? == some '\t' then none
  else
    let frames := scan.frames.dropWhile fun frame => indentOf line ≤ frame.indent
    let kept : Outcome := { scan := { scan with frames, blockIndent := none }, line, replaced := false }
    match mapping line with
    | none => some kept
    | some found =>
      if found.sequence then
        if frames.head?.any fun parent => parent.kind == .steps && indentOf line == parent.indent + 2 then
          scanEntry before after previous scan.rootKeys ({ indent := indentOf line, kind := .step } :: frames) found line
        else some kept
      else scanEntry before after previous scan.rootKeys frames found line

/-- The lines one after the other, each with the line before it. -/
def scanLines (before after : Text) : Option Text → Scan → List Text → Option (List Outcome)
  | _, _, [] => some []
  | previous, scan, line :: rest =>
    (scanLine before after previous scan line).bind fun outcome =>
      (scanLines before after (some line) outcome.scan rest).map (outcome :: ·)

/-- `expected_ci_upgrade` -/
def expectedCiUpgrade (trusted : List UInt8) (before after : String) : Option (List UInt8) :=
  (Utf8Text.ofBytes trusted).bind fun source =>
    if source.toList.contains '\x00' || !isRevision before.toList || !isRevision after.toList || before == after then none
    else
      (scanLines before.toList after.toList none {} (splitlines source.toList)).bind fun outcomes =>
        if outcomes.any Outcome.replaced then
          some (Utf8Text.bytes (String.ofList (outcomes.map Outcome.line).flatten))
        else none

/-! ## Replaced pins

What the scan for pins changes: revisions at the end of the scalars of mapping lines under a few keys,
and nothing else. -/
open FirstParty

/-! ## Pinned lines -/

def pinKeys : List Text := [usesKey, shaVariable, shaInput, shaOption, refKey]

/-- A mapping line whose scalar is a revision, or ends in one behind an at sign, without the
revision. -/
structure PinnedLine where
  indent : Nat
  sequence : Bool
  key : Text
  blanks : Text
  quote : Text
  owner : Text
  trailing : Text
  comment : Text
  ending : Text
  known : key ∈ pinKeys
  spaced : ∀ ch ∈ blanks ++ trailing, isBlank ch = true
  quoted : quote = [] ∨ ∃ ch, quote = [ch] ∧ isQuote ch = true
  owned : owner = [] ∨ ∃ name, owner = name ++ ['@']
  plain : ∀ ch ∈ owner, isTokenChar ch = true
  commented : isComment comment = true
  ended : isEnding ending = true

def PinnedLine.front (pinned : PinnedLine) : Text :=
  List.replicate pinned.indent ' ' ++ (if pinned.sequence then dash else []) ++ pinned.key ++ [':'] ++
    pinned.blanks ++ pinned.quote ++ pinned.owner

def PinnedLine.back (pinned : PinnedLine) : Text :=
  pinned.quote ++ pinned.trailing ++ pinned.comment ++ pinned.ending

/-- The line with a revision. -/
def PinnedLine.text (pinned : PinnedLine) (revision : Text) : Text := pinned.front ++ revision ++ pinned.back

/-- A character that no revision holds, of one byte. -/
def IsFence (ch : Char) : Prop := ch.toNat < 128 ∧ isHexChar ch = false

/-- No digit of a revision stands right before it. -/
theorem PinnedLine.front_last (pinned : PinnedLine) :
    ∃ front letter, pinned.front = front ++ [letter] ∧ IsFence letter := by
  unfold PinnedLine.front
  obtain howner | ⟨name, howner⟩ := pinned.owned
  · rw [howner, List.append_nil]
    obtain hquote | ⟨ch, hquote, hch⟩ := pinned.quoted
    · rw [hquote, List.append_nil]
      obtain hblanks | ⟨blanks, ch, hblanks⟩ := List.eq_nil_or_concat pinned.blanks
      · rw [hblanks, List.append_nil]
        exact ⟨_, ':', rfl, by decide, by decide⟩
      · have hch := pinned.spaced ch (by rw [hblanks]; simp)
        rw [hblanks, List.concat_eq_append, ← List.append_assoc]
        refine ⟨_, ch, rfl, ?_⟩
        unfold isBlank at hch
        rw [Bool.or_eq_true, beq_iff_eq, beq_iff_eq] at hch
        obtain rfl | rfl := hch
        · exact ⟨by decide, by decide⟩
        · exact ⟨by decide, by decide⟩
    · rw [hquote]
      refine ⟨_, ch, rfl, ?_⟩
      unfold isQuote at hch
      rw [Bool.or_eq_true, beq_iff_eq, beq_iff_eq] at hch
      obtain rfl | rfl := hch
      · exact ⟨by decide, by decide⟩
      · exact ⟨by decide, by decide⟩
  · rw [howner, ← List.append_assoc]
    exact ⟨_, '@', rfl, by decide, by decide⟩

/-- A line is kept, or a revision in it is replaced by another. -/
inductive Edited (before after : Text) : Text → Outcome → Prop where
  | kept {line : Text} {outcome : Outcome} (hreplaced : outcome.replaced = false) (hline : outcome.line = line) :
      Edited before after line outcome
  | pinned {line : Text} {outcome : Outcome} (pinned : PinnedLine) (hreplaced : outcome.replaced = true)
      (hbefore : line = pinned.text before) (hafter : outcome.line = pinned.text after) :
      Edited before after line outcome

variable {before after line key : Text} {previous token : Option Text} {scan : Scan} {outcome : Outcome}
  {frames : List PinFrame} {rootKeys : List Text} {column indent : Nat} {found : MappingLine}

theorem replaces_spec (h : replaces before previous frames column indent key token = true) :
    key ∈ pinKeys ∧ ∃ owner, token = some (owner ++ before) ∧ (owner = [] ∨ ∃ name, owner = name ++ ['@']) := by
  unfold replaces at h
  split at h
  next huses =>
    rw [Bool.and_eq_true, Bool.and_eq_true, beq_iff_eq] at huses
    obtain ⟨⟨rfl, -⟩, -⟩ := huses
    refine ⟨by decide, ?_⟩
    obtain ⟨text, rfl, hshared⟩ := (Option.any_eq_true _ _).mp h
    obtain ⟨name, rfl⟩ := shared_reads hshared
    exact ⟨name ++ ['@'], rfl, Or.inr ⟨name, rfl⟩⟩
  next =>
    cases frames with
    | nil => cases h
    | cons parent below =>
      simp only [Bool.and_eq_true, Bool.or_eq_true, beq_iff_eq] at h
      obtain ⟨⟨rfl, -⟩, howned⟩ := h
      refine ⟨?_, [], rfl, Or.inl rfl⟩
      obtain ⟨-, rfl⟩ | ⟨-, hinput⟩ := howned
      · decide
      · obtain ⟨owner, -, howns⟩ := (Option.any_eq_true _ _).mp hinput
        unfold ownsInput at howns
        split at howns
        next hkey =>
          rw [Bool.or_eq_true, beq_iff_eq, beq_iff_eq] at hkey
          obtain rfl | rfl := hkey
          · decide
          · decide
        next =>
          simp only [Bool.and_eq_true, beq_iff_eq] at howns
          obtain ⟨⟨⟨rfl, -⟩, -⟩, -⟩ := howns
          decide

theorem replacePin_text (hreads : found.Reads line) {literal : Scalar} (hliteral : literal.Reads found.value)
    {owner : Text} (htoken : literal.token = owner ++ before) (after : Text) :
    line = found.front ++ literal.blanks ++ literal.quote ++ owner ++ before ++
      (literal.quote ++ literal.trailing ++ literal.comment ++ found.ending) ∧
    replacePin before after line found literal = found.front ++ literal.blanks ++ literal.quote ++ owner ++ after ++
      (literal.quote ++ literal.trailing ++ literal.comment ++ found.ending) := by
  have hline : line = (found.front ++ literal.blanks ++ literal.quote) ++ literal.token ++
      (literal.quote ++ literal.trailing ++ literal.comment ++ found.ending) := by
    rw [hreads.text]
    nth_rewrite 1 [hliteral.text]
    simp only [List.append_assoc]
  have hstart : (found.front ++ literal.blanks ++ literal.quote).length = found.start + literal.start := by
    rw [List.length_append, List.length_append, MappingLine.length_front]
    unfold Scalar.start
    omega
  constructor
  · rw [hline, htoken]
    simp only [List.append_assoc]
  · unfold replacePin
    simp only
    have hfront : line.take (found.start + literal.start) = found.front ++ literal.blanks ++ literal.quote := by
      rw [hline, List.append_assoc]
      exact List.take_left' hstart
    have hback : line.drop (found.start + literal.start + literal.token.length) =
        literal.quote ++ literal.trailing ++ literal.comment ++ found.ending := by
      rw [hline]
      apply List.drop_left'
      rw [List.length_append, hstart]
    rw [hfront, hback, htoken, removeSuffix_append]
    simp only [List.append_assoc]

theorem edited_entry (hreads : found.Reads line)
    (h : scanEntry before after previous rootKeys frames found line = some outcome) :
    Edited before after line outcome := by
  unfold scanEntry at h
  split at h
  next => cases h
  next claimedKeys claimed hclaim =>
    split at h
    · cases h
    · split at h
      · rw [Option.some.injEq] at h
        subst h
        exact Edited.kept rfl rfl
      · simp only [Option.some.injEq] at h
        subst h
        by_cases hreplaces : replaces before previous claimed found.column found.indent found.key
            ((scalar found.value).map Scalar.token) = true
        · obtain ⟨hknown, owner, htoken, howned⟩ := replaces_spec hreplaces
          obtain ⟨literal, hscalar, hliteral⟩ := Option.map_eq_some_iff.mp htoken
          have hscan := scalar_reads hscalar
          obtain ⟨hbefore, hafter⟩ := replacePin_text hreads hscan hliteral after
          have hplain : ∀ ch ∈ owner, isTokenChar ch = true := by
            intro ch hch
            apply hscan.token ch
            rw [hliteral]
            exact List.mem_append_left before hch
          refine Edited.pinned ⟨found.indent, found.sequence, found.key, literal.blanks, literal.quote, owner,
            literal.trailing, literal.comment, found.ending, hknown, hscan.blanks, hscan.quote, howned, hplain,
            hscan.comment, hreads.ending⟩ hreplaces hbefore ?_
          simp only
          rw [if_pos hreplaces, hscalar, Option.map_some, Option.getD_some]
          exact hafter
        · refine Edited.kept (Bool.eq_false_iff.mpr hreplaces) ?_
          simp only
          rw [if_neg hreplaces]

theorem edited_line (h : scanLine before after previous scan line = some outcome) : Edited before after line outcome := by
  unfold scanLine at h
  split at h
  · rw [Option.some.injEq] at h
    subst h
    exact Edited.kept rfl rfl
  · split at h
    · cases h
    · simp only at h
      split at h
      next =>
        rw [Option.some.injEq] at h
        subst h
        exact Edited.kept rfl rfl
      next found hmapping =>
        have hreads := mapping_reads hmapping
        split at h
        · split at h
          · exact edited_entry hreads h
          · rw [Option.some.injEq] at h
            subst h
            exact Edited.kept rfl rfl
        · exact edited_entry hreads h

theorem scanLines_cons {rest : List Text} {outcomes : List Outcome} :
    scanLines before after previous scan (line :: rest) = some outcomes ↔
      ∃ outcome others, scanLine before after previous scan line = some outcome ∧
        scanLines before after (some line) outcome.scan rest = some others ∧ outcomes = outcome :: others := by
  rw [scanLines, Option.bind_eq_some_iff]
  constructor
  · rintro ⟨outcome, hline, hrest⟩
    obtain ⟨others, hothers, rfl⟩ := Option.map_eq_some_iff.mp hrest
    exact ⟨outcome, others, hline, hothers, rfl⟩
  · rintro ⟨outcome, others, hline, hothers, rfl⟩
    exact ⟨outcome, hline, Option.map_eq_some_iff.mpr ⟨others, hothers, rfl⟩⟩

variable {lines : List Text} {outcomes : List Outcome}

theorem edited_lines (h : scanLines before after previous scan lines = some outcomes) :
    List.Forall₂ (Edited before after) lines outcomes := by
  induction lines generalizing previous scan outcomes with
  | nil =>
    rw [scanLines, Option.some.injEq] at h
    rw [← h]
    exact List.Forall₂.nil
  | cons line rest ih =>
    obtain ⟨outcome, others, hline, hothers, rfl⟩ := scanLines_cons.mp h
    exact List.Forall₂.cons (edited_line hline) (ih hothers)

theorem edited_at (h : List.Forall₂ (Edited before after) lines outcomes) {index : Nat} (hline : lines[index]? = some line)
    (houtcome : outcomes[index]? = some outcome) : Edited before after line outcome := by
  induction h generalizing index with
  | nil => cases hline
  | cons hfirst _ ih =>
    cases index with
    | zero =>
      rw [List.getElem?_cons_zero, Option.some.injEq] at hline houtcome
      rw [← hline, ← houtcome]
      exact hfirst
    | succ index =>
      rw [List.getElem?_cons_succ] at hline houtcome
      exact ih hline houtcome

/-- No pin of a blank line or a comment is replaced. -/
theorem not_silent_of_replaced (h : scanLine before after previous scan line = some outcome)
    (hreplaced : outcome.replaced = true) : isSilent line = false := by
  rw [Bool.eq_false_iff]
  intro hsilent
  unfold scanLine at h
  rw [hsilent, Bool.true_or, if_pos rfl, Option.some.injEq] at h
  rw [← h] at hreplaced
  cases hreplaced

/-! ## The text around the pins -/

/-- The text around the revisions that are replaced. -/
theorem exists_gaps (h : List.Forall₂ (Edited before after) lines outcomes) :
    ∃ gap gaps, lines.flatten = before.intercalate (gap :: gaps) ∧
      (outcomes.map Outcome.line).flatten = after.intercalate (gap :: gaps) ∧
      FencedWords.Fenced IsFence (gap :: gaps) ∧
      gaps.length = outcomes.countP Outcome.replaced := by
  induction h with
  | nil => exact ⟨[], [], rfl, rfl, FencedWords.fenced_singleton [], rfl⟩
  | @cons line outcome rest others hline _ ih =>
    obtain ⟨gap, gaps, hbefore, hafter, hfenced, hcount⟩ := ih
    cases hline with
    | kept hreplaced hkept =>
      refine ⟨line ++ gap, gaps, ?_, ?_, hfenced.before line, ?_⟩
      · rw [List.flatten_cons, hbefore, FencedWords.intercalate_before]
      · rw [List.map_cons, List.flatten_cons, hafter, FencedWords.intercalate_before, hkept]
      · rw [List.countP_cons_of_neg (by rw [hreplaced]; decide), hcount]
    | pinned pinned hreplaced hold hnew =>
      obtain ⟨front, letter, hfront, hletter⟩ := pinned.front_last
      refine ⟨pinned.front, (pinned.back ++ gap) :: gaps, ?_, ?_, ?_, ?_⟩
      · rw [List.flatten_cons, hbefore, hold, List.intercalate_cons_cons, FencedWords.intercalate_before]
        unfold PinnedLine.text
        simp only [List.append_assoc]
      · rw [List.map_cons, List.flatten_cons, hafter, hnew, List.intercalate_cons_cons, FencedWords.intercalate_before]
        unfold PinnedLine.text
        simp only [List.append_assoc]
      · rw [hfront]
        exact (hfenced.before pinned.back).next hletter
      · rw [List.countP_cons_of_pos hreplaced, List.length_cons, hcount]

end Boxferry.Automation.PinUpgrades
