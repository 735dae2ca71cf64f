import Boxferry.Engine.Outcome
import Boxferry.Library.SpacedWords
import Boxferry.Model.Text

/-! # Redaction of reported texts

Texts are rewritten before they are searched for secrets: paths become aliases, and white space
becomes single spaces. What the search still finds is read off the words of the text. -/
namespace Boxferry.Cli
open Engine Model
set_option autoImplicit false

def redacted : String := "<redacted>"

/-! ## Protected names -/

/-- `str::to_ascii_lowercase`. -/
def asciiLower (text : String) : String := String.ofList (text.toList.map Char.toLower)

def containsPattern (text pattern : String) : Bool := decide (pattern.toList <:+: text.toList)

structure NameWords where
  words : List String
  current : List Char
  previousLower : Bool

def NameWords.flush (state : NameWords) : NameWords :=
  if state.current.isEmpty then state
  else { state with
    words := state.words ++ [asciiLower (String.ofList state.current)]
    current := [] }

def NameWords.read (state : NameWords) (ch : Char) : NameWords :=
  if ch.isAlphanum then
    let state := if ch.isUpper && state.previousLower then state.flush else state
    { state with current := state.current ++ [ch], previousLower := ch.isLower }
  else { state.flush with previousLower := false }

def nameWords (name : String) : List String :=
  (name.toList.foldl NameWords.read ⟨[], [], false⟩).flush.words

def isProtectedName (name : String) : Bool :=
  let words := nameWords name
  words.any (· ∈ ["password", "passwd", "passphrase", "pwd", "pw", "secret", "token", "credential",
    "credentials", "authorization", "apikey"]) ||
    (words.contains "private" && words.contains "key") || (words.contains "api" && words.contains "key")

/-! ## Protected texts -/

/-- `str::split_whitespace`. -/
def splitWhitespace (text : String) : List String :=
  ((text.toList.splitOnP isWhitespace).filter (!·.isEmpty)).map String.ofList

/-- What follows the first occurrence of a pattern. -/
def afterFirst (pattern : List Char) : List Char → Option (List Char)
  | [] => none
  | ch :: rest =>
    if pattern.isPrefixOf (ch :: rest) then some ((ch :: rest).drop pattern.length)
    else afterFirst pattern rest

def hasKeyBlock (text : String) : Bool :=
  containsPattern (asciiLower text) "-----begin" && containsPattern (asciiLower text) "private key-----"

def hasAuthorizationLine (text : String) : Bool :=
  startsWith (asciiLower text) "authorization:" || containsPattern (asciiLower text) "\nauthorization:"

def hasUrlUser (text : String) : Bool :=
  (afterFirst "://".toList text.toList).any (·.contains '@')

def assignsProtected (word : String) : Bool :=
  (splitOnce '=' word).any fun parts => isProtectedName parts.1

def plainTextLooksProtected (text : String) : Bool :=
  hasKeyBlock text || hasAuthorizationLine text || hasUrlUser text || (splitWhitespace text).any assignsProtected

def redactText (fieldName value : String) (explicitlySensitive : Bool) : String × Bool :=
  if explicitlySensitive || isProtectedName fieldName || plainTextLooksProtected value then (redacted, true)
  else (value, false)

/-! ## Aliases -/

/-- `str::replace`, with the number of characters of an occurrence that are still to be skipped. -/
def replaceChars (pattern replacement : List Char) : List Char → Nat → List Char
  | [], _ => []
  | _ :: rest, skip + 1 => replaceChars pattern replacement rest skip
  | ch :: rest, 0 =>
    if pattern.isPrefixOf (ch :: rest) then
      replacement ++ replaceChars pattern replacement rest (pattern.length - 1)
    else ch :: replaceChars pattern replacement rest 0

def replaceText (text pattern replacement : String) : String :=
  String.ofList (replaceChars pattern.toList replacement.toList text.toList 0)

def isPathLike (word : String) : Bool :=
  containsChar word '/' || containsChar word '\\' ||
    match Utf8Text.bytes word with
    | _ :: second :: third :: _ => second == 58 && (third == 92 || third == 47)
    | _ => false

def hidePath (word : String) : String := if isPathLike word then "<path>" else word

/-- The names of the fields whose texts keep their white space and their words. -/
def keptFields : List String := ["subject", "resource", "native_path", "native_path_samples"]

/-- Paths and their aliases, the longest path first. -/
structure ReportAliases where
  values : List (String × String)

namespace ReportAliases

def replacePaths (aliases : ReportAliases) (text : String) : String :=
  aliases.values.foldl
    (fun text value => if value.1.isEmpty then text else replaceText text value.1 value.2) text

def valueForField (aliases : ReportAliases) (fieldName text : String) : String :=
  let text := aliases.replacePaths text
  if fieldName ∈ keptFields then text
  else joinText ' ' ((splitWhitespace text).map hidePath)

def value (aliases : ReportAliases) (text : String) : String := aliases.valueForField "" text

end ReportAliases

/-! ## Stored texts -/

/-- A text that is aliased under one name and redacted under another. -/
def storedText (aliases : ReportAliases) (aliasName fieldName text : String) (sensitive : Bool) : String :=
  (redactText fieldName (aliases.valueForField aliasName text) sensitive).1

structure RuleDefinition where
  code : String
  name : String
  help : String

structure ReportField where
  name : String
  value : String
deriving DecidableEq

structure ReportSpan where
  source : String
  start : Nat
  stop : Nat
deriving DecidableEq

structure ReportNativeLabel where
  kind : String
  source : String
  start : Nat
  stop : Nat
  message : String
deriving DecidableEq

structure ReportNativeFinding where
  sourceFormat : String
  producer : String
  producerVersion : Option String
  code : String
  stage : String
  severity : String
  summary : String
  fields : List ReportField
  labels : List ReportNativeLabel
  notes : List String
  help : Option String
deriving DecidableEq

structure ReportDiagnostic where
  code : String
  name : String
  sourceCode : Option String
  severity : String
  summary : String
  help : String
  fields : List ReportField
  spans : List ReportSpan
  nativeFinding : Option ReportNativeFinding
deriving DecidableEq

/-- The diagnostic of a rule; a field is its name, its text and whether it is sensitive. -/
def sanitizedDiagnostic (definition : RuleDefinition) (severity summary : String)
    (fields : List (String × String × Bool)) (aliases : ReportAliases) : ReportDiagnostic where
  code := definition.code
  name := definition.name
  sourceCode := none
  severity := severity
  summary := storedText aliases "" "summary" summary false
  help := definition.help
  fields := fields.map fun field => ⟨field.1, storedText aliases field.1 field.1 field.2.1 field.2.2⟩
  spans := []
  nativeFinding := none

inductive NativeFindingLabelKind where
  | primary
  | secondary

structure NativeFindingLabel where
  kind : NativeFindingLabelKind
  sourceId : Nat
  start : Nat
  stop : Nat
  message : String

structure NativeFinding where
  sourceFormat : String
  producer : String
  producerVersion : Option String
  code : String
  stage : String
  severity : Severity
  summary : String
  fields : List DiagnosticField
  labels : List NativeFindingLabel
  notes : List String
  help : Option String

def severityName : Severity → String
  | .error => "error"
  | .note => "note"
  | .warning => "warning"

def storedField (aliases : ReportAliases) (field : DiagnosticField) : ReportField :=
  match field.value with
  | .plain text => ⟨field.name, storedText aliases field.name field.name text false⟩
  | .sensitive text => ⟨field.name, storedText aliases field.name field.name text true⟩

/-- The fields followed by the label messages that are not among them yet. -/
def humanFields (fields : List ReportField) (labels : List ReportNativeLabel) : List ReportField :=
  labels.foldl (fun fields label =>
    let field : ReportField := ⟨"label_message", label.message⟩
    if field ∈ fields then fields else fields ++ [field]) fields

def reportNativeFinding (finding : NativeFinding) (aliases : ReportAliases) :
    ReportNativeFinding × List ReportField × List ReportSpan :=
  let safeText (name text : String) := storedText aliases "" name text false
  let fields := finding.fields.map (storedField aliases)
  let labels := finding.labels.map fun label : NativeFindingLabel =>
    { kind := match label.kind with
        | .primary => "primary"
        | .secondary => "secondary"
      source := "<input-" ++ toString label.sourceId ++ ">"
      start := label.start
      stop := label.stop
      message := safeText "label_message" label.message : ReportNativeLabel }
  let report : ReportNativeFinding :=
    { sourceFormat := safeText "source_format" finding.sourceFormat
      producer := safeText "producer" finding.producer
      producerVersion := finding.producerVersion.map (safeText "producer_version")
      code := safeText "source_code" finding.code
      stage := safeText "native_stage" finding.stage
      severity := severityName finding.severity
      summary := safeText "summary" finding.summary
      fields := fields
      labels := labels
      notes := finding.notes.map (safeText "note")
      help := finding.help.map (safeText "help") }
  (report, humanFields fields labels, labels.map fun label => ⟨label.source, label.start, label.stop⟩)

/-! ## Words of a rewritten text -/

variable {text word pattern replacement : String} {words : List String} {ch : Char}

theorem mem_splitWhitespace (h : word ∈ splitWhitespace text) :
    word ≠ "" ∧ ∀ ch ∈ word.toList, isWhitespace ch = false ∧ ch ∈ text.toList := by
  obtain ⟨piece, hpiece, rfl⟩ := List.mem_map.mp h
  obtain ⟨hpiece, hnonempty⟩ := List.mem_filter.mp hpiece
  refine ⟨fun hempty => ?_, fun ch hch => ?_⟩
  · have hchars := congrArg String.toList hempty
    rw [String.toList_ofList] at hchars
    rw [hchars] at hnonempty
    exact nomatch hnonempty
  · rw [String.toList_ofList] at hch
    obtain ⟨hmem, hplain⟩ := mem_splitOnP_iff.mp ⟨piece, hpiece, hch⟩
    exact ⟨hplain, hmem⟩

theorem exists_word (hch : ch ∈ text.toList) (hplain : isWhitespace ch = false) :
    ∃ word ∈ splitWhitespace text, ch ∈ word.toList := by
  obtain ⟨piece, hpiece, hmem⟩ := mem_splitOnP_iff.mpr ⟨hch, hplain⟩
  refine ⟨String.ofList piece, List.mem_map_of_mem (List.mem_filter.mpr ⟨hpiece, ?_⟩), ?_⟩
  · cases piece with
    | nil => exact nomatch hmem
    | cons first rest => rfl
  · rw [String.toList_ofList]
    exact hmem

/-- A word that splitting leaves whole. -/
def IsWord (word : String) : Prop := word ≠ "" ∧ ∀ ch ∈ word.toList, isWhitespace ch = false

theorem isWord_hidePath (h : word ∈ splitWhitespace text) : IsWord (hidePath word) := by
  unfold hidePath
  split
  · exact ⟨by decide, List.forall_iff_forall_mem.mp (by decide)⟩
  · obtain ⟨hne, hplain⟩ := mem_splitWhitespace h
    exact ⟨hne, fun ch hch => (hplain ch hch).1⟩

theorem splitWhitespace_join (hwords : ∀ word ∈ words, IsWord word) :
    splitWhitespace (joinText ' ' words) = words := by
  have hpieces : ∀ words : List String, (∀ word ∈ words, IsWord word) → words ≠ [] →
      ([' '].intercalate (words.map String.toList)).splitOnP isWhitespace = words.map String.toList := by
    intro words
    induction words with
    | nil => exact fun _ hne => absurd rfl hne
    | cons first rest ih =>
      intro hall _
      have hplain := (hall first List.mem_cons_self).2
      cases rest with
      | nil =>
        rw [List.map_cons, List.map_nil, List.intercalate_singleton]
        exact List.splitOnP_eq_singleton hplain
      | cons next rest =>
        rw [List.map_cons, List.map_cons, SpacedWords.intercalate_cons,
          List.splitOnP_append_cons_of_forall_mem hplain ' ' (by decide), ← List.map_cons,
          ih (fun word hword => hall word (List.mem_cons_of_mem first hword)) (List.cons_ne_nil _ _)]
  unfold splitWhitespace joinText
  rw [String.toList_ofList]
  by_cases hnil : words = []
  · rw [hnil]
    decide
  · rw [hpieces words hwords hnil]
    have hfilter : (words.map String.toList).filter (!·.isEmpty) = words.map String.toList := by
      rw [List.filter_eq_self]
      intro chars hchars
      obtain ⟨word, hword, rfl⟩ := List.mem_map.mp hchars
      cases hcase : word.toList with
      | nil => exact absurd (String.toList_inj.mp hcase) (hwords word hword).1
      | cons first rest => rfl
    rw [hfilter, List.map_map]
    have hid : String.ofList ∘ String.toList = id := funext fun text => String.ofList_toList
    rw [hid, List.map_id]

theorem toList_asciiLower_join :
    (asciiLower (joinText ' ' words)).toList
      = [' '].intercalate (words.map fun word => (asciiLower word).toList) := by
  unfold asciiLower joinText
  rw [String.toList_ofList, String.toList_ofList, SpacedWords.map_intercalate, List.map_map]
  have hwords : List.map Char.toLower ∘ String.toList
      = fun word => (String.ofList (word.toList.map Char.toLower)).toList :=
    funext fun word => String.toList_ofList.symm
  rw [hwords]
  rfl

/-! ## What the search finds in a rewritten text -/

/-- The text after the paths and the white space of `text` are rewritten. -/
def rewritten (text : String) : String := joinText ' ' ((splitWhitespace text).map hidePath)

theorem isWord_hidden (h : word ∈ (splitWhitespace text).map hidePath) : IsWord word := by
  obtain ⟨original, horiginal, rfl⟩ := List.mem_map.mp h
  exact isWord_hidePath horiginal

theorem hidePath_cases (word : String) :
    isPathLike word = true ∧ hidePath word = "<path>" ∨ isPathLike word = false ∧ hidePath word = word := by
  unfold hidePath
  cases isPathLike word with
  | true => exact Or.inl ⟨rfl, rfl⟩
  | false => exact Or.inr ⟨rfl, rfl⟩

/-- A property that the mark of a path lacks holds of a word that is no path. -/
theorem hidePath_iff (word : String) (holds : String → Prop) (hmark : ¬ holds "<path>") :
    holds (hidePath word) ↔ isPathLike word = false ∧ holds word := by
  rcases hidePath_cases word with ⟨hpath, hhidden⟩ | ⟨hplain, hhidden⟩
  · rw [hhidden, hpath]
    exact iff_of_false hmark fun h => (nomatch h.1)
  · rw [hhidden]
    exact ⟨fun h => ⟨hplain, h⟩, fun h => h.2⟩

theorem exists_hidden (holds : String → Prop) (hmark : ¬ holds "<path>") :
    (∃ word ∈ words.map hidePath, holds word) ↔ ∃ word ∈ words, isPathLike word = false ∧ holds word := by
  simp only [List.mem_map, exists_exists_and_eq_and]
  exact exists_congr fun word => and_congr_right fun _ => hidePath_iff word holds hmark

theorem toLower_eq_mark {mark : Char} (hmark : mark.isLower = false) (h : ch.toLower = mark) : ch = mark := by
  unfold Char.toLower at h
  split at h
  · next hrange =>
    obtain ⟨hlow, hhigh⟩ := hrange
    exfalso
    rw [← h] at hmark
    rw [Model.isLower_eq, Bool.and_eq_false_iff, decide_eq_false_iff_not, decide_eq_false_iff_not] at hmark
    change 65 ≤ ch.val at hlow
    change ch.val ≤ 90 at hhigh
    change ¬ 97 ≤ ch.val + 32 ∨ ¬ ch.val + 32 ≤ 122 at hmark
    rw [UInt32.le_iff_toNat_le] at hlow hhigh
    rw [UInt32.le_iff_toNat_le, UInt32.le_iff_toNat_le, UInt32.toNat_add] at hmark
    simp only [UInt32.reduceToNat] at hlow hhigh hmark
    omega
  · exact h

theorem space_not_mem_lower (h : IsWord word) : ' ' ∉ (asciiLower word).toList := by
  intro hmem
  unfold asciiLower at hmem
  rw [String.toList_ofList] at hmem
  obtain ⟨ch, hch, hlower⟩ := List.mem_map.mp hmem
  have hplain := h.2 ch hch
  rw [toLower_eq_mark (by decide) hlower] at hplain
  exact absurd hplain (by decide)

theorem containsPattern_rewritten {pattern : String} (hne : pattern.toList ≠ []) (hspace : ' ' ∉ pattern.toList)
    (hmark : containsPattern "<path>" pattern = false) :
    containsPattern (asciiLower (rewritten text)) pattern = true ↔
      ∃ word ∈ splitWhitespace text, isPathLike word = false ∧ containsPattern (asciiLower word) pattern = true := by
  rw [← exists_hidden (fun word => containsPattern (asciiLower word) pattern = true)
    (fun h => Bool.false_ne_true (hmark.symm.trans h))]
  unfold containsPattern rewritten
  rw [decide_eq_true_iff, toList_asciiLower_join, SpacedWords.infix_intercalate hne hspace]
  simp only [List.mem_map, exists_exists_and_eq_and, decide_eq_true_iff]

theorem startsWith_rewritten {pattern : String} (hne : pattern.toList ≠ []) (hspace : ' ' ∉ pattern.toList)
    (hmark : startsWith "<path>" pattern = false) :
    startsWith (asciiLower (rewritten text)) pattern = true ↔
      ∃ word ∈ (splitWhitespace text).head?, isPathLike word = false ∧ startsWith (asciiLower word) pattern = true := by
  unfold startsWith rewritten
  rw [List.isPrefixOf_iff_prefix, toList_asciiLower_join, SpacedWords.prefix_intercalate hne hspace]
  cases splitWhitespace text with
  | nil => simp
  | cons first rest =>
    have hhead := hidePath_iff first (fun word => startsWith (asciiLower word) pattern = true)
      (fun h => Bool.false_ne_true (hmark.symm.trans h))
    unfold startsWith at hhead
    simp only [List.isPrefixOf_iff_prefix] at hhead ⊢
    simpa using hhead

/-- Neighbouring words that hold the end of a private-key marker. -/
def hasKeyMarker (words : List String) : Prop :=
  ∃ before left right after, words = before ++ left :: right :: after ∧
    (isPathLike left = false ∧ "private".toList <:+ (asciiLower left).toList) ∧
    isPathLike right = false ∧ startsWith (asciiLower right) "key-----" = true

theorem keyMarker_rewritten :
    containsPattern (asciiLower (rewritten text)) "private key-----" = true ↔ hasKeyMarker (splitWhitespace text) := by
  have hpattern : "private key-----".toList = "private".toList ++ ' ' :: "key-----".toList := rfl
  have hwords : ∀ chars ∈ ((splitWhitespace text).map hidePath).map fun word => (asciiLower word).toList,
      ' ' ∉ chars := by
    intro chars hchars
    obtain ⟨word, hword, rfl⟩ := List.mem_map.mp hchars
    exact space_not_mem_lower (isWord_hidden hword)
  unfold containsPattern rewritten hasKeyMarker
  rw [decide_eq_true_iff, toList_asciiLower_join, hpattern,
    SpacedWords.spaced_infix_intercalate (by decide) (by decide) (by decide) hwords, List.map_map]
  constructor
  · rintro ⟨before, left, right, after, hsplit, hleft, hright⟩
    obtain ⟨first, rest, hwordsplit, hfirst, hrest⟩ := List.map_eq_append_iff.mp hsplit
    obtain ⟨leftWord, others, rfl, hleftWord, hothers⟩ := List.map_eq_cons_iff.mp hrest
    obtain ⟨rightWord, after, rfl, hrightWord, -⟩ := List.map_eq_cons_iff.mp hothers
    refine ⟨first, leftWord, rightWord, after, hwordsplit, ?_, ?_⟩
    · rw [← hleftWord] at hleft
      exact (hidePath_iff leftWord (fun word => "private".toList <:+ (asciiLower word).toList) (by decide)).mp hleft
    · rw [← hrightWord, ← List.isPrefixOf_iff_prefix] at hright
      exact (hidePath_iff rightWord (fun word => startsWith (asciiLower word) "key-----" = true) (by decide)).mp hright
  · rintro ⟨before, left, right, after, hsplit, hleft, hright⟩
    have hhiddenLeft : hidePath left = left := if_neg (by rw [hleft.1]; exact Bool.false_ne_true)
    have hhiddenRight : hidePath right = right := if_neg (by rw [hright.1]; exact Bool.false_ne_true)
    rw [hsplit]
    refine ⟨before.map ((fun word => (asciiLower word).toList) ∘ hidePath), (asciiLower left).toList,
      (asciiLower right).toList, after.map ((fun word => (asciiLower word).toList) ∘ hidePath), ?_, hleft.2, ?_⟩
    · rw [List.map_append, List.map_cons, List.map_cons, Function.comp_apply, Function.comp_apply,
        hhiddenLeft, hhiddenRight]
    · exact List.isPrefixOf_iff_prefix.mp hright.2

theorem newline_not_mem_rewritten : '\n' ∉ (asciiLower (rewritten text)).toList := by
  intro hmem
  unfold asciiLower at hmem
  rw [String.toList_ofList] at hmem
  obtain ⟨ch, hch, hlower⟩ := List.mem_map.mp hmem
  rw [toLower_eq_mark (by decide) hlower] at hch
  obtain ⟨word, hword, hnewline⟩ := (mem_joinText hch).resolve_left (by decide)
  exact absurd ((isWord_hidden hword).2 '\n' hnewline) (by decide)

theorem slash_not_mem_rewritten : '/' ∉ (rewritten text).toList := by
  intro hmem
  obtain ⟨word, hword, hslash⟩ := (mem_joinText hmem).resolve_left (by decide)
  obtain ⟨original, -, rfl⟩ := List.mem_map.mp hword
  rcases hidePath_cases original with ⟨-, hhidden⟩ | ⟨hplain, hhidden⟩
  · rw [hhidden] at hslash
    exact absurd hslash (by decide)
  · rw [hhidden] at hslash
    have hcontains : containsChar original '/' = true := List.elem_eq_true_of_mem hslash
    unfold isPathLike at hplain
    rw [hcontains] at hplain
    exact nomatch hplain

theorem mem_of_afterFirst {pattern chars rest : List Char} (h : afterFirst pattern chars = some rest)
    (hch : ch ∈ pattern) : ch ∈ chars := by
  induction chars with
  | nil => exact nomatch h
  | cons first others ih =>
    unfold afterFirst at h
    split at h
    · next hleading => exact (List.isPrefixOf_iff_prefix.mp hleading).mem hch
    · exact List.mem_cons_of_mem first (ih h)

theorem hasUrlUser_rewritten : hasUrlUser (rewritten text) = false := by
  unfold hasUrlUser
  cases hfound : afterFirst "://".toList (rewritten text).toList with
  | none => rfl
  | some rest => exact absurd (mem_of_afterFirst hfound (by decide)) slash_not_mem_rewritten

/-- What of a text is still recognised as a secret once the text is rewritten. -/
def KeepsSecret (text : String) : Prop :=
  ((∃ word ∈ splitWhitespace text, isPathLike word = false ∧ containsPattern (asciiLower word) "-----begin" = true) ∧
    hasKeyMarker (splitWhitespace text)) ∨
  (∃ word ∈ (splitWhitespace text).head?,
    isPathLike word = false ∧ startsWith (asciiLower word) "authorization:" = true) ∨
  ∃ word ∈ splitWhitespace text, isPathLike word = false ∧ assignsProtected word = true

theorem plainTextLooksProtected_rewritten :
    plainTextLooksProtected (rewritten text) = true ↔ KeepsSecret text := by
  have hnewline : containsPattern (asciiLower (rewritten text)) "\nauthorization:" = false := by
    unfold containsPattern
    rw [decide_eq_false_iff_not]
    intro hcontained
    exact newline_not_mem_rewritten (hcontained.mem (by decide))
  have hassigns : (splitWhitespace (rewritten text)).any assignsProtected = true ↔
      ∃ word ∈ splitWhitespace text, isPathLike word = false ∧ assignsProtected word = true := by
    unfold rewritten
    rw [splitWhitespace_join fun word hword => isWord_hidden hword, List.any_eq_true]
    exact exists_hidden (fun word => assignsProtected word = true) (by decide +kernel)
  unfold plainTextLooksProtected hasKeyBlock hasAuthorizationLine KeepsSecret
  rw [hasUrlUser_rewritten, hnewline, Bool.or_false, Bool.or_false, Bool.or_eq_true, Bool.or_eq_true,
    Bool.and_eq_true, hassigns, keyMarker_rewritten, containsPattern_rewritten (by decide) (by decide) (by decide),
    startsWith_rewritten (by decide) (by decide) (by decide), or_assoc]

/-! ## Stored texts without paths -/

theorem replaceChars_absent {pattern replacement chars : List Char} (h : ¬ pattern <:+: chars) :
    replaceChars pattern replacement chars 0 = chars := by
  induction chars with
  | nil => rfl
  | cons first rest ih =>
    rw [List.infix_cons_iff, not_or] at h
    have hleading : ¬ pattern.isPrefixOf (first :: rest) = true := fun hleading =>
      h.1 (List.isPrefixOf_iff_prefix.mp hleading)
    rw [replaceChars, if_neg hleading, ih h.2]

namespace ReportAliases

/-- No path of the list occurs in the text. -/
def Absent (aliases : ReportAliases) (text : String) : Prop :=
  ∀ value ∈ aliases.values, value.1 ≠ "" → containsPattern text value.1 = false

instance (aliases : ReportAliases) (text : String) : Decidable (aliases.Absent text) :=
  inferInstanceAs (Decidable (∀ value ∈ aliases.values, _))

theorem replacePaths_of_absent {aliases : ReportAliases} (h : aliases.Absent text) :
    aliases.replacePaths text = text := by
  unfold replacePaths
  obtain ⟨values⟩ := aliases
  induction values with
  | nil => rfl
  | cons first rest ih =>
    have hfirst : (if first.1.isEmpty then text else replaceText text first.1 first.2) = text := by
      split
      · rfl
      · next hnonempty =>
        have hne : first.1 ≠ "" := fun hempty => hnonempty (by rw [hempty]; rfl)
        have habsent := h first List.mem_cons_self hne
        unfold containsPattern at habsent
        rw [decide_eq_false_iff_not] at habsent
        unfold replaceText
        rw [replaceChars_absent habsent, String.ofList_toList]
    rw [List.foldl_cons, hfirst]
    exact ih fun value hvalue => h value (List.mem_cons_of_mem first hvalue)

theorem valueForField_of_absent {aliases : ReportAliases} (h : aliases.Absent text) (fieldName : String) :
    aliases.valueForField fieldName text = if fieldName ∈ keptFields then text else rewritten text := by
  unfold valueForField
  rw [replacePaths_of_absent h]
  rfl

end ReportAliases

/-- An authorization line or a private-key block is in the text. -/
def HasSecretPattern (text : String) : Prop := hasKeyBlock text = true ∨ hasAuthorizationLine text = true

instance (text : String) : Decidable (HasSecretPattern text) := inferInstanceAs (Decidable (_ ∨ _))

theorem mem_of_containsPattern (pattern : String) {mark : Char} (hmark : mark.isLower = false)
    (hpattern : mark ∈ pattern.toList) (h : pattern.toList <:+: (asciiLower text).toList) : mark ∈ text.toList := by
  have hmem := h.mem hpattern
  unfold asciiLower at hmem
  rw [String.toList_ofList] at hmem
  obtain ⟨ch, hch, hlower⟩ := List.mem_map.mp hmem
  rw [toLower_eq_mark hmark hlower] at hch
  exact hch

/-- A text with such a pattern is not rewritten to the redaction mark by chance. -/
theorem rewritten_ne_redacted (h : HasSecretPattern text) : rewritten text ≠ redacted := by
  have hmark : ∃ mark, mark ∈ [':', '-'] ∧ mark ∈ text.toList := by
    rcases h with hblock | hline
    · unfold hasKeyBlock at hblock
      rw [Bool.and_eq_true] at hblock
      exact ⟨'-', by decide, mem_of_containsPattern _ (by decide) (by decide) (decide_eq_true_iff.mp hblock.1)⟩
    · unfold hasAuthorizationLine at hline
      rw [Bool.or_eq_true] at hline
      rcases hline with hstart | hnext
      · refine ⟨':', by decide, mem_of_containsPattern "authorization:" (by decide) (by decide) ?_⟩
        exact (List.isPrefixOf_iff_prefix.mp hstart).isInfix
      · exact ⟨':', by decide, mem_of_containsPattern _ (by decide) (by decide) (decide_eq_true_iff.mp hnext)⟩
  obtain ⟨mark, hmarks, hmem⟩ := hmark
  have hplain : ∀ mark ∈ [':', '-'], isWhitespace mark = false := List.forall_iff_forall_mem.mp (by decide)
  obtain ⟨word, hword, hin⟩ := exists_word hmem (hplain mark hmarks)
  intro hsame
  have hwords : splitWhitespace redacted = (splitWhitespace text).map hidePath := by
    rw [← hsame]
    exact splitWhitespace_join fun word hword => isWord_hidden hword
  have hhidden : hidePath word ∈ splitWhitespace redacted := by
    rw [hwords]
    exact List.mem_map_of_mem hword
  have hone : splitWhitespace redacted = [redacted] := by decide
  rw [hone, List.mem_singleton] at hhidden
  rcases hidePath_cases word with ⟨-, hpath⟩ | ⟨-, hplain⟩
  · rw [hpath] at hhidden
    exact absurd hhidden (by decide)
  · rw [← hplain, hhidden] at hin
    have hnone : ∀ mark ∈ [':', '-'], mark ∉ redacted.toList := List.forall_iff_forall_mem.mp (by decide)
    exact hnone mark hmarks hin

/-- A stored text with a secret pattern is redacted exactly when its field is protected or keeps its
words, or when the words of the text still show a secret. -/
theorem stored_redacted_iff {aliases : ReportAliases} {aliasName fieldName : String}
    (habsent : aliases.Absent text) (hpattern : HasSecretPattern text) :
    storedText aliases aliasName fieldName text false = redacted ↔
      isProtectedName fieldName = true ∨ aliasName ∈ keptFields ∨ KeepsSecret text := by
  unfold storedText redactText
  rw [aliases.valueForField_of_absent habsent, Bool.false_or]
  by_cases hkept : aliasName ∈ keptFields
  · have hraw : plainTextLooksProtected text = true := by
      unfold plainTextLooksProtected
      rw [Bool.or_eq_true, Bool.or_eq_true, Bool.or_eq_true]
      exact Or.inl (Or.inl hpattern)
    rw [if_pos hkept, hraw, Bool.or_true, if_pos rfl]
    exact iff_of_true rfl (Or.inr (Or.inl hkept))
  · rw [if_neg hkept]
    by_cases hfound : (isProtectedName fieldName || plainTextLooksProtected (rewritten text)) = true
    · rw [if_pos hfound]
      rw [Bool.or_eq_true, plainTextLooksProtected_rewritten] at hfound
      exact iff_of_true rfl (hfound.imp_right Or.inr)
    · rw [if_neg hfound]
      rw [Bool.or_eq_true, plainTextLooksProtected_rewritten, not_or] at hfound
      refine iff_of_false (rewritten_ne_redacted hpattern) ?_
      rintro (hname | hfield | hkeeps)
      · exact hfound.1 hname
      · exact hkept hfield
      · exact hfound.2 hkeeps

theorem stored_redacted_iff_header :
    storedText ⟨[("/srv/app", "<project>")]⟩ "reason" "reason" " Authorization: Basic eA==\nAUTHORIZATION: x" false
        = redacted ↔
      isProtectedName "reason" = true ∨ "reason" ∈ keptFields ∨
        KeepsSecret " Authorization: Basic eA==\nAUTHORIZATION: x" :=
  stored_redacted_iff (by decide +kernel) (by decide +kernel)

/-- A header on the second line of a reason loses its line start, and is reported. -/
theorem second_line_reported :
    ¬ ∀ (aliases : ReportAliases) (fieldName text : String), aliases.Absent text → HasSecretPattern text →
      storedText aliases fieldName fieldName text false = redacted := by
  intro hall
  have hstored := hall ⟨[]⟩ "reason" "request failed\nAuthorization: Bearer canary" (by decide) (by decide +kernel)
  exact absurd hstored (by decide +kernel)

end Boxferry.Cli
