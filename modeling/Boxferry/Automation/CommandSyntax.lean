import Boxferry.Automation.RenderedTexts

/-! # Workflow command syntax

Where sanitized output still holds the syntax of a workflow command: exactly where its input has
three colons in a row, as the rewriting of the first two ends in a colon itself. -/
namespace Boxferry.Automation.Reporting
open Rewriting Utf8Replace Results
set_option autoImplicit false

/-! ## Words -/

section
variable {α : Type} {letter : α} {word left right : List α}

theorem infix_of_not_mem (h : letter ∉ left) : letter :: word <:+: left ++ right ↔ letter :: word <:+: right := by
  induction left with
  | nil => exact Iff.rfl
  | cons first rest ih =>
    rw [List.mem_cons, not_or] at h
    rw [List.cons_append, List.infix_cons_iff, ih h.2]
    constructor
    · rintro (hbegins | hwithin)
      · exact absurd (List.cons_prefix_cons.mp hbegins).1 h.1
      · exact hwithin
    · exact Or.inr

theorem prefix_split (h : letter ∉ word) : word <+: left ++ letter :: right ↔ word <+: left := by
  induction word generalizing left with
  | nil => exact ⟨fun _ => List.nil_prefix, fun _ => List.nil_prefix⟩
  | cons first word ih =>
    rw [List.mem_cons, not_or] at h
    cases left with
    | nil =>
      rw [List.nil_append, List.cons_prefix_cons]
      constructor
      · exact fun hbegins => absurd hbegins.1.symm h.1
      · exact fun hbegins => absurd hbegins.length_le (by simp)
    | cons other left => rw [List.cons_append, List.cons_prefix_cons, List.cons_prefix_cons, ih h.2]

/-- A word stands before a letter that it does not hold, or after it. -/
theorem infix_split (h : letter ∉ word) :
    word <:+: left ++ letter :: right ↔ word <:+: left ∨ word <:+: right := by
  induction left with
  | nil =>
    have hbegins := @prefix_split _ letter word [] right h
    rw [List.nil_append] at hbegins ⊢
    rw [List.infix_cons_iff, hbegins, List.prefix_nil, List.infix_nil]
  | cons first left ih =>
    rw [List.cons_append, List.infix_cons_iff, ih, List.infix_cons_iff, or_assoc, ← List.cons_append, prefix_split h]

end

/-- The syntax of workflow commands, and the colons that leave some of it. -/
def colons : List UInt8 := [58, 58]
def hashes : List UInt8 := [35, 35, 91]
def threeColons : List UInt8 := [58, 58, 58]

/-- Bytes without the syntax of a workflow command. -/
def NoCommand (bytes : List UInt8) : Prop := ¬ ascii "::" <:+: bytes ∧ ¬ ascii "##[" <:+: bytes

def NoCommandText (text : List Char) : Prop := ¬ "::".toList <:+: text ∧ ¬ "##[".toList <:+: text

/-! ## One rewriting -/

/-- A rule that protects a pattern: neither side has a letter of a command. -/
structure PlainRule (rule : List UInt8 × List UInt8) : Prop where
  nonempty : rule.1 ≠ []
  colon : 58 ∉ rule.1
  hash : 35 ∉ rule.1
  replaced : rule.2 = star ∨ rule.2 = ascii "<repository>"

/-- What a rewriting tells of the command syntax in its text. -/
structure Rewritten (text out : List UInt8) : Prop where
  colon : [58] <+: out ↔ [58] <+: text
  hash : [35] <+: out → [35] <+: text
  bracket : [91] <+: out → [91] <+: text
  opening : [35, 91] <+: out → [35, 91] <+: text
  bracketed : ¬ hashes <:+: out
  runs : colons <:+: out ↔ threeColons <:+: text

theorem rewritten_nil : Rewritten [] [] := by
  constructor <;> decide

theorem replaced_letters {rule : List UInt8 × List UInt8} (h : rule.2 = star ∨ rule.2 = ascii "<repository>") :
    58 ∉ rule.2 ∧ 35 ∉ rule.2 ∧ ∃ first rest, rule.2 = first :: rest ∧ first ≠ 58 ∧ first ≠ 35 ∧ first ≠ 91 := by
  rcases h with h | h
  · rw [h]
    exact ⟨by decide, by decide, 42, [], rfl, by decide, by decide, by decide⟩
  · rw [h]
    exact ⟨by decide, by decide, 60, _, rfl, by decide, by decide, by decide⟩

variable {rule : List UInt8 × List UInt8} {text out rest : List UInt8} {first : UInt8}

theorem Rewritten.plain (h : Rewritten rest out) (hplain : PlainRule rule) :
    Rewritten (rule.1 ++ rest) (rule.2 ++ out) := by
  obtain ⟨hcolon, hhash, first, others, hreplaced, hfirst⟩ := replaced_letters hplain.replaced
  have hstart : ∀ letter word, letter ∈ [58, 35, 91] → ¬ letter :: word <+: rule.2 ++ out := by
    intro letter word hletter hbegins
    rw [hreplaced, List.cons_append, List.cons_prefix_cons] at hbegins
    obtain ⟨rfl, -⟩ := hbegins
    simp only [List.mem_cons, List.not_mem_nil, or_false] at hletter
    rcases hletter with h | h | h
    · exact hfirst.1 h
    · exact hfirst.2.1 h
    · exact hfirst.2.2 h
  constructor
  · constructor
    · exact fun hbegins => absurd hbegins (hstart 58 [] (by decide))
    · intro hbegins
      exfalso
      cases hleft : rule.1 with
      | nil => exact hplain.nonempty hleft
      | cons other left =>
        rw [hleft, List.cons_append, List.cons_prefix_cons] at hbegins
        exact hplain.colon (by rw [hleft, ← hbegins.1]; exact List.mem_cons_self)
  · exact fun hbegins => absurd hbegins (hstart 35 [] (by decide))
  · exact fun hbegins => absurd hbegins (hstart 91 [] (by decide))
  · exact fun hbegins => absurd hbegins (hstart 35 [91] (by decide))
  · unfold hashes
    rw [infix_of_not_mem hhash]
    exact h.bracketed
  · unfold colons threeColons
    rw [infix_of_not_mem hcolon, infix_of_not_mem hplain.colon]
    exact h.runs

theorem Rewritten.colonRule (h : Rewritten rest out) : Rewritten (58 :: 58 :: rest) (58 :: 32 :: 58 :: out) := by
  have hnext := h.colon
  constructor
  · simp [List.cons_prefix_cons]
  · simp [List.cons_prefix_cons]
  · simp [List.cons_prefix_cons]
  · simp [List.cons_prefix_cons]
  · have hrest := h.bracketed
    unfold hashes at hrest ⊢
    simp only [List.infix_cons_iff, List.cons_prefix_cons]
    simp [hrest]
  · have hrest := h.runs
    unfold colons threeColons at hrest ⊢
    simp only [List.infix_cons_iff, List.cons_prefix_cons]
    rw [hrest, hnext]
    constructor
    · rintro (⟨-, h, -⟩ | ⟨h, -⟩ | ⟨-, h⟩ | h)
      · exact absurd h (by decide)
      · exact absurd h (by decide)
      · exact Or.inl ⟨trivial, trivial, h⟩
      · exact Or.inr (Or.inr h)
    · rintro (⟨-, -, h⟩ | ⟨-, h⟩ | h)
      · exact Or.inr (Or.inr (Or.inl ⟨trivial, h⟩))
      · exact Or.inr (Or.inr (Or.inl ⟨trivial, (List.prefix_append [58] [58]).trans h⟩))
      · exact Or.inr (Or.inr (Or.inr h))

theorem Rewritten.hashRule (h : Rewritten rest out) :
    Rewritten (35 :: 35 :: 91 :: rest) (35 :: 32 :: 35 :: 91 :: out) := by
  constructor
  · simp [List.cons_prefix_cons]
  · simp [List.cons_prefix_cons]
  · simp [List.cons_prefix_cons]
  · simp [List.cons_prefix_cons]
  · have hrest := h.bracketed
    unfold hashes at hrest ⊢
    simp only [List.infix_cons_iff, List.cons_prefix_cons]
    simp [hrest]
  · have hrest := h.runs
    unfold colons threeColons at hrest ⊢
    simp only [List.infix_cons_iff, List.cons_prefix_cons]
    simp [hrest]

/-- A symbol that is copied begins neither two colons nor the bracket of a command. -/
theorem Rewritten.copy (h : Rewritten rest out) (hcolons : ¬ colons <+: first :: rest)
    (hhashes : ¬ hashes <+: first :: rest) : Rewritten (first :: rest) (first :: out) := by
  unfold colons at hcolons
  unfold hashes at hhashes
  rw [List.cons_prefix_cons] at hcolons hhashes
  constructor
  · rw [List.cons_prefix_cons, List.cons_prefix_cons]
    simp
  · rw [List.cons_prefix_cons, List.cons_prefix_cons]
    simp
  · rw [List.cons_prefix_cons, List.cons_prefix_cons]
    simp
  · rw [List.cons_prefix_cons, List.cons_prefix_cons]
    exact fun hbegins => ⟨hbegins.1, h.bracket hbegins.2⟩
  · unfold hashes
    rw [List.infix_cons_iff, List.cons_prefix_cons]
    rintro (⟨hfirst, hbegins⟩ | hwithin)
    · exact hhashes ⟨hfirst, h.opening hbegins⟩
    · exact h.bracketed hwithin
  · have hrest := h.runs
    unfold colons threeColons at hrest ⊢
    rw [List.infix_cons_iff, List.infix_cons_iff, List.cons_prefix_cons, List.cons_prefix_cons, hrest, h.colon]
    constructor
    · rintro (hbegins | hwithin)
      · exact absurd hbegins hcolons
      · exact Or.inr hwithin
    · rintro (⟨hfirst, hbegins⟩ | hwithin)
      · exact absurd ⟨hfirst, (List.prefix_append [58] [58]).trans hbegins⟩ hcolons
      · exact Or.inr hwithin

theorem ascii_colons : ascii "::" = colons := by decide

theorem ascii_hashes : ascii "##[" = hashes := by decide

variable {shield : Shield}

/-- A whole rewriting by protected patterns that hold no letter of a command. -/
theorem rewritten_rewrite (hplain : ∀ rule ∈ shield.patterns, PlainRule rule) (hne : ∀ rule ∈ shield.rules, rule.1 ≠ [])
    (text : List UInt8) : Rewritten text (rewrite shield.rules 0 text) := by
  refine rewrite_induction hne rewritten_nil (fun rule hrule rest _ ih => ?_) (fun first rest hnone ih => ?_) text
  · rcases mem_rules.mp hrule with hpattern | rfl | rfl
    · exact ih.plain (hplain rule hpattern)
    · exact ih.colonRule
    · exact ih.hashRule
  · have hrules := firstRule_eq_none.mp hnone
    refine ih.copy ?_ ?_
    · rw [← ascii_colons]
      exact hrules (ascii "::", ascii ": :") (mem_rules.mpr (Or.inr (Or.inl rfl)))
    · rw [← ascii_hashes]
      exact hrules (ascii "##[", ascii "# #[") (mem_rules.mpr (Or.inr (Or.inr rfl)))

theorem noCommand_iff (h : Rewritten text out) : NoCommand out ↔ ¬ threeColons <:+: text := by
  unfold NoCommand
  rw [ascii_colons, ascii_hashes, h.runs]
  exact and_iff_left h.bracketed

/-! ## Decoded texts -/

theorem word_colons : Word colons := by
  intro byte hbyte
  have h : byte = 58 := by simpa [colons] using hbyte
  rw [h]
  decide

theorem word_hashes : Word hashes := by
  intro byte hbyte
  have h : byte = 35 ∨ byte = 91 := by simpa [hashes] using hbyte
  obtain h | h := h
  · rw [h]
    decide
  · rw [h]
    decide

theorem infix_text {word : List UInt8} (hword : word = colons ∨ word = hashes) (bytes : List UInt8) :
    word.map charOf <:+: decode bytes ↔ word <:+: bytes := by
  rcases hword with rfl | rfl
  · exact infix_decode word_colons bytes
  · exact infix_decode word_hashes bytes

theorem noCommandText_iff (text : List Char) :
    NoCommandText text ↔ ¬ colons.map charOf <:+: text ∧ ¬ hashes.map charOf <:+: text := by
  have hcolons : colons.map charOf = "::".toList := by decide
  have hhashes : hashes.map charOf = "##[".toList := by decide
  rw [hcolons, hhashes]
  exact Iff.rfl

theorem not_mem_encode {byte : UInt8} {chars : List Char} (hbyte : byte < 128) (h : ∀ ch ∈ chars, ch.toNat ≠ byte.toNat) :
    byte ∉ encode chars := by
  intro hmem
  obtain ⟨ch, hch, hin⟩ := List.mem_flatMap.mp hmem
  exact h ch hch (Utf8Text.ascii_of_mem_utf8EncodeChar hbyte hin)

theorem marker_letters : ("[omitted ".toList ++ " sanitized bytes]".toList).all
    (fun ch => ch.toNat != 58 && ch.toNat != 35) = true := by decide

/-- The marker of a window: no letter of a command, between two line ends. -/
theorem marker_split {window : Window} (h : window.omitted ≠ 0) :
    ∃ inner, encode window.marker = 10 :: (inner ++ [10]) ∧ 58 ∉ inner ∧ 35 ∉ inner := by
  have hletters : ∀ byte : UInt8, byte = 58 ∨ byte = 35 →
      byte ∉ encode ("[omitted ".toList ++ (Nat.toDigits 10 window.omitted ++ " sanitized bytes]".toList)) := by
    intro byte hbyte
    have hlow : byte < 128 := by rcases hbyte with rfl | rfl <;> decide
    have hfixed : ∀ ch ∈ "[omitted ".toList ++ " sanitized bytes]".toList, ch.toNat ≠ byte.toNat := by
      intro ch hch
      have hletter := List.all_eq_true.mp marker_letters ch hch
      simp only [Bool.and_eq_true, bne_iff_ne] at hletter
      rcases hbyte with rfl | rfl
      · exact hletter.1
      · exact hletter.2
    refine not_mem_encode hlow fun ch hch => ?_
    rcases List.mem_append.mp hch with hch | hch
    · exact hfixed ch (List.mem_append_left _ hch)
    · rcases List.mem_append.mp hch with hch | hch
      · have hdigit := Decimal.digits_isDigit _ ch hch
        unfold Char.isDigit at hdigit
        simp only [Bool.and_eq_true, decide_eq_true_eq] at hdigit
        have hfirst : 48 ≤ ch.toNat := UInt32.le_iff_toNat_le.mp hdigit.1
        have hlast : ch.toNat ≤ 57 := UInt32.le_iff_toNat_le.mp hdigit.2
        rcases hbyte with rfl | rfl
        · show ch.toNat ≠ 58
          omega
        · show ch.toNat ≠ 35
          omega
      · exact hfixed ch (List.mem_append_right _ hch)
  refine ⟨_, ?_, hletters 58 (Or.inl rfl), hletters 35 (Or.inr rfl)⟩
  have hclosing : " sanitized bytes]\n".toList = " sanitized bytes]".toList ++ ['\n'] := by decide
  rw [marker_cons h, hclosing, encode_cons, ← List.append_assoc (Nat.toDigits 10 window.omitted), ← List.append_assoc,
    encode_append]
  rfl

/-- Command syntax in what a window renders stands in its head or in its tail, or in both joined
where nothing is omitted. -/
theorem infix_render {word : List UInt8} (hword : word = colons ∨ word = hashes) (window : Window) :
    word <:+: window.render ↔
      if window.omitted = 0 then word <:+: window.head ++ window.tail else word <:+: window.head ∨ word <:+: window.tail := by
  unfold Window.render
  by_cases homitted : window.omitted = 0
  · have hmarker : window.marker = [] := if_pos homitted
    rw [if_pos homitted, hmarker]
    show _ <:+: window.head ++ [] ++ window.tail ↔ _
    rw [List.append_nil]
  · obtain ⟨inner, hmarker, hcolon, hhash⟩ := marker_split homitted
    rw [if_neg homitted, hmarker, List.append_assoc, List.cons_append, List.append_assoc]
    have hline : (10 : UInt8) ∉ word := by rcases hword with rfl | rfl <;> decide
    rw [infix_split hline]
    rcases hword with rfl | rfl
    · unfold colons at hline ⊢
      rw [infix_of_not_mem hcolon, List.singleton_append]
      have hsplit := @infix_split _ 10 [58, 58] [] window.tail hline
      rw [List.nil_append] at hsplit
      rw [hsplit]
      simp
    · unfold hashes at hline ⊢
      rw [infix_of_not_mem hhash, List.singleton_append]
      have hsplit := @infix_split _ 10 [35, 35, 91] [] window.tail hline
      rw [List.nil_append] at hsplit
      rw [hsplit]
      simp

/-! ## What a text shows of its stream -/

/-- Command syntax stands in a stream that was decoded and encoded where it stood before. -/
theorem infix_decoded {word : List UInt8} (hword : word = colons ∨ word = hashes) (bytes : List UInt8) :
    word <:+: encode (decode bytes) ↔ word <:+: bytes := by
  rw [← infix_text hword, decode_encode, infix_text hword]

theorem infix_kept {word : List UInt8} (hword : word = colons ∨ word = hashes) {logs : Logs}
    {streams : Channel → List UInt8} (h : logs.Accounts streams) (name : Channel)
    (hwithin : word <:+: (logs.lanes name).window.render) : word <:+: streams name := by
  obtain ⟨middle, after, hsplit, -⟩ := h.kept name
  have htotal := h.totals name
  have hrender := infix_render hword (logs.lanes name).window
  have hwhole : (logs.lanes name).window.omitted = 0 →
      streams name = (logs.lanes name).window.head ++ (logs.lanes name).window.tail := by
    intro homitted
    unfold Window.omitted at homitted
    rw [hsplit] at htotal
    simp only [List.length_append] at htotal
    have hmiddle : middle = [] := List.length_eq_zero_iff.mp (by omega)
    have hafter : after = [] := List.length_eq_zero_iff.mp (by omega)
    rw [hsplit, hmiddle, hafter, List.append_nil, List.append_nil]
  rw [hrender] at hwithin
  by_cases homitted : (logs.lanes name).window.omitted = 0
  · rw [if_pos homitted] at hwithin
    rw [hwhole homitted]
    exact hwithin
  · rw [if_neg homitted] at hwithin
    rw [hsplit, List.append_assoc, List.append_assoc]
    rcases hwithin with hhead | htail
    · exact hhead.trans (List.prefix_append _ _).isInfix
    · exact htail.trans ⟨(logs.lanes name).window.head ++ middle, after, by simp only [List.append_assoc]⟩

theorem line_not_mem {word : List UInt8} (hword : word = colons ∨ word = hashes) : '\n' ∉ word.map charOf := by
  rcases hword with rfl | rfl <;> decide

theorem infix_part {word : List UInt8} (hword : word = colons ∨ word = hashes) (name : Channel) (bytes : List UInt8) :
    word.map charOf <:+: ("[" ++ name.name ++ "]\n").toList ++ decode bytes ↔ word <:+: bytes := by
  rw [← infix_text hword bytes]
  rcases hword with rfl | rfl
  · exact infix_of_not_mem (by cases name <;> decide)
  · exact infix_of_not_mem (by cases name <;> decide)

theorem infix_transcript {word : List UInt8} (hword : word = colons ∨ word = hashes) (logs : Logs) :
    word.map charOf <:+: logs.transcript ↔ ∃ name, word <:+: (logs.lanes name).window.render := by
  unfold Logs.transcript
  simp only
  rw [infix_split (line_not_mem hword), infix_part hword, infix_part hword]
  constructor
  · rintro (h | h)
    · exact ⟨.stdout, h⟩
    · exact ⟨.stderr, h⟩
  · rintro ⟨name, h⟩
    cases name with
    | stdout => exact Or.inl h
    | stderr => exact Or.inr h

/-- A window on the two ends of a stream renders no command syntax that the stream does not have. -/
theorem infix_reserve {word : List UInt8} (hword : word = colons ∨ word = hashes) {window : Window} {chars : List Char}
    (haccounts : window.Accounts (encode chars)) (limit : Nat) (h : word <:+: (window.reserve limit).render) :
    word <:+: encode chars := by
  rw [infix_render hword] at h
  by_cases homitted : window.omitted = 0
  · have hreserve : window.reserve limit = window := if_pos homitted
    obtain ⟨htotal, -, -, middle, hsplit, -⟩ := haccounts
    rw [hreserve, if_pos homitted] at h
    unfold Window.omitted at homitted
    have hlength := congrArg List.length hsplit
    simp only [List.length_append] at hlength
    have hmiddle : middle = [] := List.length_eq_zero_iff.mp (by omega)
    rw [hsplit, hmiddle, List.append_nil]
    exact h
  · obtain ⟨hsome, -, ⟨count, hcount⟩, ⟨offset, hoffset⟩, -⟩ := reserve_spec limit haccounts homitted
    rw [if_neg hsome, hcount, hoffset] at h
    rcases h with hhead | htail
    · exact hhead.trans (List.take_prefix _ _).isInfix
    · exact htail.trans (List.drop_suffix _ _).isInfix

/-! ## Command syntax -/

/-- No protected value has a colon or a number sign, nor has the checkout path. -/
def PlainTexts (runtime : Runtime) (root : Root) (environment : List (PyText × PyText)) : Prop :=
  ∀ value, Hidden runtime root environment value → .scalar ':' ∉ value ∧ .scalar '#' ∉ value

variable {runtime : Runtime} {root : Root} {environment : List (PyText × PyText)}

theorem plain_of_new (h : Shield.new runtime root environment = .ok shield)
    (hplain : PlainTexts runtime root environment) : ∀ rule ∈ shield.patterns, PlainRule rule := by
  intro rule hrule
  have hsound := sound_of_new h
  obtain ⟨encoded, checkout, rfl, hall⟩ := new_ok h
  have hmem : rule.1 ∈ encoded ++ [checkout] := by
    rcases mem_patterns.mp hrule with ⟨value, hvalue, rfl⟩ | rfl
    · exact List.mem_append_left _ hvalue
    · exact List.mem_append_right _ (List.mem_singleton.mpr rfl)
  obtain ⟨value, hhidden, hvalue⟩ := hall rule.1 hmem
  obtain ⟨chars, rfl, hchars⟩ := encodeStrict_eq_some hvalue
  obtain ⟨hcolon, hhash⟩ := hplain _ hhidden
  have habsent : ∀ (letter : Char) (byte : UInt8), byte < 128 → letter.toNat = byte.toNat →
      CodePoint.scalar letter ∉ chars.map CodePoint.scalar → byte ∉ rule.1 := by
    intro letter byte hbyte hsame hletter
    rw [hchars]
    refine not_mem_encode hbyte fun ch hch hnat => hletter (List.mem_map.mpr ⟨ch, hch, ?_⟩)
    rw [Char.ext (UInt32.toNat_inj.mp (hnat.trans hsame.symm))]
  exact ⟨hsound.nonempty rule (mem_rules.mpr (Or.inl hrule)), habsent ':' 58 (by decide) (by decide) hcolon,
    habsent '#' 35 (by decide) (by decide) hhash, hsound.replaced rule hrule⟩

/-- The chunks that arrived on a channel. -/
def chunksOf (events : List (Channel × List UInt8)) (name : Channel) : List (List UInt8) :=
  (events.filter fun event => event.1 = name).map Prod.snd

theorem clean_text {text : List Char} (sources : List (List UInt8))
    (hclean : ∀ bytes ∈ sources, NoCommand bytes)
    (hwithin : ∀ word, word = colons ∨ word = hashes → word.map charOf <:+: text → ∃ bytes ∈ sources, word <:+: bytes) :
    NoCommandText text := by
  rw [noCommandText_iff]
  constructor
  · intro h
    obtain ⟨bytes, hbytes, hword⟩ := hwithin colons (Or.inl rfl) h
    exact (hclean bytes hbytes).1 (ascii_colons ▸ hword)
  · intro h
    obtain ⟨bytes, hbytes, hword⟩ := hwithin hashes (Or.inr rfl) h
    exact (hclean bytes hbytes).2 (ascii_hashes ▸ hword)

/-- Sanitized output, transcripts and rendered texts are free of command syntax exactly where the
input has no three colons in a row. -/
theorem command_syntax_iff (h : Shield.new runtime root environment = .ok shield)
    (hplain : PlainTexts runtime root environment) :
    (∀ chunks, (∀ chunk ∈ chunks, chunk.length ≤ chunkBytes) → ∃ output, sanitize shield chunks = .ok output ∧
      (NoCommand output ↔ ¬ ascii ":::" <:+: chunks.flatten)) ∧
    (∀ bounds events, (∀ event ∈ events, event.2.length ≤ chunkBytes) →
      ∃ (logs done : Logs) (outputs : Channel → List UInt8), Logs.run shield bounds events = .ok logs ∧ logs.finish shield = .ok done ∧
        (∀ name, sanitize shield (chunksOf events name) = .ok (outputs name)) ∧
        ((∀ name, NoCommand (outputs name)) ∧ NoCommandText done.transcript ↔
          ∀ name, ¬ ascii ":::" <:+: inputOf events name)) ∧
    ∀ value limit text, shield.text value limit = .ok text →
      (NoCommand (sanitized shield [value]) ∧ NoCommandText text ↔ ¬ ascii ":::" <:+: encodeReplace value) := by
  have hsound := sound_of_new h
  have hthree : ascii ":::" = threeColons := by decide
  have hrewritten := fun text => noCommand_iff (rewritten_rewrite (plain_of_new h hplain) hsound.nonempty text)
  rw [hthree]
  refine ⟨fun chunks hchunks => ⟨_, sanitize_ok hsound hchunks, hrewritten _⟩, fun bounds events hevents => ?_,
    fun value limit text htext => ?_⟩
  · obtain ⟨logs, streams, hrun, -, htracks⟩ := run_ok hsound bounds events hevents
    obtain ⟨done, hdone, -, haccounts⟩ := logs_finish_ok htracks
    refine ⟨logs, done, fun name => rewrite shield.rules 0 (inputOf events name), hrun, hdone, fun name => ?_, ?_⟩
    · refine sanitize_ok hsound fun chunk hchunk => ?_
      obtain ⟨event, hevent, rfl⟩ := List.mem_map.mp hchunk
      exact hevents event (List.mem_filter.mp hevent).1
    · constructor
      · exact fun hclean name => (hrewritten _).mp (hclean.1 name)
      · intro hno
        have hclean := fun name => (hrewritten _).mpr (hno name)
        refine ⟨hclean, clean_text [rewrite shield.rules 0 (inputOf events .stdout),
          rewrite shield.rules 0 (inputOf events .stderr)] ?_ fun word hword hwithin => ?_⟩
        · intro bytes hbytes
          simp only [List.mem_cons, List.not_mem_nil, or_false] at hbytes
          rcases hbytes with rfl | rfl
          · exact hclean .stdout
          · exact hclean .stderr
        · obtain ⟨name, hname⟩ := (infix_transcript hword done).mp hwithin
          refine ⟨rewrite shield.rules 0 (inputOf events name), ?_,
            (infix_decoded hword _).mp (infix_kept hword haccounts name hname)⟩
          cases name with
          | stdout => exact List.mem_cons_self
          | stderr => exact List.mem_cons_of_mem _ List.mem_cons_self
  · obtain ⟨⟨found, omitted⟩, hparts, rfl⟩ : ∃ result, shield.parts [value] limit = .ok result ∧ result.1 = text := by
      unfold Shield.text at htext
      cases hresult : shield.parts [value] limit with
      | error refusal =>
        rw [hresult] at htext
        cases htext
      | ok result =>
        rw [hresult] at htext
        exact ⟨result, rfl, Except.ok.inj htext⟩
    have hinput : sanitized shield [value] = rewrite shield.rules 0 (encodeReplace value) := by
      unfold sanitized
      rw [List.flatten_singleton]
    rw [hinput, hrewritten]
    refine and_iff_left_of_imp fun hno => ?_
    refine clean_text [sanitized shield [value]] ?_ fun word hword hwithin => ?_
    · intro bytes hbytes
      rw [List.mem_singleton.mp hbytes, hinput, hrewritten]
      exact hno
    · refine ⟨_, List.mem_singleton.mpr rfl, ?_⟩
      obtain ⟨window, hwindow, haccounts, -, -⟩ := retained_ok hsound [value] limit
      obtain ⟨chars, hchars⟩ := sanitized_encoded hsound [value]
      rw [hchars] at haccounts ⊢
      unfold Shield.parts at hparts
      rw [guard_eq_ok] at hparts
      obtain ⟨other, hother, hparts⟩ := bind_eq_ok.mp hparts.2
      rw [hwindow, Except.ok.injEq] at hother
      subst hother
      simp only at hparts
      rw [guard_eq_ok] at hparts
      obtain ⟨rfl, rfl⟩ := Prod.mk.inj (Except.ok.inj hparts.2)
      exact infix_reserve hword haccounts limit ((infix_text hword _).mp hwithin)

theorem plain_sample : PlainTexts sampleRuntime sampleRoot [] := by
  rintro value (hvalue | rfl)
  · exact absurd hvalue List.not_mem_nil
  · decide

theorem command_syntax_iff_sample : ∃ output, sanitize sampleShield [ascii "e:", ascii ":error"] = .ok output ∧
    (NoCommand output ↔ ¬ ascii ":::" <:+: ascii "e::error") :=
  (command_syntax_iff sampleShield_new plain_sample).1 [ascii "e:", ascii ":error"] (by decide)

/-- Of three colons, two are rewritten to a text that ends in a colon, and the third follows it. -/
theorem three_colons : Shield.new sampleRuntime sampleRoot [] = .ok sampleShield ∧
    PlainTexts sampleRuntime sampleRoot [] ∧ sanitize sampleShield [ascii ":::"] = .ok (ascii ": ::") ∧
    ¬ NoCommand (ascii ": ::") ∧ sampleShield.text (":::".toList.map .scalar) 2048 = .ok ": ::".toList ∧
    ¬ NoCommandText ": ::".toList := by
  refine ⟨sampleShield_new, plain_sample, rfl, ?_, by decide +kernel, ?_⟩
  · unfold NoCommand
    decide
  · unfold NoCommandText
    decide

end Boxferry.Automation.Reporting
