import Boxferry.Automation.Shields
import Boxferry.Library.Related
import Boxferry.Library.Results

/-! # Sanitized streams

What a stream gives back in parts is the rewriting of its whole input; a window accounts for each
byte; and the logs of two channels stay within their shared bounds. -/
namespace Boxferry.Automation.Reporting
open Rewriting Utf8Replace Results
set_option autoImplicit false

variable {runtime : Runtime} {root : Root} {environment : List (PyText × PyText)} {shield : Shield}
  {value : PyText} {data pending : List UInt8} {values : List PyText} {encoded chunks : List (List UInt8)}

/-! ## Accepted shields -/

theorem encodeStrict_eq_some (h : encodeStrict value = some data) :
    ∃ chars, value = chars.map CodePoint.scalar ∧ data = encode chars := by
  induction value generalizing data with
  | nil => exact ⟨[], rfl, (Option.some.inj h).symm⟩
  | cons point rest ih =>
    cases point with
    | surrogate index => cases h
    | scalar ch =>
      rw [encodeStrict, Option.map_eq_some_iff] at h
      obtain ⟨others, hothers, rfl⟩ := h
      obtain ⟨chars, rfl, rfl⟩ := ih hothers
      exact ⟨ch :: chars, rfl, (encode_cons ch chars).symm⟩

theorem encodePatterns_ok {total : Nat} (h : encodePatterns total values = .ok encoded) :
    List.Forall₂ (fun value data => encodeStrict value = some data) values encoded := by
  induction values generalizing total encoded with
  | nil =>
    obtain rfl := Except.ok.inj h
    exact List.Forall₂.nil
  | cons value rest ih =>
    rw [encodePatterns, guard_eq_ok] at h
    obtain ⟨-, h⟩ := h
    split at h
    · cases h
    · next data hdata =>
      rw [guard_eq_ok] at h
      obtain ⟨-, h⟩ := h
      cases hrest : encodePatterns (total + data.length) rest with
      | error failure =>
        rw [hrest] at h
        cases h
      | ok others =>
        rw [hrest] at h
        obtain rfl := Except.ok.inj h
        exact List.Forall₂.cons hdata (ih hrest)

/-- The texts that a shield hides: the protected values, and the checkout path. -/
def Hidden (runtime : Runtime) (root : Root) (environment : List (PyText × PyText)) (value : PyText) : Prop :=
  value ∈ protectedValues runtime environment ∨ value = root.text

theorem hidden_ne_nil (h : Hidden runtime root environment value) : value ≠ [] := by
  rcases h with h | rfl
  · obtain ⟨entry, hentry, rfl⟩ := List.mem_map.mp h
    have hlong := (List.mem_filter.mp hentry).2
    rw [Bool.and_eq_true, decide_eq_true_eq] at hlong
    intro hnil
    rw [hnil] at hlong
    exact absurd hlong.1 (by decide)
  · exact root.nonempty

theorem new_ok (h : Shield.new runtime root environment = .ok shield) : ∃ encoded checkout,
    shield = Shield.ofPatterns encoded checkout ∧
      ∀ data ∈ encoded ++ [checkout], ∃ value, Hidden runtime root environment value ∧ encodeStrict value = some data := by
  unfold Shield.new at h
  simp only at h
  rw [guard_eq_ok] at h
  obtain ⟨-, h⟩ := h
  generalize hsecrets : (runtime.order (protectedValues runtime environment).dedup).insertionSort
    (fun first second => second.length ≤ first.length) = secrets at h
  have hmem : ∀ value ∈ secrets, value ∈ protectedValues runtime environment := by
    intro value hvalue
    rw [← hsecrets, List.mem_insertionSort, (runtime.order_perm _).mem_iff, List.mem_dedup] at hvalue
    exact hvalue
  cases hencoded : encodePatterns 0 (secrets ++ [root.text]) with
  | error failure =>
    rw [hencoded] at h
    cases h
  | ok all =>
    rw [hencoded] at h
    obtain rfl := Except.ok.inj h
    have hall := encodePatterns_ok hencoded
    have hne : all ≠ [] := by
      rintro rfl
      have hlength := hall.length_eq
      simp at hlength
    refine ⟨all.dropLast, all.getLast?.getD [], rfl, fun data hdata => ?_⟩
    have hsplit : all.dropLast ++ [all.getLast?.getD []] = all := by
      rw [List.getLast?_eq_some_getLast hne, Option.getD_some, List.dropLast_append_getLast]
    rw [hsplit] at hdata
    obtain ⟨value, hvalue, hpattern⟩ := Related.exists_left hall data hdata
    refine ⟨value, ?_, hpattern⟩
    rcases List.mem_append.mp hvalue with hsecret | hroot
    · exact Or.inl (hmem value hsecret)
    · exact Or.inr (List.mem_singleton.mp hroot)

/-- What the rules of an accepted shield are like. -/
structure Shield.Sound (shield : Shield) : Prop where
  longest : shield.patterns.Pairwise fun first second => second.1.length ≤ first.1.length
  nonempty : ∀ rule ∈ shield.rules, rule.1 ≠ []
  short : ∀ rule ∈ shield.rules, rule.1.length ≤ shield.overlap + 1
  left : ∀ rule ∈ shield.rules, ∃ chars, rule.1 = encode chars
  right : ∀ rule ∈ shield.rules, ∃ chars, rule.2 = encode chars
  replaced : ∀ rule ∈ shield.patterns, rule.2 = star ∨ rule.2 = ascii "<repository>"

theorem mem_patterns {checkout : List UInt8} {rule : List UInt8 × List UInt8} :
    rule ∈ (Shield.ofPatterns encoded checkout).patterns ↔
      (∃ value ∈ encoded, (value, star) = rule) ∨ rule = (checkout, checkoutLabel encoded) := by
  unfold Shield.ofPatterns
  rw [List.mem_insertionSort, List.mem_append, List.mem_map, List.mem_singleton]

theorem mem_rules {rule : List UInt8 × List UInt8} : rule ∈ shield.rules ↔
    rule ∈ shield.patterns ∨ rule = (ascii "::", ascii ": :") ∨ rule = (ascii "##[", ascii "# #[") := by
  unfold Shield.rules
  rw [List.mem_append, List.mem_cons, List.mem_singleton]

theorem le_foldl_max (longest : Nat) (values : List (List UInt8)) :
    longest ≤ values.foldl (fun longest value => max longest value.length) longest ∧
      ∀ value ∈ values, value.length ≤ values.foldl (fun longest value => max longest value.length) longest := by
  induction values generalizing longest with
  | nil => exact ⟨Nat.le_refl _, fun _ hmem => absurd hmem List.not_mem_nil⟩
  | cons value rest ih =>
    obtain ⟨hlongest, hrest⟩ := ih (max longest value.length)
    rw [List.foldl_cons]
    refine ⟨by omega, fun other hother => ?_⟩
    rcases List.mem_cons.mp hother with rfl | hother
    · omega
    · exact hrest other hother

theorem checkoutLabel_cases (encoded : List (List UInt8)) :
    checkoutLabel encoded = star ∨ checkoutLabel encoded = ascii "<repository>" := by
  unfold checkoutLabel
  split
  · exact Or.inl rfl
  · exact Or.inr rfl

theorem sound_of_patterns {checkout : List UInt8}
    (h : ∀ data ∈ encoded ++ [checkout], ∃ chars, chars ≠ [] ∧ data = encode chars) :
    (Shield.ofPatterns encoded checkout).Sound := by
  have hpattern : ∀ rule ∈ (Shield.ofPatterns encoded checkout).patterns, rule.1 ∈ encoded ++ [checkout] ∧
      (rule.2 = star ∨ rule.2 = ascii "<repository>") := by
    intro rule hrule
    rcases mem_patterns.mp hrule with ⟨value, hvalue, rfl⟩ | rfl
    · exact ⟨List.mem_append_left _ hvalue, Or.inl rfl⟩
    · exact ⟨List.mem_append_right _ (List.mem_singleton.mpr rfl), checkoutLabel_cases encoded⟩
  obtain ⟨hthree, hlongest⟩ := le_foldl_max 3 (encoded ++ [checkout])
  have hoverlap : (Shield.ofPatterns encoded checkout).overlap + 1 =
      (encoded ++ [checkout]).foldl (fun longest value => max longest value.length) 3 := by
    show _ - 1 + 1 = _
    omega
  constructor
  · have hpairs : List.Pairwise (fun first second : List UInt8 × List UInt8 => second.1.length ≤ first.1.length)
        (Shield.ofPatterns encoded checkout).patterns := by
      have htotal : Std.Total fun first second : List UInt8 × List UInt8 => second.1.length ≤ first.1.length :=
        ⟨fun first second => Nat.le_total second.1.length first.1.length⟩
      have htrans : IsTrans (List UInt8 × List UInt8) fun first second => second.1.length ≤ first.1.length :=
        ⟨fun _ _ _ hfirst hsecond => Nat.le_trans hsecond hfirst⟩
      exact List.pairwise_insertionSort _ _
    exact hpairs
  · intro rule hrule
    rcases mem_rules.mp hrule with hmem | rfl | rfl
    · obtain ⟨chars, hne, hchars⟩ := h rule.1 (hpattern rule hmem).1
      rw [hchars]
      cases chars with
      | nil => exact absurd rfl hne
      | cons ch chars =>
        obtain ⟨first, others, hspelled⟩ := exists_spelled ch
        rw [encode_cons, hspelled.encoded]
        exact List.cons_ne_nil _ _
    · decide
    · decide
  · intro rule hrule
    rw [hoverlap]
    rcases mem_rules.mp hrule with hmem | rfl | rfl
    · exact hlongest rule.1 (hpattern rule hmem).1
    · exact Nat.le_trans (by decide) hthree
    · exact hthree
  · intro rule hrule
    rcases mem_rules.mp hrule with hmem | rfl | rfl
    · obtain ⟨chars, -, hchars⟩ := h rule.1 (hpattern rule hmem).1
      exact ⟨chars, hchars⟩
    · exact ⟨_, rfl⟩
    · exact ⟨_, rfl⟩
  · intro rule hrule
    rcases mem_rules.mp hrule with hmem | rfl | rfl
    · rcases (hpattern rule hmem).2 with hstar | hlabel
      · exact ⟨_, hstar⟩
      · exact ⟨_, hlabel⟩
    · exact ⟨_, rfl⟩
    · exact ⟨_, rfl⟩
  · exact fun rule hrule => (hpattern rule hrule).2

theorem sound_of_new (h : Shield.new runtime root environment = .ok shield) : shield.Sound := by
  obtain ⟨encoded, checkout, rfl, hall⟩ := new_ok h
  refine sound_of_patterns fun data hdata => ?_
  obtain ⟨value, hhidden, hvalue⟩ := hall data hdata
  obtain ⟨chars, rfl, rfl⟩ := encodeStrict_eq_some hvalue
  refine ⟨chars, fun hnil => hidden_ne_nil hhidden ?_, rfl⟩
  rw [hnil]
  rfl

/-! ## Streams -/

theorem feed_ok (hsound : shield.Sound) (hdata : data.length ≤ chunkBytes) (pending : List UInt8) :
    ∃ found, feed shield pending data false = .ok found ∧ found.2.length ≤ shield.overlap ∧
      ∀ more, rewrite shield.rules 0 (pending ++ data ++ more) =
        found.1 ++ rewrite shield.rules 0 (found.2 ++ more) := by
  refine ⟨_, if_neg (Nat.not_lt.mpr hdata), ?_, fun more => ?_⟩
  · exact (scan_append hsound.short (Nat.zero_le _) rfl []).2
  · exact (scan_append hsound.short (Nat.zero_le _) rfl more).1

theorem finish_ok (shield : Shield) (pending : List UInt8) :
    finish shield pending = .ok (rewrite shield.rules 0 pending, []) := by
  unfold finish feed
  rw [if_neg (by decide)]
  simp only [List.append_nil, if_true]
  rw [scan_all (Nat.le_refl _)]

/-- The feeds of a stream, and what they leave pending at last. -/
theorem feeds_ok (hsound : shield.Sound) (hchunks : ∀ chunk ∈ chunks, chunk.length ≤ chunkBytes) (pending : List UInt8) :
    ∃ found, feeds shield pending chunks = .ok found ∧ (∀ step ∈ found, step.2.length ≤ shield.overlap) ∧
      ∀ more, rewrite shield.rules 0 (pending ++ chunks.flatten ++ more) =
        (found.map Prod.fst).flatten ++
          rewrite shield.rules 0 (((found.map Prod.snd).getLast?.getD pending) ++ more) := by
  induction chunks generalizing pending with
  | nil =>
    refine ⟨[], rfl, fun _ hmem => absurd hmem List.not_mem_nil, fun more => ?_⟩
    simp
  | cons chunk rest ih =>
    obtain ⟨step, hstep, hbound, hrewrite⟩ := feed_ok hsound (hchunks chunk List.mem_cons_self) pending
    obtain ⟨others, hothers, hbounds, hrest⟩ :=
      ih (fun other hother => hchunks other (List.mem_cons_of_mem _ hother)) step.2
    refine ⟨step :: others, ?_, ?_, fun more => ?_⟩
    · rw [feeds, hstep]
      show (feeds shield step.2 rest >>= _) = _
      rw [hothers]
      rfl
    · intro other hother
      rcases List.mem_cons.mp hother with rfl | hother
      · exact hbound
      · exact hbounds other hother
    · have hlast : ((step :: others).map Prod.snd).getLast?.getD pending = (others.map Prod.snd).getLast?.getD step.2 := by
        rw [List.map_cons, List.getLast?_cons]
        rfl
      rw [List.flatten_cons, hlast, List.map_cons, List.flatten_cons, List.append_assoc, List.append_assoc,
        ← List.append_assoc pending, hrewrite, ← List.append_assoc step.2, hrest more, ← List.append_assoc]

/-- The results of a stream are the rewriting of its whole input. -/
theorem sanitize_ok (hsound : shield.Sound) (hchunks : ∀ chunk ∈ chunks, chunk.length ≤ chunkBytes) :
    sanitize shield chunks = .ok (rewrite shield.rules 0 chunks.flatten) := by
  obtain ⟨found, hfound, -, hrewrite⟩ := feeds_ok hsound hchunks []
  have hall := hrewrite []
  rw [List.append_nil, List.append_nil, List.nil_append] at hall
  refine bind_eq_ok.mpr ⟨found, hfound, bind_eq_ok.mpr ⟨_, finish_ok shield _, ?_⟩⟩
  rw [hall]
  rfl

/-! ## Windows -/

/-- The head and the tail are the beginning and the end of what was added, and every other byte
is counted; there is no tail before the head is full. -/
structure Window.Accounts (window : Window) (added : List UInt8) : Prop where
  total : window.total = added.length
  head : window.head.length ≤ window.headLimit
  tail : window.tail.length ≤ window.tailLimit
  split : ∃ middle, added = window.head ++ middle ++ window.tail ∧
    (window.head.length < window.headLimit → middle = [] ∧ window.tail = [])

theorem accounts_new (headLimit tailLimit : Nat) : (Window.new headLimit tailLimit).Accounts [] :=
  ⟨rfl, Nat.zero_le _, Nat.zero_le _, [], rfl, fun _ => ⟨rfl, rfl⟩⟩

/-- The tail after an addition is the end of what it was and what is new. -/
theorem add_tail (window : Window) (data : List UInt8) (htail : window.tail.length ≤ window.tailLimit) :
    (window.add data).tail.length ≤ window.tailLimit ∧
      ∃ dropped, window.tail ++ data.drop (window.headLimit - window.head.length) = dropped ++ (window.add data).tail ∧
        (data.drop (window.headLimit - window.head.length) = [] → dropped = []) := by
  unfold Window.add
  simp only
  generalize data.drop (window.headLimit - window.head.length) = rest
  by_cases hlimit : window.tailLimit = 0
  · rw [if_pos hlimit]
    have hnil : window.tail = [] := List.length_eq_zero_iff.mp (by omega)
    refine ⟨htail, rest, ?_, id⟩
    rw [hnil, List.nil_append, List.append_nil]
  · rw [if_neg hlimit]
    refine ⟨?_, (window.tail ++ rest).take ((window.tail ++ rest).length - window.tailLimit), ?_, ?_⟩
    · rw [List.length_drop]
      omega
    · exact (List.take_append_drop _ _).symm
    · rintro rfl
      rw [List.append_nil, Nat.sub_eq_zero_of_le htail, List.take_zero]

theorem Window.Accounts.add {window : Window} {added : List UInt8} (h : window.Accounts added) (data : List UInt8) :
    (window.add data).Accounts (added ++ data) := by
  obtain ⟨htotal, hhead, htail, middle, hsplit, hfull⟩ := h
  obtain ⟨hshort, dropped, hdropped, hnone⟩ := add_tail window data htail
  refine ⟨?_, ?_, hshort, middle ++ dropped, ?_, ?_⟩
  · show window.total + data.length = _
    rw [htotal, List.length_append]
  · show (window.head ++ data.take _).length ≤ window.headLimit
    rw [List.length_append, List.length_take]
    omega
  · show added ++ data = (window.head ++ data.take (window.headLimit - window.head.length)) ++ (middle ++ dropped) ++
      (window.add data).tail
    have hdata := List.take_append_drop (window.headLimit - window.head.length) data
    rw [List.append_assoc _ (middle ++ dropped), List.append_assoc middle, ← hdropped, hsplit]
    by_cases hroom : window.head.length < window.headLimit
    · obtain ⟨rfl, hnil⟩ := hfull hroom
      rw [hnil, List.append_nil, List.append_nil, List.nil_append, List.nil_append, List.append_assoc, hdata]
    · rw [Nat.sub_eq_zero_of_le (Nat.le_of_not_lt hroom), List.take_zero, List.drop_zero, List.append_nil]
      simp only [List.append_assoc]
  · intro hroom
    have hlength : (window.head ++ data.take (window.headLimit - window.head.length)).length < window.headLimit := hroom
    rw [List.length_append, List.length_take] at hlength
    obtain ⟨rfl, hnil⟩ := hfull (by omega)
    have hrest : data.drop (window.headLimit - window.head.length) = [] := List.drop_of_length_le (by omega)
    obtain rfl := hnone hrest
    rw [hnil, hrest] at hdropped
    exact ⟨rfl, hdropped.symm⟩

/-- The accounts of a window after any additions. -/
theorem accounts_foldl {window : Window} {added : List UInt8} (h : window.Accounts added) (datas : List (List UInt8)) :
    (datas.foldl Window.add window).Accounts (added ++ datas.flatten) := by
  induction datas generalizing window added with
  | nil =>
    rw [List.flatten_nil, List.append_nil]
    exact h
  | cons data rest ih =>
    rw [List.foldl_cons, List.flatten_cons, ← List.append_assoc]
    exact ih (h.add data)

theorem Window.Accounts.exact {window : Window} {added : List UInt8} (h : window.Accounts added) :
    window.total = window.head.length + window.tail.length + window.omitted ∧ window.head <+: added ∧
      window.tail <:+ added := by
  obtain ⟨htotal, -, -, middle, hsplit, -⟩ := h
  rw [hsplit] at htotal ⊢
  refine ⟨?_, ?_, List.suffix_append _ _⟩
  · unfold Window.omitted
    simp only [List.length_append] at htotal
    omega
  · rw [List.append_assoc]
    exact List.prefix_append _ _

/-! ## Logs -/

/-- The logs share one head, keep their tails within the half of the bound, and count every byte
of the streams of the two channels. -/
structure Logs.Accounts (logs : Logs) (streams : Channel → List UInt8) : Prop where
  shared : logs.headLeft + (logs.lanes .stdout).window.head.length + (logs.lanes .stderr).window.head.length =
    logs.bounds.head
  limits : ∀ name, (logs.lanes name).window.headLimit = 0 ∧ (logs.lanes name).window.tailLimit = logs.bounds.tail / 2
  tails : ∀ name, (logs.lanes name).window.tail.length ≤ logs.bounds.tail / 2
  totals : ∀ name, (logs.lanes name).window.total = (streams name).length
  kept : ∀ name, ∃ middle after,
    streams name = (logs.lanes name).window.head ++ middle ++ (logs.lanes name).window.tail ++ after ∧
      (logs.exceeded = false → after = []) ∧
      (logs.exceeded = false → 0 < logs.headLeft → middle = [] ∧ (logs.lanes name).window.tail = [])

variable {logs : Logs} {streams : Channel → List UInt8} {name : Channel}

theorem logs_accounts_new (bounds : Bounds) : (Logs.new bounds).Accounts fun _ => [] :=
  ⟨rfl, fun _ => ⟨rfl, rfl⟩, fun _ => Nat.zero_le _, fun _ => rfl,
    fun _ => ⟨[], [], rfl, fun _ => rfl, fun _ _ => ⟨rfl, rfl⟩⟩⟩

/-- What the accounts of the logs depend on. -/
theorem Logs.Accounts.congr {other : Logs} (h : logs.Accounts streams) (hbounds : other.bounds = logs.bounds)
    (hwindows : ∀ name, (other.lanes name).window = (logs.lanes name).window) (hleft : other.headLeft = logs.headLeft)
    (hexceeded : other.exceeded = false → logs.exceeded = false) : other.Accounts streams := by
  constructor
  · rw [hleft, hwindows, hwindows, hbounds]
    exact h.shared
  · intro name
    rw [hwindows, hbounds]
    exact h.limits name
  · intro name
    rw [hwindows, hbounds]
    exact h.tails name
  · intro name
    rw [hwindows]
    exact h.totals name
  · intro name
    rw [hwindows, hleft]
    obtain ⟨middle, after, hsplit, hafter, hfull⟩ := h.kept name
    exact ⟨middle, after, hsplit, fun hno => hafter (hexceeded hno), fun hno => hfull (hexceeded hno)⟩

/-- What the window of one channel says of the stream of the channel. -/
def Keeps (exceeded : Bool) (headLeft : Nat) (window : Window) (stream : List UInt8) : Prop :=
  ∃ middle after, stream = window.head ++ middle ++ window.tail ++ after ∧ (exceeded = false → after = []) ∧
    (exceeded = false → 0 < headLeft → middle = [] ∧ window.tail = [])

/-- The accounts after one channel has taken bytes. -/
theorem Logs.Accounts.update {other : Logs} {lane : Lane} {data : List UInt8} (h : logs.Accounts streams)
    (name : Channel) (hbounds : other.bounds = logs.bounds) (hexceeded : other.exceeded = logs.exceeded)
    (hlanes : other.lanes = Function.update logs.lanes name lane)
    (hshared : other.headLeft + lane.window.head.length = logs.headLeft + (logs.lanes name).window.head.length)
    (hleft : other.headLeft ≤ logs.headLeft)
    (hlimits : lane.window.headLimit = 0 ∧ lane.window.tailLimit = logs.bounds.tail / 2)
    (htail : lane.window.tail.length ≤ logs.bounds.tail / 2)
    (htotal : lane.window.total = (streams name ++ data).length)
    (hkept : Keeps logs.exceeded other.headLeft lane.window (streams name ++ data)) :
    other.Accounts (Function.update streams name (streams name ++ data)) := by
  constructor
  · have hall := h.shared
    rw [hlanes, hbounds]
    cases name with
    | stdout =>
      rw [Function.update_self, Function.update_of_ne (by decide)]
      omega
    | stderr =>
      rw [Function.update_self, Function.update_of_ne (by decide)]
      omega
  · intro found
    rw [hlanes, hbounds]
    by_cases hfound : found = name
    · rw [hfound, Function.update_self]
      exact hlimits
    · rw [Function.update_of_ne hfound]
      exact h.limits found
  · intro found
    rw [hlanes, hbounds]
    by_cases hfound : found = name
    · rw [hfound, Function.update_self]
      exact htail
    · rw [Function.update_of_ne hfound]
      exact h.tails found
  · intro found
    rw [hlanes]
    by_cases hfound : found = name
    · rw [hfound, Function.update_self, Function.update_self]
      exact htotal
    · rw [Function.update_of_ne hfound, Function.update_of_ne hfound]
      exact h.totals found
  · intro found
    rw [hlanes, hexceeded]
    by_cases hfound : found = name
    · rw [hfound, Function.update_self, Function.update_self]
      exact hkept
    · rw [Function.update_of_ne hfound, Function.update_of_ne hfound]
      obtain ⟨middle, after, hsplit, hafter, hfull⟩ := h.kept found
      exact ⟨middle, after, hsplit, hafter, fun hno hpos => hfull hno (Nat.lt_of_lt_of_le hpos hleft)⟩

theorem retain_exceeded (h : logs.Accounts streams) (name : Channel) (data : List UInt8) (hexceeded : logs.exceeded = true) :
    (logs.retain name data).Accounts (Function.update streams name (streams name ++ data)) := by
  have hretain : logs.retain name data = { logs with
      lanes := Function.update logs.lanes name { logs.lanes name with
        window := { (logs.lanes name).window with total := (logs.lanes name).window.total + data.length } } } :=
    if_pos hexceeded
  have hyes : ∀ {goal : Prop}, logs.exceeded = false → goal := by
    intro goal hno
    rw [hexceeded] at hno
    cases hno
  rw [hretain]
  refine h.update name rfl rfl rfl rfl (Nat.le_refl _) (h.limits name) (h.tails name) ?_ ?_
  · rw [List.length_append, ← h.totals name]
  · obtain ⟨middle, after, hsplit, -⟩ := h.kept name
    refine ⟨middle, after ++ data, ?_, hyes, hyes⟩
    rw [hsplit, List.append_assoc]

theorem retain_within (h : logs.Accounts streams) (name : Channel) (data : List UInt8) (hexceeded : logs.exceeded = false) :
    (logs.retain name data).Accounts (Function.update streams name (streams name ++ data)) := by
  obtain ⟨middle, after, hsplit, hafter, hfull⟩ := h.kept name
  obtain rfl := hafter hexceeded
  obtain ⟨hheadLimit, htailLimit⟩ := h.limits name
  have htails := h.tails name
  have htotals := h.totals name
  generalize htake : min logs.headLeft data.length = take
  have hretain : logs.retain name data = { logs with
      lanes := Function.update logs.lanes name { logs.lanes name with
        window := Window.add { (logs.lanes name).window with
          head := (logs.lanes name).window.head ++ data.take take
          total := (logs.lanes name).window.total + take } (data.drop take) }
      headLeft := logs.headLeft - take } := by
    rw [← htake]
    exact if_neg (by rw [hexceeded]; decide)
  rw [hretain]
  generalize hlane : (logs.lanes name).window = window at *
  generalize hgrown : ({ window with head := window.head ++ data.take take, total := window.total + take } : Window) = grown
  have hroom : grown.headLimit - grown.head.length = 0 := by
    rw [← hgrown]
    show window.headLimit - _ = 0
    omega
  have hgrownHead : grown.head = window.head ++ data.take take := by rw [← hgrown]
  have hgrownTail : grown.tail = window.tail := by rw [← hgrown]
  have hgrownLimit : grown.tailLimit = logs.bounds.tail / 2 := by
    rw [← hgrown]
    exact htailLimit
  have hgrownTotal : grown.total = window.total + take := by rw [← hgrown]
  obtain ⟨hshort, dropped, hdropped, hnone⟩ := add_tail grown (data.drop take)
    (by rw [hgrownTail, hgrownLimit]; exact htails)
  rw [hroom, List.drop_zero, hgrownTail] at hdropped
  rw [hroom, List.drop_zero] at hnone
  have hhead : (grown.add (data.drop take)).head = window.head ++ data.take take := by
    show grown.head ++ (data.drop take).take (grown.headLimit - grown.head.length) = _
    rw [hroom, List.take_zero, List.append_nil, hgrownHead]
  refine h.update name rfl rfl rfl ?_ (Nat.sub_le _ _) ?_ ?_ ?_ ?_
  · show logs.headLeft - take + (grown.add (data.drop take)).head.length = _
    rw [hhead, hlane, List.length_append, List.length_take]
    omega
  · show grown.headLimit = 0 ∧ grown.tailLimit = _
    refine ⟨?_, hgrownLimit⟩
    rw [← hgrown]
    exact hheadLimit
  · rw [hgrownLimit] at hshort
    exact hshort
  · show grown.total + (data.drop take).length = _
    rw [hgrownTotal, htotals, List.length_append, List.length_drop]
    omega
  · refine ⟨middle ++ dropped, [], ?_, fun _ => rfl, ?_⟩
    · show _ = (grown.add (data.drop take)).head ++ _ ++ (grown.add (data.drop take)).tail ++ []
      rw [hhead, hsplit, List.append_nil, List.append_nil, List.append_assoc _ (middle ++ dropped), List.append_assoc middle,
        ← hdropped]
      by_cases hpos : 0 < logs.headLeft
      · obtain ⟨rfl, hnil⟩ := hfull hexceeded hpos
        rw [hnil]
        simp only [List.append_nil, List.nil_append, List.append_assoc, List.take_append_drop]
      · obtain rfl : take = 0 := by omega
        simp only [List.take_zero, List.drop_zero, List.append_nil, List.append_assoc]
    · intro _ hpos
      have hpos : 0 < logs.headLeft - take := hpos
      obtain ⟨rfl, hnil⟩ := hfull hexceeded (by omega)
      have hrest : data.drop take = [] := List.drop_of_length_le (by omega)
      obtain rfl := hnone hrest
      rw [hnil, List.nil_append, List.nil_append, hrest] at hdropped
      refine ⟨rfl, ?_⟩
      show (grown.add (data.drop take)).tail = []
      rw [hrest]
      exact hdropped.symm

/-- Keeping bytes of a channel keeps the accounts. -/
theorem Logs.Accounts.retain (h : logs.Accounts streams) (name : Channel) (data : List UInt8) :
    (logs.retain name data).Accounts (Function.update streams name (streams name ++ data)) := by
  cases hexceeded : logs.exceeded with
  | true => exact retain_exceeded h name data hexceeded
  | false => exact retain_within h name data hexceeded

/-- The bytes that have arrived on a channel. -/
def inputOf (events : List (Channel × List UInt8)) (name : Channel) : List UInt8 :=
  ((events.filter fun event => event.1 = name).map Prod.snd).flatten

/-- The stream and the decoder of one channel have got as far as what was kept of its input. -/
def Lane.Follows (shield : Shield) (lane : Lane) (input stream : List UInt8) : Prop :=
  ∃ done text, (∀ more, rewrite shield.rules 0 (input ++ more) = done ++ rewrite shield.rules 0 (lane.pending ++ more)) ∧
    decodeFrom none done = (text, lane.decoder) ∧ stream = encode text

theorem follows_new (shield : Shield) (bounds : Bounds) (name : Channel) :
    ((Logs.new bounds).lanes name).Follows shield [] [] :=
  ⟨[], [], fun _ => rfl, rfl, rfl⟩

theorem retain_lane (logs : Logs) (name other : Channel) (data : List UInt8) :
    ((logs.retain name data).lanes other).pending = (logs.lanes other).pending ∧
      ((logs.retain name data).lanes other).decoder = (logs.lanes other).decoder ∧
      (logs.retain name data).bounds = logs.bounds := by
  unfold Logs.retain
  simp only
  split
  · by_cases hother : other = name
    · subst hother
      simp only [Function.update_self, and_self]
    · simp only [Function.update_of_ne hother, and_self]
  · by_cases hother : other = name
    · subst hother
      simp only [Function.update_self, and_self]
    · simp only [Function.update_of_ne hother, and_self]

theorem Lane.Follows.congr {lane other : Lane} {input stream : List UInt8} (h : lane.Follows shield input stream)
    (hpending : other.pending = lane.pending) (hdecoder : other.decoder = lane.decoder) :
    other.Follows shield input stream := by
  unfold Lane.Follows
  rw [hpending, hdecoder]
  exact h

/-- A lane that has taken what a stream gave back. -/
theorem Lane.Follows.take {lane other : Lane} {input stream : List UInt8} {found : List UInt8 × List UInt8}
    (h : lane.Follows shield input stream)
    (hrewrite : ∀ more, rewrite shield.rules 0 (lane.pending ++ data ++ more) =
      found.1 ++ rewrite shield.rules 0 (found.2 ++ more))
    (hpending : other.pending = found.2) (hdecoder : other.decoder = (decodeFrom lane.decoder found.1).2) :
    other.Follows shield (input ++ data) (stream ++ encode (decodeFrom lane.decoder found.1).1) := by
  obtain ⟨done, text, hinput, hdecoded, rfl⟩ := h
  refine ⟨done ++ found.1, text ++ (decodeFrom lane.decoder found.1).1, fun more => ?_, ?_, ?_⟩
  · rw [List.append_assoc, hinput, ← List.append_assoc, hrewrite, hpending, List.append_assoc]
  · rw [decodeFrom_append, hdecoded, hdecoder]
  · rw [encode_append]

/-- The logs and what has arrived on their channels. -/
structure Logs.Tracks (shield : Shield) (logs : Logs) (inputs streams : Channel → List UInt8) : Prop where
  accounts : logs.Accounts streams
  follows : ∀ name, (logs.lanes name).Follows shield (inputs name) (streams name)

variable {inputs : Channel → List UInt8}

theorem add_ok (hsound : shield.Sound) (h : logs.Tracks shield inputs streams) (name : Channel)
    (hdata : data.length ≤ chunkBytes) : ∃ next streams, logs.add shield name data = .ok next ∧
      next.bounds = logs.bounds ∧ next.Tracks shield (Function.update inputs name (inputs name ++ data)) streams := by
  obtain ⟨found, hfound, -, hrewrite⟩ := feed_ok hsound hdata (logs.lanes name).pending
  generalize htext : decodeFrom (logs.lanes name).decoder found.1 = text
  generalize hcounted : ({ logs with
    original := logs.original + data.length
    exceeded := logs.exceeded || decide (logs.bounds.original < logs.original + data.length) } : Logs) = counted
  have hlanes : counted.lanes = logs.lanes := by rw [← hcounted]
  have hbounds : counted.bounds = logs.bounds := by rw [← hcounted]
  have hadvanced : (counted.advance name found.2 text.2).Accounts streams := by
    refine h.accounts.congr hbounds (fun other => ?_) (by rw [← hcounted]; rfl) fun hno => ?_
    · show (Function.update counted.lanes name _ other).window = _
      rw [hlanes]
      by_cases hother : other = name
      · rw [hother, Function.update_self]
      · rw [Function.update_of_ne hother]
    · have hor : (logs.exceeded || decide (logs.bounds.original < logs.original + data.length)) = false := by
        rw [← hno, ← hcounted]
        rfl
      exact (Bool.or_eq_false_iff.mp hor).1
  refine ⟨(counted.advance name found.2 text.2).retain name (encode text.1),
    Function.update streams name (streams name ++ encode text.1), ?_, ?_, hadvanced.retain name _, fun other => ?_⟩
  · unfold Logs.add
    simp only
    rw [hfound]
    show Except.ok _ = _
    rw [← hcounted, ← htext]
  · rw [(retain_lane _ name name _).2.2]
    exact hbounds
  · obtain ⟨hpending, hdecoder, -⟩ := retain_lane (counted.advance name found.2 text.2) name other (encode text.1)
    by_cases hother : other = name
    · subst hother
      have hlane : (counted.advance other found.2 text.2).lanes other =
          { logs.lanes other with pending := found.2, decoder := text.2 } := by
        show Function.update counted.lanes other _ other = _
        rw [Function.update_self, hlanes]
      rw [hlane] at hpending hdecoder
      subst htext
      rw [Function.update_self, Function.update_self]
      exact (h.follows other).take hrewrite hpending hdecoder
    · have hlane : (counted.advance name found.2 text.2).lanes other = logs.lanes other := by
        show Function.update counted.lanes name _ other = _
        rw [Function.update_of_ne hother, hlanes]
      rw [hlane] at hpending hdecoder
      rw [Function.update_of_ne hother, Function.update_of_ne hother]
      exact (h.follows other).congr hpending hdecoder

theorem inputOf_cons (event : Channel × List UInt8) (events : List (Channel × List UInt8)) (before : Channel → List UInt8)
    (name : Channel) : Function.update before event.1 (before event.1 ++ event.2) name ++ inputOf events name =
      before name ++ inputOf (event :: events) name := by
  unfold inputOf
  by_cases hname : event.1 = name
  · subst hname
    rw [Function.update_self, List.filter_cons_of_pos (by simp), List.map_cons, List.flatten_cons, List.append_assoc]
  · rw [Function.update_of_ne (Ne.symm hname), List.filter_cons_of_neg (by simpa using hname)]

/-- Logs that have taken chunks in any order track what arrived on each channel. -/
theorem run_from (hsound : shield.Sound) (h : logs.Tracks shield inputs streams) (events : List (Channel × List UInt8))
    (hevents : ∀ event ∈ events, event.2.length ≤ chunkBytes) : ∃ next streams,
      events.foldlM (fun logs event => Logs.add shield logs event.1 event.2) logs = .ok next ∧
        next.bounds = logs.bounds ∧ next.Tracks shield (fun name => inputs name ++ inputOf events name) streams := by
  induction events generalizing logs inputs streams with
  | nil =>
    refine ⟨logs, streams, rfl, rfl, ?_⟩
    have hsame : (fun name => inputs name ++ inputOf [] name) = inputs := by
      funext name
      exact List.append_nil _
    rw [hsame]
    exact h
  | cons event rest ih =>
    obtain ⟨middle, found, hmiddle, hbounds, htracks⟩ := add_ok hsound h event.1 (hevents event List.mem_cons_self)
    obtain ⟨next, others, hnext, hsame, hrest⟩ :=
      ih htracks fun other hother => hevents other (List.mem_cons_of_mem _ hother)
    refine ⟨next, others, ?_, hsame.trans hbounds, ?_⟩
    · rw [List.foldlM_cons]
      exact bind_eq_ok.mpr ⟨middle, hmiddle, hnext⟩
    · have hinputs : (fun name => Function.update inputs event.1 (inputs event.1 ++ event.2) name ++ inputOf rest name) =
          fun name => inputs name ++ inputOf (event :: rest) name := by
        funext name
        exact inputOf_cons event rest inputs name
      rw [hinputs] at hrest
      exact hrest

theorem run_ok (hsound : shield.Sound) (bounds : Bounds) (events : List (Channel × List UInt8))
    (hevents : ∀ event ∈ events, event.2.length ≤ chunkBytes) : ∃ logs streams,
      Logs.run shield bounds events = .ok logs ∧ logs.bounds = bounds ∧ logs.Tracks shield (inputOf events) streams :=
  run_from hsound ⟨logs_accounts_new bounds, follows_new shield bounds⟩ events hevents

/-- The sanitized bytes of an input after its decoding with replacement. -/
def decoded (shield : Shield) (input : List UInt8) : List UInt8 := encode (decode (rewrite shield.rules 0 input))

theorem finishChannel_ok (h : logs.Accounts streams) (name : Channel)
    (hfollows : (logs.lanes name).Follows shield (inputs name) (streams name)) : ∃ next,
      logs.finishChannel shield name = .ok next ∧ next.bounds = logs.bounds ∧
        (∀ other, other ≠ name → (next.lanes other).pending = (logs.lanes other).pending ∧
          (next.lanes other).decoder = (logs.lanes other).decoder) ∧
        next.Accounts (Function.update streams name (decoded shield (inputs name))) := by
  generalize htext : textFrom (logs.lanes name).decoder (rewrite shield.rules 0 (logs.lanes name).pending) = text
  have hadvanced : (logs.advance name [] none).Accounts streams := by
    refine h.congr rfl (fun other => ?_) rfl id
    show (Function.update logs.lanes name _ other).window = _
    by_cases hother : other = name
    · rw [hother, Function.update_self]
    · rw [Function.update_of_ne hother]
  have hstream : streams name ++ encode text = decoded shield (inputs name) := by
    obtain ⟨done, kept, hinput, hdecoded, hstream⟩ := hfollows
    have hall := hinput []
    rw [List.append_nil, List.append_nil] at hall
    unfold decoded
    rw [hall]
    show _ = encode (textFrom none _)
    rw [textFrom_append, hdecoded, encode_append, hstream, htext]
  refine ⟨(logs.advance name [] none).retain name (encode text), ?_, ?_, fun other hother => ?_, ?_⟩
  · unfold Logs.finishChannel
    rw [finish_ok]
    show Except.ok _ = _
    rw [htext]
  · exact (retain_lane _ name name _).2.2
  · obtain ⟨hpending, hdecoder, -⟩ := retain_lane (logs.advance name [] none) name other (encode text)
    have hlane : (logs.advance name [] none).lanes other = logs.lanes other := Function.update_of_ne hother _ _
    rw [hlane] at hpending hdecoder
    exact ⟨hpending, hdecoder⟩
  · rw [← hstream]
    exact hadvanced.retain name (encode text)

/-- Logs that are finished account for the sanitized and decoded bytes of each channel. -/
theorem logs_finish_ok (h : logs.Tracks shield inputs streams) : ∃ done, logs.finish shield = .ok done ∧
    done.bounds = logs.bounds ∧ done.Accounts fun name => decoded shield (inputs name) := by
  obtain ⟨first, hfirst, hbounds, hlanes, haccounts⟩ := finishChannel_ok h.accounts .stdout (h.follows .stdout)
  have hother : (first.lanes .stderr).Follows shield (inputs .stderr)
      (Function.update streams Channel.stdout (decoded shield (inputs .stdout)) .stderr) := by
    rw [Function.update_of_ne (by decide)]
    obtain ⟨hpending, hdecoder⟩ := hlanes .stderr (by decide)
    exact (h.follows .stderr).congr hpending hdecoder
  obtain ⟨done, hdone, hsame, -, hall⟩ := finishChannel_ok haccounts .stderr hother
  refine ⟨done, bind_eq_ok.mpr ⟨first, hfirst, hdone⟩, hsame.trans hbounds, ?_⟩
  have hstreams : Function.update (Function.update streams Channel.stdout (decoded shield (inputs .stdout))) Channel.stderr
      (decoded shield (inputs .stderr)) = fun name => decoded shield (inputs name) := by
    funext name
    cases name with
    | stdout => rw [Function.update_of_ne (by decide), Function.update_self]
    | stderr => rw [Function.update_self]
  rw [hstreams] at hall
  exact hall

end Boxferry.Automation.Reporting
