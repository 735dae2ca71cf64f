import Boxferry.Automation.SanitizedStreams
import Boxferry.Library.Decimal

/-! # Rendered texts

The sanitization of a stream equals that of its whole text, with exact accounts; a text that is
rendered within a limit leaves room for the mark of what it omits, up to a number of bytes that has
more digits than the room. -/
namespace Boxferry.Automation.Reporting
open Rewriting Utf8Replace Results
set_option autoImplicit false

variable {shield : Shield} {value : PyText} {values : List PyText} {limit : Nat} {window : Window} {chars : List Char}

/-! ## Slices -/

theorem flatten_slices (count : Nat) (value : PyText) :
    ((List.range count).map fun index => (value.drop (index * (chunkBytes / 4))).take (chunkBytes / 4)).flatten =
      value.take (count * (chunkBytes / 4)) := by
  induction count with
  | zero => rw [List.range_zero, Nat.zero_mul, List.take_zero]; rfl
  | succ count ih =>
    rw [List.range_succ, List.map_append, List.flatten_append, ih, Nat.succ_mul, List.take_add]
    simp

theorem slices_flatten (value : PyText) : (slices value).flatten = value := by
  unfold slices
  rw [flatten_slices]
  refine List.take_of_length_le ?_
  show value.length ≤ (value.length + 8191) / 8192 * 8192
  omega

theorem encodeReplace_append (first second : PyText) :
    encodeReplace (first ++ second) = encodeReplace first ++ encodeReplace second := by
  unfold encodeReplace
  rw [List.map_append, encode_append]

theorem encodeReplace_flatten (values : List PyText) : (values.map encodeReplace).flatten = encodeReplace values.flatten := by
  induction values with
  | nil => rfl
  | cons value rest ih => rw [List.map_cons, List.flatten_cons, List.flatten_cons, encodeReplace_append, ih]

theorem flatten_chunks (values : List PyText) :
    ((values.flatMap slices).map encodeReplace).flatten = encodeReplace values.flatten := by
  rw [encodeReplace_flatten]
  refine congrArg encodeReplace ?_
  induction values with
  | nil => rfl
  | cons value rest ih => rw [List.flatMap_cons, List.flatten_append, slices_flatten, ih, List.flatten_cons]

theorem size_le (chars : List Char) : Utf8Text.size chars ≤ 4 * chars.length := by
  induction chars with
  | nil => exact Nat.zero_le _
  | cons ch chars ih =>
    have hsize := ch.utf8Size_le_four
    rw [Utf8Text.size_cons, List.length_cons]
    omega

/-- The slices of texts take at most one chunk each. -/
theorem length_chunks (values : List PyText) :
    ∀ chunk ∈ (values.flatMap slices).map encodeReplace, chunk.length ≤ chunkBytes := by
  intro chunk hchunk
  obtain ⟨part, hpart, rfl⟩ := List.mem_map.mp hchunk
  obtain ⟨value, -, hslice⟩ := List.mem_flatMap.mp hpart
  obtain ⟨index, -, rfl⟩ := List.mem_map.mp hslice
  have hlength := List.length_take_le (chunkBytes / 4) (value.drop (index * (chunkBytes / 4)))
  unfold encodeReplace
  rw [length_encode]
  refine Nat.le_trans (size_le _) ?_
  rw [List.length_map]
  show 4 * _ ≤ 32768
  have hquarter : chunkBytes / 4 = 8192 := rfl
  omega

/-- The sanitized bytes of texts. -/
def sanitized (shield : Shield) (values : List PyText) : List UInt8 :=
  rewrite shield.rules 0 (encodeReplace values.flatten)

theorem foldl_add_limits (datas : List (List UInt8)) (window : Window) :
    (datas.foldl Window.add window).headLimit = window.headLimit ∧
      (datas.foldl Window.add window).tailLimit = window.tailLimit := by
  induction datas generalizing window with
  | nil => exact ⟨rfl, rfl⟩
  | cons data rest ih =>
    rw [List.foldl_cons]
    exact ih (window.add data)

theorem retained_ok (hsound : shield.Sound) (values : List PyText) (limit : Nat) : ∃ window,
    retained shield values limit = .ok window ∧ window.Accounts (sanitized shield values) ∧
      window.headLimit = limit / 2 ∧ window.tailLimit = limit - limit / 2 := by
  obtain ⟨found, hfound, -, hrewrite⟩ := feeds_ok hsound (length_chunks values) []
  have hall := hrewrite []
  rw [List.append_nil, List.append_nil, List.nil_append, flatten_chunks] at hall
  have haccounts := accounts_foldl (accounts_new (limit / 2) (limit - limit / 2)) (found.map Prod.fst ++
    [rewrite shield.rules 0 ((found.map Prod.snd).getLast?.getD [])])
  rw [List.nil_append, List.flatten_append, List.flatten_singleton, ← hall] at haccounts
  refine ⟨_, bind_eq_ok.mpr ⟨found, hfound, bind_eq_ok.mpr ⟨_, finish_ok shield _, rfl⟩⟩, haccounts, ?_⟩
  exact foldl_add_limits _ _

theorem sanitized_encoded (hsound : shield.Sound) (values : List PyText) : ∃ chars, sanitized shield values = encode chars :=
  rewrite_encoded hsound.nonempty hsound.left hsound.right _

/-! ## Windows on a text -/

theorem marker_cons (h : window.omitted ≠ 0) : window.marker =
    '\n' :: ("[omitted ".toList ++ (Nat.toDigits 10 window.omitted ++ " sanitized bytes]\n".toList)) := by
  unfold Window.marker
  rw [if_neg h, String.toList_append, String.toList_append, Nat.toString_eq_ofList_toDigits, List.append_assoc,
    @String.toList_ofList (Nat.toDigits 10 window.omitted)]
  rfl

theorem size_of_digits (hall : ∀ ch ∈ chars, ch.isDigit = true) : Utf8Text.size chars = chars.length := by
  induction chars with
  | nil => rfl
  | cons ch rest ih =>
    have hdigit := hall ch List.mem_cons_self
    have hone : ch.utf8Size = 1 := by
      rw [Char.utf8Size_eq_one_iff]
      unfold Char.isDigit at hdigit
      simp only [Bool.and_eq_true, decide_eq_true_eq] at hdigit
      exact UInt32.le_trans hdigit.2 (by decide)
    rw [Utf8Text.size_cons, ih fun other hother => hall other (List.mem_cons_of_mem _ hother), hone, List.length_cons,
      Nat.add_comm]

theorem size_marker (h : window.omitted ≠ 0) :
    (encode window.marker).length = 28 + (Nat.toDigits 10 window.omitted).length := by
  have hopening : Utf8Text.size "[omitted ".toList = 9 := by decide
  have hclosing : Utf8Text.size " sanitized bytes]\n".toList = 18 := by decide
  have hnewline : '\n'.utf8Size = 1 := by decide
  rw [length_encode, marker_cons h, Utf8Text.size_cons, Utf8Text.size_append, Utf8Text.size_append,
    size_of_digits (Decimal.digits_isDigit _), hopening, hclosing, hnewline]
  omega

/-- The window after the marker has its reserve is still one on both ends of the same bytes. -/
theorem reserve_spec (limit : Nat) (haccounts : window.Accounts (encode chars)) (homitted : window.omitted ≠ 0) :
    (window.reserve limit).omitted ≠ 0 ∧ (window.reserve limit).omitted ≤ (encode chars).length ∧
      (∃ count, (window.reserve limit).head = (encode chars).take count) ∧
      (∃ offset, (window.reserve limit).tail = (encode chars).drop offset) ∧
      (window.reserve limit).head.length = window.head.length - min 64 (limit / 4) ∧
      (window.reserve limit).tail.length = window.tail.length - min 64 (limit / 4) := by
  obtain ⟨htotal, -, -, middle, hsplit, -⟩ := haccounts
  have hreserve : window.reserve limit = { window with
      head := window.head.take (window.head.length - min 64 (limit / 4))
      tail := window.tail.drop (min (min 64 (limit / 4)) window.tail.length) } := if_neg homitted
  rw [hreserve]
  have hhead : (window.head.take (window.head.length - min 64 (limit / 4))).length =
      window.head.length - min 64 (limit / 4) := by
    rw [List.length_take]
    omega
  have htail : (window.tail.drop (min (min 64 (limit / 4)) window.tail.length)).length =
      window.tail.length - min 64 (limit / 4) := by
    rw [List.length_drop]
    omega
  unfold Window.omitted at homitted ⊢
  simp only at homitted ⊢
  refine ⟨?_, ?_, ⟨window.head.length - min 64 (limit / 4), ?_⟩, ⟨(window.head ++ middle).length +
    min (min 64 (limit / 4)) window.tail.length, ?_⟩, hhead, htail⟩
  · rw [hhead, htail]
    omega
  · omega
  · rw [hsplit, List.append_assoc, List.take_append_of_le_length (Nat.sub_le _ _)]
  · rw [hsplit, ← List.drop_drop, List.drop_left]

/-- A rendered text stays within its limit, as long as the number of omitted bytes has at most 28 digits. -/
theorem size_render (haccounts : window.Accounts (encode chars)) (hhead : window.headLimit = limit / 2)
    (htail : window.tailLimit = limit - limit / 2) (hlimit : 128 ≤ limit) (hfew : (encode chars).length < 10 ^ 28) :
    Utf8Text.size (decode (window.reserve limit).render) ≤ limit := by
  have hheadlength := haccounts.head
  have htaillength := haccounts.tail
  rw [hhead] at hheadlength
  rw [htail] at htaillength
  by_cases homitted : window.omitted = 0
  · have hreserve : window.reserve limit = window := if_pos homitted
    obtain ⟨htotal, -, -, middle, hsplit, -⟩ := haccounts
    have hlength := congrArg List.length hsplit
    simp only [List.length_append] at hlength
    have hmiddle : middle = [] := by
      unfold Window.omitted at homitted
      exact List.length_eq_zero_iff.mp (by omega)
    have hrender : window.render = encode chars := by
      unfold Window.render Window.marker
      rw [if_pos homitted, hsplit, hmiddle]
      rfl
    rw [hreserve, hrender, decode_encode, ← length_encode]
    rw [hmiddle, List.length_nil] at hlength
    omega
  · obtain ⟨hsome, hmost, ⟨count, hcount⟩, ⟨offset, hoffset⟩, hheadcut, htailcut⟩ := reserve_spec limit haccounts homitted
    have hmarker := size_marker hsome
    have hdigits := (Nat.length_toDigits_le_iff (show 1 < 10 by decide) (show 0 < 28 by decide)).mpr
      (Nat.lt_of_le_of_lt hmost hfew)
    have hcut := size_decode_cut chars chars count offset '\n' ("[omitted ".toList ++
      (Nat.toDigits 10 (window.reserve limit).omitted ++ " sanitized bytes]\n".toList)) (by decide)
    rw [← marker_cons hsome, ← hcount, ← hoffset] at hcut
    show Utf8Text.size (decode (_ ++ encode (window.reserve limit).marker ++ _)) ≤ limit
    omega

/-- Texts of fewer than `10 ^ 28` sanitized bytes are rendered within every limit that is allowed. -/
theorem parts_ok (hsound : shield.Sound) (hlimit : 128 ≤ limit) (hfew : (sanitized shield values).length < 10 ^ 28) :
    ∃ text omitted, shield.parts values limit = .ok (text, omitted) ∧ Utf8Text.size text ≤ limit := by
  obtain ⟨window, hwindow, haccounts, hhead, htail⟩ := retained_ok hsound values limit
  obtain ⟨chars, hchars⟩ := sanitized_encoded hsound values
  rw [hchars] at haccounts hfew
  have hsize := size_render haccounts hhead htail hlimit hfew
  refine ⟨_, (window.reserve limit).omitted, ?_, hsize⟩
  unfold Shield.parts
  rw [if_neg (by omega)]
  refine bind_eq_ok.mpr ⟨window, hwindow, ?_⟩
  exact if_neg (by omega)

/-! ## Sanitization -/

/-- The heads of both channels share one bound, and each tail has one half of its own. -/
structure Logs.Within (logs : Logs) (bounds : Bounds) : Prop where
  heads : (logs.lanes .stdout).window.head.length + (logs.lanes .stderr).window.head.length ≤ bounds.head
  tails : ∀ name, (logs.lanes name).window.tail.length ≤ bounds.tail / 2

theorem within_of_accounts {logs : Logs} {streams : Channel → List UInt8} (h : logs.Accounts streams) :
    logs.Within logs.bounds := by
  have hshared := h.shared
  exact ⟨by omega, h.tails⟩

/-- The sanitization of a stream in chunks is that of its whole input, and the windows, the logs and
the rendered texts account for its bytes within their bounds. -/
theorem sanitization_exact (runtime : Runtime) (root : Root) (environment : List (PyText × PyText)) (shield : Shield)
    (h : Shield.new runtime root environment = .ok shield) :
    (shield.patterns.Pairwise fun first second => second.1.length ≤ first.1.length) ∧
    (∀ chunks, (∀ chunk ∈ chunks, chunk.length ≤ chunkBytes) →
      sanitize shield chunks = .ok (rewrite shield.rules 0 chunks.flatten) ∧
      ∃ found, feeds shield [] chunks = .ok found ∧ ∀ step ∈ found, step.2.length ≤ shield.overlap) ∧
    (∀ (headLimit tailLimit : Nat) (datas : List (List UInt8)) (window : Window),
      datas.foldl Window.add (Window.new headLimit tailLimit) = window → window.total = datas.flatten.length ∧
      window.total = window.head.length + window.tail.length + window.omitted ∧ window.head <+: datas.flatten ∧
      window.tail <:+ datas.flatten) ∧
    (∀ bounds events, (∀ event ∈ events, event.2.length ≤ chunkBytes) →
      ∃ logs done, Logs.run shield bounds events = .ok logs ∧ logs.finish shield = .ok done ∧ logs.Within bounds ∧
        done.Within bounds ∧
        ∀ name, (done.lanes name).window.total = (decoded shield (inputOf events name)).length) ∧
    ∀ values limit, 128 ≤ limit → (sanitized shield values).length < 10 ^ 28 →
      ∃ text omitted, shield.parts values limit = .ok (text, omitted) ∧ Utf8Text.size text ≤ limit := by
  have hsound := sound_of_new h
  refine ⟨hsound.longest, fun chunks hchunks => ?_, fun headLimit tailLimit datas window hwindow => ?_,
    fun bounds events hevents => ?_, fun values limit hlimit hfew => parts_ok hsound hlimit hfew⟩
  · obtain ⟨found, hfound, hpending, -⟩ := feeds_ok hsound hchunks []
    exact ⟨sanitize_ok hsound hchunks, found, hfound, hpending⟩
  · have haccounts := accounts_foldl (accounts_new headLimit tailLimit) datas
    rw [hwindow, List.nil_append] at haccounts
    exact ⟨haccounts.total, haccounts.exact⟩
  · obtain ⟨logs, streams, hrun, hbounds, htracks⟩ := run_ok hsound bounds events hevents
    obtain ⟨done, hdone, hsame, haccounts⟩ := logs_finish_ok htracks
    refine ⟨logs, done, hrun, hdone, ?_, ?_, haccounts.totals⟩
    · exact hbounds ▸ within_of_accounts htracks.accounts
    · exact (hsame.trans hbounds) ▸ within_of_accounts haccounts

/-! ## A text of too many digits -/

def sampleRuntime : Runtime := ⟨id, id, fun list => List.Perm.refl list⟩

theorem sampleRoot_nonempty : "/fixture".toList.map CodePoint.scalar ≠ [] := by decide

def sampleRoot : Root := ⟨"/fixture".toList.map .scalar, sampleRoot_nonempty⟩

def sampleShield : Shield := Shield.ofPatterns [] (ascii "/fixture")

theorem sampleShield_new : Shield.new sampleRuntime sampleRoot [] = .ok sampleShield := by
  rfl

theorem sanitization_exact_sample : (sampleShield.patterns.Pairwise fun first second =>
    second.1.length ≤ first.1.length) ∧
    sanitize sampleShield [ascii "/fix", ascii "ture:", ascii ":"] =
      .ok (rewrite sampleShield.rules 0 (ascii "/fixture::")) := by
  obtain ⟨hlongest, hstreams, -⟩ := sanitization_exact sampleRuntime sampleRoot [] sampleShield sampleShield_new
  exact ⟨hlongest, (hstreams [ascii "/fix", ascii "ture:", ascii ":"] (by decide)).1⟩

theorem encode_letters (count : Nat) : encode (List.replicate count 'a') = List.replicate count 97 := by
  induction count with
  | zero => rfl
  | succ count ih =>
    rw [List.replicate_succ, List.replicate_succ, encode_cons, ih]
    rfl

/-- No rule of the shield touches a text of letters. -/
theorem rewrite_letters (count : Nat) :
    rewrite sampleShield.rules 0 (List.replicate count 97) = List.replicate count 97 := by
  induction count with
  | zero => rfl
  | succ count ih =>
    have hheads : ∀ rule ∈ sampleShield.rules, rule.1.head? ≠ some 97 ∧ rule.1 ≠ [] := by decide
    rw [List.replicate_succ, rewrite_copy, ih]
    refine firstRule_eq_none.mpr fun rule hrule hbegins => ?_
    obtain ⟨hhead, hne⟩ := hheads rule hrule
    cases hleft : rule.1 with
    | nil => exact hne hleft
    | cons first others =>
      rw [hleft] at hbegins hhead
      rw [(List.cons_prefix_cons.mp hbegins).1] at hhead
      exact hhead rfl

theorem sanitized_letters (count : Nat) :
    sanitized sampleShield [List.replicate count (CodePoint.scalar 'a')] = encode (List.replicate count 'a') := by
  unfold sanitized encodeReplace
  rw [List.flatten_singleton, List.map_replicate]
  show rewrite sampleShield.rules 0 (encode (List.replicate count 'a')) = _
  rw [encode_letters, rewrite_letters]

/-- A text of so many letters leaves no room for the number of those that are omitted. -/
theorem parts_letters (count : Nat) (hcount : 10 ^ 100 + 128 ≤ count) :
    sampleShield.parts [List.replicate count (CodePoint.scalar 'a')] 128 =
      .error (.value "rendered text byte budget exceeded") := by
  obtain ⟨window, hwindow, haccounts, hhead, htail⟩ :=
    retained_ok (sound_of_new sampleShield_new) [List.replicate count (CodePoint.scalar 'a')] 128
  rw [sanitized_letters] at haccounts
  have hheads := haccounts.head
  have htails := haccounts.tail
  have htotal := haccounts.total
  rw [encode_letters, List.length_replicate] at htotal
  rw [hhead] at hheads
  rw [htail] at htails
  have homitted : window.omitted ≠ 0 := by
    unfold Window.omitted
    omega
  obtain ⟨hsome, -, ⟨first, hfirst⟩, ⟨last, hlast⟩, hheadcut, htailcut⟩ := reserve_spec 128 haccounts homitted
  have hmany : 10 ^ 100 ≤ (window.reserve 128).omitted := by
    have htotals : (window.reserve 128).total = window.total := by
      unfold Window.reserve
      rw [if_neg homitted]
    unfold Window.omitted
    rw [htotals]
    omega
  have hdigits : 100 < (Nat.toDigits 10 (window.reserve 128).omitted).length := by
    have hnot := mt (Nat.length_toDigits_le_iff (show 1 < 10 by decide) (show 0 < 100 by decide)).mp (Nat.not_lt.mpr hmany)
    omega
  have hmarker := size_marker hsome
  have hrender : decode (window.reserve 128).render = List.replicate (min first count) 'a' ++
      ((window.reserve 128).marker ++ List.replicate (count - last) 'a') := by
    unfold Window.render
    rw [hfirst, hlast, encode_letters, List.take_replicate, List.drop_replicate, ← encode_letters, ← encode_letters,
      ← encode_append, ← encode_append, decode_encode, List.append_assoc]
  have hsize : 128 < Utf8Text.size (decode (window.reserve 128).render) := by
    rw [hrender, Utf8Text.size_append, Utf8Text.size_append, ← length_encode (window.reserve 128).marker]
    omega
  unfold Shield.parts
  rw [if_neg (by decide), hwindow]
  exact if_pos hsize

/-- An accepted shield does not render every text. -/
theorem parts_not_total : Shield.new sampleRuntime sampleRoot [] = .ok sampleShield ∧
    sampleShield.parts [List.replicate (10 ^ 101) (CodePoint.scalar 'a')] 128 =
      .error (.value "rendered text byte budget exceeded") :=
  ⟨sampleShield_new, parts_letters _ (by decide)⟩

end Boxferry.Automation.Reporting
