import Boxferry.Automation.PinBlocks

/-! # Pin upgrades

The upgrade of the pins of a workflow puts one revision for another behind characters that no
revision holds, so that the old revision can be put back. -/
namespace Boxferry.Automation.PinUpgrades
open FirstParty Rewriting
set_option autoImplicit false

variable {trusted result : List UInt8} {before after : String} {outcomes : List Outcome}

/-! ## Bytes -/

theorem bytes_flatMap (text : String) : Utf8Text.bytes text = text.toList.flatMap String.utf8EncodeChar := by
  rw [← Utf8Text.bytes_ofList, String.ofList_toList]

/-- A byte that no revision holds. -/
def IsFenceByte (byte : UInt8) : Prop := ∃ ch, byte = UInt8.ofNat ch.toNat ∧ IsFence ch

theorem isHexChar_ascii {ch : Char} (h : isHexChar ch = true) : ch.toNat < 128 := by
  unfold isHexChar Char.isDigit at h
  simp only [Bool.or_eq_true, Bool.and_eq_true, decide_eq_true_eq] at h
  obtain ⟨-, hhigh⟩ | ⟨-, hhigh⟩ := h
  · have hnat : ch.toNat ≤ 57 := hhigh
    omega
  · have hnat : ch.toNat ≤ 102 := hhigh
    omega

theorem not_fence_bytes {revision : String} (h : isRevision revision.toList = true) :
    ∀ byte ∈ Utf8Text.bytes revision, ¬ IsFenceByte byte := by
  unfold isRevision at h
  rw [Bool.and_eq_true, List.all_eq_true] at h
  intro byte hbyte
  rw [bytes_flatMap, List.mem_flatMap] at hbyte
  obtain ⟨ch, hch, hmem⟩ := hbyte
  have hhex := h.2 ch hch
  have hlow := isHexChar_ascii hhex
  rw [Utf8Text.utf8EncodeChar_ascii hlow, List.mem_singleton] at hmem
  rintro ⟨other, hother, hfence, hnot⟩
  have hsame : ch.toNat = other.toNat := by
    have hnat := congrArg UInt8.toNat (hmem.symm.trans hother)
    rw [UInt8.toNat_ofNat_of_lt' (Nat.lt_trans hlow (by decide)),
      UInt8.toNat_ofNat_of_lt' (Nat.lt_trans hfence (by decide))] at hnat
    exact hnat
  have hchars : ch = other := by rw [← Char.ofNat_toNat ch, hsame, Char.ofNat_toNat]
  rw [← hchars, hhex] at hnot
  cases hnot

theorem revision_nonempty {revision : String} (h : isRevision revision.toList = true) : Utf8Text.bytes revision ≠ [] := by
  intro hnil
  have hlength := congrArg List.length hnil
  rw [Utf8Text.length_bytes_toList] at hlength
  unfold isRevision at h
  cases htext : revision.toList with
  | nil =>
    rw [htext] at h
    cases h
  | cons ch rest =>
    rw [htext, Utf8Text.size_cons] at hlength
    have hpos := Char.utf8Size_pos ch
    rw [List.length_nil] at hlength
    omega

/-! ## The upgrade -/

/-- What a result of the upgrade comes from. -/
theorem upgrade_parts (h : expectedCiUpgrade trusted before after = some result) :
    ∃ source outcomes, Utf8Text.ofBytes trusted = some source ∧
      isRevision before.toList = true ∧ isRevision after.toList = true ∧
      scanLines before.toList after.toList none {} (splitlines source.toList) = some outcomes ∧
      outcomes.any Outcome.replaced = true ∧
      result = Utf8Text.bytes (String.ofList (outcomes.map Outcome.line).flatten) := by
  unfold expectedCiUpgrade at h
  obtain ⟨source, hsource, h⟩ := Option.bind_eq_some_iff.mp h
  split at h
  · cases h
  · next hvalid =>
    obtain ⟨outcomes, hscan, h⟩ := Option.bind_eq_some_iff.mp h
    split at h
    · next hany =>
      simp only [Bool.or_eq_true, Bool.not_eq_true', not_or] at hvalid
      rw [Option.some.injEq] at h
      exact ⟨source, outcomes, hsource, Bool.not_eq_false _ ▸ hvalid.1.1.2, Bool.not_eq_false _ ▸ hvalid.1.2, hscan, hany,
        h.symm⟩
    · cases h

/-- The text around the pins, in bytes. -/
theorem upgrade_gaps {source : String} (hsource : Utf8Text.ofBytes trusted = some source)
    (hscan : scanLines before.toList after.toList none {} (splitlines source.toList) = some outcomes) :
    ∃ gaps, trusted = (Utf8Text.bytes before).intercalate gaps ∧
      Utf8Text.bytes (String.ofList (outcomes.map Outcome.line).flatten) = (Utf8Text.bytes after).intercalate gaps ∧
      FencedWords.Fenced IsFenceByte gaps ∧ gaps.length = outcomes.countP Outcome.replaced + 1 := by
  obtain ⟨gap, gaps, hbefore, hafter, hfenced, hcount⟩ := exists_gaps (edited_lines hscan)
  refine ⟨(gap :: gaps).map (List.flatMap String.utf8EncodeChar), ?_, ?_, ?_, ?_⟩
  · have htext : source.toList = before.toList.intercalate (gap :: gaps) := by
      rw [← hbefore]
      exact (TextLines.flatten_lines endsLine source.toList).symm
    rw [← Utf8Text.bytes_of_ofBytes hsource, bytes_flatMap, bytes_flatMap, htext, FencedWords.flatMap_intercalate]
  · rw [Utf8Text.bytes_ofList, bytes_flatMap, hafter, FencedWords.flatMap_intercalate]
  · apply hfenced.flatMap
    intro ch hch
    exact ⟨UInt8.ofNat ch.toNat, Utf8Text.utf8EncodeChar_ascii hch.1, ch, rfl, hch⟩
  · rw [List.length_map, List.length_cons, hcount]

/-- The upgrade is undone where the new revision did not occur before. -/
theorem upgrade_undone (h : expectedCiUpgrade trusted before after = some result)
    (hfree : ¬ Utf8Text.bytes after <:+: trusted) :
    rewrite [(Utf8Text.bytes after, Utf8Text.bytes before)] 0 result = trusted := by
  obtain ⟨source, outcomes, hsource, -, hafter, hscan, -, rfl⟩ := upgrade_parts h
  obtain ⟨gaps, htrusted, hresult, hfenced, -⟩ := upgrade_gaps hsource hscan
  rw [hresult]
  rw [htrusted] at hfree
  rw [FencedWords.rewrite_intercalate (revision_nonempty hafter) (not_fence_bytes hafter) hfenced hfree, htrusted]

/-- An upgrade replaces revisions and nothing else, at the end of scalars under the keys of pins,
outside comments and block scalars; where the new revision is new to the file, the old file can be
had back from the upgraded one. -/
theorem upgrade_exact (trusted result : List UInt8) (before after : String)
    (h : expectedCiUpgrade trusted before after = some result) :
    ∃ (source : String) (outcomes : List Outcome), Utf8Text.ofBytes trusted = some source ∧
      scanLines before.toList after.toList none {} (splitlines source.toList) = some outcomes ∧
      result = Utf8Text.bytes (String.ofList (outcomes.map Outcome.line).flatten) ∧
      outcomes.length = (splitlines source.toList).length ∧
      (∃ gaps, 2 ≤ gaps.length ∧ gaps.length = outcomes.countP Outcome.replaced + 1 ∧
        trusted = (Utf8Text.bytes before).intercalate gaps ∧ result = (Utf8Text.bytes after).intercalate gaps) ∧
      (∀ (index : Nat) (line : Text) (outcome : Outcome), (splitlines source.toList)[index]? = some line → outcomes[index]? = some outcome →
        (outcome.replaced = false → outcome.line = line) ∧
        (outcome.replaced = true → isSilent line = false ∧
          (∃ pinned : PinnedLine, line = pinned.text before.toList ∧ outcome.line = pinned.text after.toList) ∧
          ∀ start header column, start < index → (splitlines source.toList)[start]? = some header →
            (OpensBlock header column ∨
              ∃ opened : Outcome, outcomes[start]? = some opened ∧ opened.scan.blockIndent = some column) →
            ∃ middle inner, start < middle ∧ middle ≤ index ∧ (splitlines source.toList)[middle]? = some inner ∧
              ¬ InBlock column inner)) ∧
      (¬ Utf8Text.bytes after <:+: trusted →
        rewrite [(Utf8Text.bytes after, Utf8Text.bytes before)] 0 result = trusted ∧
        ∀ other, expectedCiUpgrade other before after = some result → ¬ Utf8Text.bytes after <:+: other →
          other = trusted) := by
  obtain ⟨source, outcomes, hsource, hbefore, hafter, hscan, hany, hresult⟩ := upgrade_parts h
  obtain ⟨gaps, htrusted, hgaps, hfenced, hcount⟩ := upgrade_gaps hsource hscan
  have hedited := edited_lines hscan
  refine ⟨source, outcomes, hsource, hscan, hresult, hedited.length_eq.symm, ⟨gaps, ?_, hcount, htrusted, ?_⟩, ?_, ?_⟩
  · obtain ⟨outcome, hmem, hreplaced⟩ := List.any_eq_true.mp hany
    have hpos := List.countP_pos_iff.mpr ⟨outcome, hmem, hreplaced⟩
    omega
  · rw [hresult, hgaps]
  · intro index line outcome hline houtcome
    cases edited_at hedited hline houtcome with
    | kept hreplaced hkept =>
      refine ⟨fun _ => hkept, fun hother => ?_⟩
      rw [hreplaced] at hother
      cases hother
    | pinned pinned hreplaced hold hnew =>
      refine ⟨fun hother => ?_, fun _ => ⟨?_, ⟨pinned, hold, hnew⟩, ?_⟩⟩
      · rw [hreplaced] at hother
        cases hother
      · obtain ⟨previous, scan, reached, -, hreached, hstep, -⟩ := scanLines_at stacked_start hscan hline
        rw [houtcome, Option.some.injEq] at hreached
        subst hreached
        exact not_silent_of_replaced hstep hreplaced
      · intro start header column hstart hheader hopened
        exact behind_block stacked_start hscan hheader hstart hopened houtcome hreplaced
  · intro hfree
    refine ⟨upgrade_undone h hfree, fun other hother hotherFree => ?_⟩
    rw [← upgrade_undone hother hotherFree, upgrade_undone h hfree]

def oldRevision : String := "aaaaaaaaaaaaaaaaaaaaaaaaaaaaaaaaaaaaaaaa"
def newRevision : String := "bbbbbbbbbbbbbbbbbbbbbbbbbbbbbbbbbbbbbbbb"

/-- A workflow with the pin of an environment and a pin in the text of a script. -/
def sampleWorkflow (revision : String) : String :=
  "env:\n  AUTOMATION_SHA: '" ++ revision ++ "' # pin\nrun: |\n  AUTOMATION_SHA: " ++ oldRevision ++ "\n"

theorem sample_upgrade : expectedCiUpgrade (Utf8Text.bytes (sampleWorkflow oldRevision)) oldRevision newRevision =
    some (Utf8Text.bytes (sampleWorkflow newRevision)) := by
  unfold expectedCiUpgrade
  rw [Utf8Text.ofBytes_bytes, Option.bind_some]
  decide +kernel

theorem upgrade_exact_sample :
    expectedCiUpgrade (Utf8Text.bytes (sampleWorkflow oldRevision)) oldRevision newRevision =
      some (Utf8Text.bytes (sampleWorkflow newRevision)) ∧
    rewrite [(Utf8Text.bytes newRevision, Utf8Text.bytes oldRevision)] 0
      (Utf8Text.bytes (sampleWorkflow newRevision)) = Utf8Text.bytes (sampleWorkflow oldRevision) := by
  refine ⟨sample_upgrade, ?_⟩
  obtain ⟨source, outcomes, -, -, -, -, -, -, hundone⟩ := upgrade_exact _ _ _ _ sample_upgrade
  exact (hundone (by decide +kernel)).1

end Boxferry.Automation.PinUpgrades
