import Boxferry.Automation.PinScan
import Mathlib.Data.List.Pairwise

/-! # Block scalars in the scan

No pin is replaced in the text of a block scalar that a mapping line opens. A block scalar is the
lines after its header that are deeper than the key of the header, with blank lines and comments among
them; the scan is closed to pins as long as it is in one. -/
namespace Boxferry.Automation.PinUpgrades
set_option autoImplicit false

variable {before after line header key : Text} {previous token : Option Text} {scan : Scan} {outcome : Outcome}
  {frames claimed : List PinFrame} {rootKeys claimedKeys : List Text} {column indent : Nat} {found : MappingLine}
  {lines : List Text} {outcomes : List Outcome}

/-- A mapping line whose value opens a block scalar. -/
def OpensBlock (header : Text) (column : Nat) : Prop :=
  ∃ found, mapping header = some found ∧ isBlock (strip found.value) = true ∧ found.column = column

/-- A line that does not end a block scalar of a column. -/
def InBlock (column : Nat) (line : Text) : Prop := isSilent line = true ∨ column < indentOf line

/-! ## The stack -/

/-- Each frame is deeper than the frames below it. -/
def Stacked (frames : List PinFrame) : Prop := frames.Pairwise fun upper lower => lower.indent < upper.indent

/-- No frame owns a key beyond a column. -/
def Quiet (column : Nat) (frames : List PinFrame) : Prop :=
  ∀ frame ∈ frames, frame.kind = .other ∨ frame.indent + 2 ≤ column

/-- The scan is inside a block scalar of its own, or none of its frames owns a deeper key. -/
def Shut (column : Nat) (scan : Scan) : Prop :=
  (∃ indent, scan.blockIndent = some indent ∧ indent ≤ column) ∨ Quiet column scan.frames

theorem stacked_start : Stacked ({} : Scan).frames := List.Pairwise.nil

theorem Stacked.open (h : Stacked frames) (indent : Nat) :
    Stacked (frames.dropWhile fun frame => indent ≤ frame.indent) ∧
      ∀ frame ∈ frames.dropWhile fun frame => indent ≤ frame.indent, frame.indent < indent := by
  induction frames with
  | nil => exact ⟨h, fun frame hframe => absurd hframe List.not_mem_nil⟩
  | cons first rest ih =>
    unfold Stacked at h
    rw [List.pairwise_cons] at h
    by_cases hfirst : indent ≤ first.indent
    · rw [List.dropWhile_cons_of_pos (by simpa using hfirst)]
      exact ih h.2
    · rw [List.dropWhile_cons_of_neg (by simpa using hfirst)]
      refine ⟨List.pairwise_cons.mpr h, fun frame hframe => ?_⟩
      rw [List.mem_cons] at hframe
      obtain rfl | hframe := hframe
      · omega
      · have hbelow := h.1 frame hframe
        omega

theorem Quiet.open (h : Quiet column frames) (indent : Nat) :
    Quiet column (frames.dropWhile fun frame => indent ≤ frame.indent) := by
  intro frame hframe
  exact h frame (List.dropWhile_suffix _ |>.subset hframe)

/-- Frames that are the same but for what they have noted. -/
def Noted : List PinFrame → List PinFrame → Prop :=
  List.Forall₂ fun noted frame => noted.indent = frame.indent ∧ noted.kind = frame.kind

theorem noted_refl (frames : List PinFrame) : Noted frames frames := by
  induction frames with
  | nil => exact List.Forall₂.nil
  | cons frame rest ih => exact List.Forall₂.cons ⟨rfl, rfl⟩ ih

theorem noted_claimKey (h : claimKey rootKeys column key frames = some (claimedKeys, claimed)) : Noted claimed frames := by
  cases frames with
  | nil =>
    rw [claimKey] at h
    split at h
    · split at h
      · cases h
      · cases h
        exact List.Forall₂.nil
    · cases h
      exact List.Forall₂.nil
  | cons parent below =>
    rw [claimKey] at h
    split at h
    · split at h
      · cases h
      · cases h
        exact List.Forall₂.cons ⟨rfl, rfl⟩ (noted_refl below)
    · cases h
      exact noted_refl (parent :: below)

theorem noted_noteLine (column : Nat) (key : Text) (token : Option Text) (frames : List PinFrame) :
    Noted (noteLine column key token frames) frames := by
  cases frames with
  | nil => exact List.Forall₂.nil
  | cons parent below =>
    rw [noteLine]
    refine List.Forall₂.cons ⟨?_, ?_⟩ (noted_refl below)
    · split <;> split <;> rfl
    · split <;> split <;> rfl

theorem Noted.mem {noted : List PinFrame} (h : Noted noted frames) :
    ∀ frame ∈ noted, ∃ other ∈ frames, frame.indent = other.indent ∧ frame.kind = other.kind := by
  induction h with
  | nil => exact fun frame hframe => absurd hframe List.not_mem_nil
  | @cons first other rest others hfirst _ ih =>
    intro frame hframe
    rw [List.mem_cons] at hframe
    obtain rfl | hframe := hframe
    · exact ⟨other, List.mem_cons_self, hfirst⟩
    · obtain ⟨found, hfound, hsame⟩ := ih frame hframe
      exact ⟨found, List.mem_cons_of_mem other hfound, hsame⟩

theorem Noted.stacked {noted : List PinFrame} (h : Noted noted frames) (hstacked : Stacked frames) : Stacked noted := by
  induction h with
  | nil => exact List.Pairwise.nil
  | @cons first other rest others hfirst hrest ih =>
    unfold Stacked at hstacked
    rw [List.pairwise_cons] at hstacked
    refine List.pairwise_cons.mpr ⟨fun frame hframe => ?_, ih hstacked.2⟩
    obtain ⟨lower, hlower, hindent, -⟩ := Noted.mem hrest frame hframe
    rw [hindent, hfirst.1]
    exact hstacked.1 lower hlower

theorem Noted.quiet {noted : List PinFrame} (h : Noted noted frames) (hquiet : Quiet column frames) : Quiet column noted := by
  intro frame hframe
  obtain ⟨other, hother, hindent, hkind⟩ := h.mem frame hframe
  rw [hindent, hkind]
  exact hquiet other hother

/-! ## Quiet frames -/

/-- The innermost of quiet frames has nothing to do with a deeper key. -/
theorem Quiet.parent {parent : PinFrame} {below : List PinFrame} {deeper : Nat} (h : Quiet column (parent :: below))
    (hdeeper : column < deeper) (hindent : deeper = parent.indent + 2) : parent.kind = .other := by
  obtain hkind | hlow := h parent List.mem_cons_self
  · exact hkind
  · omega

theorem Quiet.directOwner {deeper : Nat} (h : Quiet column frames) (hdeeper : column < deeper) :
    directOwner frames deeper = false := by
  cases frames with
  | nil => rfl
  | cons parent below =>
    unfold PinUpgrades.directOwner
    rw [List.head?_cons, Option.any_some]
    by_cases hindent : deeper = parent.indent + 2
    · rw [h.parent hdeeper hindent]
      rfl
    · rw [beq_eq_false_iff_ne.mpr hindent, Bool.and_false]

theorem Quiet.replaces {deeper : Nat} (h : Quiet column frames) (hdeeper : column < deeper) :
    replaces before previous frames deeper indent key token = false := by
  unfold PinUpgrades.replaces
  rw [h.directOwner hdeeper, Bool.and_false, Bool.false_and, if_neg (by decide)]
  cases frames with
  | nil => rfl
  | cons parent below =>
    simp only
    by_cases hindent : deeper = parent.indent + 2
    · rw [h.parent hdeeper hindent]
      simp
    · rw [beq_eq_false_iff_ne.mpr hindent, Bool.and_false, Bool.false_and]

theorem Quiet.kindOf {deeper : Nat} (h : Quiet column frames) (hdeeper : column < deeper) :
    kindOf frames deeper key = .other := by
  unfold PinUpgrades.kindOf
  cases frames with
  | nil =>
    have hzero : (deeper == 0) = false := beq_eq_false_iff_ne.mpr (by omega)
    simp only [hzero, Bool.and_false]
    rfl
  | cons parent below =>
    simp only [h.directOwner hdeeper, Bool.and_false, Bool.false_and]
    by_cases hindent : deeper = parent.indent + 2
    · rw [h.parent hdeeper hindent]
      rfl
    · rw [beq_eq_false_iff_ne.mpr hindent, Bool.and_false]
      rfl

/-! ## One line -/

theorem shut_entry (hquiet : Quiet column frames) (hdeeper : column < found.column)
    (h : scanEntry before after previous rootKeys frames found line = some outcome) :
    Shut column outcome.scan ∧ outcome.replaced = false := by
  unfold scanEntry at h
  split at h
  next => cases h
  next claimedKeys claimed hclaim =>
    have hclaimed := (noted_claimKey hclaim).quiet hquiet
    split at h
    · cases h
    · split at h
      · rw [Option.some.injEq] at h
        subst h
        exact ⟨Or.inr hclaimed, rfl⟩
      · simp only [Option.some.injEq] at h
        subst h
        have hnoted := (noted_noteLine found.column found.key ((scalar found.value).map Scalar.token) claimed).quiet hclaimed
        refine ⟨Or.inr ?_, hclaimed.replaces hdeeper⟩
        simp only
        split
        · intro frame hframe
          rw [List.mem_cons] at hframe
          obtain rfl | hframe := hframe
          · exact Or.inl (hnoted.kindOf hdeeper)
          · exact hnoted frame hframe
        · exact hnoted

theorem stacked_entry (hstacked : Stacked frames) (hbelow : ∀ frame ∈ frames, frame.indent < found.column)
    (h : scanEntry before after previous rootKeys frames found line = some outcome) : Stacked outcome.scan.frames := by
  unfold scanEntry at h
  split at h
  next => cases h
  next claimedKeys claimed hclaim =>
    have hclaimed := noted_claimKey hclaim
    split at h
    · cases h
    · split at h
      · rw [Option.some.injEq] at h
        subst h
        exact hclaimed.stacked hstacked
      · simp only [Option.some.injEq] at h
        subst h
        have hnoted := noted_noteLine found.column found.key ((scalar found.value).map Scalar.token) claimed
        simp only
        split
        · refine List.pairwise_cons.mpr ⟨fun frame hframe => ?_, hnoted.stacked (hclaimed.stacked hstacked)⟩
          obtain ⟨middle, hmiddle, hindent, -⟩ := hnoted.mem frame hframe
          obtain ⟨lower, hlower, hlow, -⟩ := hclaimed.mem middle hmiddle
          rw [hindent, hlow]
          exact hbelow lower hlower
        · exact hnoted.stacked (hclaimed.stacked hstacked)

/-- What a line that the scan goes on from does: it is skipped, or the frames that it closes go and
it is kept or an entry of the frames that are left. -/
inductive Scanned (before after : Text) (previous : Option Text) (scan : Scan) (line : Text) (outcome : Outcome) : Prop where
  | skipped (hskip : isSilent line = true ∨ ∃ indent, scan.blockIndent = some indent ∧ indent < indentOf line)
      (hscan : outcome.scan = scan) (hreplaced : outcome.replaced = false)
  | kept (hopen : ∀ found, mapping line = some found → found.sequence = true)
      (hscan : outcome.scan =
        { scan with frames := scan.frames.dropWhile fun frame => indentOf line ≤ frame.indent, blockIndent := none })
      (hreplaced : outcome.replaced = false)
  | item (found : MappingLine) (parent : PinFrame) (hmapping : mapping line = some found) (hsequence : found.sequence = true)
      (hparent : (scan.frames.dropWhile fun frame => indentOf line ≤ frame.indent).head? = some parent)
      (hsteps : parent.kind = .steps ∧ indentOf line = parent.indent + 2)
      (hentry : scanEntry before after previous scan.rootKeys ({ indent := indentOf line, kind := .step } ::
        scan.frames.dropWhile fun frame => indentOf line ≤ frame.indent) found line = some outcome)
  | entry (found : MappingLine) (hmapping : mapping line = some found) (hsequence : found.sequence = false)
      (hentry : scanEntry before after previous scan.rootKeys
        (scan.frames.dropWhile fun frame => indentOf line ≤ frame.indent) found line = some outcome)

theorem scanLine_cases (h : scanLine before after previous scan line = some outcome) :
    Scanned before after previous scan line outcome := by
  unfold scanLine at h
  split at h
  next hskip =>
    rw [Option.some.injEq] at h
    subst h
    rw [Bool.or_eq_true, Option.any_eq_true] at hskip
    refine Scanned.skipped ?_ rfl rfl
    obtain hsilent | ⟨indent, hindent, hlow⟩ := hskip
    · exact Or.inl hsilent
    · exact Or.inr ⟨indent, hindent, of_decide_eq_true hlow⟩
  next =>
    split at h
    · cases h
    · simp only at h
      split at h
      next hmapping =>
        rw [Option.some.injEq] at h
        subst h
        refine Scanned.kept (fun found hfound => ?_) rfl rfl
        rw [hmapping] at hfound
        cases hfound
      next found hmapping =>
        split at h
        next hsequence =>
          split at h
          next hsteps =>
            obtain ⟨parent, hparent, hkind⟩ := (Option.any_eq_true _ _).mp hsteps
            rw [Bool.and_eq_true, beq_iff_eq, beq_iff_eq] at hkind
            exact Scanned.item found parent hmapping hsequence hparent hkind h
          next =>
            rw [Option.some.injEq] at h
            subst h
            refine Scanned.kept (fun other hother => ?_) rfl rfl
            rw [hmapping, Option.some.injEq] at hother
            rw [← hother]
            exact hsequence
        next hsequence => exact Scanned.entry found hmapping (Bool.eq_false_iff.mpr hsequence) h

theorem column_item (hmapping : mapping line = some found) (hsequence : found.sequence = true) :
    found.column = indentOf line + 2 := by
  unfold MappingLine.column
  rw [hsequence, (mapping_reads hmapping).indent]
  rfl

theorem column_entry (hmapping : mapping line = some found) (hsequence : found.sequence = false) :
    found.column = indentOf line := by
  unfold MappingLine.column
  rw [hsequence, (mapping_reads hmapping).indent]
  rfl

theorem indent_le_column (hmapping : mapping line = some found) : indentOf line ≤ found.column := by
  unfold MappingLine.column
  rw [(mapping_reads hmapping).indent]
  exact Nat.le_add_right _ _

theorem stacked_line (hstacked : Stacked scan.frames) (h : scanLine before after previous scan line = some outcome) :
    Stacked outcome.scan.frames := by
  obtain ⟨hopen, hbelow⟩ := hstacked.open (indentOf line)
  cases scanLine_cases h with
  | skipped hskip hscan hreplaced =>
    rw [hscan]
    exact hstacked
  | kept hkept hscan hreplaced =>
    rw [hscan]
    exact hopen
  | item found parent hmapping hsequence hparent hsteps hentry =>
    have hcolumn := column_item hmapping hsequence
    refine stacked_entry (List.pairwise_cons.mpr ⟨hbelow, hopen⟩) (fun frame hframe => ?_) hentry
    rw [List.mem_cons] at hframe
    obtain rfl | hframe := hframe
    · rw [hcolumn]
      exact Nat.lt_add_of_pos_right (by decide)
    · have hlow := hbelow frame hframe
      omega
  | entry found hmapping hsequence hentry =>
    have hcolumn := column_entry hmapping hsequence
    exact stacked_entry hopen (fun frame hframe => by rw [hcolumn]; exact hbelow frame hframe) hentry

/-- A line of a block scalar leaves the scan shut, and no pin of it is replaced. -/
theorem shut_line (hshut : Shut column scan) (hline : InBlock column line)
    (h : scanLine before after previous scan line = some outcome) : Shut column outcome.scan ∧ outcome.replaced = false := by
  have hquiet : (¬ isSilent line = true ∧ ∀ indent, scan.blockIndent = some indent → ¬ indent < indentOf line) →
      column < indentOf line ∧ Quiet column (scan.frames.dropWhile fun frame => indentOf line ≤ frame.indent) := by
    intro hgoes
    obtain hsilent | hdeeper := hline
    · exact absurd hsilent hgoes.1
    · obtain ⟨indent, hindent, hlow⟩ | hquiet := hshut
      · exact absurd (Nat.lt_of_le_of_lt hlow hdeeper) (hgoes.2 indent hindent)
      · exact ⟨hdeeper, hquiet.open (indentOf line)⟩
  by_cases hskip : isSilent line = true ∨ ∃ indent, scan.blockIndent = some indent ∧ indent < indentOf line
  · have hstays : outcome = ⟨scan, line, false⟩ := by
      unfold scanLine at h
      rw [if_pos, Option.some.injEq] at h
      · exact h.symm
      · rw [Bool.or_eq_true, Option.any_eq_true]
        obtain hsilent | ⟨indent, hindent, hlow⟩ := hskip
        · exact Or.inl hsilent
        · exact Or.inr ⟨indent, hindent, decide_eq_true hlow⟩
    rw [hstays]
    exact ⟨hshut, rfl⟩
  · rw [not_or] at hskip
    obtain ⟨hdeeper, hopen⟩ := hquiet ⟨hskip.1, fun indent hindent hlow => hskip.2 ⟨indent, hindent, hlow⟩⟩
    cases scanLine_cases h with
    | skipped hagain => exact absurd hagain (not_or.mpr hskip)
    | kept hkept hscan hreplaced =>
      rw [hscan]
      exact ⟨Or.inr hopen, hreplaced⟩
    | item found parent hmapping hsequence hparent hsteps hentry =>
      exfalso
      have hmem := List.mem_of_mem_head? hparent
      obtain hkind | hlow := hopen parent hmem
      · rw [hsteps.1] at hkind
        cases hkind
      · omega
    | entry found hmapping hsequence hentry =>
      exact shut_entry hopen (by rw [column_entry hmapping hsequence]; exact hdeeper) hentry

theorem block_entry (hblock : isBlock (strip found.value) = true)
    (h : scanEntry before after previous rootKeys frames found line = some outcome) :
    outcome.scan.blockIndent = some found.indent := by
  unfold scanEntry at h
  split at h
  next => cases h
  next =>
    split at h
    · cases h
    · rw [Option.some.injEq] at h
      rw [← h]

/-- The header of a block scalar shuts the scan, whether the scan takes it for a header or not. -/
theorem shut_header (hstacked : Stacked scan.frames) (hopens : OpensBlock header column)
    (h : scanLine before after previous scan header = some outcome) : Shut column outcome.scan := by
  obtain ⟨found, hmapping, hblock, rfl⟩ := hopens
  have hindent := indent_le_column hmapping
  have hsame : ∀ other, mapping header = some other → other = found := by
    intro other hother
    rw [hmapping, Option.some.injEq] at hother
    exact hother.symm
  have hentered : ∀ other, mapping header = some other → outcome.scan.blockIndent = some other.indent →
      Shut found.column outcome.scan := by
    intro other hother hopened
    refine Or.inl ⟨other.indent, hopened, ?_⟩
    rw [(mapping_reads hother).indent]
    exact hindent
  cases scanLine_cases h with
  | skipped hskip hscan hreplaced =>
    obtain hsilent | ⟨indent, hopened, hlow⟩ := hskip
    · rw [mapping_not_silent hmapping] at hsilent
      cases hsilent
    · rw [hscan]
      exact Or.inl ⟨indent, hopened, by omega⟩
  | kept hkept hscan hreplaced =>
    rw [hscan]
    refine Or.inr fun frame hframe => Or.inr ?_
    have hlow := (hstacked.open (indentOf header)).2 frame hframe
    have hcolumn := column_item hmapping (hkept found hmapping)
    omega
  | item other parent hother hsequence hparent hsteps hentry =>
    apply hentered other hother
    exact block_entry (by rw [hsame other hother]; exact hblock) hentry
  | entry other hother hsequence hentry =>
    apply hentered other hother
    exact block_entry (by rw [hsame other hother]; exact hblock) hentry

/-! ## Runs -/

/-- The lines of a block scalar are kept. -/
theorem shut_lines (hshut : Shut column scan) (h : scanLines before after previous scan lines = some outcomes) {count : Nat}
    (hlines : ∀ line ∈ lines.take count, InBlock column line) : ∀ outcome ∈ outcomes.take count, outcome.replaced = false := by
  induction lines generalizing previous scan outcomes count with
  | nil =>
    rw [scanLines, Option.some.injEq] at h
    rw [← h, List.take_nil]
    exact fun outcome houtcome => absurd houtcome List.not_mem_nil
  | cons line rest ih =>
    obtain ⟨outcome, others, hline, hothers, rfl⟩ := scanLines_cons.mp h
    cases count with
    | zero => exact fun outcome houtcome => absurd houtcome List.not_mem_nil
    | succ count =>
      rw [List.take_succ_cons] at hlines ⊢
      obtain ⟨hnext, hkept⟩ := shut_line hshut (hlines line List.mem_cons_self) hline
      intro other hother
      rw [List.mem_cons] at hother
      obtain rfl | hother := hother
      · exact hkept
      · exact ih hnext hothers (fun inner hinner => hlines inner (List.mem_cons_of_mem line hinner)) other hother

/-- The scan at a line, and from there on. -/
theorem scanLines_at (hstacked : Stacked scan.frames) (h : scanLines before after previous scan lines = some outcomes)
    {index : Nat} (hline : lines[index]? = some line) :
    ∃ previous scan outcome, Stacked scan.frames ∧ outcomes[index]? = some outcome ∧
      scanLine before after previous scan line = some outcome ∧
      scanLines before after (some line) outcome.scan (lines.drop (index + 1)) = some (outcomes.drop (index + 1)) := by
  induction lines generalizing previous scan outcomes index with
  | nil => cases hline
  | cons first rest ih =>
    obtain ⟨outcome, others, hfirst, hothers, rfl⟩ := scanLines_cons.mp h
    cases index with
    | zero =>
      rw [List.getElem?_cons_zero, Option.some.injEq] at hline
      subst hline
      exact ⟨previous, scan, outcome, hstacked, rfl, hfirst, hothers⟩
    | succ index =>
      rw [List.getElem?_cons_succ] at hline
      exact ih (stacked_line hstacked hfirst) hothers hline

/-- A line whose pin is replaced stands behind the end of each block scalar that is opened before
it. -/
theorem behind_block (hstacked : Stacked scan.frames) (h : scanLines before after previous scan lines = some outcomes)
    {start stop : Nat} (hheader : lines[start]? = some header) (hstart : start < stop)
    (hopened : OpensBlock header column ∨
      ∃ opened, outcomes[start]? = some opened ∧ opened.scan.blockIndent = some column)
    (houtcome : outcomes[stop]? = some outcome) (hreplaced : outcome.replaced = true) :
    ∃ middle line, start < middle ∧ middle ≤ stop ∧ lines[middle]? = some line ∧ ¬ InBlock column line := by
  obtain ⟨previous, scan, opened, hstacked, hopening, hline, hrest⟩ := scanLines_at hstacked h hheader
  have hshut : Shut column opened.scan := by
    obtain hopens | ⟨other, hother, hindent⟩ := hopened
    · exact shut_header hstacked hopens hline
    · rw [hopening, Option.some.injEq] at hother
      rw [hother]
      exact Or.inl ⟨column, hindent, Nat.le_refl column⟩
  by_contra hnone
  have hinside : ∀ line ∈ (lines.drop (start + 1)).take (stop - start), InBlock column line := by
    intro line hmem
    obtain ⟨offset, hoffset⟩ := List.mem_iff_getElem?.mp hmem
    rw [List.getElem?_take] at hoffset
    split at hoffset
    next hbound =>
      rw [List.getElem?_drop] at hoffset
      by_contra hends
      exact hnone ⟨start + 1 + offset, line, by omega, by omega, hoffset, hends⟩
    next => cases hoffset
  have hkept := shut_lines hshut hrest hinside outcome ?_
  · rw [hreplaced] at hkept
    cases hkept
  · rw [List.mem_iff_getElem?]
    refine ⟨stop - (start + 1), ?_⟩
    rw [List.getElem?_take, if_pos (by omega), List.getElem?_drop]
    have hindex : start + 1 + (stop - (start + 1)) = stop := by omega
    rw [hindex]
    exact houtcome

end Boxferry.Automation.PinUpgrades
