import Boxferry.Quadlet.Export.VolumeFields

/-! # Resolved paths

The path that a root and a relative text resolve to is the normal form of their concatenation, and
it is its own normal form. -/
namespace Boxferry.Quadlet.Export
open Model
set_option autoImplicit false

/-! ## Characters of mounts -/

def isMountChar (ch : Char) : Bool := ch.isAlphanum || ch ∈ ['_', '-', '.', '/', '@', '+', '=', '%']

theorem isSafeMountPart_iff {value : String} :
    isSafeMountPart value = true ↔ value ≠ "" ∧ ∀ ch ∈ value.toList, isMountChar ch = true := by
  unfold isSafeMountPart
  rw [Bool.and_eq_true, Bool.not_eq_true', List.all_eq_true]
  refine and_congr_left fun _ => ?_
  rw [← Bool.not_eq_true, String.isEmpty_iff]

/-! ## Components -/

/-- The names that a normal path has. -/
def IsName (name : String) : Prop := name ≠ "" ∧ name ≠ "." ∧ name ≠ ".." ∧ '/' ∉ name.toList

theorem pathStep_name {name : String} (h : IsName name) : pathStep name = some (some name) := by
  unfold pathStep
  rw [if_neg (not_or.mpr ⟨h.1, h.2.1⟩), if_neg h.2.2.1]

theorem isName_of_pathStep {path component name : String} (hcomponent : component ∈ splitText '/' path)
    (h : pathStep component = some (some name)) : IsName name := by
  rw [pathStep_eq_name h]
  unfold pathStep at h
  split at h
  · exact nomatch h
  · next hstays =>
    rw [not_or] at hstays
    split at h
    · exact nomatch h
    · next hleaves =>
      exact ⟨hstays.1, hstays.2, hleaves, fun hslash => (mem_of_mem_splitText hcomponent hslash).2 rfl⟩

/-- What a path resolves to are names that were there, or names of the path itself. -/
theorem resolve_names {start result : List String} {path : String}
    (h : PathSteps.resolve start ((splitText '/' path).map pathStep) = some result) :
    ∀ name ∈ result, name ∈ start ∨ IsName name ∧ ∀ ch ∈ name.toList, ch ∈ path.toList := by
  intro name hname
  refine (PathSteps.mem_resolve h hname).imp_right fun hkept => ⟨?_, fun ch hch => ?_⟩
  · obtain ⟨component, hcomponent, hstep⟩ := List.mem_map.mp (PathSteps.mem_of_mem_kept hkept)
    exact isName_of_pathStep hcomponent hstep
  · exact mem_of_mem_keptNames hkept hch

theorem splitText_slash (left right : String) :
    splitText '/' (left ++ "/" ++ right) = splitText '/' left ++ splitText '/' right := by
  unfold splitText
  rw [String.toList_append, String.toList_append, List.append_assoc]
  show ((left.toList ++ '/' :: right.toList).splitOn '/').map String.ofList = _
  rw [List.splitOn_append_cons_self, List.map_append]

theorem splitText_joinText {names : List String} (hnames : ∀ name ∈ names, IsName name) (hne : names ≠ []) :
    splitText '/' (joinText '/' names) = names :=
  splitText_join '/' names hne fun name hname => (hnames name hname).2.2.2

theorem absolutePath_steps {names : List String} (hnames : ∀ name ∈ names, IsName name) :
    PathSteps.resolve [] ((splitText '/' (absolutePath names)).map pathStep) = some names := by
  have hsplit : splitText '/' (absolutePath names) = "" :: splitText '/' (joinText '/' names) := by
    have h := splitText_slash "" (joinText '/' names)
    rw [String.empty_append] at h
    exact h
  rw [hsplit, List.map_cons, PathSteps.resolve_cons]
  show PathSteps.resolve [] ((splitText '/' (joinText '/' names)).map pathStep) = some names
  by_cases hne : names = []
  · rw [hne]
    rfl
  · rw [splitText_joinText hnames hne]
    have hsteps : names.map pathStep = names.map fun name => some (some name) :=
      List.map_congr_left fun name hname => pathStep_name (hnames name hname)
    rw [hsteps]
    exact PathSteps.resolve_entered names

/-- The components that a root is taken apart into are its names. -/
theorem root_components {names : List String} (hnames : ∀ name ∈ names, IsName name) :
    (splitText '/' (String.ofList ((absolutePath names).toList.dropWhile (· = '/')))).filter (!·.isEmpty) = names := by
  have hdrop : (absolutePath names).toList.dropWhile (· = '/') = (joinText '/' names).toList := by
    unfold absolutePath
    rw [String.toList_append]
    show ('/' :: (joinText '/' names).toList).dropWhile _ = _
    rw [List.dropWhile_cons_of_pos (by decide)]
    cases names with
    | nil => rfl
    | cons name names =>
      obtain ⟨hempty, -, -, hslash⟩ := hnames name List.mem_cons_self
      cases hchars : name.toList with
      | nil => exact absurd (String.toList_eq_nil_iff.mp hchars) hempty
      | cons ch chars =>
        rw [hchars] at hslash
        have hhead : ∃ rest, (joinText '/' (name :: names)).toList = ch :: rest := by
          unfold joinText
          rw [String.toList_ofList, List.map_cons, hchars]
          cases names with
          | nil => exact ⟨chars, by rw [List.map_nil, List.intercalate_singleton]⟩
          | cons next names => exact ⟨_, by rw [List.map_cons, List.intercalate_cons_cons]; rfl⟩
        obtain ⟨rest, hrest⟩ := hhead
        rw [hrest]
        exact List.dropWhile_cons_of_neg (by simpa using fun h : ch = '/' => hslash (h ▸ List.mem_cons_self))
  rw [hdrop, String.ofList_toList]
  by_cases hne : names = []
  · rw [hne]
    rfl
  · rw [splitText_joinText hnames hne, List.filter_eq_self]
    intro name hname
    rw [Bool.not_eq_true', ← Bool.not_eq_true, String.isEmpty_iff]
    exact (hnames name hname).1

/-! ## Normal paths -/

/-- A path of names with the characters of mounts. -/
structure NormalPath (path : String) (names : List String) : Prop where
  spelling : path = absolutePath names
  named : ∀ name ∈ names, IsName name
  chars : ∀ name ∈ names, ∀ ch ∈ name.toList, isMountChar ch = true

variable {classifyPath : String → PathForm} {path root relative given : String} {names : List String}

theorem NormalPath.startsWith (h : NormalPath path names) : startsWith path "/" = true := by
  rw [h.spelling]
  unfold absolutePath Model.startsWith
  rw [String.toList_append]
  rfl

theorem NormalPath.mem_chars (h : NormalPath path names) {ch : Char} (hch : ch ∈ path.toList) :
    isMountChar ch = true := by
  rw [h.spelling] at hch
  unfold absolutePath at hch
  rw [String.toList_append, List.mem_append] at hch
  have hslash : isMountChar '/' = true := by decide
  cases hch with
  | inl hstart => rwa [List.mem_singleton.mp hstart]
  | inr hjoined =>
    cases mem_joinText hjoined with
    | inl hseparator => rwa [hseparator]
    | inr hpart =>
      obtain ⟨name, hname, hmem⟩ := hpart
      exact h.chars name hname ch hmem

theorem NormalPath.isSafe (h : NormalPath path names) : isSafeMountPart path = true := by
  refine isSafeMountPart_iff.mpr ⟨fun hempty => ?_, fun _ => h.mem_chars⟩
  have hnonempty := absolutePath_ne_empty names
  rw [← h.spelling, hempty] at hnonempty
  exact nomatch hnonempty

/-- A path that is classified as literal and safe has the normal form that its components resolve to. -/
theorem normalizeAbsolutePath_eq (hform : classifyPath path = .absoluteLiteral) (hsafe : isSafeMountPart path = true) :
    normalizeAbsolutePath classifyPath path =
      (PathSteps.resolve [] ((splitText '/' path).map pathStep)).map absolutePath := by
  unfold normalizeAbsolutePath
  rw [if_neg]
  rintro (hother | hunsafe)
  · exact hother hform
  · exact nomatch hunsafe.symm.trans hsafe

/-- A normal path is its own normal form. -/
theorem NormalPath.fixed (h : NormalPath path names) (hform : classifyPath path = .absoluteLiteral) :
    normalizeAbsolutePath classifyPath path = some path := by
  rw [normalizeAbsolutePath_eq hform h.isSafe, h.spelling, absolutePath_steps h.named]
  rfl

theorem normalPath_of_normalize (h : normalizeAbsolutePath classifyPath given = some path) :
    ∃ names, NormalPath path names := by
  unfold normalizeAbsolutePath at h
  split at h
  · exact nomatch h
  · next hchecked =>
    rw [not_or, Bool.not_eq_false] at hchecked
    obtain ⟨names, hnames, hpath⟩ := Option.map_eq_some_iff.mp h
    have hfound : ∀ name ∈ names, IsName name ∧ ∀ ch ∈ name.toList, ch ∈ given.toList := fun name hname =>
      (resolve_names hnames name hname).resolve_left fun hnone => nomatch hnone
    refine ⟨names, hpath.symm, fun name hname => (hfound name hname).1, fun name hname ch hch => ?_⟩
    exact (isSafeMountPart_iff.mp hchecked.2).2 ch ((hfound name hname).2 ch hch)

/-! ## Relative paths -/

theorem resolveRelativePath_eq (hroot : NormalPath root names) (hhome : "~" ∉ splitText '/' relative) :
    resolveRelativePath root relative =
      (PathSteps.resolve names ((splitText '/' relative).map pathStep)).map absolutePath := by
  unfold resolveRelativePath
  dsimp only
  rw [if_neg hhome, hroot.spelling, root_components hroot.named]

/-- The components of the concatenation resolve to what those of the relative text do from the root. -/
theorem resolve_joined (hroot : NormalPath root names) :
    PathSteps.resolve [] ((splitText '/' (root ++ "/" ++ relative)).map pathStep) =
      PathSteps.resolve names ((splitText '/' relative).map pathStep) := by
  rw [splitText_slash, List.map_append, PathSteps.resolve_append]
  have hsteps := absolutePath_steps hroot.named
  rw [← hroot.spelling] at hsteps
  rw [hsteps]
  rfl

theorem not_mem_home (hrelative : ∀ ch ∈ relative.toList, isMountChar ch = true) :
    "~" ∉ splitText '/' relative := by
  intro hhome
  have hmem := (mem_of_mem_splitText hhome (List.mem_singleton.mpr rfl : '~' ∈ "~".toList)).1
  exact absurd (hrelative '~' hmem) (by decide)

/-- A prefix of the relative components climbs above the root directory. -/
def ClimbsAbove (root relative : String) : Prop :=
  ∃ part, part <+: splitText '/' relative ∧ PathSteps.Climbs 0 ((splitText '/' root ++ part).map pathStep)

theorem climbs_root {steps : List (Option (Option String))} (hroot : NormalPath root names) :
    PathSteps.Climbs 0 ((splitText '/' root).map pathStep ++ steps) ↔ PathSteps.Climbs names.length steps := by
  have hsplit : (splitText '/' root).map pathStep = some none :: (splitText '/' (joinText '/' names)).map pathStep := by
    have h := splitText_slash "" (joinText '/' names)
    rw [String.empty_append] at h
    rw [hroot.spelling]
    exact congrArg (List.map pathStep) h
  have hcounts : (((splitText '/' root).map pathStep).countP PathSteps.enters = names.length) ∧
      ((splitText '/' root).map pathStep).countP PathSteps.leaves = 0 := by
    rw [hsplit]
    by_cases hne : names = []
    · rw [hne]
      exact ⟨rfl, rfl⟩
    · rw [splitText_joinText hroot.named hne]
      have hsteps : names.map pathStep = names.map fun name => some (some name) :=
        List.map_congr_left fun name hname => pathStep_name (hroot.named name hname)
      rw [hsteps, List.countP_cons, List.countP_cons, List.countP_map, List.countP_map]
      refine ⟨?_, ?_⟩
      · exact List.countP_eq_length.mpr fun _ _ => rfl
      · exact List.countP_eq_zero.mpr fun _ _ h => nomatch h
  unfold PathSteps.Climbs
  rw [List.countP_append, List.countP_append, hcounts.1, hcounts.2, Nat.zero_add, Nat.zero_add]

theorem resolveRelativePath_eq_none (hroot : NormalPath root names) (hhome : "~" ∉ splitText '/' relative) :
    resolveRelativePath root relative = none ↔ ClimbsAbove root relative := by
  rw [resolveRelativePath_eq hroot hhome, Option.map_eq_none_iff, PathSteps.resolve_eq_none]
  constructor
  · intro ⟨part, hpart, hclimbs⟩
    obtain ⟨components, hcomponents, hmap⟩ := List.prefix_map_iff.mp hpart
    refine ⟨components, hcomponents, ?_⟩
    rw [List.map_append, climbs_root hroot, ← hmap]
    exact hclimbs
  · intro ⟨components, hcomponents, hclimbs⟩
    refine ⟨components.map pathStep, hcomponents.map pathStep, ?_⟩
    rwa [List.map_append, climbs_root hroot] at hclimbs

theorem normalPath_resolved {result : String} (hroot : NormalPath root names)
    (hrelative : ∀ ch ∈ relative.toList, isMountChar ch = true)
    (h : resolveRelativePath root relative = some result) :
    ∃ found, PathSteps.resolve names ((splitText '/' relative).map pathStep) = some found ∧
      NormalPath result found ∧ ∀ name ∈ found, name ∈ names ∨ ∀ ch ∈ name.toList, ch ∈ relative.toList := by
  rw [resolveRelativePath_eq hroot (not_mem_home hrelative)] at h
  obtain ⟨found, hfound, hresult⟩ := Option.map_eq_some_iff.mp h
  have horigin := resolve_names hfound
  refine ⟨found, hfound, ⟨hresult.symm, fun name hname => ?_, fun name hname => ?_⟩, fun name hname => ?_⟩
  · cases horigin name hname with
    | inl hold => exact hroot.named name hold
    | inr hnew => exact hnew.1
  · cases horigin name hname with
    | inl hold => exact hroot.chars name hold
    | inr hnew => exact fun ch hch => hrelative ch (hnew.2 ch hch)
  · exact (horigin name hname).imp_right And.right

/-- Resolving against an accepted root is normalizing the concatenation, and never escapes. -/
theorem resolved_path_normal
    (hliteral : ∀ spelling, startsWith spelling "/" = true → '%' ∉ spelling.toList →
      classifyPath spelling = .absoluteLiteral)
    {sources : BindSources classifyPath} (hroot : sources.relativeBindRoot = some root)
    (hrelative : ∀ ch ∈ relative.toList, isMountChar ch = true) (hpercent : '%' ∉ relative.toList) :
    (resolveRelativePath root relative = none ↔ ClimbsAbove root relative) ∧
      ∀ result, resolveRelativePath root relative = some result →
        startsWith result "/" = true ∧
        (∃ found, result = "/" ++ joinText '/' found ∧ ∀ name ∈ found, IsName name) ∧
        (('%' ∈ root.toList → classifyPath (root ++ "/" ++ relative) = .absoluteLiteral) →
          normalizeAbsolutePath classifyPath (root ++ "/" ++ relative) = some result) ∧
        (('%' ∈ root.toList → classifyPath result = .absoluteLiteral) →
          normalizeAbsolutePath classifyPath result = some result) := by
  obtain ⟨spelled, hspelled⟩ := sources.normalRoot root hroot
  obtain ⟨names, hnormal⟩ := normalPath_of_normalize hspelled
  refine ⟨resolveRelativePath_eq_none hnormal (not_mem_home hrelative), fun result hresult => ?_⟩
  obtain ⟨found, hfound, hresolved, horigin⟩ := normalPath_resolved hnormal hrelative hresult
  refine ⟨hresolved.startsWith, ⟨found, hresolved.spelling, hresolved.named⟩, fun hform => ?_, fun hform => ?_⟩
  · have hsafe : isSafeMountPart (root ++ "/" ++ relative) = true := by
      refine isSafeMountPart_iff.mpr ⟨fun hempty => ?_, fun ch hch => ?_⟩
      · have hchars := congrArg String.toList hempty
        rw [String.toList_append, String.toList_append] at hchars
        simp at hchars
      · rw [String.toList_append, String.toList_append, List.mem_append, List.mem_append] at hch
        obtain (hch | hch) | hch := hch
        · exact hnormal.mem_chars hch
        · rw [List.mem_singleton.mp hch]
          decide
        · exact hrelative ch hch
    have hclass : classifyPath (root ++ "/" ++ relative) = .absoluteLiteral := by
      by_cases hspecifier : '%' ∈ root.toList
      · exact hform hspecifier
      · refine hliteral _ ?_ ?_
        · rw [hnormal.spelling]
          unfold absolutePath startsWith
          rw [String.toList_append, String.toList_append, String.toList_append]
          rfl
        · rw [String.toList_append, String.toList_append, List.mem_append, List.mem_append]
          rintro ((hch | hch) | hch)
          · exact hspecifier hch
          · exact absurd hch (by decide)
          · exact hpercent hch
    rw [normalizeAbsolutePath_eq hclass hsafe, resolve_joined hnormal, hfound, hresolved.spelling]
    rfl
  · refine hresolved.fixed ?_
    by_cases hspecifier : '%' ∈ root.toList
    · exact hform hspecifier
    · refine hliteral _ hresolved.startsWith fun hch => ?_
      rw [hresolved.spelling] at hch
      unfold absolutePath at hch
      rw [String.toList_append, List.mem_append] at hch
      cases hch with
      | inl hstart => exact absurd hstart (by decide)
      | inr hjoined =>
        obtain ⟨name, hname, hmem⟩ := (mem_joinText hjoined).resolve_left (by decide)
        cases horigin name hname with
        | inl hold =>
          apply hspecifier
          rw [hnormal.spelling]
          unfold absolutePath
          rw [String.toList_append, List.mem_append]
          exact Or.inr (mem_joinText_of_mem hold hmem)
        | inr hnew => exact hpercent (hnew '%' hmem)

theorem sample_literal (spelling : String) (hslash : startsWith spelling "/" = true) :
    sampleLibrary.classifyPath spelling = .absoluteLiteral := by
  show (if (startsWith spelling "./" || startsWith spelling "../") = true then _
    else if startsWith spelling "/" = true then _ else _) = _
  rw [if_neg, if_pos hslash]
  obtain ⟨rest, hrest⟩ := List.isPrefixOf_iff_prefix.mp hslash
  unfold startsWith
  rw [← hrest, Bool.or_eq_true, not_or]
  exact ⟨fun h => (nomatch h), fun h => nomatch h⟩

theorem resolved_path_normal_parent :
    normalizeAbsolutePath sampleLibrary.classifyPath "/srv/../a/./b/" = some "/a/b" := by
  have hresolved : resolveRelativePath "/srv" "../a/./b/" = some "/a/b" := by decide +kernel
  exact ((@resolved_path_normal sampleLibrary.classifyPath "/srv" "../a/./b/"
    (fun spelling hslash _ => sample_literal spelling hslash) sampleSources rfl
    (List.forall_iff_forall_mem.mp (by decide)) (by decide)).2 "/a/b" hresolved).2.2.1 fun hspecifier => absurd hspecifier (by decide)

end Boxferry.Quadlet.Export
