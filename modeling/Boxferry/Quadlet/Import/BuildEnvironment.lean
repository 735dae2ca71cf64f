import Boxferry.Library.GroupedAssignments
import Boxferry.Quadlet.Import.Core

/-! # Build environments

The environment entries of a build unit become settings of the image build. A later entry edits the
settings that are already there: an assignment, a bare name and a deferred name take the name out of all of
them, and an empty entry leaves a setting without values as the marker of a reset. -/
namespace Boxferry.Quadlet.Import
open Lens Model
set_option autoImplicit false

/-! ## Settings -/

inductive BuildSyntax where
  | scalar
  | structured
  | mapping
  | sequence
  | repeated
deriving DecidableEq

structure BuildSettingValues (α : Type) where
  form : BuildSyntax
  values : List (Sourced α)

structure ImageArtifactAssignment where
  name : ProtectedString
  value : Option ProtectedString
deriving DecidableEq

/-- A build setting: the environment, or one of the other kinds. -/
inductive ImageBuildSetting (σ : Type) where
  | environment (values : BuildSettingValues ImageArtifactAssignment)
  | other (setting : σ)

/-- A decoded environment directive. -/
inductive EnvironmentDirective where
  | assignment (name value : String)
  | reset
  | bareName (name : String)
  | deferred (name : String)
  | unmodeled
  | newer
deriving DecidableEq

section Settings
variable {σ : Type}

abbrev BuildSettings (σ : Type) : Type := List (Sourced (ImageBuildSetting σ))

/-- The setting with the values of other names, with its origins added one by one. -/
def replacement (values : BuildSettingValues ImageArtifactAssignment)
    (retained : List (Sourced ImageArtifactAssignment)) (origins : List Provenance) :
    Sourced (ImageBuildSetting σ) :=
  origins.foldl Sourced.addOrigin (.generated (.environment ⟨values.form, retained⟩))

/-- The loop of `remove_build_environment_assignment` from an index on. A removed setting leaves the index
where it is. -/
def removeLoop (name : String) (index : Nat) (settings : BuildSettings σ) : BuildSettings σ :=
  if h : index < settings.length then
    match settings[index].value with
    | .other _ => removeLoop name (index + 1) settings
    | .environment values =>
      let retained := values.values.filter fun assignment => assignment.value.name.expose ≠ name
      if !values.values.isEmpty && retained.isEmpty then removeLoop name index (settings.eraseIdx index)
      else removeLoop name (index + 1) (settings.set index (replacement values retained settings[index].origins))
  else settings
termination_by settings.length - index
decreasing_by
  · omega
  · rw [List.length_eraseIdx_of_lt h]
    omega
  · rw [List.length_set]
    omega

def removeBuildEnvironmentAssignment (settings : BuildSettings σ) (name : String) : BuildSettings σ :=
  removeLoop name 0 settings

def clearBuildEnvironmentSettings (settings : BuildSettings σ) : BuildSettings σ :=
  settings.filter fun setting => match setting.value with
    | .environment _ => false
    | .other _ => true

end Settings

/-! ## One entry -/

/-- What one environment entry has gathered. -/
structure EntryState (σ : Type) where
  settings : BuildSettings σ
  values : List (Sourced ImageArtifactAssignment)
  matched : Bool
  wasReset : Bool

section Entry
variable {σ : Type} (origin : Provenance)

/-- Takes a name out of the settings and of the values of the entry. -/
def EntryState.remove (state : EntryState σ) (name : String) : EntryState σ :=
  { state with
    settings := removeBuildEnvironmentAssignment state.settings name
    values := state.values.filter fun assignment => assignment.value.name.expose ≠ name
    matched := true }

def EntryState.clear (state : EntryState σ) : EntryState σ :=
  { state with
    settings := clearBuildEnvironmentSettings state.settings
    values := []
    matched := true }

def sensitiveAssignment (name value : String) : Sourced ImageArtifactAssignment :=
  ⟨⟨.sensitive name, some (.sensitive value)⟩, [origin]⟩

def directiveState (state : EntryState σ) : EnvironmentDirective → EntryState σ
  | .assignment name value =>
    let removed := state.remove name
    { removed with values := removed.values ++ [sensitiveAssignment origin name value] }
  | .reset => { state with values := [], matched := true, wasReset := true }
  | .bareName name | .deferred name => state.remove name
  | .unmodeled | .newer => state.clear

def directiveEvent (fileName buildSubject : String) : EnvironmentDirective → Event
  | .assignment name _ => .exact (buildSubject ++ ".Environment." ++ name) [origin]
  | .reset => .exact (buildSubject ++ ".Environment") [origin]
  | .bareName name => .unsupported (buildSubject ++ ".Environment." ++ name) fileName "Environment"
    (some "a bare build Environment name requires systemd manager or process context") [origin]
  | .deferred name => .unsupported (buildSubject ++ ".Environment." ++ name) fileName "Environment"
    (some "a build Environment value with a systemd specifier is deferred until manager expansion") [origin]
  | .unmodeled => .invalid (buildSubject ++ ".Environment") fileName
    "QuadletLens could not decode a malformed build Environment assignment" (some origin)
  | .newer => .unsupported (buildSubject ++ ".Environment") fileName "Environment"
    (some "a newer QuadletLens build Environment directive is not represented by this neutral-model adapter")
    [origin]

def mapDirective (fileName buildSubject : String) (state : EntryState σ) (directive : EnvironmentDirective) :
    Imported (EntryState σ) := do
  Reports.report (directiveEvent origin fileName buildSubject directive)
  pure (directiveState origin state directive)

/-- The entry's setting, unless it has neither values nor a reset. -/
def EntryState.finish (state : EntryState σ) : BuildSettings σ :=
  if state.matched && (state.wasReset || !state.values.isEmpty) then
    state.settings ++ [⟨.environment ⟨.repeated, state.values⟩, [origin]⟩]
  else state.settings

/-- The directives of a document carry the span of their entry. -/
def mapBuildEnvironmentEntry (fileName buildSubject : String) (span : NativeSpan)
    (directives : List (NativeSpan × EnvironmentDirective)) (settings : BuildSettings σ) :
    Imported (BuildSettings σ) := do
  let entryDirectives := (directives.filter fun directive => directive.1 = span).map Prod.snd
  let state ← entryDirectives.foldlM (mapDirective origin fileName buildSubject) ⟨settings, [], false, false⟩
  pure (state.finish origin)

end Entry
/-! ## All entries -/

inductive BuildEntry (σ : Type) where
  | environment (span : NativeSpan) (origin : Provenance)
  | other (setting : Sourced σ)

section Entries
variable {σ : Type}

def mapBuildEntry (fileName buildSubject : String) (directives : List (NativeSpan × EnvironmentDirective))
    (settings : BuildSettings σ) : BuildEntry σ → Imported (BuildSettings σ)
  | .environment span origin => mapBuildEnvironmentEntry origin fileName buildSubject span directives settings
  | .other setting => pure (settings ++ [⟨.other setting.value, setting.origins⟩])

/-- The loop of `map_build_definition` over the entries that have a setting. -/
def mapBuildEntries (fileName buildSubject : String) (directives : List (NativeSpan × EnvironmentDirective))
    (entries : List (BuildEntry σ)) : Imported (BuildSettings σ) :=
  entries.foldlM (mapBuildEntry fileName buildSubject directives) []

end Entries

/-! ## Removal in place -/

section Removal
variable {σ : Type} {name : String}

/-- What removing a name makes of one setting. -/
def removeFrom (name : String) (setting : Sourced (ImageBuildSetting σ)) :
    Option (Sourced (ImageBuildSetting σ)) :=
  match setting.value with
  | .other _ => some setting
  | .environment values =>
    let retained := values.values.filter fun assignment => assignment.value.name.expose ≠ name
    if !values.values.isEmpty && retained.isEmpty then none
    else some ⟨.environment ⟨values.form, retained⟩, setting.origins⟩

theorem replacement_eq (values : BuildSettingValues ImageArtifactAssignment)
    (retained : List (Sourced ImageArtifactAssignment)) (origins : List Provenance) :
    (replacement values retained origins : Sourced (ImageBuildSetting σ)) =
      ⟨.environment ⟨values.form, retained⟩, origins⟩ := by
  have hfold : ∀ (sourced : Sourced (ImageBuildSetting σ)) (origins : List Provenance),
      origins.foldl Sourced.addOrigin sourced = ⟨sourced.value, sourced.origins ++ origins⟩ := by
    intro sourced origins
    induction origins generalizing sourced with
    | nil => simp
    | cons origin rest ih =>
      rw [List.foldl_cons, ih]
      simp [Sourced.addOrigin]
  exact hfold (.generated (.environment ⟨values.form, retained⟩)) origins

/-- The loop has edited the settings before its index, and edits those from there on one by one. -/
theorem removeLoop_eq (index : Nat) (settings : BuildSettings σ) :
    removeLoop name index settings =
      settings.take index ++ (settings.drop index).filterMap (removeFrom name) := by
  induction index, settings using removeLoop.induct name with
  | case1 index settings h other hother ih =>
    have hkept : removeFrom name settings[index] = some settings[index] := by
      unfold removeFrom
      rw [hother]
    rw [removeLoop, dif_pos h]
    simp only [hother]
    rw [ih, List.drop_eq_getElem_cons h, List.filterMap_cons_some hkept, ← List.take_append_getElem h,
      List.append_assoc]
    rfl
  | case2 index settings h values hvalues retained hdropped ih =>
    have hgone : removeFrom name settings[index] = none := by
      unfold removeFrom
      rw [hvalues]
      exact if_pos hdropped
    have hlength : (settings.take index).length = index := List.length_take_of_le (Nat.le_of_lt h)
    rw [removeLoop, dif_pos h]
    simp only [hvalues]
    rw [if_pos hdropped, ih, List.drop_eq_getElem_cons h, List.filterMap_cons_none hgone,
      List.eraseIdx_eq_take_drop_succ, List.take_left' hlength, List.drop_left' hlength]
  | case3 index settings h values hvalues retained hkept ih =>
    have hedited : removeFrom name settings[index] =
        some (replacement values retained settings[index].origins) := by
      unfold removeFrom
      rw [hvalues, replacement_eq]
      exact if_neg hkept
    have hlength : (settings.take index).length = index := List.length_take_of_le (Nat.le_of_lt h)
    rw [removeLoop, dif_pos h]
    simp only [hvalues]
    rw [if_neg hkept, ih, List.drop_eq_getElem_cons h, List.filterMap_cons_some hedited,
      List.set_eq_take_append_cons_drop, if_pos h]
    have hsplit : ∀ edited, settings.take index ++ edited :: settings.drop (index + 1) =
        (settings.take index ++ [edited]) ++ settings.drop (index + 1) := by
      intro edited
      rw [List.append_assoc]
      rfl
    have hnext : ∀ edited, (settings.take index ++ [edited]).length = index + 1 := by
      intro edited
      rw [List.length_append, hlength]
      rfl
    rw [hsplit, List.take_left' (hnext _), List.drop_left' (hnext _), List.append_assoc]
    rfl
  | case4 index settings h =>
    rw [removeLoop, dif_neg h, List.take_of_length_le (Nat.le_of_not_lt h),
      List.drop_of_length_le (Nat.le_of_not_lt h), List.filterMap_nil, List.append_nil]

end Removal

/-! ## The environment of settings -/

section Views
variable {σ : Type} {name : String}

def entryOf (assignment : Sourced ImageArtifactAssignment) : String × Option String :=
  (assignment.value.name.expose, assignment.value.value.map ProtectedString.expose)

def group? (setting : Sourced (ImageBuildSetting σ)) : Option (List (String × Option String)) :=
  match setting.value with
  | .environment values => some (values.values.map entryOf)
  | .other _ => none

def other? (setting : Sourced (ImageBuildSetting σ)) : Option (Sourced σ) :=
  match setting.value with
  | .environment _ => none
  | .other kind => some ⟨kind, setting.origins⟩

/-- The environment settings as groups of assignments. An empty setting is a marker. -/
def groupsOf (settings : BuildSettings σ) : List (List (String × Option String)) := settings.filterMap group?

def othersOf (settings : BuildSettings σ) : List (Sourced σ) := settings.filterMap other?

theorem without_entryOf (values : List (Sourced ImageArtifactAssignment)) :
    GroupedAssignments.without name (values.map entryOf) =
      (values.filter fun assignment => assignment.value.name.expose ≠ name).map entryOf := by
  unfold GroupedAssignments.without
  rw [List.filter_map]
  rfl

theorem group?_removeFrom (setting : Sourced (ImageBuildSetting σ)) :
    (removeFrom name setting).bind group? = (group? setting).bind (GroupedAssignments.eraseFrom name) := by
  unfold removeFrom group?
  cases hvalue : setting.value with
  | other kind => simp [hvalue]
  | environment values =>
    simp only [GroupedAssignments.eraseFrom, without_entryOf, Option.bind_some, List.isEmpty_map]
    split <;> rfl

theorem other?_removeFrom (setting : Sourced (ImageBuildSetting σ)) :
    (removeFrom name setting).bind other? = other? setting := by
  unfold removeFrom other?
  cases hvalue : setting.value with
  | other kind => simp [hvalue]
  | environment values =>
    dsimp only
    split <;> rfl

theorem groupsOf_remove (settings : BuildSettings σ) :
    groupsOf (removeBuildEnvironmentAssignment settings name) =
      GroupedAssignments.erase name (groupsOf settings) := by
  unfold removeBuildEnvironmentAssignment groupsOf GroupedAssignments.erase
  rw [removeLoop_eq, List.take_zero, List.nil_append, List.drop_zero, List.filterMap_filterMap,
    List.filterMap_filterMap]
  exact congrArg (List.filterMap · settings) (funext group?_removeFrom)

theorem othersOf_remove (settings : BuildSettings σ) :
    othersOf (removeBuildEnvironmentAssignment settings name) = othersOf settings := by
  unfold removeBuildEnvironmentAssignment othersOf
  rw [removeLoop_eq, List.take_zero, List.nil_append, List.drop_zero, List.filterMap_filterMap]
  exact congrArg (List.filterMap · settings) (funext other?_removeFrom)

theorem groupsOf_clear (settings : BuildSettings σ) : groupsOf (clearBuildEnvironmentSettings settings) = [] := by
  unfold groupsOf clearBuildEnvironmentSettings
  rw [List.filterMap_filter, List.filterMap_eq_nil_iff]
  intro setting _
  unfold group?
  cases setting.value <;> rfl

theorem othersOf_clear (settings : BuildSettings σ) :
    othersOf (clearBuildEnvironmentSettings settings) = othersOf settings := by
  unfold othersOf clearBuildEnvironmentSettings
  rw [List.filterMap_filter]
  refine congrArg (List.filterMap · settings) (funext fun setting => ?_)
  unfold other?
  cases setting.value <;> rfl

end Views

/-! ## The native environment -/

section Native
open GroupedAssignments

/-- What a directive makes of the environment, as far as its names are literally known. -/
def nativeStep (env : String → Option (Option String)) : EnvironmentDirective → String → Option (Option String)
  | .assignment name value => Function.update env name (some (some value))
  | .bareName name | .deferred name => Function.update env name none
  | .reset | .unmodeled | .newer => fun _ => none

/-- The directives of one entry. -/
def directivesOf (directives : List (NativeSpan × EnvironmentDirective)) (span : NativeSpan) :
    List EnvironmentDirective := (directives.filter fun directive => directive.1 = span).map Prod.snd

def entryDirectives {σ : Type} (directives : List (NativeSpan × EnvironmentDirective)) :
    BuildEntry σ → List EnvironmentDirective
  | .environment span _ => directivesOf directives span
  | .other _ => []

def effectiveEnvironment {σ : Type} (directives : List (NativeSpan × EnvironmentDirective))
    (entries : List (BuildEntry σ)) : String → Option (Option String) :=
  (entries.flatMap (entryDirectives directives)).foldl nativeStep fun _ => none

/-- An empty entry is one reset, and no other entry has one. -/
def ResetAlone (directives : List EnvironmentDirective) : Prop := .reset ∈ directives → directives = [.reset]

instance (directives : List EnvironmentDirective) : Decidable (ResetAlone directives) :=
  inferInstanceAs (Decidable (.reset ∈ directives → directives = [.reset]))

def otherSetting? {σ : Type} : BuildEntry σ → Option (Sourced σ)
  | .environment _ _ => none
  | .other setting => some setting

/-! ## Entries keep the environment -/

variable {σ : Type} {origin : Provenance}

/-- The environment of the settings together with the values of the entry, and no name twice in them. -/
structure Tracks (env : String → Option (Option String)) (others : List (Sourced σ)) (state : EntryState σ) :
    Prop where
  evaluated : assign (state.values.map entryOf) (evaluate (groupsOf state.settings)) = env
  unique : (keys (groupsOf state.settings) ++ (state.values.map entryOf).map Prod.fst).Nodup
  kept : othersOf state.settings = others
  unmarked : state.wasReset = false
  seen : state.values ≠ [] → state.matched = true

variable {env : String → Option (Option String)} {others : List (Sourced σ)} {state : EntryState σ}

theorem removed_values (state : EntryState σ) (name : String) :
    (state.remove name).values.map entryOf = without name (state.values.map entryOf) :=
  (without_entryOf state.values).symm

theorem removed_groups (state : EntryState σ) (name : String) :
    groupsOf (state.remove name).settings = erase name (groupsOf state.settings) :=
  groupsOf_remove state.settings

theorem removed_names (state : EntryState σ) (name : String) :
    keys (groupsOf (state.remove name).settings) ++ ((state.remove name).values.map entryOf).map Prod.fst =
      (keys (groupsOf state.settings) ++ (state.values.map entryOf).map Prod.fst).filter (· ≠ name) := by
  rw [removed_values, removed_groups, keys_erase, keys_without, List.filter_append]

theorem removed_not_mem (state : EntryState σ) (name : String) :
    name ∉ keys (groupsOf (state.remove name).settings) ++ ((state.remove name).values.map entryOf).map Prod.fst := by
  rw [removed_names, List.mem_filter]
  simp

theorem Tracks.remove (h : Tracks env others state) (name : String) :
    Tracks (Function.update env name none) others (state.remove name) := by
  constructor
  · rw [removed_values, removed_groups, evaluate_erase, assign_without, h.evaluated]
  · rw [removed_names]
    exact h.unique.filter _
  · exact (othersOf_remove state.settings).trans h.kept
  · exact h.unmarked
  · exact fun _ => rfl

theorem Tracks.clear (h : Tracks env others state) : Tracks (fun _ => none) others state.clear := by
  have hgroups : groupsOf state.clear.settings = [] := groupsOf_clear state.settings
  constructor
  · rw [hgroups]
    rfl
  · rw [hgroups]
    exact List.nodup_nil
  · exact (othersOf_clear state.settings).trans h.kept
  · exact h.unmarked
  · exact fun _ => rfl

theorem Tracks.step (h : Tracks env others state) {directive : EnvironmentDirective} (hreset : directive ≠ .reset) :
    Tracks (nativeStep env directive) others (directiveState origin state directive) := by
  cases directive with
  | assignment name value =>
    have hremoved := h.remove name
    have hvalues : (directiveState origin state (.assignment name value)).values.map entryOf =
        (state.remove name).values.map entryOf ++ [(name, some value)] := List.map_append
    constructor
    · rw [hvalues, assign_concat]
      show Function.update (assign _ (evaluate (groupsOf (state.remove name).settings))) name _ = _
      rw [hremoved.evaluated, Function.update_idem]
      rfl
    · rw [hvalues, List.map_append, ← List.append_assoc]
      apply List.Nodup.append hremoved.unique (List.nodup_singleton name)
      rw [List.disjoint_singleton]
      exact removed_not_mem state name
    · exact hremoved.kept
    · exact hremoved.unmarked
    · exact fun _ => rfl
  | reset => exact absurd rfl hreset
  | bareName name => exact h.remove name
  | deferred name => exact h.remove name
  | unmodeled => exact h.clear
  | newer => exact h.clear

theorem Tracks.run (h : Tracks env others state) {directives : List EnvironmentDirective}
    (hreset : .reset ∉ directives) :
    Tracks (directives.foldl nativeStep env) others (directives.foldl (directiveState origin) state) := by
  induction directives generalizing env state with
  | nil => exact h
  | cons directive rest ih =>
    rw [List.mem_cons, not_or] at hreset
    exact ih (h.step (Ne.symm hreset.1)) hreset.2

/-- What the settings have come to after some entries. -/
structure Evaluates (env : String → Option (Option String)) (others : List (Sourced σ))
    (settings : BuildSettings σ) : Prop where
  evaluated : evaluate (groupsOf settings) = env
  unique : (keys (groupsOf settings)).Nodup
  kept : othersOf settings = others

theorem groupsOf_concat (settings : BuildSettings σ) (setting : Sourced (ImageBuildSetting σ)) :
    groupsOf (settings ++ [setting]) = groupsOf settings ++ (group? setting).toList := by
  unfold groupsOf
  rw [List.filterMap_append]
  cases hgroup : group? setting <;> simp [hgroup]

theorem othersOf_concat (settings : BuildSettings σ) (setting : Sourced (ImageBuildSetting σ)) :
    othersOf (settings ++ [setting]) = othersOf settings ++ (other? setting).toList := by
  unfold othersOf
  rw [List.filterMap_append]
  cases hother : other? setting <;> simp [hother]

theorem keys_concat (groups : List (List (String × Option String))) (group : List (String × Option String)) :
    keys (groups ++ [group]) = keys groups ++ group.map Prod.fst := by
  unfold keys
  rw [List.flatten_concat, List.map_append]

theorem Tracks.finish (h : Tracks env others state) : Evaluates env others (state.finish origin) := by
  unfold EntryState.finish
  rw [h.unmarked, Bool.false_or]
  by_cases hempty : state.values = []
  · have hnone : (state.matched && !state.values.isEmpty) = false := by simp [hempty]
    have hevaluated := h.evaluated
    have hunique := h.unique
    rw [hempty] at hevaluated hunique
    rw [hnone, if_neg Bool.false_ne_true]
    exact ⟨hevaluated, by simpa using hunique, h.kept⟩
  · have hpushed : (state.matched && !state.values.isEmpty) = true := by simp [hempty, h.seen hempty]
    rw [if_pos hpushed]
    constructor
    · rw [groupsOf_concat]
      show evaluate (groupsOf state.settings ++ [state.values.map entryOf]) = env
      have hgroup : state.values.map entryOf ≠ [] := fun hnil => hempty (List.map_eq_nil_iff.mp hnil)
      rw [evaluate_concat, applyGroup_of_nonempty hgroup, h.evaluated]
    · rw [groupsOf_concat]
      show (keys (groupsOf state.settings ++ [state.values.map entryOf])).Nodup
      rw [keys_concat]
      exact h.unique
    · rw [othersOf_concat]
      exact (List.append_nil _).trans h.kept

/-- A marker clears the environment and names nothing. -/
theorem Evaluates.marker {settings : BuildSettings σ} (h : Evaluates env others settings) :
    Evaluates (fun _ => none) others
      ((directiveState origin ⟨settings, [], false, false⟩ .reset).finish origin) := by
  show Evaluates _ others (settings ++ [⟨.environment ⟨.repeated, []⟩, [origin]⟩])
  constructor
  · rw [groupsOf_concat]
    exact evaluate_concat (groupsOf settings) []
  · rw [groupsOf_concat]
    show (keys (groupsOf settings ++ [[]])).Nodup
    rw [keys_concat, List.map_nil, List.append_nil]
    exact h.unique
  · rw [othersOf_concat]
    exact (List.append_nil _).trans h.kept

theorem Evaluates.entry {settings : BuildSettings σ} (h : Evaluates env others settings)
    {directives : List EnvironmentDirective} (halone : ResetAlone directives) :
    Evaluates (directives.foldl nativeStep env) others
      ((directives.foldl (directiveState origin) ⟨settings, [], false, false⟩).finish origin) := by
  by_cases hreset : .reset ∈ directives
  · rw [halone hreset]
    exact h.marker
  · have hnames : (keys (groupsOf settings) ++ []).Nodup := by
      rw [List.append_nil]
      exact h.unique
    have hstart : Tracks env others ⟨settings, [], false, false⟩ :=
      ⟨h.evaluated, hnames, h.kept, rfl, fun hvalues => absurd rfl hvalues⟩
    exact (hstart.run hreset).finish

theorem Evaluates.other {settings : BuildSettings σ} (h : Evaluates env others settings) (setting : Sourced σ) :
    Evaluates env (others ++ [setting]) (settings ++ [⟨.other setting.value, setting.origins⟩]) := by
  constructor
  · rw [groupsOf_concat]
    exact (congrArg evaluate (List.append_nil _)).trans h.evaluated
  · rw [groupsOf_concat]
    show (keys (groupsOf settings ++ [])).Nodup
    rw [List.append_nil]
    exact h.unique
  · rw [othersOf_concat, h.kept]
    rfl

/-! ## All entries keep it -/

theorem value_mapDirectives (fileName buildSubject : String) (directives : List EnvironmentDirective)
    (state : EntryState σ) :
    (directives.foldlM (mapDirective origin fileName buildSubject) state).value =
      directives.foldl (directiveState origin) state := by
  induction directives generalizing state with
  | nil => rfl
  | cons directive rest ih => exact ih (directiveState origin state directive)

theorem Evaluates.entries {settings : BuildSettings σ} (fileName buildSubject : String)
    {directives : List (NativeSpan × EnvironmentDirective)} {entries : List (BuildEntry σ)}
    (h : Evaluates env others settings)
    (halone : ∀ entry ∈ entries, ResetAlone (entryDirectives directives entry)) :
    Evaluates ((entries.flatMap (entryDirectives directives)).foldl nativeStep env)
      (others ++ entries.filterMap otherSetting?)
      (entries.foldlM (mapBuildEntry fileName buildSubject directives) settings).value := by
  induction entries generalizing settings env others with
  | nil =>
    rw [List.filterMap_nil, List.append_nil]
    exact h
  | cons entry rest ih =>
    have hrest := fun later hlater => halone later (List.mem_cons_of_mem _ hlater)
    rw [List.flatMap_cons, List.foldl_append, Reports.foldlM_cons, Reports.value_bind]
    cases entry with
    | other setting =>
      show Evaluates _ (others ++ setting :: rest.filterMap otherSetting?) _
      rw [List.append_cons]
      exact ih (h.other setting) hrest
    | environment span origin =>
      have hentry : (mapBuildEntry fileName buildSubject directives settings (.environment span origin)).value =
          ((directivesOf directives span).foldl (directiveState origin) ⟨settings, [], false, false⟩).finish origin :=
        congrArg (EntryState.finish origin) (value_mapDirectives fileName buildSubject _ _)
      rw [hentry]
      exact ih (h.entry (halone _ List.mem_cons_self)) hrest

/-- The settings of a build unit evaluate to its native environment: no name occurs twice in them, and the
settings of the other entries stay in their order. -/
theorem build_environment_evaluated (fileName buildSubject : String)
    (directives : List (NativeSpan × EnvironmentDirective)) (entries : List (BuildEntry σ))
    (halone : ∀ entry ∈ entries, ResetAlone (entryDirectives directives entry)) :
    let settings := (mapBuildEntries fileName buildSubject directives entries).value
    evaluate (groupsOf settings) = effectiveEnvironment directives entries ∧ (keys (groupsOf settings)).Nodup ∧
      othersOf settings = entries.filterMap otherSetting? := by
  have hstart : Evaluates (fun _ => none) ([] : List (Sourced σ)) [] := ⟨rfl, List.nodup_nil, rfl⟩
  have hend := hstart.entries fileName buildSubject halone
  exact ⟨hend.evaluated, hend.unique, hend.kept⟩

theorem build_environment_evaluated_edited :
    let span : NativeSpan := ⟨0, 0, 1, by decide⟩
    let later : NativeSpan := ⟨0, 2, 3, by decide⟩
    let directives := [(span, .assignment "A" "1"), (span, .assignment "B" "2"), (later, .bareName "A")]
    let origin : Provenance := .ofSource ⟨"quadlet", by decide⟩
    let entries := [.environment span origin, .other ⟨"x", []⟩, .environment later origin]
    let settings := (mapBuildEntries "a.build" "a" directives entries).value
    evaluate (groupsOf settings) = effectiveEnvironment directives entries ∧ (keys (groupsOf settings)).Nodup ∧
      othersOf settings = entries.filterMap otherSetting? :=
  build_environment_evaluated "a.build" "a" _ _ (by decide)

end Native

end Boxferry.Quadlet.Import
