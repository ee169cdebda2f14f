import ImportAtlas.Proofs.Command.Configure
import ImportAtlas.Proofs.Standard.Markup
import ImportAtlas.Proofs.Standard.Settings

set_option autoImplicit false

/-!
# What the table of the command `config` says

The command prints the settings in force beside a label that says whether a value
is saved.  Settings that are set aside because a saved value does not convert are
still labelled as saved, and the table takes values for messages, in which there may
be markup.  So the rows tell the truth exactly when every saved value converts and
is shown as it is (`config_rows_iff`), whatever libraries read the settings and
print.

The runs shown at the end are those of the installed libraries.
-/

namespace ImportAtlas.Command

open Printing
open SettingsStore (State Live Holds load)
open Settings (ConvertsTo)

/-- The text of a value in the table, before it is taken for markup. -/
def valueText (key : SettingKey) (x : key.Value) : String :=
  Json.write .ascii .oneLine (key.shape.json x)

/-- The cells of a row behind the name. -/
structure SettingsRow where
  value : String
  source : String
  deriving DecidableEq

/-- The cells of the row of a key. -/
def SettingsRow.cells (row : SettingsRow) (key : SettingKey) : List String :=
  [key.name, row.value, row.source]

/-- The table of all settings. -/
def settingsTable (rows : SettingKey → SettingsRow) : Table where
  title := "deptrace settings"
  columns := [⟨"Setting", .left⟩, ⟨"Value", .left⟩, ⟨"Source", .left⟩]
  rows := SettingKey.all.map fun key => (rows key).cells key

section

variable [Console]

/-- The row of a setting, if its value is no wrong markup. -/
def rowOf (store : SettingsStore) (key : SettingKey) : SettingsRow where
  value := (Console.plain (valueText key (store.settings key))).toOption.getD ""
  source := if (Assoc.get? key store.saved).isSome then "config.json" else "default"

/-- All values can be taken for markup. -/
def Printable (store : SettingsStore) (keys : List SettingKey) : Prop :=
  ∀ key ∈ keys, Console.plain (valueText key (store.settings key)) = .ok (rowOf store key).value

variable {surroundings : Surroundings} {store : SettingsStore} {key : SettingKey}
  {keys : List SettingKey} {before output : String}

theorem settingRow_eq_ok_iff {row : List String} :
    (settingRow store key).runFrom before = (.ok row, output) ↔
      Console.plain (valueText key (store.settings key)) = .ok (rowOf store key).value ∧
        row = (rowOf store key).cells key ∧
        output = before := by
  have hrow : (settingRow store key).runFrom before =
      match Console.plain (valueText key (store.settings key)) with
      | .ok shown => (.ok [key.name, shown, (rowOf store key).source], before)
      | .error fault => (.error (.broken (.markup fault)), before) := by
    unfold settingRow textOf valueText
    rw [runFrom_bind]
    cases Console.plain (Json.write .ascii .oneLine (key.shape.json (store.settings key))) with
    | ok shown => rfl
    | error fault => rfl
  rw [hrow]
  cases hplain : Console.plain (valueText key (store.settings key)) with
  | error fault => simp
  | ok shown =>
    have hvalue : (rowOf store key).value = shown := by
      rw [rowOf, hplain]
      rfl
    simp [SettingsRow.cells, hvalue, eq_comm]

theorem mapM_settingRow_eq_ok {rows : List (List String)}
    (h : (keys.mapM (settingRow store)).runFrom before = (.ok rows, output)) :
    Printable store keys ∧ output = before ∧
      rows = keys.map fun key => (rowOf store key).cells key := by
  induction keys generalizing rows before output with
  | nil =>
    rw [List.mapM_nil, runFrom_pure] at h
    cases h
    exact ⟨nofun, rfl, rfl⟩
  | cons key keys ih =>
    rw [List.mapM_cons] at h
    obtain ⟨row, printed, hrow, hrest⟩ := bind_eq_ok h
    obtain ⟨rest, printed', hkeys, hreturn⟩ := bind_eq_ok hrest
    obtain ⟨hkey, rfl, rfl⟩ := settingRow_eq_ok_iff.mp hrow
    obtain ⟨hprintable, rfl, rfl⟩ := ih hkeys
    rw [runFrom_pure] at hreturn
    cases hreturn
    exact ⟨List.forall_mem_cons.mpr ⟨hkey, hprintable⟩, rfl, rfl⟩

theorem mapM_settingRow_of_printable (h : Printable store keys) (before : String) :
    (keys.mapM (settingRow store)).runFrom before =
      (.ok (keys.map fun key => (rowOf store key).cells key),
        before) := by
  induction keys with
  | nil => rw [List.mapM_nil, runFrom_pure, List.map_nil]
  | cons key keys ih =>
    obtain ⟨hkey, hkeys⟩ := List.forall_mem_cons.mp h
    rw [List.mapM_cons, runFrom_bind, settingRow_eq_ok_iff.mpr ⟨hkey, rfl, rfl⟩]
    dsimp only
    rw [runFrom_bind, ih hkeys, List.map_cons]
    rfl

/-- What the command prints at its end is the table and the places of two files. -/
theorem printSettings_eq_ok {u : Unit}
    (h : (printSettings surroundings store).runFrom before = (.ok u, output)) :
    Printable store SettingKey.all ∧
      ∃ after, output = before ++ printedLines (Console.table (settingsTable (rowOf store))) ++
        after := by
  obtain ⟨rows, printed, hrows, hrest⟩ := bind_eq_ok h
  obtain ⟨hprintable, rfl, rfl⟩ := mapM_settingRow_eq_ok hrows
  obtain ⟨_, tabled, htable, hrest⟩ := bind_eq_ok hrest
  rw [printTable, runFrom_forM_echo] at htable
  obtain ⟨_, said, hsaid, hrest⟩ := bind_eq_ok hrest
  obtain ⟨first, rfl⟩ := exists_append_of_say hsaid
  obtain ⟨second, rfl⟩ := exists_append_of_say hrest
  have htabled : printed ++ printedLines (Console.table (settingsTable (rowOf store))) = tabled :=
    congrArg Prod.snd htable
  refine ⟨hprintable, first ++ second, ?_⟩
  rw [htabled, String.append_assoc]

theorem printSettings_of_printable (h : Printable store SettingKey.all) {file log : String}
    (hfile : Console.plain ("[cyan]Config file:[/cyan] " ++ surroundings.configFile.text) =
      .ok file)
    (hlog : Console.plain ("[cyan]Log file:[/cyan] " ++ surroundings.logFile.text) = .ok log)
    (before : String) : ∃ after, (printSettings surroundings store).runFrom before =
      (.ok (), before ++ printedLines (Console.table (settingsTable (rowOf store))) ++ after) := by
  refine ⟨Console.shown file ++ "\n" ++ (Console.shown log ++ "\n"), ?_⟩
  unfold printSettings
  rw [runFrom_bind, mapM_settingRow_of_printable h]
  dsimp only
  rw [runFrom_bind, printTable, runFrom_forM_echo]
  dsimp only
  rw [runFrom_bind, runFrom_say hfile]
  dsimp only
  rw [runFrom_say hlog]
  simp only [String.append_assoc]
  rfl

theorem neverFinishes_printSettings : NeverFinishes (printSettings surroundings store) := by
  have hrow : ∀ key, NeverFinishes (settingRow store key) := fun key =>
    (NeverFinishes.of_attempt _ _).bind fun _ => .of_pure _
  refine (NeverFinishes.mapM hrow).bind fun rows => ?_
  refine (NeverFinishes.forM fun line => .of_echo line).bind fun _ => ?_
  exact (NeverFinishes.of_say _).bind fun _ => .of_say _

theorem source_rowOf_iff : (rowOf store key).source = "config.json" ↔
    ∃ v, Assoc.get? key store.saved = some v := by
  rw [← Option.isSome_iff_exists, rowOf]
  cases (Assoc.get? key store.saved).isSome with
  | true => simp
  | false => simp

/-! ## The whole run -/

variable [SettingsLibrary] {d : Disk} {assignments : List String} {resets : Bool}

/-- A run that ends with 0 has kept a store and shows its rows.  Its saved values convert if the run
has changed them, and are those of the file if not. -/
theorem runConfig_shows [LawfulSettingsLibrary] (hworking : d.workingPath.IsNormal)
    (hfolder : d.isFolder d.workingPath = .ok true)
    (hexit : (runConfig d surroundings assignments resets).ending.exitCode = 0) :
    ∃ s : State, Live surroundings s ∧ Printable s.store SettingKey.all ∧
      (runConfig d surroundings assignments resets).disk = s.disk ∧
      (∃ before after, (runConfig d surroundings assignments resets).output =
        before ++ printedLines (Console.table (settingsTable (rowOf s.store))) ++ after) ∧
      (resets = true ∨ assignments ≠ [] → ConvertsTo s.store.saved s.store.settings) ∧
      (resets = false → assignments = [] →
        SettingsStore.readSaved s.disk surroundings = .ok s.store.saved) := by
  have hfinished := exitCode_eq_zero hexit
  rcases hload : load d surroundings with ⟨disk, fault | store⟩
  · unfold runConfig openSettings at hfinished
    rw [hload] at hfinished
    cases hfinished
  · have hopened : load d surroundings = ((⟨disk, store⟩ : State).disk, .ok _) := hload
    have hrun := runConfig_of_load hopened assignments resets
    have hbreaks : (configured surroundings ⟨disk, store⟩ assignments resets).BreaksOff :=
      breaksOff_configured _ _ _
    cases hended : (configured surroundings ⟨disk, store⟩ assignments resets).ended with
    | some ending =>
      rw [hended] at hrun
      rw [hrun] at hfinished
      exact absurd (hended.trans (congrArg some hfinished)) hbreaks
    | none =>
      obtain ⟨hlive, hconverts⟩ := live_configured
        (SettingsStore.live_of_load hworking hfolder hopened) hended
      rw [hended] at hrun
      rw [hrun] at hfinished ⊢
      obtain ⟨output, hprints, hprinted⟩ :=
        printing_finished neverFinishes_printSettings hfinished
      obtain ⟨hprintable, after, houtput⟩ := printSettings_eq_ok hprints
      rw [hprinted]
      refine ⟨_, hlive, hprintable, rfl, ⟨_, after, houtput⟩, hconverts, fun hkept hnone => ?_⟩
      subst hkept hnone
      obtain ⟨-, -, -, hread⟩ := SettingsStore.load_eq_ok hload
      exact (SettingsStore.read_eq_ok hread).1

/-! ## What the rows tell -/

/-- Every row that is labelled as saved shows the saved value of its key, brought to the type of
the key. -/
def TellsTruth (saved : List (SettingKey × Json)) (rows : SettingKey → SettingsRow) : Prop :=
  ∀ key, (rows key).source = "config.json" →
    ∃ v x, Assoc.get? key saved = some v ∧ key.shape.convert v = .ok x ∧
      (rows key).value = valueText key x

/-- A value converts, and its text is shown as it is. -/
def ShownAsItIs (key : SettingKey) (v : Json) : Prop :=
  ∃ x, key.shape.convert v = .ok x ∧ Console.plain (valueText key x) = .ok (valueText key x)

instance (key : SettingKey) (v : Json) : Decidable (ShownAsItIs key v) :=
  match hconvert : key.shape.convert v with
  | .ok x => decidable_of_iff (Console.plain (valueText key x) = .ok (valueText key x))
      ⟨fun hplain => ⟨x, hconvert, hplain⟩, fun ⟨_, hx, hplain⟩ =>
        Except.ok.inj (hconvert.symm.trans hx) ▸ hplain⟩
  | .error _ => .isFalse fun ⟨_, hx, _⟩ => nomatch hconvert.symm.trans hx

theorem tellsTruth_rowOf_iff [LawfulSettingsLibrary] {s : State} (hlive : Live surroundings s)
    (hprintable : Printable s.store SettingKey.all) :
    TellsTruth s.store.saved (rowOf s.store) ↔
      ∀ key v, Assoc.get? key s.store.saved = some v → ShownAsItIs key v := by
  -- Either the settings in force are the saved values, and markup alone can falsify a row, or a
  -- saved value does not convert: its row is labelled as saved all the same.
  rcases hlive.current.cases with hconverts | ⟨-, bad, value, hbad, hrejects⟩
  · constructor
    · intro htruth key v hv
      obtain ⟨v', x, hv', hx, hshown⟩ := htruth key (source_rowOf_iff.mpr ⟨v, hv⟩)
      cases hv.symm.trans hv'
      cases hx.symm.trans (hconverts key v hv)
      refine ⟨_, hx, ?_⟩
      rw [hprintable key key.mem_all, hshown]
    · intro hall key hsource
      obtain ⟨v, hv⟩ := source_rowOf_iff.mp hsource
      obtain ⟨x, hx, hplain⟩ := hall key v hv
      cases hx.symm.trans (hconverts key v hv)
      have hshown := (hprintable key key.mem_all).symm.trans hplain
      exact ⟨v, _, hv, hx, Except.ok.inj hshown⟩
  · constructor
    · intro htruth
      obtain ⟨v, x, hv, hx, -⟩ := htruth bad (source_rowOf_iff.mpr ⟨value, hbad⟩)
      cases hbad.symm.trans hv
      exact absurd ⟨x, hx⟩ hrejects
    · intro hall
      obtain ⟨x, hx, -⟩ := hall bad value hbad
      exact absurd ⟨x, hx⟩ hrejects

/-- The rows of a run that ends with 0 tell the truth exactly when every saved value converts and is
shown as it is.  If one does not convert, all rows show what the variables and the defaults give;
and it is none of a run that saves or forgets values. -/
theorem config_rows_iff [LawfulSettingsLibrary] (hworking : d.workingPath.IsNormal)
    (hfolder : d.isFolder d.workingPath = .ok true)
    (hexit : (runConfig d surroundings assignments resets).ending.exitCode = 0) :
    ∃ saved rows before after,
      Holds (runConfig d surroundings assignments resets).disk surroundings saved ∧
      (runConfig d surroundings assignments resets).output =
        before ++ printedLines (Console.table (settingsTable rows)) ++ after ∧
      (TellsTruth saved rows ↔
        ∀ key v, Assoc.get? key saved = some v → ShownAsItIs key v) ∧
      (resets = true ∨ assignments ≠ [] →
        ∀ key v, Assoc.get? key saved = some v → key.Accepts v) ∧
      (resets = false → assignments = [] → SettingsStore.readSaved
        (runConfig d surroundings assignments resets).disk surroundings = .ok saved) ∧
      (¬ (∀ key v, Assoc.get? key saved = some v → key.Accepts v) →
        ∃ settings, Settings.build (runConfig d surroundings assignments resets).disk surroundings
          [] = .ok settings ∧
          ∀ key, Console.plain (valueText key (settings key)) = .ok (rows key).value) := by
  obtain ⟨s, hlive, hprintable, hdisk, ⟨before, after, houtput⟩, hchanged, hkept⟩ :=
    runConfig_shows hworking hfolder hexit
  rw [hdisk]
  refine ⟨s.store.saved, rowOf s.store, before, after, hlive.holds, houtput,
    tellsTruth_rowOf_iff hlive hprintable, ?_, hkept, ?_⟩
  · intro hchange key v hv
    exact ⟨_, hchanged hchange key v hv⟩
  · intro hrejects
    rcases hlive.current.cases with hconverts | ⟨hbuild, -⟩
    · exact absurd (fun key v hv => ⟨_, hconverts key v hv⟩) hrejects
    · exact ⟨_, hbuild, fun key => hprintable key key.mem_all⟩

end

/-! ## Runs that only show -/

variable {surroundings : Surroundings} {d : Disk}

theorem unmarked_of_isNumberChar {text : String}
    (h : ∀ c ∈ text.toList, Json.isNumberChar c = true) : Standard.Markup.Unmarked text.toList := by
  apply Standard.Markup.unmarked_of_not_mem
  intro hbracket
  cases h _ hbracket

/-- No default is markup. -/
theorem unmarked_default (key : SettingKey) :
    Standard.Markup.Unmarked (valueText key key.defaultValue).toList := by
  cases key with
  | watchDelay => exact unmarked_of_isNumberChar (Json.isNumberChar_of_mem_writeFloat _)
  | _ => decide +kernel

/-- Whether settings can be opened, with nothing saved or told by variables but a depth. -/
def opensDepthOnly (d : Disk) (surroundings : Surroundings) : Bool :=
  (load d surroundings).2.toOption.any (fun opened =>
    opened.saved.all fun pair => pair.1 == .maxDepth) &&
  (Settings.variableLookup (load d surroundings).1 surroundings).toOption.any fun around =>
    SettingKey.all.all fun key => key == .maxDepth || (around key).isNone

theorem exists_opened_printable (h : opensDepthOnly d surroundings = true) :
    ∃ opened : State, load d surroundings = (opened.disk, .ok opened.store) ∧
      Printable opened.store SettingKey.all := by
  obtain ⟨hopens, hvariables⟩ := Bool.and_eq_true_iff.mp h
  -- Each text is a number or that of a default: the settings need not be computed.
  rcases hload : load d surroundings with ⟨disk, fault | store⟩
  · rw [hload] at hopens
    cases hopens
  rw [hload] at hopens hvariables
  refine ⟨⟨disk, store⟩, rfl, fun key hkey => ?_⟩
  have hcurrent : SettingsStore.IsCurrent surroundings ⟨disk, store⟩ :=
    SettingsStore.isCurrent_of_load hload
  have hunmarked : Standard.Markup.Unmarked (valueText key (store.settings key)).toList := by
    by_cases hdepth : key = .maxDepth
    · subst hdepth
      exact unmarked_of_isNumberChar (Json.isNumberChar_of_mem_toString _)
    · obtain ⟨around, haround⟩ := SettingsStore.exists_variableLookup hcurrent
      have hsaved : Assoc.get? key store.saved = none := by
        cases hget : Assoc.get? key store.saved with
        | none => rfl
        | some v =>
          have hsame := List.all_eq_true.mp hopens _ (Assoc.mem_of_get? hget)
          exact absurd (eq_of_beq hsame) hdepth
      have hnone : around key = none := by
        rw [haround] at hvariables
        have hcheck := List.all_eq_true.mp hvariables key hkey
        simpa [hdepth] using hcheck
      have hdefault := hcurrent.unsaved haround hsaved
      rw [hnone] at hdefault
      rw [hdefault]
      exact unmarked_default key
  rw [rowOf, Standard.Markup.plain_of_unmarked hunmarked]
  rfl

/-- A run without arguments shows the store that it opens. -/
theorem exists_runConfig_nil (d : Disk) (surroundings : Surroundings)
    (hopens : opensDepthOnly d surroundings = true)
    (hfile : (Console.plain
      ("[cyan]Config file:[/cyan] " ++ surroundings.configFile.text)).isOk = true)
    (hlog : (Console.plain ("[cyan]Log file:[/cyan] " ++ surroundings.logFile.text)).isOk = true) :
    ∃ opened : State, load d surroundings = (opened.disk, .ok opened.store) ∧
      ∃ after, runConfig d surroundings [] false = ⟨opened.disk,
        "" ++ printedLines (Console.table (settingsTable (rowOf opened.store))) ++ after,
          .finished⟩ := by
  obtain ⟨opened, hload, hprintable⟩ := exists_opened_printable hopens
  obtain ⟨file, hfile⟩ := Except.exists_of_isOk hfile
  obtain ⟨log, hlog⟩ := Except.exists_of_isOk hlog
  obtain ⟨after, hprints⟩ := printSettings_of_printable hprintable hfile hlog ""
  refine ⟨opened, hload, after, (runConfig_of_load hload [] false).trans ?_⟩
  change CommandRun.printing opened.disk "" (printSettings surroundings opened.store) = _
  rw [CommandRun.printing, hprints]

open SettingsStore (diskWith homeWithDepth)

/-- The saved depth is shown by a run without arguments, and labelled as saved. -/
theorem config_rows_iff_depth :
    (runConfig (diskWith [(.maxDepth, .int 5)]) (homeWithDepth "9") [] false).ending.exitCode = 0 ∧
    ∃ saved rows before after,
      Holds (runConfig (diskWith [(.maxDepth, .int 5)]) (homeWithDepth "9") [] false).disk
        (homeWithDepth "9") saved ∧
      (runConfig (diskWith [(.maxDepth, .int 5)]) (homeWithDepth "9") [] false).output =
        before ++ printedLines (Console.table (settingsTable rows)) ++ after ∧
      TellsTruth saved rows := by
  have hworking : (diskWith [(.maxDepth, .int 5)]).workingPath.IsNormal := by decide +kernel
  have hfolder : (diskWith [(.maxDepth, .int 5)]).isFolder
      (diskWith [(.maxDepth, .int 5)]).workingPath = .ok true := by decide +kernel
  have hshown : (load (diskWith [(.maxDepth, .int 5)]) (homeWithDepth "9")).2.toOption.any
      (fun opened => opened.saved.all fun pair => decide (ShownAsItIs pair.1 pair.2)) = true := by
    decide +kernel
  obtain ⟨opened, hload, after, hrun⟩ := exists_runConfig_nil (diskWith [(.maxDepth, .int 5)])
    (homeWithDepth "9") (by decide +kernel) (by decide +kernel) (by decide +kernel)
  rw [hload] at hshown
  have hexit : (runConfig (diskWith [(.maxDepth, .int 5)]) (homeWithDepth "9") []
      false).ending.exitCode = 0 := by
    rw [hrun]
    rfl
  obtain ⟨saved, rows, before, after, hholds, houtput, htruth, -, hread, -⟩ :=
    config_rows_iff hworking hfolder hexit
  have hsaved : saved = opened.store.saved := by
    obtain ⟨-, -, -, hopened⟩ := SettingsStore.load_eq_ok hload
    have hfound := hread rfl rfl
    rw [hrun] at hfound
    exact Except.ok.inj (hfound.symm.trans (SettingsStore.read_eq_ok hopened).1)
  refine ⟨hexit, saved, rows, before, after, hholds, houtput, htruth.mpr fun key v hv => ?_⟩
  rw [hsaved] at hv
  exact of_decide_eq_true (List.all_eq_true.mp hshown _ (Assoc.mem_of_get? hv))

/-- The default depth is labelled as saved where the saved one does not convert. -/
theorem config_labels_default_as_saved :
    (runConfig (diskWith [(.maxDepth, .int (-1))]) (homeWithDepth "9") []
      false).ending.exitCode = 0 ∧
    ∃ saved rows before after,
      Holds (runConfig (diskWith [(.maxDepth, .int (-1))]) (homeWithDepth "9") [] false).disk
        (homeWithDepth "9") saved ∧
      (runConfig (diskWith [(.maxDepth, .int (-1))]) (homeWithDepth "9") [] false).output =
        before ++ printedLines (Console.table (settingsTable rows)) ++ after ∧
      rows .maxDepth = ⟨"9", "config.json"⟩ ∧ ¬ TellsTruth saved rows := by
  have hworking : (diskWith [(.maxDepth, .int (-1))]).workingPath.IsNormal := by decide +kernel
  have hfolder : (diskWith [(.maxDepth, .int (-1))]).isFolder
      (diskWith [(.maxDepth, .int (-1))]).workingPath = .ok true := by decide +kernel
  have hrow : (load (diskWith [(.maxDepth, .int (-1))]) (homeWithDepth "9")).2.toOption.any
      (fun opened => decide (rowOf opened .maxDepth = ⟨"9", "config.json"⟩)) = true := by
    decide +kernel
  have hbad : (load (diskWith [(.maxDepth, .int (-1))]) (homeWithDepth "9")).2.toOption.any
      (fun opened => (Assoc.get? .maxDepth opened.saved).all fun v =>
        !(SettingKey.maxDepth.shape.convert v).isOk) = true := by decide +kernel
  obtain ⟨opened, hload, after, hrun⟩ := exists_runConfig_nil (diskWith [(.maxDepth, .int (-1))])
    (homeWithDepth "9") (by decide +kernel) (by decide +kernel) (by decide +kernel)
  rw [hload] at hrow hbad
  have hrow : rowOf opened.store .maxDepth = ⟨"9", "config.json"⟩ := of_decide_eq_true hrow
  rw [hrun]
  refine ⟨rfl, opened.store.saved, rowOf opened.store, "", after,
    (SettingsStore.live_of_load hworking hfolder hload).holds, rfl, hrow, fun htruth => ?_⟩
  obtain ⟨v, x, hv, hx, -⟩ := htruth .maxDepth (congrArg SettingsRow.source hrow)
  have hfails := hbad
  simp only [Except.toOption, Option.any_some, hv, Option.all_some, hx] at hfails
  cases hfails

end ImportAtlas.Command
