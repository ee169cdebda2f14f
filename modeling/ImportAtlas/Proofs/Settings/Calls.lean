import ImportAtlas.Proofs.Settings.Opened
import Mathlib.Logic.Relation

set_option autoImplicit false

/-!
# Calls on a store, whatever comes of them

The settings file of an opened store has its place, or a folder stands there and
every attempt to write fails (`Usable`).  A call changes that file alone, so the
variables around the saved values tell the same after any run of calls
(`sameVariables_run`).  Attempts to save keep the settings those of the saved
values, even where the disk does not take the file (`IsCurrent.run`); a reset
that breaks off does not.
-/

namespace ImportAtlas

namespace Disk

variable {d : Disk} {p : Path}

theorem locate_of_isFolder (h : d.isFolder p = .ok true) :
    ∃ location, d.locate .openFile p = .ok location ∧ d.isFolderAt location = true := by
  obtain ⟨location, hlocate, hat⟩ := isFolder_iff.mp h
  exact ⟨location, locate_task .openFile hlocate, hat⟩

/-- No file is written in the place of a folder. -/
theorem write_of_isFolder (h : d.isFolder p = .ok true) (bytes : ByteArray) :
    d.write p bytes = (d, some ⟨.isFolder, p⟩) := by
  obtain ⟨location, hlocate, hat⟩ := locate_of_isFolder h
  have hentry : d.entryAt? location = some .folder := by simpa [isFolderAt] using hat
  exact write_of_target_error (by simp only [target, hlocate, hentry]) bytes

/-- A folder is not removed as a file. -/
theorem unlink_of_isFolder (h : d.isFolder p = .ok true) :
    d.unlink p = .error ⟨.isFolder, p⟩ := by
  obtain ⟨location, hlocate, hat⟩ := locate_of_isFolder h
  simp only [unlink, hlocate, hat, if_true]

/-- A file that is in its place, or not there, is removed. -/
theorem exists_unlink {task : DiskTask} {folder : Location} {name : String}
    (hplace : d.place task p = .ok (folder, name))
    (hfile : d.isFolderAt (folder ++ [name]) = false) : ∃ e, d.unlink p = .ok e := by
  rw [unlink, locate_eq_of_place .openFile hplace]
  cases (d.entryAt? (folder ++ [name])).isSome with
  | true => exact ⟨d.erase (folder ++ [name]), by simp [hfile]⟩
  | false => exact ⟨d, rfl⟩

end Disk

namespace SettingsStore

variable {d e : Disk} {surroundings : Surroundings} {store after : SettingsStore}
  {saved : List (SettingKey × Json)}

/-- The user's folders are there, and a folder stands in the place of the settings file. -/
structure Blocked (surroundings : Surroundings) (d : Disk) : Prop where
  isFolder : d.isFolder surroundings.configFile = .ok true
  configFolder : d.HasFolder surroundings.configFolder
  stateFolder : d.HasFolder surroundings.stateFolder

/-- The settings file has its place, or a folder stands there. -/
inductive Usable (surroundings : Surroundings) (d : Disk) : Prop where
  | ready {folder : Location} (h : Ready surroundings folder d)
  | blocked (h : Blocked surroundings d)

theorem Ready.isFolder_eq_false {folder : Location} (h : Ready surroundings folder d) :
    d.isFolder surroundings.configFile = .ok false := by
  have hfolder := h.noFolder
  rw [Disk.isFolderAt, decide_eq_false_iff_not] at hfolder
  rw [Disk.isFolder, Disk.look_of_place h.place, Except.map]
  simpa using hfolder

theorem Usable.hasFolders (h : Usable surroundings d) :
    d.HasFolder surroundings.configFolder ∧ d.HasFolder surroundings.stateFolder := by
  cases h with
  | ready h => exact ⟨h.configFolder, h.stateFolder⟩
  | blocked h => exact ⟨h.configFolder, h.stateFolder⟩

/-- The disk is as it was, but for the settings file perhaps. -/
structure SameVariables (surroundings : Surroundings) (d e : Disk) : Prop where
  usable : Usable surroundings e
  file : Settings.SameFile d e

theorem Usable.sameVariables_refl (h : Usable surroundings d) : SameVariables surroundings d d :=
  ⟨h, rfl, rfl⟩

theorem Ready.sameVariables {folder : Location} (h : Ready surroundings folder d)
    (hsame : d.SameElsewhere (folder ++ ["config.json"]) e) : SameVariables surroundings d e :=
  ⟨.ready (h.of_sameElsewhere hsame), sameFile_of_sameElsewhere hsame⟩

/-- Writing the settings file changes nothing else, whether the disk takes it or not. -/
theorem Usable.sameVariables_write {bytes : ByteArray} {fault : Option DiskFault}
    (h : Usable surroundings d) (hwrite : d.write surroundings.configFile bytes = (e, fault)) :
    SameVariables surroundings d e := by
  cases h with
  | ready h =>
    exact h.sameVariables (Disk.sameElsewhere_write h.place h.noFolder h.outside hwrite)
  | blocked h =>
    rw [Disk.write_of_isFolder h.isFolder] at hwrite
    cases hwrite
    exact (Usable.blocked h).sameVariables_refl

theorem SameVariables.trans {f : Disk} (h : SameVariables surroundings d e)
    (h' : SameVariables surroundings e f) : SameVariables surroundings d f where
  usable := h'.usable
  file := {
    workingPath := h'.file.workingPath.trans h.file.workingPath
    look := by
      have hlook := h'.file.look
      rw [h.file.workingPath] at hlook
      exact hlook.trans h.file.look }

variable [SettingsLibrary]

/-- A store that is opened in an existing working folder can be used. -/
theorem usable_of_load (hworking : d.workingPath.IsNormal)
    (hfolder : d.isFolder d.workingPath = .ok true)
    (hload : load d surroundings = (e, .ok store)) : Usable surroundings e := by
  obtain ⟨-, hconfig, hstate, hread⟩ := load_eq_ok hload
  obtain ⟨found, hfound, -⟩ := Except.bind_eq_ok (read_eq_ok hread).1
  cases hlook : e.look surroundings.configFile with
  | error fault =>
    rw [Disk.contains, hlook] at hfound
    cases hfound
  | ok entry =>
    have hisFolder : e.isFolder surroundings.configFile = .ok (entry == some .folder) := by
      rw [Disk.isFolder, hlook]
      rfl
    cases hentry : entry == some .folder with
    | true => exact .blocked ⟨hentry ▸ hisFolder, hconfig, hstate⟩
    | false =>
      obtain ⟨folder, hready⟩ := ready_of_load hworking hfolder hload (hentry ▸ hisFolder)
      exact .ready hready

/-- A folder in the place of the settings file counts as no saved values. -/
theorem Blocked.load_eq (h : Blocked surroundings d) {settings : Settings}
    (hbuild : Settings.build d surroundings [] = .ok settings) :
    load d surroundings = (d, .ok ⟨[], settings⟩) := by
  obtain ⟨location, hlocate, hat⟩ := Disk.isFolder_iff.mp h.isFolder
  have hentry : d.entryAt? location = some .folder := by simpa [Disk.isFolderAt] using hat
  have hlook : d.look surroundings.configFile = .ok (some .folder) :=
    Disk.look_eq_some_iff.mpr ⟨location, hlocate, hentry⟩
  have hread : d.read surroundings.configFile = .error ⟨.isFolder, surroundings.configFile⟩ := by
    simp only [Disk.read, Disk.locate_task .openFile hlocate, hentry]
  have hsaved : readSaved d surroundings = .ok [] := by
    simp only [readSaved, Disk.contains, hlook, readDocument?, hread]
    rfl
  rw [load_of_hasFolder h.configFolder h.stateFolder, read_of_readSaved hsaved hbuild]

/-! ## The settings in force -/

variable {before later start : State}

/-- The settings in force are those of the saved values. -/
def IsCurrent (surroundings : Surroundings) (s : State) : Prop :=
  settingsFor s.disk surroundings s.store.saved = .ok s.store.settings

theorem settingsFor_of_build {settings : Settings}
    (h : Settings.build d surroundings saved = .ok settings) :
    settingsFor d surroundings saved = .ok settings := by
  rw [settingsFor, h]

theorem isCurrent_of_load (h : load d surroundings = (e, .ok store)) :
    IsCurrent surroundings ⟨e, store⟩ := by
  obtain ⟨-, -, -, hread⟩ := load_eq_ok h
  exact (read_eq_ok hread).2

/-- Without saved values the settings in force are those of the variables. -/
theorem IsCurrent.build_eq (h : IsCurrent surroundings start) (hsaved : start.store.saved = []) :
    Settings.build start.disk surroundings [] = .ok start.store.settings := by
  rw [IsCurrent, hsaved, settingsFor] at h
  cases hbuild : Settings.build start.disk surroundings [] with
  | ok settings =>
    rw [hbuild] at h
    exact h
  | error fault =>
    rw [hbuild] at h
    cases fault <;> cases h

/-! ## One call -/

/-- What an attempt to save a text leaves: nothing where it is refused, else the new saved values
and settings, whether the disk takes the file or not. -/
inductive Saves (d : Disk) (surroundings : Surroundings) (store : SettingsStore)
    (name text : String) : Disk → SettingsStore →
      Except SettingsFault ((key : SettingKey) × key.Value) → Prop where
  | unknown (hname : SettingKey.ofName? name = none) :
    Saves d surroundings store name text d store (.error (.unknownKey name))
  | refused {key : SettingKey} {fault : SettingsFault} (hname : SettingKey.ofName? name = some key)
      (hbuild : Settings.build d surroundings (Assoc.put key (givenValue text) store.saved) =
        .error fault) :
    Saves d surroundings store name text d store (.error fault)
  | unwritten {key : SettingKey} {settings : Settings} {e : Disk} {fault : DiskFault}
      (hname : SettingKey.ofName? name = some key)
      (hbuild : Settings.build d surroundings (Assoc.put key (givenValue text) store.saved) =
        .ok settings)
      (hsame : SameVariables surroundings d e)
      (hwrite : d.write surroundings.configFile (fileText
        (Assoc.put key (key.shape.json (settings key)) store.saved)).toUTF8 = (e, some fault)) :
    Saves d surroundings store name text e
      ⟨Assoc.put key (key.shape.json (settings key)) store.saved, settings⟩ (.error (.disk fault))
  | written {key : SettingKey} {settings : Settings} {e : Disk}
      (hname : SettingKey.ofName? name = some key)
      (hbuild : Settings.build d surroundings (Assoc.put key (givenValue text) store.saved) =
        .ok settings)
      (hsame : SameVariables surroundings d e)
      (hread : e.read surroundings.configFile =
        .ok (fileText (Assoc.put key (key.shape.json (settings key)) store.saved)).toUTF8) :
    Saves d surroundings store name text e
      ⟨Assoc.put key (key.shape.json (settings key)) store.saved, settings⟩
      (.ok ⟨key, settings key⟩)

theorem Usable.saves (h : Usable surroundings d) {name text : String} {outcome}
    (hset : set d surroundings store name text = (e, after, outcome)) :
    Saves d surroundings store name text e after outcome := by
  unfold set at hset
  cases hname : SettingKey.ofName? name with
  | none =>
    simp only [hname, Prod.mk.injEq] at hset
    obtain ⟨rfl, rfl, rfl⟩ := hset
    exact .unknown hname
  | some key =>
    cases hbuild : Settings.build d surroundings (Assoc.put key (givenValue text) store.saved) with
    | error fault =>
      simp only [hname, hbuild, Prod.mk.injEq] at hset
      obtain ⟨rfl, rfl, rfl⟩ := hset
      exact .refused hname hbuild
    | ok settings =>
      simp only [hname, hbuild] at hset
      split at hset
      · rename_i hwrite
        simp only [Prod.mk.injEq] at hset
        obtain ⟨rfl, rfl, rfl⟩ := hset
        exact .written hname hbuild (h.sameVariables_write hwrite) (Disk.read_of_write hwrite)
      · rename_i hwrite
        simp only [Prod.mk.injEq] at hset
        obtain ⟨rfl, rfl, rfl⟩ := hset
        exact .unwritten hname hbuild (h.sameVariables_write hwrite) hwrite

/-- What a reset leaves: the saved values are forgotten in any case, and the rest only where the
variables alone give settings and the file can be removed. -/
inductive Resets (d : Disk) (surroundings : Surroundings) (store : SettingsStore) :
    Disk → SettingsStore → Except SettingsFault Unit → Prop where
  | refused {fault : SettingsFault} (hbuild : Settings.build d surroundings [] = .error fault) :
    Resets d surroundings store d ⟨[], store.settings⟩ (.error fault)
  | unremoved {settings : Settings} {fault : DiskFault}
      (hbuild : Settings.build d surroundings [] = .ok settings)
      (hfile : d.isFolder surroundings.configFile = .ok true)
      (hload : load d surroundings = (d, .ok ⟨[], settings⟩)) :
    Resets d surroundings store d ⟨[], settings⟩ (.error (.disk fault))
  | removed {settings : Settings} {e : Disk}
      (hbuild : Settings.build d surroundings [] = .ok settings)
      (hfile : d.isFolder surroundings.configFile = .ok false)
      (hsame : SameVariables surroundings d e)
      (hgone : e.contains surroundings.configFile = .ok false)
      (hload : load e surroundings = (e, .ok ⟨[], settings⟩)) :
    Resets d surroundings store e ⟨[], settings⟩ (.ok ())

section

variable [LawfulSettingsLibrary]

theorem SameVariables.build_eq (h : SameVariables surroundings d e)
    (saved : List (SettingKey × Json)) :
    Settings.build e surroundings saved = Settings.build d surroundings saved :=
  LawfulSettingsLibrary.build_eq h.file surroundings saved

theorem SameVariables.settingsFor_eq (h : SameVariables surroundings d e)
    (saved : List (SettingKey × Json)) :
    settingsFor e surroundings saved = settingsFor d surroundings saved := by
  rw [settingsFor, settingsFor, h.build_eq, h.build_eq]

theorem Usable.resets (h : Usable surroundings d) {outcome}
    (hreset : reset d surroundings store = (e, after, outcome)) :
    Resets d surroundings store e after outcome := by
  unfold reset at hreset
  cases hbuild : Settings.build d surroundings [] with
  | error fault =>
    simp only [hbuild, Prod.mk.injEq] at hreset
    obtain ⟨rfl, rfl, rfl⟩ := hreset
    exact .refused hbuild
  | ok settings =>
    simp only [hbuild] at hreset
    cases h with
    | blocked hblocked =>
      simp only [Disk.unlink_of_isFolder hblocked.isFolder, Prod.mk.injEq] at hreset
      obtain ⟨rfl, rfl, rfl⟩ := hreset
      exact .unremoved hbuild hblocked.isFolder (hblocked.load_eq hbuild)
    | ready hready =>
      obtain ⟨removed, hunlink⟩ := Disk.exists_unlink hready.place hready.noFolder
      simp only [hunlink, Prod.mk.injEq] at hreset
      obtain ⟨rfl, rfl, rfl⟩ := hreset
      obtain ⟨hsame, hentry⟩ :=
        Disk.unlink_of_place hready.place hready.noFolder hready.outside hunlink
      have hafter := hready.of_sameElsewhere hsame
      have hvariables := hready.sameVariables hsame
      refine .removed hbuild hready.isFolder_eq_false hvariables ?_ ?_
      · rw [Disk.contains, Disk.look_of_place hafter.place, hentry]
        rfl
      · rw [load_of_hasFolder hafter.configFolder hafter.stateFolder,
          read_of_readSaved (hafter.readSaved_of_none hentry)
            ((hvariables.build_eq []).trans hbuild)]

/-! ## Runs of calls -/

/-- One attempt to save a value, whatever comes of it. -/
def Saving (surroundings : Surroundings) (before after : State) : Prop :=
  ∃ name text outcome,
    set before.disk surroundings before.store name text = (after.disk, after.store, outcome)

/-- One call, whatever comes of it. -/
inductive Call (surroundings : Surroundings) (before after : State) : Prop where
  | saving (h : Saving surroundings before after)
  | resetting {outcome : Except SettingsFault Unit}
      (h : reset before.disk surroundings before.store = (after.disk, after.store, outcome))

theorem Call.sameVariables (h : Call surroundings before later)
    (husable : Usable surroundings before.disk) :
    SameVariables surroundings before.disk later.disk := by
  obtain ⟨disk, store⟩ := later
  cases h with
  | saving h =>
    obtain ⟨name, text, outcome, hset⟩ := h
    cases husable.saves hset with
    | unknown => exact husable.sameVariables_refl
    | refused => exact husable.sameVariables_refl
    | unwritten _ _ hsame _ => exact hsame
    | written _ _ hsame _ => exact hsame
  | resetting hreset =>
    cases husable.resets hreset with
    | refused => exact husable.sameVariables_refl
    | unremoved => exact husable.sameVariables_refl
    | removed _ _ hsame _ _ => exact hsame

/-- After any run of calls the variables tell the same. -/
theorem sameVariables_run (husable : Usable surroundings start.disk)
    (hrun : Relation.ReflTransGen (Call surroundings) start later) :
    SameVariables surroundings start.disk later.disk := by
  induction hrun with
  | refl => exact husable.sameVariables_refl
  | tail _ hcall ih => exact ih.trans (hcall.sameVariables ih.1)

theorem IsCurrent.saving (h : IsCurrent surroundings before)
    (husable : Usable surroundings before.disk) (hsaving : Saving surroundings before later) :
    IsCurrent surroundings later := by
  obtain ⟨disk, store⟩ := later
  obtain ⟨name, text, outcome, hset⟩ := hsaving
  cases husable.saves hset with
  | unknown => exact h
  | refused => exact h
  | unwritten _ hbuild hsame _ =>
    rw [IsCurrent, hsame.settingsFor_eq]
    exact settingsFor_of_build (Settings.build_put_json hbuild)
  | written _ hbuild hsame _ =>
    rw [IsCurrent, hsame.settingsFor_eq]
    exact settingsFor_of_build (Settings.build_put_json hbuild)

theorem IsCurrent.run (h : IsCurrent surroundings start) (husable : Usable surroundings start.disk)
    (hrun : Relation.ReflTransGen (Saving surroundings) start later) :
    IsCurrent surroundings later := by
  induction hrun with
  | refl => exact h
  | tail hbefore hsaving ih =>
    have hcalls := Relation.ReflTransGen.mono (fun _ _ => Call.saving) _ _ hbefore
    exact ih.saving (sameVariables_run husable hcalls).1 hsaving

end

end SettingsStore

end ImportAtlas
