import ImportAtlas.Proofs.Disk.Elsewhere
import ImportAtlas.Proofs.Settings.Saved

set_option autoImplicit false

/-!
# Opening a store

To open a store makes the user's folders and keeps what there is
(`load_eq_ok`).  Afterwards the settings file has its place, unless a folder
stands there (`ready_of_load`), and a change of it is none of the variables file.
-/

namespace ImportAtlas.SettingsStore

/-- A store in use and the disk that the calls on it have left. -/
structure State where
  disk : Disk
  store : SettingsStore

variable {d e : Disk} {surroundings : Surroundings} {folder : Location} {store : SettingsStore}
  {saved : List (SettingKey × Json)} {settings : Settings}

/-! ## The place of the settings file -/

/-- The settings file has its place in a folder, where no folder stands, and the user's folders
are there. -/
structure Ready (surroundings : Surroundings) (folder : Location) (d : Disk) : Prop where
  place : d.place .openFile surroundings.configFile = .ok (folder, "config.json")
  noFolder : d.isFolderAt (folder ++ ["config.json"]) = false
  outside : ¬ folder ++ ["config.json"] <+: d.workingFolder
  configFolder : d.HasFolder surroundings.configFolder
  stateFolder : d.HasFolder surroundings.stateFolder

theorem Ready.of_sameElsewhere (h : Ready surroundings folder d)
    (hsame : d.SameElsewhere (folder ++ ["config.json"]) e) : Ready surroundings folder e where
  place := hsame.place_eq_ok (by simp) h.place
  noFolder := hsame.notFolder'
  outside := by
    rw [hsame.workingFolder]
    exact h.outside
  configFolder := hsame.hasFolder h.configFolder
  stateFolder := hsame.hasFolder h.stateFolder

/-- A change of the settings file is none of the variables file. -/
theorem sameFile_of_sameElsewhere (h : d.SameElsewhere (folder ++ ["config.json"]) e) :
    Settings.SameFile d e where
  workingPath := by rw [Disk.workingPath, Disk.workingPath, h.workingFolder]
  look := h.look List.getLast?_concat (by decide) (by simp [Settings.variablesFile])

theorem readSaved_of_read (hwritable : Json.IsWritable (document saved))
    (h : d.read surroundings.configFile = .ok (fileText saved).toUTF8) :
    readSaved d surroundings = .ok saved := by
  obtain ⟨location, hlocate, hentry⟩ := Disk.read_eq_ok_iff.mp h
  have hlook := Disk.look_eq_some_iff.mpr ⟨location, Disk.locate_task .lookUp hlocate, hentry⟩
  simp only [readSaved, Disk.contains, hlook, readDocument?_of_read hwritable h]
  exact congrArg Except.ok (savedOf_document saved)

theorem Ready.readSaved_of_none (h : Ready surroundings folder d)
    (hentry : d.entryAt? (folder ++ ["config.json"]) = none) :
    readSaved d surroundings = .ok [] := by
  simp only [readSaved, Disk.contains, Disk.look_of_place h.place, hentry]
  rfl

/-! ## Opening -/

variable [SettingsLibrary]

/-- Where the user's folders are there, opening a store only reads. -/
theorem load_of_hasFolder (hconfig : d.HasFolder surroundings.configFolder)
    (hstate : d.HasFolder surroundings.stateFolder) :
    load d surroundings = (d, read d surroundings) := by
  simp only [load, Disk.makeFolders_of_hasFolder hconfig, Disk.makeFolders_of_hasFolder hstate]

/-- Opening a store makes the user's folders and keeps what there is. -/
theorem load_eq_ok (h : load d surroundings = (e, .ok store)) :
    d.Keeps e ∧ e.HasFolder surroundings.configFolder ∧ e.HasFolder surroundings.stateFolder ∧
      read e surroundings = .ok store := by
  unfold load at h
  have hkeeps := Disk.keeps_makeFolders d surroundings.configFolder
  rcases hmade : d.makeFolders surroundings.configFolder with ⟨made, _ | fault⟩
  · rw [hmade] at h hkeeps
    have hkeeps' := Disk.keeps_makeFolders made surroundings.stateFolder
    rcases hall : made.makeFolders surroundings.stateFolder with ⟨all, _ | fault⟩
    · rw [hall] at hkeeps'
      simp only [hall, Prod.mk.injEq] at h
      obtain ⟨rfl, hread⟩ := h
      have hconfig := hkeeps'.within.hasFolder (Disk.hasFolder_of_makeFolders hmade)
      exact ⟨hkeeps.trans hkeeps', hconfig, Disk.hasFolder_of_makeFolders hall, hread⟩
    · simp [hall] at h
  · simp [hmade] at h

theorem read_eq_ok (h : read d surroundings = .ok store) :
    readSaved d surroundings = .ok store.saved ∧
      settingsFor d surroundings store.saved = .ok store.settings := by
  obtain ⟨saved, hsaved, h⟩ := Except.bind_eq_ok h
  obtain ⟨settings, hsettings, hstore⟩ := Except.bind_eq_ok h
  cases hstore
  exact ⟨Except.mapError_eq_ok_iff.mp hsaved, hsettings⟩

/-- Opening a store in an existing working folder leaves a place for the settings file. -/
theorem ready_of_load (hworking : d.workingPath.IsNormal)
    (hfolder : d.isFolder d.workingPath = .ok true)
    (hload : load d surroundings = (e, .ok store))
    (hfile : e.isFolder surroundings.configFile = .ok false) :
    ∃ folder, Ready surroundings folder e := by
  obtain ⟨hkeeps, hconfig, hstate, -⟩ := load_eq_ok hload
  have hpath : e.workingPath = d.workingPath := by
    rw [Disk.workingPath, Disk.workingPath, hkeeps.workingFolder]
  have habove : ∀ location, location <+: e.workingFolder → e.isFolderAt location = true := by
    have hstands := hkeeps.within.isFolder hfolder
    rw [← hpath] at hstands hworking
    exact fun location => Disk.isFolderAt_of_prefix hworking hstands
  obtain ⟨entry, hlook⟩ : ∃ entry, e.look surroundings.configFile = .ok entry := by
    unfold Disk.isFolder at hfile
    cases hlook : e.look surroundings.configFile with
    | error fault =>
      rw [hlook] at hfile
      cases hfile
    | ok entry => exact ⟨entry, rfl⟩
  obtain ⟨folder, hplace⟩ :
      ∃ folder, e.place .openFile surroundings.configFile = .ok (folder, "config.json") :=
    Disk.exists_place_child (habove _ List.prefix_rfl) hconfig (by decide) (by decide)
      (by decide) hlook
  have hnoFolder : e.isFolderAt (folder ++ ["config.json"]) = false := by
    rw [Disk.isFolder, Disk.look_of_place hplace, Except.map, Except.ok.injEq] at hfile
    simpa [Disk.isFolderAt] using hfile
  refine ⟨folder, hplace, hnoFolder, fun hbelow => ?_, hconfig, hstate⟩
  rw [habove _ hbelow] at hnoFolder
  cases hnoFolder

theorem read_of_readSaved (hsaved : readSaved d surroundings = .ok saved)
    (hbuild : Settings.build d surroundings saved = .ok settings) :
    read d surroundings = .ok ⟨saved, settings⟩ := by
  have hsettings : settingsFor d surroundings saved = .ok settings := by
    rw [settingsFor, hbuild]
  simp only [read, hsaved, Except.mapError, Except.ok_bind, hsettings]
  rfl

end ImportAtlas.SettingsStore
