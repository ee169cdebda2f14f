import ImportAtlas.Disk.Edit
import ImportAtlas.Json.Writer
import ImportAtlas.Settings.Library

set_option autoImplicit false

/-!
# The user's settings

A store keeps the values the user has saved, in the order in which they were
first saved, and the settings in force.  The saved values live in a JSON file of
the user's configuration folder; a file that cannot be understood counts as
empty, and values in it that do not convert are kept but not used.

An operation may fail part-way, so each returns the disk and the store as they
are afterwards together with its outcome.
-/

namespace ImportAtlas

/-- The file of saved settings. -/
def Surroundings.configFile (s : Surroundings) : Path :=
  s.configFolder.child "config.json"

/-- The file that the log is written to. -/
def Surroundings.logFile (s : Surroundings) : Path :=
  s.stateFolder.child "deptrace.log"

/-- Saved values and the settings in force. -/
structure SettingsStore where
  saved : List (SettingKey × Json)
  settings : Settings

namespace SettingsStore

/-- The saved values of a document: the members of an object whose names are keys. -/
def savedOf : Json → List (SettingKey × Json)
  | .object members =>
    members.filterMap fun (name, v) =>
      ((Text.text? name).bind SettingKey.ofName?).map fun key => (key, v)
  | _ => []

/-- The document of saved values. -/
def document (saved : List (SettingKey × Json)) : Json :=
  .object (saved.map fun (key, v) => (Text.points key.name, v))

/-- The document in a file, if it holds one. -/
def readDocument? (disk : Disk) (path : Path) : Option Json :=
  match disk.read path with
  | .error _ => none
  | .ok bytes =>
    match Text.readStrict bytes with
    | .error _ => none
    | .ok text => Json.parse? text

/-- The value that a text given by the user stands for: the JSON value it spells, else itself. -/
def givenValue (text : String) : Json :=
  (Json.parse? text).getD (.string text)

/-- The text of the file of saved values. -/
def fileText (saved : List (SettingKey × Json)) : String :=
  Json.write .ascii .lines (document saved)

/-- The saved values on a disk. -/
def readSaved (disk : Disk) (surroundings : Surroundings) :
    Except DiskFault (List (SettingKey × Json)) := do
  if ← disk.contains surroundings.configFile then
    return savedOf ((readDocument? disk surroundings.configFile).getD .null)
  else return []

section

variable [SettingsLibrary]

/-- The settings of saved values; values that do not convert are set aside all together. -/
def settingsFor (disk : Disk) (surroundings : Surroundings) (saved : List (SettingKey × Json)) :
    Except SettingsFault Settings :=
  match Settings.build disk surroundings saved with
  | .error (.invalid _) => Settings.build disk surroundings []
  | result => result

/-- The store of the saved values on a disk. -/
def read (disk : Disk) (surroundings : Surroundings) : Except SettingsFault SettingsStore := do
  let saved ← (readSaved disk surroundings).mapError .disk
  return ⟨saved, ← settingsFor disk surroundings saved⟩

/-- Opens the store, creating the user's folders if need be. -/
def load (disk : Disk) (surroundings : Surroundings) :
    Disk × Except SettingsFault SettingsStore :=
  match disk.makeFolders surroundings.configFolder with
  | (disk, some fault) => (disk, .error (.disk fault))
  | (disk, none) =>
    match disk.makeFolders surroundings.stateFolder with
    | (disk, some fault) => (disk, .error (.disk fault))
    | (disk, none) => (disk, read disk surroundings)

/-- Saves a value under a name.  Nothing changes unless all saved values convert together with the
new one. -/
def set (disk : Disk) (surroundings : Surroundings) (store : SettingsStore) (name text : String) :
    Disk × SettingsStore × Except SettingsFault ((key : SettingKey) × key.Value) :=
  match SettingKey.ofName? name with
  | none => (disk, store, .error (.unknownKey name))
  | some key =>
    match Settings.build disk surroundings (Assoc.put key (givenValue text) store.saved) with
    | .error fault => (disk, store, .error fault)
    | .ok settings =>
      let saved := Assoc.put key (key.shape.json (settings key)) store.saved
      match disk.write surroundings.configFile (fileText saved).toUTF8 with
      | (disk, none) => (disk, ⟨saved, settings⟩, .ok ⟨key, settings key⟩)
      | (disk, some fault) => (disk, ⟨saved, settings⟩, .error (.disk fault))

/-- Forgets all saved values.  The saved values are gone even when the variables around them give
no settings; the file is removed last. -/
def reset (disk : Disk) (surroundings : Surroundings) (store : SettingsStore) :
    Disk × SettingsStore × Except SettingsFault Unit :=
  match Settings.build disk surroundings [] with
  | .error fault => (disk, ⟨[], store.settings⟩, .error fault)
  | .ok settings =>
    match disk.unlink surroundings.configFile with
    | .ok disk => (disk, ⟨[], settings⟩, .ok ())
    | .error fault => (disk, ⟨[], settings⟩, .error (.disk fault))

end

end SettingsStore

end ImportAtlas
