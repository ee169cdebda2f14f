import ImportAtlas.Assoc
import ImportAtlas.Disk.Basic
import ImportAtlas.Json.Reader
import ImportAtlas.Settings.Key
import ImportAtlas.Text.Utf8

set_option autoImplicit false

/-!
# The library that reads settings

A library outside this project brings values to the types of the settings and
finds out what the variables around a program say.  It enters as a parameter:
`SettingsLibrary` is what the program calls, and `LawfulSettingsLibrary` is what
the program relies on.

The value of a key is the saved one, else that of a variable, else the default.
The variables are those of the environment and of a file in the working folder.
-/

namespace ImportAtlas

/-- What the library says against a value, or against the item at an index. -/
structure Complaint where
  index : Option Nat
  kind : String
  message : String
  deriving DecidableEq, Repr

/-- A complaint about the value of a key. -/
structure SettingIssue where
  key : SettingKey
  complaint : Complaint
  deriving DecidableEq, Repr

/-- Why settings cannot be built or changed. -/
inductive SettingsFault where
  | disk (fault : DiskFault)
  /-- the variables file is no text -/
  | notText (fault : Text.Utf8Fault)
  /-- a variable spells its list in something other than JSON -/
  | notJson (message : String)
  | invalid (issues : List SettingIssue)
  | unknownKey (name : String)
  deriving DecidableEq, Repr

/-- The wording of a fault; the first of several issues stands for all. -/
def SettingsFault.message : SettingsFault → String
  | disk fault => fault.message
  | notText fault => fault.message
  | notJson message => message
  | invalid issues => (issues.head?.map fun issue => issue.complaint.message).getD ""
  | unknownKey name => Text.quote name

/-- What surrounds a program: its variables and the folders for the user's settings and logs. -/
structure Surroundings where
  environment : List (String × String)
  configFolder : Path
  stateFolder : Path
  deriving DecidableEq, Repr

/-- What the program calls. -/
class SettingsLibrary where
  /-- brings a JSON value to the type of a setting, or says what is wrong with it -/
  convert : (shape : SettingShape) → Json → Except (List Complaint) shape.Value
  /-- the values that the variables of an environment and of the working folder's file spell -/
  variableLookup : Disk → List (String × String) → Except SettingsFault (SettingKey → Option Json)
  /-- the settings that saved values and the variables around them give -/
  build : Disk → List (String × String) → List (SettingKey × Json) → Except SettingsFault Settings

/-- The name of the variables file. -/
def Settings.variablesFile : String := ".env"

section

variable [SettingsLibrary]

/-- Brings a JSON value to a shape. -/
def SettingShape.convert (shape : SettingShape) (v : Json) :
    Except (List Complaint) shape.Value :=
  SettingsLibrary.convert shape v

/-- The values that the variables around saved ones give. -/
def Settings.variableLookup (disk : Disk) (surroundings : Surroundings) :
    Except SettingsFault (SettingKey → Option Json) :=
  SettingsLibrary.variableLookup disk surroundings.environment

/-- The settings that saved values and the variables around them give. -/
def Settings.build (disk : Disk) (surroundings : Surroundings)
    (saved : List (SettingKey × Json)) : Except SettingsFault Settings :=
  SettingsLibrary.build disk surroundings.environment saved

end

/-! ## What the program relies on -/

/-- A value keeps the bound of a shape. -/
def SettingShape.Admits : (shape : SettingShape) → shape.Value → Prop
  | count least, n => (least : Int) ≤ n
  | flag, _ => True
  | seconds, x => Decimal.ofInt 0 ≤ x
  | text, _ => True
  | texts, _ => True

/-- The value that is told for a key: the saved one, else that of the variables. -/
def Settings.told (around : SettingKey → Option Json) (saved : List (SettingKey × Json))
    (key : SettingKey) : Option Json :=
  (Assoc.get? key saved).or (around key)

/-- Settings are those of values: what the value of a key converts to, else the default. -/
def Settings.IsOf [SettingsLibrary] (settings : Settings) (values : SettingKey → Option Json) :
    Prop :=
  ∀ key,
    match values key with
    | none => settings key = key.defaultValue
    | some v => key.shape.convert v = .ok (settings key)

/-- Two disks with the same variables file in the working folder. -/
structure Settings.SameFile (d e : Disk) : Prop where
  workingPath : e.workingPath = d.workingPath
  look : e.look (d.workingPath.child variablesFile) = d.look (d.workingPath.child variablesFile)

/-- The library behaves as documented. -/
class LawfulSettingsLibrary [SettingsLibrary] : Prop where
  /-- a value of the type of a setting is taken as it is if it keeps the bound -/
  convert_json {shape : SettingShape} {x : shape.Value} (h : shape.Admits x) :
    shape.convert (shape.json x) = .ok x
  /-- every converted value keeps the bound -/
  admits_of_convert {shape : SettingShape} {v : Json} {x : shape.Value}
    (h : shape.convert v = .ok x) : shape.Admits x
  /-- an integer that is read from something other than an integer has not too many digits -/
  natAbs_of_convert {least : Nat} {v : Json} {n : Int}
    (h : (SettingShape.count least).convert v = .ok n) :
    v = .int n ∨ n.natAbs < Nat.pow 10 Json.maxDigits
  /-- of a disk, the variables depend on the file in the working folder alone -/
  variableLookup_eq {d e : Disk} (h : Settings.SameFile d e) (surroundings : Surroundings) :
    Settings.variableLookup e surroundings = Settings.variableLookup d surroundings
  /-- and so do the settings -/
  build_eq {d e : Disk} (h : Settings.SameFile d e) (surroundings : Surroundings)
    (saved : List (SettingKey × Json)) :
    Settings.build e surroundings saved = Settings.build d surroundings saved
  /-- variables that cannot be read give no settings, whatever is saved -/
  build_of_error {d : Disk} {surroundings : Surroundings} {fault : SettingsFault}
    (h : Settings.variableLookup d surroundings = .error fault)
    (saved : List (SettingKey × Json)) : Settings.build d surroundings saved = .error fault
  /-- saved values come before the variables, and these before the defaults; all are converted -/
  build_eq_ok_iff {d : Disk} {surroundings : Surroundings} {around : SettingKey → Option Json}
    {saved : List (SettingKey × Json)} {settings : Settings}
    (h : Settings.variableLookup d surroundings = .ok around) :
    Settings.build d surroundings saved = .ok settings ↔
      settings.IsOf (Settings.told around saved)
  /-- settings that cannot be built are complained about at every key whose value does not
  convert -/
  issues_of_build {d : Disk} {surroundings : Surroundings} {around : SettingKey → Option Json}
    {saved : List (SettingKey × Json)} {fault : SettingsFault}
    (h : Settings.variableLookup d surroundings = .ok around)
    (hbuild : Settings.build d surroundings saved = .error fault) :
    ∃ issues, fault = .invalid issues ∧ ∀ key, key ∈ issues.map SettingIssue.key ↔
      ∃ v complaints, Settings.told around saved key = some v ∧
        key.shape.convert v = .error complaints

end ImportAtlas
