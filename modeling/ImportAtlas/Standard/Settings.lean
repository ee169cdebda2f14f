import ImportAtlas.Standard.Convert
import ImportAtlas.Standard.EnvFile

set_option autoImplicit false

/-!
# The library that reads settings, as it is installed

The variable of a key has the key's name behind a fixed beginning, in any letter
case; a list is spelled in JSON, and null stands for no value.  A variable of the
environment comes before one of the file.

`build` gives all settings or says what is wrong: first a file that is no text,
then a list that is no JSON, then every value that does not convert, in the order
of the keys.
-/

namespace ImportAtlas

namespace Standard

/-- Where a variable is read from. -/
inductive VariableSource where
  | environment
  | file
  deriving DecidableEq, Repr

/-- The name of a source in messages. -/
def VariableSource.label : VariableSource → String
  | environment => "EnvSettingsSource"
  | file => "DotEnvSettingsSource"

/-- What the name of every variable begins with, in lower case. -/
def variableStart : String := "deptrace_"

/-- A letter in lower case, as far as names of variables need it: the letters A to Z and the
Kelvin sign. -/
def lowerLetter (c : Char) : Char :=
  if c = Char.ofNat 0x212A then 'k' else c.toLower

/-- A name in lower case. -/
def lowerName (name : String) : String :=
  String.ofList (name.toList.map lowerLetter)

/-- Variables by their names in lower case; of two that differ in case the later counts. -/
def lowered {α : Type} (assigned : List (String × α)) : List (String × α) :=
  Assoc.ofList (assigned.map fun v => (lowerName v.1, v.2))

/-- The variables of the working folder's file; without a file there are none. -/
def readVariablesFile (disk : Disk) (environment : List (String × String)) :
    Except SettingsFault (List EnvFile.Binding) := do
  let path := disk.workingPath.child Settings.variablesFile
  if !(← (disk.isFile path).mapError .disk) then return []
  let bytes ← (disk.read path).mapError .disk
  let text ← (Text.readStrict bytes).mapError .notText
  return EnvFile.parse environment text

/-- The wording for a list that is spelled in something other than JSON. -/
def unreadable (source : VariableSource) (key : SettingKey) : String :=
  "error parsing value for field \"" ++ key.name ++ "\" from source \"" ++ source.label ++ "\""

/-- The value that the text of a variable spells, if it is one. -/
def spelled (source : VariableSource) (key : SettingKey) (text : String) :
    Except SettingsFault (Option Json) :=
  match key.shape with
  | .texts =>
    match Json.parse? text with
    | none => .error (.notJson (unreadable source key))
    | some .null => .ok none
    | some v => .ok (some v)
  | _ => .ok (some (.string text))

/-- The value of a key among variables in lower case. -/
def variableValue (source : VariableSource) (assigned : List (String × Option String))
    (key : SettingKey) : Except SettingsFault (Option Json) :=
  match (Assoc.get? (variableStart ++ key.name) assigned).join with
  | none => .ok none
  | some text => spelled source key text

/-- The keys that variables set, with their values. -/
def variableValues (source : VariableSource) (assigned : List (String × Option String)) :
    Except SettingsFault (List (SettingKey × Json)) := do
  let found ← SettingKey.all.mapM fun key => do
    return (← variableValue source assigned key).map fun v => (key, v)
  return found.filterMap id

/-- The issues of the value of a key, if it has one. -/
def issuesOf (values : SettingKey → Option Json) (key : SettingKey) : List SettingIssue :=
  match values key with
  | none => []
  | some v =>
    match convert key.shape v with
    | .ok _ => []
    | .error complaints => complaints.map (SettingIssue.mk key)

/-- The setting that the value of a key converts to, else the default. -/
def settingOf (values : SettingKey → Option Json) (key : SettingKey) : key.Value :=
  match values key with
  | none => key.defaultValue
  | some v =>
    match convert key.shape v with
    | .ok x => x
    | .error _ => key.defaultValue

/-- The settings of given values, or all that is wrong with them. -/
def ofValues (values : SettingKey → Option Json) : Except SettingsFault Settings :=
  match SettingKey.all.flatMap (issuesOf values) with
  | [] => .ok (settingOf values)
  | issues => .error (.invalid issues)

/-- The values that the variables of an environment and of the working folder's file spell. -/
def variableLookup (disk : Disk) (environment : List (String × String)) :
    Except SettingsFault (SettingKey → Option Json) := do
  let file ← readVariablesFile disk environment
  let outer ← variableValues .environment (lowered (environment.map fun v => (v.1, some v.2)))
  let inner ← variableValues .file (lowered file)
  return fun key => (Assoc.get? key outer).or (Assoc.get? key inner)

/-- The settings that saved values and the variables around them give. -/
def build (disk : Disk) (environment : List (String × String))
    (saved : List (SettingKey × Json)) : Except SettingsFault Settings := do
  ofValues (Settings.told (← variableLookup disk environment) saved)

/-- The installed library. -/
instance : SettingsLibrary := ⟨convert, variableLookup, build⟩

end Standard

namespace Surroundings

/-- The name of the program's own folders. -/
def folderName : String := "deptrace"

/-- The program's folder below the one that a variable tells; a blank variable counts as none, and
then the folder lies at a fixed place of the home folder. -/
def folderOf (environment : List (String × String)) (named : String) (place : List String) : Path :=
  let given := (Assoc.get? named environment).filter fun text => Text.strip text != ""
  let home := Path.ofString ((Assoc.get? "HOME" environment).getD "/")
  let base := match given with
    | some text => Path.ofString text
    | none => ⟨home.anchor, home.parts ++ place⟩
  base.child folderName

/-- The surroundings that the environment tells. -/
def ofEnvironment (environment : List (String × String)) : Surroundings where
  environment := environment
  configFolder := folderOf environment "XDG_CONFIG_HOME" [".config"]
  stateFolder := folderOf environment "XDG_STATE_HOME" [".local", "state"]

end Surroundings

end ImportAtlas
