import ImportAtlas.Command.Outcome

set_option autoImplicit false

/-!
# The command `config`

The command forgets the saved settings if asked to, saves new ones one after the
other until one is refused, and prints all settings in a table that says which
are saved.
-/

namespace ImportAtlas.Command

open Printing

variable [SettingsLibrary] [Console]

/-- How far the command has come; an ending means that it goes no further. -/
structure ConfigProgress where
  disk : Disk
  store : SettingsStore
  output : String
  ended : Option Ending

namespace ConfigProgress

/-- Prints a message. -/
def tell (s : ConfigProgress) (p : Printing Unit) : ConfigProgress :=
  match p.runFrom s.output with
  | (.ok _, output) => { s with output := output }
  | (.error ending, output) => { s with output := output, ended := some ending }

/-- Prints why the command fails. -/
def refuse (s : ConfigProgress) (message : String) : ConfigProgress :=
  s.tell do
    say ("[red]Error:[/red] " ++ message)
    throw .failed

/-- Forgets the saved settings. -/
def reset (surroundings : Surroundings) (s : ConfigProgress) : ConfigProgress :=
  match s.store.reset s.disk surroundings with
  | (disk, store, .ok _) =>
    tell { s with disk := disk, store := store } (say "[green]Saved settings removed[/green]")
  | (disk, store, .error fault) =>
    { s with disk := disk, store := store, ended := some (.broken (.settings fault)) }

/-- Saves a value under a name. -/
def save (surroundings : Surroundings) (name value : String) (s : ConfigProgress) :
    ConfigProgress :=
  match s.store.set s.disk surroundings name value with
  | (disk, store, outcome) =>
    let s := { s with disk := disk, store := store }
    match outcome with
    | .ok _ => s
    | .error (.unknownKey name) => s.refuse ("unknown setting " ++ Text.quote name)
    | .error (.invalid issues) =>
      s.refuse ("invalid value for " ++ Text.quote name ++ ": " ++
        (SettingsFault.invalid issues).message)
    | .error fault => { s with ended := some (.broken (.settings fault)) }

/-- Carries out an assignment of the form `name=value`, unless the command has ended. -/
def assign (surroundings : Surroundings) (s : ConfigProgress) (word : String) : ConfigProgress :=
  if s.ended.isSome then s
  else
    match word.toList.dropWhile (· != '=') with
    | [] => s.refuse ("expected KEY=VALUE, got " ++ Text.quote word)
    | _ :: value =>
      let name := word.toList.takeWhile (· != '=')
      s.save surroundings (String.ofList (Text.trim name)) (String.ofList (Text.trim value))

end ConfigProgress

/-- The row of a setting. -/
def settingRow (store : SettingsStore) (key : SettingKey) : Printing (List String) := do
  let value := Json.write .ascii .oneLine (key.shape.json (store.settings key))
  let source := if (Assoc.get? key store.saved).isSome then "config.json" else "default"
  return [key.name, ← textOf value, source]

/-- Prints all settings. -/
def printSettings (surroundings : Surroundings) (store : SettingsStore) : Printing Unit := do
  let rows ← SettingKey.all.mapM (settingRow store)
  let table : Table :=
    ⟨"deptrace settings", [⟨"Setting", .left⟩, ⟨"Value", .left⟩, ⟨"Source", .left⟩], rows⟩
  printTable table
  say ("[cyan]Config file:[/cyan] " ++ surroundings.configFile.text)
  say ("[cyan]Log file:[/cyan] " ++ surroundings.logFile.text)

/-- Runs `config`. -/
def runConfig (disk : Disk) (surroundings : Surroundings) (assignments : List String)
    (reset : Bool) : CommandRun :=
  CommandStep.run do
    let (disk, store) ← openSettings disk surroundings
    let start : ConfigProgress := ⟨disk, store, "", none⟩
    let cleared := if reset then start.reset surroundings else start
    let s := assignments.foldl (ConfigProgress.assign surroundings) cleared
    match s.ended with
    | some ending => return ⟨s.disk, s.output, ending⟩
    | none => return .printing s.disk s.output (printSettings surroundings s.store)

end ImportAtlas.Command
