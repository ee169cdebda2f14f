import ImportAtlas.Analysis.Batch
import ImportAtlas.Command.Outcome
import ImportAtlas.Folder.Drawing
import ImportAtlas.Json.Writer

set_option autoImplicit false

/-!
# The commands `validate` and `tree`

Both only look: `validate` sorts entries into those that exist inside a project
and the others, and `tree` shows the folders below a folder.
-/

namespace ImportAtlas.Command

open Printing

variable [SettingsLibrary] [Console]

/-- Prints which entries are valid; it fails when none is. -/
def printValidation (disk : Disk) (entries : List String) (projectRoot : Option Path) :
    Printing Unit := do
  let sorted ← attempt .disk (Validation.ofEntries disk projectRoot entries)
  sorted.valid.forM fun entry => say ("[green]✓[/green] " ++ entry)
  sorted.invalid.forM fun entry => say ("[red]✗[/red] " ++ entry)
  if sorted.valid = [] then
    say "[red]No valid entry files[/red]"
    throw .failed

/-- Runs `validate`. -/
def runValidate (disk : Disk) (entries : List String) (projectRoot : Option Path) : CommandRun :=
  .printing disk "" (printValidation disk entries projectRoot)

/-- Prints the folders below a folder. -/
def printTree (disk : Disk) (settings : Settings) (given : Option Path) (depth : Option Int)
    (asJson : Bool) : Printing Unit := do
  let root ← Request.folder disk given
  let probe := disk.probeBetween (settings .ignoredDirs) 0 (depth.getD (settings .probeDepth)) root
  match ← attempt .disk probe with
  | none => return
  | some node =>
    if asJson then echo (Json.write .unicode .lines node.json)
    else printBranch node.tree

/-- Runs `tree`. -/
def runTree (disk : Disk) (surroundings : Surroundings) (given : Option Path) (depth : Option Int)
    (asJson : Bool) : CommandRun :=
  CommandStep.run do
    let (disk, store) ← openSettings disk surroundings
    return .printing disk "" (printTree disk store.settings given depth asJson)

end ImportAtlas.Command
