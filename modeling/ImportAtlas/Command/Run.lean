import ImportAtlas.Command.Configure
import ImportAtlas.Command.Inspect
import ImportAtlas.Command.Watch

set_option autoImplicit false

/-!
# Running a command line

`Command.runLine` reads a command line and runs its command on a disk.  What
happens while it watches is given as ticks.
-/

namespace ImportAtlas.Command

open Printing Watch

variable [SettingsLibrary] [Console]

/-- The version of the program. -/
def programVersion : String := "0.1.0"

/-- Prints the version. -/
def printVersion : Printing Unit :=
  say ("[cyan]deptrace[/cyan] version [green]" ++ programVersion ++ "[/green]")

/-- The lines of the help. -/
def helpLines : List String :=
  ["Usage: deptrace [OPTIONS] COMMAND [ARGS]...", "",
    "  --version, -v  Show version and exit.",
    "  --help         Show this message and exit.", "",
    "  analyze   Trace dependencies from one or more entry files",
    "  validate  Check that entry files exist inside the project",
    "  tree      Show the folder structure of a directory",
    "  watch     Regenerate the report whenever sources change",
    "  config    Show or change the default settings"]

/-- Runs a command. -/
def run (disk : Disk) (surroundings : Surroundings) (now : Float) (ticks : List (Tick Disk Float)) :
    Command → CommandRun
  | help => .printing disk "" (helpLines.forM echo)
  | version => .printing disk "" printVersion
  | analyze arguments => runAnalyze disk surroundings arguments
  | validate entries projectRoot => runValidate disk entries projectRoot
  | tree folder depth asJson => runTree disk surroundings folder depth asJson
  | watch arguments => runWatch disk surroundings arguments now ticks
  | config assignments reset => runConfig disk surroundings assignments reset

/-- Runs a command line. -/
def runLine (disk : Disk) (surroundings : Surroundings) (now : Float)
    (ticks : List (Tick Disk Float)) (words : List String) : CommandRun :=
  match parse words with
  | .ok command => run disk surroundings now ticks command
  | .error ending => ⟨disk, "", ending⟩

end ImportAtlas.Command
