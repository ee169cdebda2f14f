import ImportAtlas.Analysis.EntrySearch
import ImportAtlas.Command.Arguments
import ImportAtlas.Folder.Probe
import ImportAtlas.Settings.Key

set_option autoImplicit false

/-!
# What a command is to analyse

A request says which entries of which project are analysed and where the report
goes.  What the command line leaves open the settings decide; without an entry
the usual entry files are looked for.
-/

namespace ImportAtlas

/-- A request for a report. -/
structure Request where
  root : Path
  entries : List String
  options : Options
  report : Path
  title : String
  deriving DecidableEq, Repr

namespace Request

open Printing

variable [Console]

/-- The number of lines that a hint shows. -/
def hintLines : Nat := 20

/-- How deep a hint goes. -/
def hintDepth : Int := 2

/-- Shows what lies in a project, shortened to a few lines. -/
def printHint (disk : Disk) (root : Path) : Printing Unit := do
  let lines ← attempt .disk (disk.listingBetween "" 0 hintDepth root.text)
  if lines = [] then return
  say "[yellow]Project structure:[/yellow]"
  (lines.take hintLines).forM line
  if hintLines < lines.length then line "..."

/-- The folder that a path names, or the working folder. -/
def folder (disk : Disk) (given : Option Path) : Printing Path := do
  let root := disk.absolute (given.getD disk.workingPath)
  if !(← attempt .disk (disk.isFolder root)) then
    say ("[red]Error:[/red] " ++ root.text ++ " is not a valid directory")
    throw .failed
  return root

/-- The entries given, without blank ones, or else the entry file that is found. -/
def entriesOf (disk : Disk) (settings : Settings) (root : Path) (given : List String) :
    Printing (List String) := do
  let given := given.filter fun entry => Text.strip entry != ""
  if given != [] then return given
  match ← attempt .disk (Analysis.findEntry disk.view root none (settings .commonEntries)) with
  | some found =>
    say ("[cyan]Using entry file:[/cyan] " ++ found.text)
    return [found.text]
  | none =>
    say ("[red]Error:[/red] No entry file given and no common entry file found in " ++ root.text)
    printHint disk root
    throw .failed

/-- The options of an analysis. -/
def optionsOf (settings : Settings) (arguments : AnalysisArguments) (root : Path) : Options where
  projectRoot := some root
  maxDepth := arguments.maxDepth.getD (settings .maxDepth)
  treeDepth := arguments.treeDepth.getD (settings .treeDepth)
  showCounts := arguments.showDeps.getD (settings .showDeps)
  exclude := if arguments.exclude = [] then settings .excludeDirs else arguments.exclude

/-- The path of the report, seen from the project root. -/
def reportTarget (settings : Settings) (arguments : AnalysisArguments) (root : Path) : Path :=
  root ++ arguments.output.getD (Path.ofString (settings .reportOutput))

/-- The title of the report; an empty one counts as none. -/
def titleOf (settings : Settings) (arguments : AnalysisArguments) : String :=
  match arguments.title with
  | none | some "" => settings .reportTitle
  | some title => title

/-- The request that arguments and settings make. -/
def create (disk : Disk) (settings : Settings) (arguments : AnalysisArguments) :
    Printing Request := do
  let root ← folder disk arguments.projectRoot
  let entries ← entriesOf disk settings root arguments.entries
  return {
    root := root
    entries := entries
    options := optionsOf settings arguments root
    report := reportTarget settings arguments root
    title := titleOf settings arguments }

end Request

end ImportAtlas
