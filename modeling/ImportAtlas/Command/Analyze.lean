import ImportAtlas.Analysis.Document
import ImportAtlas.Command.Outcome
import ImportAtlas.Report.Section

set_option autoImplicit false

/-!
# The command `analyze`

The command analyses the entries of a request, and prints the result as JSON or
writes the report.  Up to the report it only reads the disk: `findings` prints
what there is to say and returns the result that the report is about.
-/

namespace ImportAtlas

open Printing

variable [SettingsLibrary] [Console]

namespace Batch

/-- Says which entries have no result. -/
def printSkipped (b : Batch) : Printing Unit := do
  b.invalidEntries.forM fun entry => say ("[yellow]Invalid entry:[/yellow] " ++ entry)
  b.errors.forM fun e => say ("[red]Failed:[/red] " ++ e.entry ++ " - " ++ e.error)

end Batch

namespace Merged

/-- The table of statistics. -/
def table (m : Merged) : Table where
  title := "Dependency Analysis"
  columns := [⟨"Metric", .left⟩, ⟨"Value", .right⟩]
  rows :=
    [["Entry files", toString m.entryResults.length],
      ["Total files", toString m.statistics.totalFiles],
      ["Total dependencies", toString m.statistics.totalDependencies]] ++
    ((m.statistics.filesByType.filter fun e => 0 < e.2).map fun (fileType, count) =>
      ["  " ++ fileType, toString count]) ++
    (if m.diagnostics = [] then []
    else [["Skipped references", toString m.diagnostics.length]])

end Merged

namespace Command

/-- Analyses the entries of a request. -/
def analyse (disk : Disk) (request : Request) : Printing Batch :=
  match Batch.ofEntries disk request.options request.entries with
  | .ok batch => pure batch
  | .error (.disk fault) => fail (.disk fault)
  | .error error => do
    say ("[red]Error:[/red] " ++ error.message)
    throw .failed

/-- Prints a batch as JSON. -/
def printJson (batch : Batch) : Printing Unit := do
  echo (Json.write .unicode .lines batch.json)
  if !batch.success then throw .failed

/-- Prints a batch for a reader and returns its result. -/
def printBatch (disk : Disk) (request : Request) (batch : Batch) : Printing Merged := do
  batch.printSkipped
  match batch.data? with
  | some data =>
    printTable data.table
    return data
  | none =>
    say ("[red]Error:[/red] " ++ batch.message)
    Request.printHint disk request.root
    throw .failed

/-- Prints what an analysis finds.  The result is returned if a report is to be written. -/
def findings (disk : Disk) (settings : Settings) (arguments : AnalysisArguments) :
    Printing (Option (Request × Merged)) := do
  let request ← Request.create disk settings arguments
  let batch ← analyse disk request
  if arguments.asJson then
    printJson batch
    return none
  else
    return some (request, ← printBatch disk request batch)

/-- The message after the report is written. -/
def savedMessage (path : Path) : Printing Unit :=
  say ("[green]✓ Report saved to[/green] " ++ path.text)

/-- The message after the report could not be written. -/
def unsavedMessage (path : Path) : Printing Unit := do
  say ("[red]Failed to write report:[/red] " ++ path.text)
  throw .failed

/-- Writes the report of a result. -/
def writeReport (disk : Disk) (output : String) (request : Request) (data : Merged) : CommandRun :=
  match Section.update disk request.report (data.report request.title).text with
  | (disk, .written) => .printing disk output (savedMessage request.report)
  | (disk, .failed _) => .printing disk output (unsavedMessage request.report)
  | (disk, .unusablePath fault) => .broken disk output (.disk fault)
  | (disk, .notText fault) => .broken disk output (.notText fault)
  | (disk, .notEncodable fault) => .broken disk output (.notEncodable fault)

/-- Runs `analyze`. -/
def runAnalyze (disk : Disk) (surroundings : Surroundings) (arguments : AnalysisArguments) :
    CommandRun :=
  CommandStep.run do
    let (disk, settings) ← openSettingsAndLog disk surroundings
    let (found, output) ← CommandRun.print disk "" (findings disk settings arguments)
    match found with
    | none => return ⟨disk, output, .finished⟩
    | some (request, data) => return writeReport disk output request data

end Command

end ImportAtlas
