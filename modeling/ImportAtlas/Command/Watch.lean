import ImportAtlas.Command.Analyze
import ImportAtlas.Watch.Session

set_option autoImplicit false

/-!
# The command `watch`

The command writes the report once and then again whenever the watcher sees that
changes have settled, until it is interrupted.  The first report may end the
command with a fault; a later one that fails is only logged.
-/

namespace ImportAtlas.Command

open Printing Watch

variable [SettingsLibrary] [Console]

/-- Writes the report of a request and tells whether it is up to date. -/
def regenerate (request : Request) (disk : Disk) : Disk × Except CommandFault Bool :=
  match Batch.ofEntries disk request.options request.entries with
  | .error error => (disk, .error (.analysis error))
  | .ok batch =>
    match batch.data? with
    | none => (disk, .ok false)
    | some data =>
      match Section.update disk request.report (data.report request.title).text with
      | (disk, .written) => (disk, .ok true)
      | (disk, .failed _) => (disk, .ok false)
      | (disk, .unusablePath fault) => (disk, .error (.disk fault))
      | (disk, .notText fault) => (disk, .error (.notText fault))
      | (disk, .notEncodable fault) => (disk, .error (.notEncodable fault))

/-- How a report that is written while watching ends. -/
def update (request : Request) (disk : Disk) : Disk × UpdateOutcome :=
  match regenerate request disk with
  | (disk, .ok true) => (disk, .updated)
  | (disk, .ok false) => (disk, .incomplete)
  | (disk, .error fault) => (disk, .failed fault.message)

/-- What is printed before watching begins. -/
def printWatching (request : Request) (saved : Bool) : Printing Unit := do
  if saved then savedMessage request.report
  say ("[green]Watching[/green] " ++ request.root.text)
  say "[yellow]Press Ctrl+C to stop[/yellow]"

/-- What is printed when watching is over. -/
def printEnd : RunEnd → Printing Unit
  | .stopped => pure ()
  | .interrupted => say "\n[yellow]Stopped watching[/yellow]"

/-- What watching starts from. -/
structure WatchStart where
  disk : Disk
  output : String
  settings : Settings
  request : Request

/-- Writes the first report and says that watching begins. -/
def beginWatch (disk : Disk) (surroundings : Surroundings) (arguments : AnalysisArguments) :
    CommandStep WatchStart := do
  let (disk, settings) ← openSettingsAndLog disk surroundings
  let (request, output) ← CommandRun.print disk "" (Request.create disk settings arguments)
  match regenerate request disk with
  | (disk, .error fault) => throw (.broken disk output fault)
  | (disk, .ok saved) =>
    let (_, output) ← CommandRun.print disk output (printWatching request saved)
    return ⟨disk, output, settings, request⟩

/-- The session in which a request is watched from a time on. -/
def WatchStart.session (s : WatchStart) (now : Float) : Session Disk Float :=
  let filter := EventFilter.create s.disk.workingPath s.request.root (some s.request.report)
    s.request.options.exclude
  ⟨.create filter (s.settings .watchDelay) now, s.disk, now, [], []⟩

/-- Runs `watch` from a time on, while the ticks happen. -/
def runWatch (disk : Disk) (surroundings : Surroundings) (arguments : AnalysisArguments)
    (now : Float) (ticks : List (Tick Disk Float)) : CommandRun :=
  CommandStep.run do
    let start ← beginWatch disk surroundings arguments
    let (session, ended) := (start.session now).run (update start.request) ticks
    return .printing session.world start.output (printEnd ended)

end ImportAtlas.Command
