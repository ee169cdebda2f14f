import ImportAtlas.Command.Request
import ImportAtlas.Settings.Store

set_option autoImplicit false

/-!
# Running a command

A run ends with a disk, the text printed and the way it ended.  A command is a
sequence of steps, each of which may end the run.  Commands that use settings
first open the user's folders; those that analyse also open the log.
-/

namespace ImportAtlas

/-- What a command leaves behind. -/
structure CommandRun where
  disk : Disk
  output : String
  ending : Ending

/-- A step of a command: it goes on with a value, or ends the run. -/
abbrev CommandStep := Except CommandRun

/-- The run that a last step makes. -/
def CommandStep.run (step : CommandStep CommandRun) : CommandRun :=
  match step with
  | .ok last => last
  | .error ended => ended

namespace CommandRun

/-- Prints behind what was printed before, and goes on with what is found and all that is
printed. -/
def print {α : Type} (disk : Disk) (before : String) (p : Printing α) :
    CommandStep (α × String) :=
  match p.runFrom before with
  | (.ok a, output) => .ok (a, output)
  | (.error ending, output) => .error ⟨disk, output, ending⟩

/-- A run that only has to print. -/
def printing (disk : Disk) (before : String) (p : Printing Unit) : CommandRun :=
  match p.runFrom before with
  | (.ok _, output) => ⟨disk, output, .finished⟩
  | (.error ending, output) => ⟨disk, output, ending⟩

/-- A run that breaks off. -/
def broken (disk : Disk) (output : String) (fault : CommandFault) : CommandRun :=
  ⟨disk, output, .broken fault⟩

end CommandRun

namespace Command

/-- Opens the log: a file is created where none is. -/
def openLog (disk : Disk) (surroundings : Surroundings) : Except DiskFault Disk :=
  disk.openBehind surroundings.logFile

variable [SettingsLibrary]

/-- Opens the user's folders and settings. -/
def openSettings (disk : Disk) (surroundings : Surroundings) :
    CommandStep (Disk × SettingsStore) :=
  match SettingsStore.load disk surroundings with
  | (disk, .error fault) => .error (.broken disk "" (.settings fault))
  | (disk, .ok store) => .ok (disk, store)

/-- Opens the settings and the log. -/
def openSettingsAndLog (disk : Disk) (surroundings : Surroundings) :
    CommandStep (Disk × Settings) := do
  let (disk, store) ← openSettings disk surroundings
  match openLog disk surroundings with
  | .error fault => throw (.broken disk "" (.disk fault))
  | .ok disk => return (disk, store.settings)

end Command

end ImportAtlas
