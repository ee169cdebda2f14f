import ImportAtlas.Command.Request
import ImportAtlas.Settings.Store

set_option autoImplicit false

/-!
# Where a command looks

Before a command runs, its part of the machine is taken in as a disk.  The
settings are read first, from three files; they and the arguments then say at
which places the command may look.
-/

namespace ImportAtlas

/-- The files that settings and logs are kept in. -/
def Surroundings.files (surroundings : Surroundings) (workingFolder : Path) : List Path :=
  [surroundings.configFile, surroundings.logFile, workingFolder.child Settings.variablesFile]

/-- The project, the entries and the report of an analysis. -/
def AnalysisArguments.places (arguments : AnalysisArguments) (settings : Settings)
    (workingFolder : Path) : List Path :=
  let root := workingFolder ++ arguments.projectRoot.getD workingFolder
  root :: Request.reportTarget settings arguments root ::
    arguments.entries.map fun entry => root ++ Path.ofString entry

/-- The places at which a command may look besides the files of its settings. -/
def Command.places (settings : Settings) (workingFolder : Path) : Command → List Path
  | help | version | config _ _ => []
  | analyze arguments | watch arguments => arguments.places settings workingFolder
  | validate entries projectRoot =>
    let root := workingFolder ++ projectRoot.getD workingFolder
    root :: entries.map fun entry => root ++ Path.ofString entry
  | tree folder _ _ => [workingFolder ++ folder.getD workingFolder]

end ImportAtlas
