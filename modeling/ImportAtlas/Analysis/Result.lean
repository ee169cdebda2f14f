import ImportAtlas.Graph.Basic

set_option autoImplicit false

/-!
# Results of analyses

The result of analysing one entry file, and the merger of several such results
over one project.  The merged graph is the union of the graphs: its keys in the
order in which they first appear, each with the dependencies of all results in
order and without repeats.  The merged statistics are sums, so a file reached
from two entries counts twice.
-/

namespace ImportAtlas

/-- The outcome of analysing one entry file. -/
structure Analysis where
  entryFile : String
  dependencyGraph : Graph
  directoryTree : String
  statistics : Statistics
  diagnostics : List Diagnostic
  deriving DecidableEq, Repr

/-- The outcomes of several entry files as one. -/
structure Merged where
  entryFile : String
  dependencyGraph : Graph
  directoryTree : String
  statistics : Statistics
  entryResults : List Analysis
  deriving DecidableEq, Repr

/-- The diagnostics of all entries, in order. -/
def Merged.diagnostics (m : Merged) : List Diagnostic :=
  m.entryResults.flatMap Analysis.diagnostics

namespace Graph

/-- A list of dependencies with those of another appended that it lacks. -/
def addNew (known added : List String) : List String :=
  added.foldl (fun known d => if known.contains d then known else known ++ [d]) known

/-- A graph with the dependencies of a file added. -/
def addFile (merged : Graph) (file : String) (dependencies : List String) : Graph :=
  Assoc.put file (addNew ((Assoc.get? file merged).getD []) dependencies) merged

/-- The ordered union of graphs. -/
def merge (graphs : List Graph) : Graph :=
  graphs.foldl (fun merged graph => graph.foldl (fun m e => addFile m e.1 e.2) merged) []

end Graph

namespace Statistics

/-- Counts by type with those of another added. -/
def addTypes (known added : List (String × Int)) : List (String × Int) :=
  added.foldl (fun known e => Assoc.put e.1 ((Assoc.get? e.1 known).getD 0 + e.2) known) known

/-- The sum of two statistics. -/
def add (a b : Statistics) : Statistics :=
  ⟨a.totalFiles + b.totalFiles, a.totalDependencies + b.totalDependencies,
    addTypes a.filesByType b.filesByType⟩

/-- The sum of a list of statistics. -/
def sum (parts : List Statistics) : Statistics :=
  parts.foldl add zero

end Statistics

/-- The merger of a list of results, which must not be empty.  The entries share one project, so
the first tree stands for all. -/
def Merged.ofResults? (results : List Analysis) : Option Merged :=
  match results with
  | [] => none
  | first :: _ => some {
      entryFile := ", ".intercalate (results.map Analysis.entryFile)
      dependencyGraph := Graph.merge (results.map Analysis.dependencyGraph)
      directoryTree := first.directoryTree
      statistics := Statistics.sum (results.map Analysis.statistics)
      entryResults := results }

end ImportAtlas
