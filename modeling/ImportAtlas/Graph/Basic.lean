import ImportAtlas.Assoc
import ImportAtlas.Text.Search
import ImportAtlas.Walk.Basic

set_option autoImplicit false

/-!
# Dependency graphs and statistics

A dependency graph names files by identifier.  Its keys are the files a walk
entered, in that order, each with the sorted identifiers of its dependencies.
The statistics of a walk count its files, its dependencies with repeats, and its
files by type.
-/

namespace ImportAtlas

/-- A graph as reports show it: identifiers with the identifiers they depend on. -/
abbrev Graph := List (String × List String)

/-- Counts over a graph. -/
structure Statistics where
  totalFiles : Int
  totalDependencies : Int
  filesByType : List (String × Int)
  deriving DecidableEq, Repr

/-- The types of files that every count lists, in their order. -/
def listedTypes : List String := countedTypes ++ [otherType]

/-- The statistics of nothing. -/
def Statistics.zero : Statistics :=
  ⟨0, 0, listedTypes.map fun t => (t, 0)⟩

namespace Walk

open Project

/-- The dependency graph of a walk. -/
def dependencyGraph (context : Context) (w : Walk) : Graph :=
  Assoc.ofList (w.graph.map fun (file, dependencies) =>
    (context.identifier file, Text.sort (dependencies.map context.identifier)))

/-- The statistics of a walk. -/
def statistics (w : Walk) : Statistics where
  totalFiles := w.graph.length
  totalDependencies := w.graph.foldr (fun e total => (e.2.length : Int) + total) 0
  filesByType := listedTypes.map fun t => (t, (w.graph.countP fun e => e.1.fileType == t : Nat))

end Walk

end ImportAtlas
