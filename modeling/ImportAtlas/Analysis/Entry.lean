import ImportAtlas.Analysis.Result
import ImportAtlas.Tree.Render

set_option autoImplicit false

/-!
# Analysing an entry file

An analysis walks from one entry file and draws the graph it finds.  It fails
before the walk when the project root is no folder, or when the entry is no file
or may not be read; nothing that the walk meets in the files themselves makes it
fail.
-/

namespace ImportAtlas

open Project

/-- The options of an analysis. -/
structure Options where
  /-- the project root, or the working folder -/
  projectRoot : Option Path
  maxDepth : Int
  treeDepth : Int
  showCounts : Bool
  exclude : List String
  deriving DecidableEq, Repr

/-- Why an analysis has no result. -/
inductive AnalysisError where
  | rootNotFolder (root : Path)
  | entryMissing (entry : Path)
  | entryNotFile (entry : Path)
  | entryUnreadable (entry : Path)
  | noEntries
  | nothingToMerge
  | disk (fault : DiskFault)
  deriving DecidableEq, Repr

/-- The wording of an error. -/
def AnalysisError.message : AnalysisError → String
  | .rootNotFolder root => "Project root is not a directory: " ++ root.text
  | .entryMissing entry => "Entry file does not exist: " ++ entry.text
  | .entryNotFile entry => "Entry file is not a file: " ++ entry.text
  | .entryUnreadable entry => "Entry file is not readable: " ++ entry.text
  | .noEntries => "No entry files given"
  | .nothingToMerge => "No analysis results to merge"
  | .disk fault => fault.message

namespace Analysis

/-- The name of the folder that heads the drawing. -/
def treeName (context : Context) : String :=
  if context.sourceRoot.name = "" then "src" else context.sourceRoot.name

/-- The result that a finished walk shows. -/
def ofWalk (context : Context) (options : Options) (entry : Path) (w : Walk) : Analysis :=
  let graph := w.dependencyGraph context
  { entryFile := entryName entry context.projectRoot
    dependencyGraph := graph
    directoryTree := (Tree.ofGraph graph (treeName context)).render options.treeDepth
      options.showCounts
    statistics := w.statistics
    diagnostics := w.diagnostics }

/-- The entry that a path seen from the root names, if it is a file that can be read. -/
def checkEntry (disk : Disk) (root entry : Path) : Except AnalysisError Path := do
  let path := (root ++ entry).normalize
  if !(← (disk.contains path).mapError .disk) then throw (.entryMissing path)
  if !(← (disk.isFile path).mapError .disk) then throw (.entryNotFile path)
  if !disk.canRead path then throw (.entryUnreadable path)
  return path

/-- Analyses one entry file. -/
def ofEntry (disk : Disk) (options : Options) (entry : Path) : Except AnalysisError Analysis := do
  let context ← (Context.create disk options.projectRoot options.maxDepth
    options.exclude).mapError .disk
  if !(← (disk.isFolder context.projectRoot).mapError .disk) then
    throw (.rootNotFolder context.projectRoot)
  let path ← checkEntry disk context.projectRoot entry
  let walk ← (Walk.empty.track context disk.view Walk.standardExtractor path 0).mapError .disk
  return ofWalk context options path walk

end Analysis

end ImportAtlas
