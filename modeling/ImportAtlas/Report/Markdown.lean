import ImportAtlas.Analysis.Result
import ImportAtlas.Graph.Group
import ImportAtlas.Json.Writer

set_option autoImplicit false

/-!
# The report

A report is one Markdown section under a top-level heading: the entry, the
statistics, the entries when there are several, the folder tree, the graph as a
JSON block, the files by group, and what was skipped.  `Report.text` writes it
line by line.
-/

namespace ImportAtlas

/-- What a report shows. -/
structure Report where
  title : String
  entryFile : String
  statistics : Statistics
  /-- the entries, for a report of several -/
  entries : List Analysis
  directoryTree : String
  graph : Graph
  diagnostics : List Diagnostic
  deriving DecidableEq, Repr

/-- The report of one analysis. -/
def Analysis.report (a : Analysis) (title : String) : Report :=
  ⟨title, a.entryFile, a.statistics, [], a.directoryTree, a.dependencyGraph, a.diagnostics⟩

/-- The report of a merged analysis; the entries are listed when there are at least two. -/
def Merged.report (m : Merged) (title : String) : Report :=
  let entries := if 1 < m.entryResults.length then m.entryResults else []
  ⟨title, m.entryFile, m.statistics, entries, m.directoryTree, m.dependencyGraph, m.diagnostics⟩

/-- A graph as a JSON value. -/
def Graph.json (graph : Graph) : Json :=
  .object (graph.map fun (file, dependencies) => (file, Json.strings dependencies))

namespace Report

/-- A text in code marks. -/
def code (text : String) : String :=
  "`" ++ text ++ "`"

/-- The heading and the entry. -/
def headLines (r : Report) : List String :=
  ("# " ++ r.title ++ "\n") ::
    if r.entryFile = "" then [] else ["**Entry file:** " ++ code r.entryFile ++ "\n"]

/-- The totals and the counts above zero. -/
def statisticsLines (r : Report) : List String :=
  ["## Statistics\n",
    "- **Total files**: " ++ toString r.statistics.totalFiles,
    "- **Total dependencies**: " ++ toString r.statistics.totalDependencies,
    "",
    "### File types\n"] ++
  ((r.statistics.filesByType.filter fun e => 0 < e.2).map fun (fileType, count) =>
    "- **" ++ fileType ++ "**: " ++ toString count ++ " files") ++ [""]

/-- The entries of a report of several. -/
def entryLines (r : Report) : List String :=
  if r.entries = [] then []
  else
    ["## Entry files\n"] ++
    (r.entries.map fun e =>
      "- " ++ code e.entryFile ++ ": " ++ toString e.statistics.totalFiles ++ " files, " ++
        toString e.statistics.totalDependencies ++ " dependencies") ++ [""]

/-- The folder tree. -/
def treeLines (r : Report) : List String :=
  if r.directoryTree = "" then []
  else ["## Directory Structure\n", "```", r.directoryTree, "```\n"]

/-- The graph as JSON. -/
def graphText (r : Report) : String :=
  Json.write .unicode .lines r.graph.json

/-- The graph as a block. -/
def graphLines (r : Report) : List String :=
  ["## Dependencies\n", "```json", graphText r, "```\n"]

/-- One file with its dependencies. -/
def fileLines (r : Report) (file : String) : List String :=
  let dependencies := (Assoc.get? file r.graph).getD []
  ["- **" ++ file ++ "**",
    if dependencies = [] then "  - No dependencies"
    else "  - Depends on: " ++ ", ".intercalate (dependencies.map code),
    ""]

/-- One group of files, unless it is empty. -/
def groupLines (r : Report) (group : Group) (files : List String) : List String :=
  if files = [] then []
  else
    ("### " ++ group.name ++ " (" ++ toString files.length ++ ")\n") :: files.flatMap (fileLines r)

/-- The files by group. -/
def filesLines (r : Report) : List String :=
  ["## Files\n", "Tracked **" ++ toString r.graph.length ++ "** files:\n"] ++
    (filesByGroup r.graph).flatMap fun (group, files) => groupLines r group files

/-- What was skipped. -/
def skippedLines (r : Report) : List String :=
  if r.diagnostics = [] then []
  else
    ["## Skipped References\n"] ++
    (r.diagnostics.map fun d =>
      "- " ++ code d.file ++ " (" ++ d.stage ++ "): " ++ d.message) ++ [""]

/-- The lines of a report; some of them end in a blank line of their own. -/
def lines (r : Report) : List String :=
  headLines r ++ statisticsLines r ++ entryLines r ++ treeLines r ++ graphLines r ++
    filesLines r ++ skippedLines r

/-- The text of a report. -/
def text (r : Report) : String :=
  "\n".intercalate (lines r)

end Report

end ImportAtlas
