import ImportAtlas.Analysis.Batch
import ImportAtlas.Json.Writer
import ImportAtlas.Report.Markdown

set_option autoImplicit false

/-!
# Results as JSON

The document that stands for the outcome of a batch.  The merged data is there
when an entry has a result, the message when none has.
-/

namespace ImportAtlas

/-- Statistics as a document. -/
def Statistics.json (s : Statistics) : Json :=
  .object [("totalFiles", .int s.totalFiles), ("totalDependencies", .int s.totalDependencies),
    ("filesByType", .object (s.filesByType.map fun (fileType, n) => (fileType, .int n)))]

/-- A diagnostic as a document. -/
def Diagnostic.json (d : Diagnostic) : Json :=
  .object [("file", .string d.file), ("stage", .string d.stage), ("message", .string d.message)]

/-- What a merged document shows of one entry. -/
def Analysis.entryJson (a : Analysis) : Json :=
  .object [("entryFile", .string a.entryFile), ("statistics", a.statistics.json),
    ("dependencyGraph", a.dependencyGraph.json)]

/-- A merged analysis as a document. -/
def Merged.json (m : Merged) : Json :=
  .object [("entryFile", .string m.entryFile), ("dependencyGraph", m.dependencyGraph.json),
    ("directoryTree", .string m.directoryTree), ("statistics", m.statistics.json),
    ("diagnostics", .array (m.diagnostics.map Diagnostic.json)),
    ("entryResults", .array (m.entryResults.map Analysis.entryJson))]

/-- A failed entry as a document. -/
def FailedEntry.json (e : FailedEntry) : Json :=
  .object [("entry", .string e.entry), ("error", .string e.error)]

/-- A batch as a document. -/
def Batch.json (b : Batch) : Json :=
  let parts : List (List (List Text.Point × Json)) :=
    [[("success", .bool b.success)],
      b.data?.toList.map fun m => ("data", m.json),
      if b.message = "" then [] else [("message", .string b.message)],
      [("invalidEntries", .strings b.invalidEntries),
        ("errors", .array (b.errors.map FailedEntry.json))]]
  .object parts.flatten

end ImportAtlas
