import ImportAtlas.Analysis.EntrySearch
import ImportAtlas.Folder.Probe
import ImportAtlas.Decimal.Double
import ImportAtlas.Json.Writer

set_option autoImplicit false

/-!
# Settings

There are eleven settings.  Each key has a shape, which fixes the type of its
value and, for numbers, the least one allowed; so settings are a function that
gives every key a value of its own type.
-/

namespace ImportAtlas

/-- What kind of value a setting holds. -/
inductive SettingShape where
  /-- an integer not below a bound -/
  | count (least : Nat)
  | flag
  /-- a time span, not negative -/
  | seconds
  | text
  | texts
  deriving DecidableEq, Repr

/-- The values of a shape. -/
@[reducible] def SettingShape.Value : SettingShape → Type
  | count _ => Int
  | flag => Bool
  | seconds => Float
  | text => String
  | texts => List String

/-- A value as JSON. -/
def SettingShape.json : (shape : SettingShape) → shape.Value → Json
  | count _, n => .int n
  | flag, b => .bool b
  | seconds, x => .float x
  | text, s => .string s
  | texts, items => .strings items

/-- A setting. -/
inductive SettingKey where
  /-- how deep references are followed -/
  | maxDepth
  /-- the paths to leave out -/
  | excludeDirs
  /-- how many entries are analysed at once; the results do not depend on it -/
  | workers
  /-- how deep the folder tree is drawn -/
  | treeDepth
  /-- whether the tree shows how many dependencies a file has -/
  | showDeps
  /-- the heading of the report -/
  | reportTitle
  /-- the path of the report, seen from the project root -/
  | reportOutput
  /-- how deep a folder is probed -/
  | probeDepth
  /-- how long changes must have settled before the report is written again -/
  | watchDelay
  /-- the names of folders that a probe leaves out -/
  | ignoredDirs
  /-- the usual names of entry files -/
  | commonEntries
  deriving DecidableEq, Repr

namespace SettingKey

/-- The keys in the order in which they are checked and listed. -/
def all : List SettingKey :=
  [maxDepth, excludeDirs, workers, treeDepth, showDeps, reportTitle, reportOutput, probeDepth,
    watchDelay, ignoredDirs, commonEntries]

/-- The name of a key. -/
def name : SettingKey → String
  | maxDepth => "max_depth"
  | excludeDirs => "exclude_dirs"
  | workers => "workers"
  | treeDepth => "tree_depth"
  | showDeps => "show_deps"
  | reportTitle => "report_title"
  | reportOutput => "report_output"
  | probeDepth => "probe_depth"
  | watchDelay => "watch_delay"
  | ignoredDirs => "ignored_dirs"
  | commonEntries => "common_entries"

/-- The key with a name. -/
def ofName? (name : String) : Option SettingKey :=
  all.find? fun k => k.name == name

/-- The shape of a key's value. -/
@[reducible] def shape : SettingKey → SettingShape
  | maxDepth => .count 0
  | excludeDirs => .texts
  | workers => .count 1
  | treeDepth => .count 0
  | showDeps => .flag
  | reportTitle => .text
  | reportOutput => .text
  | probeDepth => .count 1
  | watchDelay => .seconds
  | ignoredDirs => .texts
  | commonEntries => .texts

/-- The values of a key. -/
@[reducible] def Value (key : SettingKey) : Type := key.shape.Value

/-- The value of a key that nothing sets. -/
def defaultValue : (key : SettingKey) → key.Value
  | maxDepth => (30 : Int)
  | excludeDirs => []
  | workers => (1 : Int)
  | treeDepth => (10 : Int)
  | showDeps => true
  | reportTitle => "Dependency Graph"
  | reportOutput => "dependency-report.md"
  | probeDepth => (5 : Int)
  | watchDelay => Decimal.ofInt 2
  | ignoredDirs => ignoredFolders
  | commonEntries => Analysis.usualEntries

/-- Every key is listed. -/
theorem mem_all (key : SettingKey) : key ∈ all := by
  cases key <;> decide

/-- A key is found by its name. -/
@[simp] theorem ofName?_name (key : SettingKey) : ofName? key.name = some key := by
  cases key <;> decide

end SettingKey

/-- A value for every setting. -/
def Settings : Type :=
  (key : SettingKey) → key.Value

/-- The settings that nothing has changed. -/
def Settings.default : Settings := SettingKey.defaultValue

end ImportAtlas
