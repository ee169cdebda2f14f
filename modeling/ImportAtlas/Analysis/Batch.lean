import ImportAtlas.Analysis.Entry
import ImportAtlas.Analysis.Pool

set_option autoImplicit false

/-!
# Analysing several entries

A batch sorts its entries into invalid ones, ones whose analysis failed, and
ones with a result, and merges the results.  Each entry is analysed on its own,
so that a pool of workers may analyse several at a time.  Blank entries are
dropped.
-/

namespace ImportAtlas

open Project

/-- Entry files sorted into those that exist inside the project, as absolute paths, and the others,
as they were given. -/
structure Validation where
  valid : List String
  invalid : List String
  deriving DecidableEq, Repr

/-- The entries that are not blank, trimmed. -/
def trimmedEntries (entries : List String) : List String :=
  (entries.map Text.strip).filter (· != "")

namespace Validation

/-- Adds one trimmed entry. -/
def add (disk : Disk) (root : Path) (v : Validation) (entry : String) :
    Except DiskFault Validation := do
  let path := (root ++ Path.ofString entry).normalize
  if (← disk.contains path) && contains disk.workingPath root path then
    return { v with valid := v.valid ++ [path.text] }
  else
    return { v with invalid := v.invalid ++ [entry] }

/-- Sorts entries; without a project root every entry that is not blank counts as valid. -/
def ofEntries (disk : Disk) (root : Option Path) (entries : List String) :
    Except DiskFault Validation :=
  match root with
  | none => .ok ⟨trimmedEntries entries, []⟩
  | some root => (trimmedEntries entries).foldlM (add disk (disk.absolute root)) ⟨[], []⟩

end Validation

/-- An entry whose analysis failed. -/
structure FailedEntry where
  entry : String
  error : String
  deriving DecidableEq, Repr

/-- How a batch ends. -/
inductive BatchOutcome where
  | merged (data : Merged)
  | noneValid
  | allFailed
  deriving DecidableEq, Repr

/-- The result of a batch. -/
structure Batch where
  outcome : BatchOutcome
  invalidEntries : List String
  errors : List FailedEntry
  deriving DecidableEq, Repr

namespace Batch

/-- The merged result, if any entry has one. -/
def data? (b : Batch) : Option Merged :=
  match b.outcome with
  | .merged data => some data
  | _ => none

/-- Whether any entry has a result. -/
def success (b : Batch) : Bool :=
  b.data?.isSome

/-- Why no entry has a result; empty when one has. -/
def message (b : Batch) : String :=
  match b.outcome with
  | .merged _ => ""
  | .noneValid => "No valid entry files"
  | .allFailed => "All entry files failed to analyse"

/-- The outcome of one entry. -/
def run (disk : Disk) (options : Options) (entry : String) : FailedEntry ⊕ Analysis :=
  match Analysis.ofEntry disk options (Path.ofString entry) with
  | .ok result => .inr result
  | .error error => .inl ⟨entry, error.message⟩

/-- The results among the outcomes of entries. -/
def results (outcomes : List (FailedEntry ⊕ Analysis)) : List Analysis :=
  outcomes.filterMap Sum.getRight?

/-- The errors among the outcomes of entries. -/
def failures (outcomes : List (FailedEntry ⊕ Analysis)) : List FailedEntry :=
  outcomes.filterMap Sum.getLeft?

/-- The batch of the outcomes of its valid entries, of which there is at least one. -/
def ofOutcomes (invalid : List String) (outcomes : List (FailedEntry ⊕ Analysis)) : Batch :=
  match Merged.ofResults? (results outcomes) with
  | some data => ⟨.merged data, invalid, failures outcomes⟩
  | none => ⟨.allFailed, invalid, failures outcomes⟩

/-- The project root of a batch. -/
def rootOf (disk : Disk) (options : Options) : Path :=
  disk.absolute (options.projectRoot.getD disk.workingPath)

/-- The options that each entry of a batch is analysed with. -/
def forEntry (disk : Disk) (options : Options) : Options :=
  { options with projectRoot := some (rootOf disk options) }

/-- Sorts the entries of a batch. -/
def validate (disk : Disk) (options : Options) (entries : List String) :
    Except AnalysisError Validation := do
  if entries = [] then throw .noEntries
  (Validation.ofEntries disk (some (rootOf disk options)) entries).mapError .disk

/-- Analyses the entries of a batch, one after the other. -/
def ofEntries (disk : Disk) (options : Options) (entries : List String) :
    Except AnalysisError Batch := do
  let v ← validate disk options entries
  if v.valid = [] then return ⟨.noneValid, v.invalid, []⟩
  return ofOutcomes v.invalid (v.valid.map (run disk (forEntry disk options)))

/-- The outcomes of entries, from a pool when there are several workers and several entries.  They
are there once the course of the pool has ended all entries. -/
def runEntries (workers : Int) (moves : List PoolMove) (disk : Disk) (options : Options)
    (entries : List String) : Option (List (FailedEntry ⊕ Analysis)) :=
  if 1 < workers ∧ 1 < entries.length then
    Pool.outcomes? workers.toNat entries (run disk options) moves
  else some (entries.map (run disk options))

/-- Analyses the entries of a batch with a number of workers. -/
def ofEntriesOn (workers : Int) (moves : List PoolMove) (disk : Disk) (options : Options)
    (entries : List String) : Except AnalysisError (Option Batch) := do
  let v ← validate disk options entries
  if v.valid = [] then return some ⟨.noneValid, v.invalid, []⟩
  return (runEntries workers moves disk (forEntry disk options) v.valid).map (ofOutcomes v.invalid)

end Batch

end ImportAtlas
