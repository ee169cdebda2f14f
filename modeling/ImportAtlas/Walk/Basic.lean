import ImportAtlas.Assoc
import ImportAtlas.Walk.Outline

set_option autoImplicit false

/-!
# Walks

A walk visits files depth first.  Entering a file marks it and gives it an empty
list in the graph; the list grows edge by edge while the file is expanded, and
each edge is followed as soon as it is listed.  So other files are entered, and
the graph changes, while the list of a file is still in progress.

`track` starts at a path: it locates the file behind the path and expands it,
unless the path or the file is ignored or the file was entered before.  Every
edge is tracked in the same way.  `follow` counts the levels that may still be
entered, so a dependency beyond the limit is listed but not entered.

The depth of a walk is bounded by that count alone: the stack on which the calls
of a deep walk would lie is left out, so no chain of files is too long to follow.
-/

namespace ImportAtlas

open Project

/-- A problem as it is reported: the identifier of the file, the stage and the wording. -/
structure Diagnostic where
  file : String
  stage : String
  message : String
  deriving DecidableEq, Repr

/-- The state of a walk. -/
structure Walk where
  /-- the files entered -/
  visited : List Path
  /-- each file entered with the files it depends on, in the order of entering -/
  graph : List (Path × List Path)
  /-- the problems met, in order -/
  diagnostics : List Diagnostic
  deriving DecidableEq, Repr

namespace Walk

/-- The walk that has entered nothing. -/
def empty : Walk := ⟨[], [], []⟩

/-- The dependencies listed for a file so far. -/
def listed (w : Walk) (file : Path) : List Path :=
  (Assoc.get? file w.graph).getD []

/-- The walk with one more file entered; a list that the file has already is kept. -/
def enter (w : Walk) (file : Path) : Walk :=
  { w with visited := file :: w.visited, graph := Assoc.put file (w.listed file) w.graph }

/-- The walk with one more dependency at the end of a file's list. -/
def link (w : Walk) (file target : Path) : Walk :=
  { w with graph := Assoc.put file (w.listed file ++ [target]) w.graph }

/-- The walk with one more diagnostic. -/
def record (w : Walk) (context : Context) (file : Path) (problem : Problem) : Walk :=
  let diagnostic := ⟨context.identifier file, problem.stage, problem.message⟩
  { w with diagnostics := w.diagnostics ++ [diagnostic] }

@[simp] theorem visited_enter (w : Walk) (file : Path) :
    (w.enter file).visited = file :: w.visited := rfl

@[simp] theorem visited_link (w : Walk) (file target : Path) :
    (w.link file target).visited = w.visited := rfl

@[simp] theorem visited_record (w : Walk) (context : Context) (file : Path) (problem : Problem) :
    (w.record context file problem).visited = w.visited := rfl

@[simp] theorem graph_record (w : Walk) (context : Context) (file : Path) (problem : Problem) :
    (w.record context file problem).graph = w.graph := rfl

@[simp] theorem listed_record (w : Walk) (context : Context) (file other : Path)
    (problem : Problem) : (w.record context file problem).listed other = w.listed other := rfl

theorem get?_enter (w : Walk) (file other : Path) :
    Assoc.get? other (w.enter file).graph =
      if other = file then some (w.listed file) else Assoc.get? other w.graph :=
  Assoc.get?_put ..

theorem get?_link (w : Walk) (file target other : Path) :
    Assoc.get? other (w.link file target).graph =
      if other = file then some (w.listed file ++ [target]) else Assoc.get? other w.graph :=
  Assoc.get?_put ..

@[simp] theorem listed_enter (w : Walk) (file : Path) :
    (w.enter file).listed file = w.listed file := by
  rw [listed, get?_enter, if_pos rfl, Option.getD_some]

@[simp] theorem listed_link (w : Walk) (file target : Path) :
    (w.link file target).listed file = w.listed file ++ [target] := by
  rw [listed, get?_link, if_pos rfl, Option.getD_some]

/-- How the walk goes on behind an edge. -/
abbrev Onward := Path → Walk → Except DiskFault Walk

variable (context : Context) (view : FileView) (extractor : Extractor)

/-- Takes a step of a file: an edge is listed and then followed, a problem is recorded.  A fault on
the way is a problem of the file whose edge was followed. -/
def take (onward : Onward) (file : Path) (blame : DiskFault → Problem) (w : Walk) :
    Option Step → Walk
  | none => w
  | some (.problem problem) => w.record context file problem
  | some (.edge target) =>
    match onward target (w.link file target) with
    | .ok w => w
    | .error fault => (w.link file target).record context file (blame fault)

/-- Takes the step of a reference. -/
def takeReference (onward : Onward) (file : Path) (w : Walk) (reference : String) : Walk :=
  take context onward file (.unresolved reference) w (referenceStep context view file reference)

/-- Takes the step of a companion, which is compared with the list as it is then. -/
def takeCompanion (onward : Onward) (file : Path) (w : Walk) (suffix : String) : Walk :=
  take context onward file (.companion (file.withSuffix suffix).name) w
    (companionStep context view file (w.listed file) suffix)

/-- Goes through the references of a file, in order. -/
def expandReferences (onward : Onward) (file : Path) (w : Walk) : Walk :=
  match references view extractor file with
  | .error problem => w.record context file problem
  | .ok found => found.foldl (takeReference context view onward file) w

/-- Goes through the companions of a code file. -/
def expandCompanions (onward : Onward) (file : Path) (w : Walk) : Walk :=
  match file.kind with
  | .style => w
  | .code => styleSuffixes.foldl (takeCompanion context view onward file) w

/-- Enters a file and goes through its references, then its companions. -/
def expand (onward : Onward) (file : Path) (w : Walk) : Walk :=
  expandCompanions context view onward file
    (expandReferences context view extractor onward file (w.enter file))

/-- Tracks the file behind a path, which is seen from the project root, with all that it leads to,
at most `levels` levels deep. -/
def follow : (levels : Nat) → Onward
  | 0, _, w => return w
  | levels + 1, path, w => do
    let path := (context.projectRoot ++ path).normalize
    if context.ignores path then return w
    match ← Reference.locate view inferredSuffixes path with
    | none => return w
    | some file =>
      if w.visited.contains file || context.ignores file then return w
      else return expand context view extractor (follow levels) file w

/-- The number of levels that may be entered at a depth. -/
def levelsAt (context : Context) (depth : Int) : Nat :=
  (context.maxDepth - depth + 1).toNat

/-- Tracks the file behind a path at a depth. -/
def track (path : Path) (depth : Int) (w : Walk) : Except DiskFault Walk :=
  follow context view extractor (levelsAt context depth) path w

end Walk

end ImportAtlas
