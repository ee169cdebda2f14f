import ImportAtlas.Reference.Extract
import ImportAtlas.Reference.Resolve
import ImportAtlas.Text.Utf8

set_option autoImplicit false

/-!
# The outline of a file

What a file contributes to the graph, and what was skipped on the way, follows
from the file and the project alone: from its references in order, then, for a
code file, from the stylesheets of the same name beside it.  `outline` lists
these steps; it does not know how the file was reached, how deep, or what was
visited before.

A reference to an external package and a reference to an ignored file leave no
step.  A reference that cannot be found or looked up leaves a problem.
-/

namespace ImportAtlas.Walk

open Project

/-- Finds the references of a text, or fails with a message. -/
abbrev Extractor := SourceKind → String → Except String (List String)

/-- The extractor that scans the reference forms; it never fails. -/
def standardExtractor : Extractor :=
  fun kind content => .ok (Reference.extract kind content)

/-- What went wrong at a file, and was skipped. -/
inductive Problem where
  /-- the file could not be read -/
  | unreadable (fault : DiskFault)
  /-- the extractor failed -/
  | unextractable (message : String)
  /-- no file stands behind a reference -/
  | notFound (reference : String)
  /-- the disk failed while a reference was looked up -/
  | unresolved (reference : String) (fault : DiskFault)
  /-- the disk failed while a companion was looked up -/
  | companion (name : String) (fault : DiskFault)
  deriving DecidableEq, Repr

/-- The stage of the walk at which a problem arises. -/
def Problem.stage : Problem → String
  | .unreadable _ => "read"
  | .unextractable _ => "extract"
  | .notFound _ => "locate"
  | .unresolved _ _ => "resolve"
  | .companion _ _ => "companion"

/-- The wording of a problem. -/
def Problem.message : Problem → String
  | .unreadable fault => fault.message
  | .unextractable message => message
  | .notFound reference => "cannot find '" ++ reference ++ "'"
  | .unresolved reference fault => "'" ++ reference ++ "': " ++ fault.message
  | .companion name fault => "'" ++ name ++ "': " ++ fault.message

/-- A step of a file's outline. -/
inductive Step where
  | edge (target : Path)
  | problem (problem : Problem)
  deriving DecidableEq, Repr

/-- The target of an edge. -/
def Step.target? : Step → Option Path
  | .edge target => some target
  | .problem _ => none

/-- The step that a reference of a file leaves. -/
def referenceStep (context : Context) (view : FileView) (file : Path) (reference : String) :
    Option Step :=
  match Reference.resolve context.sourceRoot reference file with
  | none => none
  | some candidate =>
    match Reference.locate view inferredSuffixes candidate with
    | .error fault => some (.problem (.unresolved reference fault))
    | .ok none => some (.problem (.notFound reference))
    | .ok (some found) => if context.ignores found then none else some (.edge found)

/-- The step that the companion with a suffix leaves, given the edges there are already. -/
def companionStep (context : Context) (view : FileView) (file : Path) (edges : List Path)
    (suffix : String) : Option Step :=
  let companion := file.withSuffix suffix
  match view.isFile companion with
  | .error fault => some (.problem (.companion companion.name fault))
  | .ok there =>
    if there && !edges.contains companion && !context.ignores companion then
      some (.edge companion)
    else none

/-- The references of a file, or the problem that keeps them from being known. -/
def references (view : FileView) (extractor : Extractor) (file : Path) :
    Except Problem (List String) :=
  match view.read file with
  | .error fault => .error (.unreadable fault)
  | .ok bytes => (extractor file.kind (Text.readSource bytes)).mapError .unextractable

/-- The steps that the references of a file leave. -/
def referenceSteps (context : Context) (view : FileView) (extractor : Extractor) (file : Path) :
    List Step :=
  match references view extractor file with
  | .error problem => [.problem problem]
  | .ok found => found.filterMap (referenceStep context view file)

/-- The steps that a code file's companions leave. -/
def companionSteps (context : Context) (view : FileView) (file : Path) (edges : List Path) :
    List Step :=
  match file.kind with
  | .style => []
  | .code => styleSuffixes.filterMap (companionStep context view file edges)

/-- All steps of a file: its references, then its companions. -/
def outline (context : Context) (view : FileView) (extractor : Extractor) (file : Path) :
    List Step :=
  let steps := referenceSteps context view extractor file
  steps ++ companionSteps context view file (steps.filterMap Step.target?)

/-- The files that a file depends on, in the order of its references, repeats kept. -/
def adjacency (context : Context) (view : FileView) (extractor : Extractor) (file : Path) :
    List Path :=
  (outline context view extractor file).filterMap Step.target?

end ImportAtlas.Walk
