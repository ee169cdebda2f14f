import ImportAtlas.Disk.Basic
import ImportAtlas.Project.Boundary

set_option autoImplicit false

/-!
# The context of an analysis

What a walk needs to know about its project: the root, the source root, how deep
references are followed, and which paths are excluded.  The source root is the
first of the usual folders that exists under the root, else the root itself.

A report names a file under the source root by `@/` and its path below that
root, another file of the project by its path below the project root, and any
other file by its absolute text.  The first form is also how a reference names
a file under the source root, see `Reference/Resolve.lean`.
-/

namespace ImportAtlas.Project

/-- The mark of an identifier or a reference that starts at the source root. -/
def aliasMark : String := "@/"

/-- The identifier of a file. -/
def identifier (path sourceRoot projectRoot : Path) : String :=
  match path.relativeTo? sourceRoot with
  | some parts => aliasMark ++ Path.partsText parts
  | none =>
    match path.relativeTo? projectRoot with
    | some parts => Path.partsText parts
    | none => path.text

/-- The name of an entry file: its path below the project root, or its own text. -/
def entryName (path projectRoot : Path) : String :=
  match path.relativeTo? projectRoot with
  | some parts => Path.partsText parts
  | none => path.text

/-- The folders that may hold the sources, the preferred one first. -/
def sourceFolders : List String := ["src", "source", "lib"]

/-- A project as a walk sees it. -/
structure Context where
  projectRoot : Path
  sourceRoot : Path
  maxDepth : Int
  exclude : List String
  deriving DecidableEq, Repr

/-- The first of the named folders under a root that exists, else the root. -/
def firstFolder (view : FileView) (root : Path) : List String → Except DiskFault Path
  | [] => .ok root
  | name :: rest => do
    if ← view.isFolder (root.child name) then return root.child name
    firstFolder view root rest

/-- The source root of a project root. -/
def sourceRootOf (view : FileView) (root : Path) : Except DiskFault Path :=
  firstFolder view root sourceFolders

namespace Context

/-- The context of a project root given as any path, or of the working folder. -/
def create (disk : Disk) (root : Option Path) (maxDepth : Int) (exclude : List String) :
    Except DiskFault Context := do
  let projectRoot := disk.absolute (root.getD disk.workingPath)
  let sourceRoot ← sourceRootOf disk.view projectRoot
  return ⟨projectRoot, sourceRoot, maxDepth, cleanPatterns exclude⟩

/-- Whether the walk leaves a path alone. -/
def ignores (context : Context) (path : Path) : Bool :=
  isIgnored path context.projectRoot context.exclude

/-- The identifier of a file. -/
def identifier (context : Context) (path : Path) : String :=
  Project.identifier path context.sourceRoot context.projectRoot

end Context

end ImportAtlas.Project
