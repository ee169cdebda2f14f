import ImportAtlas.Disk.Basic
import ImportAtlas.Text.Search

set_option autoImplicit false

/-!
# Probing folders

Two views of a folder on the disk.  The probe is a tree of folders only, without
those of ignored names.  The listing is a short text of folders and files, ten
names to a folder.  Both go down a limited number of levels.
-/

namespace ImportAtlas

/-- A folder with the folders below it. -/
inductive FolderNode where
  | mk (name path : String) (children : List FolderNode)
  deriving Repr

namespace FolderNode

/-- The name of a folder. -/
def name : FolderNode → String
  | mk name _ _ => name

/-- The path of a folder. -/
def path : FolderNode → String
  | mk _ path _ => path

/-- The folders below a folder. -/
def children : FolderNode → List FolderNode
  | mk _ _ children => children

end FolderNode

/-- The names of folders that a probe leaves out by default. -/
def ignoredFolders : List String := ["node_modules", ".git", ".svn", ".idea", "dist", "build"]

namespace Disk

/-- The names in a folder in ascending order; a path that is no folder has none. -/
def sortedNames (d : Disk) (p : Path) : List String :=
  match d.names p with
  | .ok names => Text.sort names
  | .error _ => []

/-- Whether a path is a folder, a fault counting as no. -/
def hasFolder (d : Disk) (p : Path) : Bool :=
  match d.isFolder p with
  | .ok there => there
  | .error _ => false

/-- The subfolders of a folder by name, without those of ignored names. -/
def subfolders (d : Disk) (ignored : List String) (p : Path) : List String :=
  (d.sortedNames p).filter fun name => !ignored.contains name && d.hasFolder (p.child name)

/-- The folders of `levels` levels from a path down; no level at all gives nothing. -/
def probe (d : Disk) (ignored : List String) : (levels : Nat) → Path → Option FolderNode
  | 0, _ => none
  | levels + 1, p =>
    some (.mk p.name p.text
      ((d.subfolders ignored p).filterMap fun name => d.probe ignored levels (p.child name)))

/-- Refuses a path that cannot be asked about, unless no level is wanted. -/
def listable (levels : Nat) (p : Path) : Except DiskFault Unit :=
  if levels != 0 && p.holdsNul then .error ⟨.nulInPath .listFolder, p⟩ else .ok ()

/-- The probe between two depths. -/
def probeBetween (d : Disk) (ignored : List String) (depth maxDepth : Int) (p : Path) :
    Except DiskFault (Option FolderNode) := do
  let levels := (maxDepth - depth).toNat
  listable levels p
  return d.probe ignored levels p

/-- The number of names that a listing shows of a folder. -/
def listedNames : Nat := 10

/-- The line of a name in a listing. -/
def listingLine (d : Disk) (margin : String) (p : Path) (name : String) : String :=
  if d.hasFolder (p.child name) then margin ++ "📁 " ++ name ++ "/" else margin ++ "📄 " ++ name

/-- The lines of `levels` levels from a path down. -/
def listing (d : Disk) : (levels : Nat) → (margin : String) → Path → List String
  | 0, _, _ => []
  | levels + 1, margin, p =>
    ((d.sortedNames p).take listedNames).flatMap fun name =>
      d.listingLine margin p name ::
        if d.hasFolder (p.child name) then d.listing levels (margin ++ "  ") (p.child name) else []

/-- The listing between two depths of the folder that a text names; the empty text names none. -/
def listingBetween (d : Disk) (margin : String) (depth maxDepth : Int) (text : String) :
    Except DiskFault (List String) := do
  let levels := (maxDepth - depth).toNat
  listable levels (Path.ofString text)
  return if text = "" then [] else d.listing levels margin (Path.ofString text)

end Disk

end ImportAtlas
