import ImportAtlas.Assoc
import ImportAtlas.Disk.Fault

set_option autoImplicit false

/-!
# Disks

A disk is a finite association from locations to entries, with a working folder.
A location is the list of names below the root; the root is always a folder.  A
path is followed part by part: every part but the last must be a folder, `..`
leads to the folder above, and a name longer than 255 bytes cannot be looked up
at all; nor can a path whose whole text is longer than 4095 bytes.

A file may be closed to the program, and a disk may lack the room for a file that
grows.  Other rights are left out: every folder can be listed and changed, and a
file that can be read can be written.  There are no links and no special files,
and every name is a text.

The analyses do not see a disk itself but only a `FileView`: whether a path is a
file, whether it is a folder, and what a file holds.
-/

namespace ImportAtlas

/-- What a location holds. -/
inductive Entry where
  | folder
  | file (bytes : ByteArray)
  /-- a file that may be neither read nor written -/
  | closedFile

/-- Files are equal when their bytes are. -/
instance : DecidableEq Entry
  | .folder, .folder => .isTrue rfl
  | .closedFile, .closedFile => .isTrue rfl
  | .folder, .file _ => .isFalse nofun
  | .folder, .closedFile => .isFalse nofun
  | .file _, .folder => .isFalse nofun
  | .file _, .closedFile => .isFalse nofun
  | .closedFile, .folder => .isFalse nofun
  | .closedFile, .file _ => .isFalse nofun
  | .file a, .file b =>
    match ByteArray.instDecidableEq a b with
    | .isTrue same => .isTrue (congrArg Entry.file same)
    | .isFalse differ => .isFalse fun same => differ (Entry.file.inj same)

/-- A location: the names from the root down. -/
abbrev Location := List String

/-- A disk and its working folder. -/
structure Disk where
  entries : List (Location × Entry)
  workingFolder : Location
  /-- the greatest number of bytes that a file can hold, where the disk has no room for more -/
  limits : List (Location × Nat) := []
  deriving DecidableEq

/-- What an analysis may ask of a disk. -/
structure FileView where
  isFile : Path → Except DiskFault Bool
  isFolder : Path → Except DiskFault Bool
  read : Path → Except DiskFault ByteArray

/-- The greatest length of a name in bytes. -/
def maxNameBytes : Nat := 255

/-- The greatest length of a path's text in bytes. -/
def maxPathBytes : Nat := 4095

namespace Disk

/-- The entry at a location. -/
def entryAt? (d : Disk) (location : Location) : Option Entry :=
  if location = [] then some .folder else Assoc.get? location d.entries

/-- Whether a location is a folder. -/
def isFolderAt (d : Disk) (location : Location) : Bool :=
  d.entryAt? location = some .folder

/-- Follows the parts of a path from a location. -/
def follow (d : Disk) : Location → List String → Except DiskCause Location
  | here, [] => .ok here
  | here, part :: rest =>
    if !d.isFolderAt here then .error .notFolder
    else if part = ".." then d.follow here.dropLast rest
    else if maxNameBytes < part.utf8ByteSize then .error .nameTooLong
    else if (d.entryAt? (here ++ [part])).isNone then .error .missing
    else d.follow (here ++ [part]) rest

/-- Where a path starts on the disk. -/
def start (d : Disk) (p : Path) : Location :=
  if p.isAbsolute then [] else d.workingFolder

/-- Refuses a path that the disk cannot be asked about. -/
def checkPath (task : DiskTask) (p : Path) : Except DiskCause Unit :=
  if p.holdsNul then .error (.nulInPath task)
  else if maxPathBytes < p.text.utf8ByteSize then .error .nameTooLong
  else .ok ()

/-- The location of an existing path, asked for a task. -/
def locate (d : Disk) (task : DiskTask) (p : Path) : Except DiskCause Location := do
  checkPath task p
  d.follow (d.start p) p.parts

/-- The entry at a path, or nothing when there is none; only a name that is too long is a fault. -/
def look (d : Disk) (p : Path) : Except DiskFault (Option Entry) :=
  match d.locate .lookUp p with
  | .ok location => .ok (d.entryAt? location)
  | .error .nameTooLong => .error ⟨.nameTooLong, p⟩
  | .error _ => .ok none

/-- Whether a path exists. -/
def contains (d : Disk) (p : Path) : Except DiskFault Bool :=
  (d.look p).map Option.isSome

/-- Whether a path is a file. -/
def isFile (d : Disk) (p : Path) : Except DiskFault Bool :=
  (d.look p).map fun e => match e with
    | some (.file _) | some .closedFile => true
    | _ => false

/-- Whether a path is a folder. -/
def isFolder (d : Disk) (p : Path) : Except DiskFault Bool :=
  (d.look p).map fun e => e == some .folder

/-- The bytes of a file. -/
def read (d : Disk) (p : Path) : Except DiskFault ByteArray :=
  match d.locate .openFile p with
  | .error cause => .error ⟨cause, p⟩
  | .ok location =>
    match d.entryAt? location with
    | some (.file bytes) => .ok bytes
    | some .closedFile => .error ⟨.denied, p⟩
    | some .folder => .error ⟨.isFolder, p⟩
    | none => .error ⟨.missing, p⟩

/-- Whether there is a file at a path that can be read. -/
def canRead (d : Disk) (p : Path) : Bool :=
  (d.read p).isOk

/-- The names in the folder at a location. -/
def namesAt (d : Disk) (location : Location) : List String :=
  d.entries.filterMap fun e =>
    match e.1.getLast? with
    | some name => if e.1.dropLast = location then some name else none
    | none => none

/-- The names in the folder at a path. -/
def names (d : Disk) (p : Path) : Except DiskFault (List String) :=
  match d.locate .listFolder p with
  | .error cause => .error ⟨cause, p⟩
  | .ok location =>
    if d.isFolderAt location then .ok (d.namesAt location) else .error ⟨.notFolder, p⟩

/-- The working folder as a path. -/
def workingPath (d : Disk) : Path :=
  ⟨.root, d.workingFolder⟩

/-- The normalized absolute path that a path denotes on this disk. -/
def absolute (d : Disk) (p : Path) : Path :=
  Path.absolute d.workingPath p

/-- The disk as an analysis sees it. -/
def view (d : Disk) : FileView :=
  ⟨d.isFile, d.isFolder, d.read⟩

end Disk

end ImportAtlas
