import ImportAtlas.Disk.Basic

set_option autoImplicit false

/-!
# Changing a disk

Writing a file needs its folder to be there; `makeFolders` creates a folder with
all that are missing above it.  An operation that fails part-way leaves what it
has done so far, so `makeFolders` and `write` return a disk with the outcome.
-/

namespace ImportAtlas.Disk

/-- The disk with an entry set at a location. -/
def put (d : Disk) (location : Location) (entry : Entry) : Disk :=
  { d with entries := Assoc.put location entry d.entries }

/-- The disk without a location and everything below it. -/
def erase (d : Disk) (location : Location) : Disk :=
  { d with entries := d.entries.filter fun e => !location.isPrefixOf e.1 }

/-- The place where a path would be created: its folder's location and its name. -/
def place (d : Disk) (task : DiskTask) (p : Path) : Except DiskCause (Location × String) := do
  checkPath task p
  let folder ← d.follow (d.start p) p.parts.dropLast
  if !d.isFolderAt folder then throw .notFolder
  match p.parts.getLast? with
  | none => throw .exists
  | some ".." => throw .exists
  | some name =>
    if maxNameBytes < name.utf8ByteSize then throw .nameTooLong else return (folder, name)

/-- Creates one folder. -/
def makeFolder (d : Disk) (p : Path) : Except DiskCause Disk := do
  let (folder, name) ← d.place .makeFolder p
  if (d.entryAt? (folder ++ [name])).isSome then throw .exists
  return d.put (folder ++ [name]) .folder

/-- Creates a folder where none is; a folder that is there already is no fault. -/
def ensureFolder (d : Disk) (p : Path) : Except DiskFault Disk :=
  match d.makeFolder p with
  | .ok d' => .ok d'
  | .error cause =>
    match d.isFolder p with
    | .ok true => .ok d
    | .ok false => .error ⟨cause, p⟩
    | .error fault => .error fault

/-- Creates the folder of the first `n` parts of a path, with the folders above it as needed. -/
def makeFoldersTo (d : Disk) (p : Path) : Nat → Disk × Option DiskFault
  | 0 => (d, none)
  | n + 1 =>
    let here : Path := { p with parts := p.parts.take (n + 1) }
    match d.makeFolder here with
    | .error .missing =>
      match d.makeFoldersTo p n with
      | (d', none) =>
        match d'.ensureFolder here with
        | .ok d'' => (d'', none)
        | .error fault => (d', some fault)
      | failed => failed
    | _ =>
      match d.ensureFolder here with
      | .ok d' => (d', none)
      | .error fault => (d, some fault)

/-- Creates a folder with those missing above it. -/
def makeFolders (d : Disk) (p : Path) : Disk × Option DiskFault :=
  d.makeFoldersTo p p.parts.length

/-! ## Writing

A file is opened, and so emptied, before anything is written into it.  What is
written then may not fit. -/

/-- The location at which a file can be opened for writing: that of the file at the path, or the
place where one would be created. -/
def target (d : Disk) (p : Path) : Except DiskFault Location :=
  match d.locate .openFile p with
  | .ok location =>
    match d.entryAt? location with
    | some .folder => .error ⟨.isFolder, p⟩
    | some .closedFile => .error ⟨.denied, p⟩
    | _ => .ok location
  | .error .missing =>
    match d.place .openFile p with
    | .ok (folder, name) => .ok (folder ++ [name])
    | .error cause => .error ⟨cause, p⟩
  | .error cause => .error ⟨cause, p⟩

/-- Opens a file for writing: it is empty then, also if it held something before. -/
def openEmpty (d : Disk) (p : Path) : Except DiskFault (Location × Disk) :=
  (d.target p).map fun location => (location, d.put location (.file .empty))

/-- Opens a file for writing behind what it holds: only a file that is not there is created. -/
def openBehind (d : Disk) (p : Path) : Except DiskFault Disk :=
  (d.target p).map fun location =>
    if (d.entryAt? location).isSome then d else d.put location (.file .empty)

/-- Whether the disk has room for some bytes at a location. -/
def takesAll (d : Disk) (location : Location) (bytes : ByteArray) : Bool :=
  match Assoc.get? location d.limits with
  | some limit => bytes.size ≤ limit
  | none => true

/-- The bytes that the disk takes of those that are written at a location. -/
def taken (d : Disk) (location : Location) (bytes : ByteArray) : ByteArray :=
  match Assoc.get? location d.limits with
  | some limit => if bytes.size ≤ limit then bytes else bytes.extract 0 limit
  | none => bytes

/-- Writes bytes into the file that was opened at a location, as far as there is room. -/
def fill (d : Disk) (p : Path) (location : Location) (bytes : ByteArray) :
    Disk × Option DiskFault :=
  (d.put location (.file (d.taken location bytes)),
    if d.takesAll location bytes then none else some ⟨.noSpace, p⟩)

/-- Writes a file into an existing folder. -/
def write (d : Disk) (p : Path) (bytes : ByteArray) : Disk × Option DiskFault :=
  match d.openEmpty p with
  | .ok (location, opened) => opened.fill p location bytes
  | .error fault => (d, some fault)

/-- Removes a file; a file that is not there is no fault. -/
def unlink (d : Disk) (p : Path) : Except DiskFault Disk :=
  match d.locate .openFile p with
  | .ok location =>
    if d.isFolderAt location then .error ⟨.isFolder, p⟩ else .ok (d.erase location)
  | .error .missing => .ok d
  | .error cause => .error ⟨cause, p⟩

end ImportAtlas.Disk
