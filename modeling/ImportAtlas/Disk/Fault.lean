import ImportAtlas.Path.Basic
import ImportAtlas.Text.Quoted

set_option autoImplicit false

/-!
# Faults of a disk

Why an operation on a disk fails.  Most probes answer "not there" for a missing
or misplaced path; a name that is too long is a fault of its own even for a
probe.  A disk that runs out of room says so only when the file is open already,
and then its message names no path.
-/

namespace ImportAtlas

/-- What was to be done with a path. -/
inductive DiskTask where
  | openFile
  | makeFolder
  | listFolder
  | lookUp
  deriving DecidableEq, Repr

/-- The cause of a fault. -/
inductive DiskCause where
  /-- a part of the path does not exist -/
  | missing
  /-- the path exists already -/
  | exists
  /-- a part of the path that should be a folder is a file -/
  | notFolder
  /-- the path should be a file and is a folder -/
  | isFolder
  /-- a part of the path, or the whole path, is too long -/
  | nameTooLong
  /-- the file is closed to the program -/
  | denied
  /-- the disk does not take all that is written -/
  | noSpace
  /-- the path holds a NUL character, so that no disk can be asked about it -/
  | nulInPath (task : DiskTask)
  deriving DecidableEq, Repr

/-- A fault: its cause and the path it was met at. -/
structure DiskFault where
  cause : DiskCause
  path : Path
  deriving DecidableEq, Repr

/-- The wording for a path that holds a NUL character. -/
def DiskTask.nulMessage : DiskTask → String
  | openFile => "embedded null byte"
  | makeFolder => "mkdir: embedded null character in path"
  | listFolder => "listdir: embedded null character in path"
  | lookUp => "stat: embedded null character in path"

/-- The wording of a fault. -/
def DiskFault.message (f : DiskFault) : String :=
  let numbered (number : Nat) (wording : String) :=
    "[Errno " ++ toString number ++ "] " ++ wording ++ ": " ++ Text.quote f.path.text
  match f.cause with
  | .missing => numbered 2 "No such file or directory"
  | .exists => numbered 17 "File exists"
  | .notFolder => numbered 20 "Not a directory"
  | .isFolder => numbered 21 "Is a directory"
  | .nameTooLong => numbered 36 "File name too long"
  | .denied => numbered 13 "Permission denied"
  | .noSpace => "[Errno 28] No space left on device"
  | .nulInPath task => task.nulMessage

/-- Whether a path holds a NUL character. -/
def Path.holdsNul (p : Path) : Bool :=
  p.parts.any fun part => part.toList.contains '\x00'

end ImportAtlas
