import ImportAtlas.Disk.Basic
import Std.Data.HashMap

set_option autoImplicit false

/-!
# What changes between two disks

A command is given a disk and leaves another one; `changesTo` lists what has to
be done to turn the first into the second.  New entries come in the order in
which they were put, so a folder comes before what lies in it; what is gone
comes last.
-/

namespace ImportAtlas

/-- What becomes of a location. -/
inductive DiskChange where
  | created (entry : Entry)
  | changed (entry : Entry)
  | removed (entry : Entry)
  deriving DecidableEq

namespace Disk

/-- The changes that turn a disk into another. -/
def changesTo (before after : Disk) : List (Location × DiskChange) :=
  let old := Std.HashMap.ofList before.entries
  let new := Std.HashMap.ofList after.entries
  let written := after.entries.filterMap fun (location, entry) =>
    match old[location]? with
    | none => some (location, .created entry)
    | some e => if e = entry then none else some (location, .changed entry)
  let gone := before.entries.filterMap fun (location, entry) =>
    if new.contains location then none else some (location, .removed entry)
  written ++ gone

/-- The locations between the root and a location, from the top down. -/
def above (location : Location) : List Location :=
  ((List.range location.length).drop 1).map location.take

/-- Those of several locations that lie below none of the others. -/
def outermost (locations : List Location) : List Location :=
  let distinct := locations.eraseDups
  distinct.filter fun l => !distinct.any fun other => other != l && other.isPrefixOf l

end Disk

end ImportAtlas
