import ImportAtlas.Disk.Change
import ImportAtlas.Path.Kind
import ImportAtlas.Project.Boundary

set_option autoImplicit false

/-!
# Events of files

An event tells what happened to a path, and for a move also where it went.  A
filter accepts an event of a file when one of its paths is tracked: it has one of
the suffixes that references may leave out, is not the report itself, and is not
ignored.

Whoever looks at a disk twice sees what has changed in between.  Each change is
an event of one path; a move is seen as a removal and a creation.
-/

namespace ImportAtlas.Watch

/-- What happened to a path. -/
inductive EventKind where
  | created
  | modified
  | deleted
  | moved
  | opened
  | closed
  deriving DecidableEq, Repr

/-- Whether an event may change what a report says. -/
def EventKind.isChange : EventKind → Bool
  | created | modified | deleted | moved => true
  | opened | closed => false

/-- An event.  A path is a text as it was spelled; the empty text is no path. -/
structure FileEvent where
  kind : EventKind
  source : String
  target : String
  onFolder : Bool
  deriving DecidableEq, Repr

/-- What decides about events: the project root, the report's path and the exclusion patterns, all
normalized, and the working folder from which paths are seen. -/
structure EventFilter where
  workingFolder : Path
  projectRoot : Path
  report : Option Path
  exclude : List String
  deriving DecidableEq, Repr

namespace EventFilter

/-- The filter for a root, a report and patterns as they were given. -/
def create (workingFolder root : Path) (report : Option Path) (exclude : List String) :
    EventFilter where
  workingFolder := workingFolder
  projectRoot := Path.absolute workingFolder root
  report := report.map (Path.absolute workingFolder)
  exclude := Project.cleanPatterns exclude

/-- Whether a normalized path is tracked. -/
def tracksPath (f : EventFilter) (path : Path) : Bool :=
  f.report != some path && inferredSuffixes.contains path.suffix &&
    !Project.isIgnored path f.projectRoot f.exclude

/-- Whether the path that a text spells is tracked. -/
def tracks (f : EventFilter) (text : String) : Bool :=
  text != "" && f.tracksPath (Path.absolute f.workingFolder (Path.ofString text))

/-- Whether an event concerns a tracked file. -/
def accepts (f : EventFilter) (event : FileEvent) : Bool :=
  !event.onFolder && (f.tracks event.source || f.tracks event.target)

/-- Whether an event calls for an update. -/
def triggers (f : EventFilter) (event : FileEvent) : Bool :=
  event.kind.isChange && f.accepts event

end EventFilter

/-- The event that a change of a location makes. -/
def FileEvent.ofChange (location : Location) (change : DiskChange) : FileEvent :=
  let event (kind : EventKind) (entry : Entry) : FileEvent :=
    ⟨kind, (Path.mk .root location).text, "", entry == .folder⟩
  match change with
  | .created entry => event .created entry
  | .changed entry => event .modified entry
  | .removed entry => event .deleted entry

/-- The events between two looks at a disk. -/
def eventsBetween (before after : Disk) : List FileEvent :=
  (before.changesTo after).map fun (location, change) => .ofChange location change

end ImportAtlas.Watch
