import ImportAtlas.Command.Place
import ImportAtlas.Command.Run
import ImportAtlas.Standard.Console
import ImportAtlas.Standard.Settings
import ImportAtlas.Watch.Session

set_option autoImplicit false

/-!
# The program

The program takes its part of the machine in as a disk, runs a command line on
it, and brings the machine up to date with what has changed.  Watching looks at
the project again and again and turns what has changed into events.

The disk that is taken in has all the room that is asked for, so a machine that
lacks it shows this only when it is brought up to date.
-/

namespace ImportAtlas.Program

/-- The text of a location. -/
def textOf (location : Location) : String :=
  (Path.mk .root location).text

/-- What lies at a place of the machine.  A file that does not let itself be read is closed. -/
def entryAt? (location : Location) : IO (Option Entry) := do
  try
    let found ← IO.FS.realPath (textOf location)
    match (← found.metadata).type with
    | .dir => return some .folder
    | .file =>
      try return some (.file (← IO.FS.readBinFile found))
      catch _ => return some .closedFile
    | _ => return none
  catch _ => return none

/-- All that lies below a folder of the machine.  A link that leads back to a folder above is left
out. -/
partial def entriesBelow (above : List String) (folder : Location) :
    IO (Array (Location × Entry)) := do
  let found ← IO.FS.realPath (textOf folder)
  if above.contains found.toString then return #[]
  let mut entries := #[]
  for item in ← found.readDir do
    let location := folder ++ [item.fileName]
    let some entry ← entryAt? location | continue
    entries := entries.push (location, entry)
    if entry = .folder then
      entries := entries ++ (← entriesBelow (found.toString :: above) location)
  return entries

/-- The entries of several places, with the folders above them and all that lies below. -/
def entriesAt (locations : List Location) : IO (List (Location × Entry)) := do
  let mut entries := []
  let mut below := #[]
  for location in Disk.outermost locations do
    for place in Disk.above location ++ [location] do
      if let some entry ← entryAt? place then
        entries := Assoc.put place entry entries
        if place = location && entry = .folder then
          below := below ++ (← entriesBelow [] location)
  return entries ++ (below.toList.filter fun e => e.1 != [])

/-- The disk that holds what lies at several places. -/
def takeIn (workingFolder : Path) (places : List Path) : IO Disk := do
  let here := workingFolder.parts
  let entries ← entriesAt (places.map fun p => (Path.absolute workingFolder p).parts)
  let mut around := entries
  for place in Disk.above here ++ [here] do
    around := Assoc.put place .folder around
  return { entries := around, workingFolder := here }

/-- Makes one change on the machine. -/
def apply (location : Location) : DiskChange → IO Unit
  | .created .folder => do
    if (← entryAt? location).isNone then IO.FS.createDir (textOf location)
  | .created (.file bytes) | .changed (.file bytes) => IO.FS.writeBinFile (textOf location) bytes
  | .removed (.file _) | .removed .closedFile => IO.FS.removeFile (textOf location)
  | .created .closedFile | .changed .closedFile => return
  | .changed .folder | .removed .folder => return

/-- Brings the machine up to date. -/
def bringOut (before after : Disk) : IO Unit :=
  (before.changesTo after).forM fun (location, change) => apply location change

/-- The variables around the program. -/
def environment : IO (List (String × String)) := do
  let bytes ← try IO.FS.readBinFile "/proc/self/environ" catch _ => pure ByteArray.empty
  let texts := (Text.decodeTolerant bytes.toList).splitOn '\x00'
  return texts.filterMap fun text =>
    match text.dropWhile (· != '=') with
    | [] => none
    | _ :: value => some (String.ofList (text.takeWhile (· != '=')), String.ofList value)

/-- The time in seconds. -/
def now : IO Float := do
  return (← IO.monoMsNow).toFloat / 1000

/-- Prints a text without waiting for more. -/
def printOut (text : String) : IO Unit := do
  let out ← IO.getStdout
  out.putStr text
  out.flush

/-- Shows how a run ended and returns the number of the program's end. -/
def conclude (ending : Ending) : IO UInt32 := do
  match ending with
  | .broken fault => IO.eprintln ("Error: " ++ fault.message)
  | .misused => IO.eprintln "Try 'deptrace --help' for help."
  | .finished | .failed => pure ()
  return UInt32.ofNat ending.exitCode

/-- How long watching sleeps between two turns, in milliseconds. -/
def sleepTime : UInt32 := 200

/-- Puts lines into the log, and shows those of weight. -/
def record (surroundings : Surroundings) (lines : List Watch.LogLine) : IO Unit := do
  let log ← IO.FS.Handle.mk surroundings.logFile.text .append
  for line in lines do
    log.putStrLn (line.level.name ++ " - " ++ line.text)
    if line.level != .info then IO.eprintln line.text

/-- Watches without end. -/
partial def watch (surroundings : Surroundings) (request : Request)
    (look : IO Disk) (session : Watch.Session Disk Float) : IO Unit := do
  let turned := session.turn (Command.update request)
  bringOut session.world turned.world
  record surroundings turned.log
  IO.sleep sleepTime
  let world ← look
  let tick : Watch.Tick Disk Float :=
    ⟨some (← now), fun _ => world, Watch.eventsBetween turned.world world, false⟩
  watch surroundings request look ({ turned with log := [] }.pass tick)

/-- Writes the first report and watches. -/
def beginWatch (disk : Disk) (look : IO Disk) (surroundings : Surroundings)
    (arguments : AnalysisArguments) : IO UInt32 := do
  match Command.beginWatch disk surroundings arguments with
  | .error ended =>
    bringOut disk ended.disk
    printOut ended.output
    conclude ended.ending
  | .ok start =>
    bringOut disk start.disk
    printOut start.output
    watch surroundings start.request look (start.session (← now)).start
    return 0

/-- Runs a command line. -/
def run (words : List String) : IO UInt32 := do
  let workingFolder := Path.ofString (← IO.currentDir).toString
  let surroundings := Surroundings.ofEnvironment (← environment)
  let files := surroundings.files workingFolder
  match Command.parse words with
  | .error ending => conclude ending
  | .ok command =>
    let (_, store) := SettingsStore.load (← takeIn workingFolder files) surroundings
    let settings := match store with
      | .ok store => store.settings
      | .error _ => Settings.default
    let look := takeIn workingFolder (files ++ command.places settings workingFolder)
    let disk ← look
    match command with
    | .watch arguments => beginWatch disk look surroundings arguments
    | _ =>
      let ended := Command.run disk surroundings (← now) [] command
      bringOut disk ended.disk
      printOut ended.output
      conclude ended.ending

end ImportAtlas.Program

/-- The program. -/
def main (args : List String) : IO UInt32 :=
  ImportAtlas.Program.run args
