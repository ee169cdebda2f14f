import ImportAtlas.Disk.Edit
import ImportAtlas.Text.Blank
import ImportAtlas.Text.Point
import ImportAtlas.Text.Utf8

set_option autoImplicit false

/-!
# The report's section in a document

A report is kept as one section of a Markdown document that may hold other text.
The section starts at the first line that is the report's heading, up to
trailing spaces and tabs, and runs to the next top-level heading or to the end.
An update cuts that section out, trims what is left at the ends and at the join,
and puts the new report behind it.

The file is opened, and so emptied, before the new text is encoded and written.  A
report may hold surrogates, which cannot be encoded.
-/

namespace ImportAtlas.Section

open Text (Point)

/-- The lines of a text. -/
def linesOf (text : List Char) : List (List Char) :=
  text.splitOn '\n'

/-- The text of lines. -/
def joinLines (lines : List (List Char)) : List Char :=
  ['\n'].intercalate lines

/-- Whether a line is the marker followed by nothing but spaces and tabs. -/
def isMarker (marker line : List Char) : Bool :=
  match marker.isPrefixOf? line with
  | some rest => rest.all fun c => c == ' ' || c == '\t'
  | none => false

/-- Whether a line is a top-level heading: a number sign and a space, and no second number sign
behind them. -/
def isHeading : List Char → Bool
  | '#' :: ' ' :: rest => rest.head? != some '#'
  | _ => false

/-- The text without the section that the marker starts.  Where text follows the section, the two
parts around it are joined by a blank line. -/
def cut (marker text : List Char) : List Char :=
  let lines := linesOf text
  let before := lines.takeWhile fun line => !isMarker marker line
  match lines.dropWhile fun line => !isMarker marker line with
  | [] => text
  | _ :: rest =>
    match rest.dropWhile fun line => !isHeading line with
    | [] => joinLines before
    | after => Text.trimEnd (joinLines before) ++ ['\n', '\n'] ++ Text.trimStart (joinLines after)

/-- A text trimmed, with a blank line behind it if anything is left. -/
def spacedOff (text : List Char) : List Char :=
  match Text.trim text with
  | [] => []
  | remaining => remaining ++ ['\n', '\n']

/-- The text that stays in front of a new report. -/
def kept (marker text : List Char) : List Char :=
  spacedOff (cut marker text)

/-- The text that stays in front of new content.  A first line that is no text is the marker of no
section. -/
def front (content : List Point) (text : List Char) : List Char :=
  match Text.text? (content.takeWhile (· != .char '\n')) with
  | some marker => kept marker.toList text
  | none => spacedOff text

/-- How an update of a report file ends. -/
inductive Outcome where
  /-- the file holds the new report -/
  | written
  /-- the disk refused -/
  | failed (fault : DiskFault)
  /-- the path is none that a disk can be asked about -/
  | unusablePath (fault : DiskFault)
  /-- the file there is holds no text -/
  | notText (fault : Text.Utf8Fault)
  /-- the new text cannot be encoded, and the file is empty -/
  | notEncodable (fault : Text.EncodeFault)
  deriving DecidableEq, Repr

/-- How a fault ends an update. -/
def Outcome.ofFault (fault : DiskFault) : Outcome :=
  match fault.cause with
  | .nulInPath _ => .unusablePath fault
  | _ => .failed fault

/-- The text that an update writes. -/
def newText (disk : Disk) (path : Path) (content : List Point) : Except Outcome (List Point) := do
  if ← (disk.contains path).mapError .ofFault then
    let bytes ← (disk.read path).mapError .ofFault
    let text ← (Text.readStrict bytes).mapError .notText
    return (front content text.toList).map .char ++ content
  else
    return content

/-- Writes a text into the file that was opened at a location. -/
def fill (opened : Disk) (path : Path) (location : Location) (text : List Point) :
    Disk × Outcome :=
  match Text.encode text with
  | .error fault => (opened, .notEncodable fault)
  | .ok bytes =>
    match opened.fill path location bytes with
    | (disk, none) => (disk, .written)
    | (disk, some fault) => (disk, .ofFault fault)

/-- Updates the report file, creating its folder if need be. -/
def update (disk : Disk) (path : Path) (content : List Point) : Disk × Outcome :=
  match newText disk path content with
  | .error outcome => (disk, outcome)
  | .ok text =>
    match disk.makeFolders path.parent with
    | (disk, some fault) => (disk, .ofFault fault)
    | (disk, none) =>
      match disk.openEmpty path with
      | .error fault => (disk, .ofFault fault)
      | .ok (location, opened) => fill opened path location text

end ImportAtlas.Section
