import ImportAtlas.Decimal.Shortest
import ImportAtlas.Text.Point

set_option autoImplicit false

/-!
# JSON values and their text

In a JSON value an integer and a number with a fraction or an exponent are
different, and the members of an object keep their order.  Strings and names are
code points, so that they may hold a surrogate without its partner.

A document is written over several lines with two spaces for each level, or on
one line.  Strings escape the quote, the backslash, the control characters below
U+0020 and the surrogates; the ASCII charset also escapes every character outside
U+0020 to U+007E, one above U+FFFF as two surrogate units.  Infinity and the value
that is no number are written as words.
-/

namespace ImportAtlas

open Text (Point)

/-- A JSON value. -/
inductive Json where
  | null
  | bool (value : Bool)
  | int (value : Int)
  | float (value : Float)
  | string (value : List Point)
  | array (items : List Json)
  | object (members : List (List Point × Json))
  deriving Repr, Inhabited

namespace Json

/-- An array of strings. -/
def strings (items : List String) : Json :=
  .array (items.map fun item : String => .string item)

/-- Which characters a string may show as they are. -/
inductive Charset where
  | ascii
  | unicode
  deriving DecidableEq, Repr

/-- Whether a document is spread over lines. -/
inductive Layout where
  | lines
  | oneLine
  deriving DecidableEq, Repr

/-- A sixteen-bit unit as an escape. -/
def unitEscape (n : Nat) : List Char :=
  '\\' :: 'u' :: Text.hexDigits 4 n

/-- A character as escapes of its one or two sixteen-bit units. -/
def numberEscape (c : Char) : List Char :=
  if c.toNat < 0x10000 then unitEscape c.toNat
  else
    let offset := c.toNat - 0x10000
    unitEscape (0xD800 + offset / 0x400) ++ unitEscape (0xDC00 + offset % 0x400)

/-- A character inside a string. -/
def escapeChar (charset : Charset) (c : Char) : List Char :=
  if c = '"' then ['\\', '"']
  else if c = '\\' then ['\\', '\\']
  else if c = '\n' then ['\\', 'n']
  else if c = '\r' then ['\\', 'r']
  else if c = '\t' then ['\\', 't']
  else if c = '\x08' then ['\\', 'b']
  else if c = '\x0c' then ['\\', 'f']
  else if c.toNat < 32 then numberEscape c
  else if charset = .ascii ∧ 126 < c.toNat then numberEscape c
  else [c]

/-- A code point inside a string. -/
def escapePoint (charset : Charset) : Point → List Char
  | .char c => escapeChar charset c
  | .surrogate offset => unitEscape (0xD800 + offset)

/-- A string with its quotes. -/
def writeString (charset : Charset) (s : List Point) : String :=
  String.ofList ('"' :: (s.flatMap (escapePoint charset) ++ ['"']))

/-- A number that is not an integer. -/
def writeFloat (x : Float) : String :=
  Decimal.text "Infinity" "NaN" x

/-- The break before an item at a level. -/
def lineBreak (layout : Layout) (level : Nat) : String :=
  match layout with
  | .lines => String.ofList ('\n' :: List.replicate (2 * level) ' ')
  | .oneLine => ""

/-- What stands between two items at a level. -/
def itemBreak (layout : Layout) (level : Nat) : String :=
  match layout with
  | .lines => "," ++ lineBreak layout level
  | .oneLine => ", "

/-- Items between brackets; nothing stands between the brackets of an empty list. -/
def bracket (layout : Layout) (level : Nat) (opening closing : String) (items : List String) :
    String :=
  if items = [] then opening ++ closing
  else
    opening ++ lineBreak layout (level + 1) ++ (itemBreak layout (level + 1)).intercalate items ++
      lineBreak layout level ++ closing

mutual

/-- A value at a level. -/
def writeAt (charset : Charset) (layout : Layout) (level : Nat) : Json → String
  | .null => "null"
  | .bool b => if b then "true" else "false"
  | .int n => toString n
  | .float x => writeFloat x
  | .string s => writeString charset s
  | .array items => bracket layout level "[" "]" (writeItems charset layout (level + 1) items)
  | .object members =>
    bracket layout level "\x7b" "\x7d" (writeMembers charset layout (level + 1) members)

/-- The items of an array. -/
def writeItems (charset : Charset) (layout : Layout) (level : Nat) : List Json → List String
  | [] => []
  | v :: rest => writeAt charset layout level v :: writeItems charset layout level rest

/-- The members of an object. -/
def writeMembers (charset : Charset) (layout : Layout) (level : Nat) :
    List (List Point × Json) → List String
  | [] => []
  | (k, v) :: rest =>
    (writeString charset k ++ ": " ++ writeAt charset layout level v) ::
      writeMembers charset layout level rest

end

/-- A document. -/
def write (charset : Charset) (layout : Layout) (v : Json) : String :=
  writeAt charset layout 0 v

end Json

end ImportAtlas
