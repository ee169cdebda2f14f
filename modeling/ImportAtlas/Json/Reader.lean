import ImportAtlas.Assoc
import ImportAtlas.Decimal.Reader
import ImportAtlas.Json.Writer

set_option autoImplicit false

/-!
# Reading JSON

`parse?` reads one document.  Apart from the grammar of JSON it reads the words
for infinity and for the value that is no number, so that everything written can
be read.  In an object that repeats a key, the last value counts, in the place of
the first.  An integer of more than 4300 digits is refused.

The readers consume at least one character for each level of their bound, and
`parse?` starts them with a bound above the length of the text.
-/

namespace ImportAtlas.Json

open Text (Point)

/-- What follows the space at the front. -/
def skipSpace (s : List Char) : List Char :=
  s.dropWhile fun c => c == ' ' || c == '\t' || c == '\n' || c == '\r'

/-- The value of a hexadecimal digit. -/
def hexValue? (c : Char) : Option Nat :=
  if '0' ≤ c ∧ c ≤ '9' then some (c.toNat - 48)
  else if 'a' ≤ c ∧ c ≤ 'f' then some (c.toNat - 87)
  else if 'A' ≤ c ∧ c ≤ 'F' then some (c.toNat - 55)
  else none

/-- A sixteen-bit unit of four hexadecimal digits. -/
def unit? : List Char → Option (Nat × List Char)
  | a :: b :: c :: d :: rest => do
    let a ← hexValue? a
    let b ← hexValue? b
    let c ← hexValue? c
    let d ← hexValue? d
    return (((a * 16 + b) * 16 + c) * 16 + d, rest)
  | _ => none

/-- The second unit of a pair that stands at the front as an escape. -/
def lowUnit? : List Char → Option (Nat × List Char)
  | '\\' :: 'u' :: rest => (unit? rest).filter fun read => 0xDC00 ≤ read.1 && read.1 < 0xE000
  | _ => none

/-- The code point of a unit already read; the first unit of a pair takes the second from the
text. -/
def pointOfUnit (unit : Nat) (rest : List Char) : Point × List Char :=
  if 0xD800 ≤ unit ∧ unit < 0xDC00 then
    match lowUnit? rest with
    | some (second, tail) =>
      (.char (Char.ofNat (0x10000 + (unit - 0xD800) * 0x400 + (second - 0xDC00))), tail)
    | none => (.ofNat unit, rest)
  else (.ofNat unit, rest)

/-- The character of a one-letter escape. -/
def letterEscape? : Char → Option Char
  | '"' => some '"'
  | '\\' => some '\\'
  | '/' => some '/'
  | 'b' => some '\x08'
  | 'f' => some '\x0c'
  | 'n' => some '\n'
  | 'r' => some '\r'
  | 't' => some '\t'
  | _ => none

/-- The rest of a string behind its opening quote. -/
def stringBody? : (bound : Nat) → List Char → Option (List Point × List Char)
  | 0, _ => none
  | _ + 1, [] => none
  | _ + 1, '"' :: rest => some ([], rest)
  | bound + 1, '\\' :: 'u' :: rest => do
    let (unit, rest) ← unit? rest
    let (point, rest) := pointOfUnit unit rest
    let (body, rest) ← stringBody? bound rest
    return (point :: body, rest)
  | bound + 1, '\\' :: c :: rest => do
    let c ← letterEscape? c
    let (body, rest) ← stringBody? bound rest
    return (.char c :: body, rest)
  | bound + 1, c :: rest => do
    if c.toNat < 32 ∨ c = '\\' then none
    let (body, rest) ← stringBody? bound rest
    return (.char c :: body, rest)

/-- The digits of a fraction, at least one behind the point, or none and the text as it is. -/
def fraction (s : List Char) : List Char × List Char :=
  match Decimal.fraction s with
  | ([], _) => ([], s)
  | found => found

/-- The greatest number of digits of an integer that is read. -/
def maxDigits : Nat := 4300

/-- A number without its sign. -/
def unsigned? (negative : Bool) (s : List Char) : Option (Json × List Char) := do
  let (whole, rest) ← match s with
    | '0' :: rest => some (['0'], rest)
    | _ =>
      match Decimal.digits s with
      | ([], _) => none
      | found => some found
  let (part, rest) := fraction rest
  let (power, rest) := Decimal.exponent rest
  if part = [] ∧ power = none then
    if maxDigits < whole.length then none
    let n : Int := Decimal.natOfDigits whole
    return (.int (if negative then -n else n), rest)
  else
    let mantissa := Decimal.natOfDigits (whole ++ part)
    return (.float (Decimal.ofDecimal negative mantissa (power.getD 0 - part.length)), rest)

/-- A word of the grammar and the value it stands for. -/
def words : List (String × Json) :=
  [("null", .null), ("true", .bool true), ("false", .bool false), ("NaN", .float (0.0 / 0.0)),
    ("Infinity", .float (1.0 / 0.0)), ("-Infinity", .float (-1.0 / 0.0))]

/-- A word at the front. -/
def word? (s : List Char) : Option (Json × List Char) :=
  words.findSome? fun (word, value) =>
    (word.toList.isPrefixOf? s).map fun rest => (value, rest)

mutual

/-- A value at the front. -/
def value? : (bound : Nat) → List Char → Option (Json × List Char)
  | 0, _ => none
  | _ + 1, [] => none
  | bound + 1, c :: rest =>
    if c = '"' then do
      let (body, rest) ← stringBody? (bound + 1) rest
      return (.string body, rest)
    else if c = '[' then
      match skipSpace rest with
      | ']' :: rest => some (.array [], rest)
      | rest => do
        let (items, rest) ← items? bound rest
        return (.array items, rest)
    else if c = '\x7b' then
      match skipSpace rest with
      | '\x7d' :: rest => some (.object [], rest)
      | rest => do
        let (members, rest) ← members? bound rest
        return (.object (Assoc.ofList members), rest)
    else
      match word? (c :: rest) with
      | some found => some found
      | none => if c = '-' then unsigned? true rest else unsigned? false (c :: rest)

/-- The items of an array up to its closing bracket. -/
def items? : (bound : Nat) → List Char → Option (List Json × List Char)
  | 0, _ => none
  | bound + 1, s => do
    let (v, s) ← value? bound s
    match skipSpace s with
    | ',' :: s => do
      let (rest, s) ← items? bound (skipSpace s)
      return (v :: rest, s)
    | ']' :: s => return ([v], s)
    | _ => none

/-- The members of an object up to its closing brace. -/
def members? : (bound : Nat) → List Char → Option (List (List Point × Json) × List Char)
  | 0, _ => none
  | bound + 1, s => do
    let s ← match s with
      | '"' :: s => some s
      | _ => none
    let (key, s) ← stringBody? (bound + 1) s
    let s ← match skipSpace s with
      | ':' :: s => some s
      | _ => none
    let (v, s) ← value? bound (skipSpace s)
    let member := (key, v)
    match skipSpace s with
    | ',' :: s => do
      let (rest, s) ← members? bound (skipSpace s)
      return (member :: rest, s)
    | '\x7d' :: s => return ([member], s)
    | _ => none

end

/-- The document that a text holds. -/
def parse? (text : String) : Option Json := do
  let s := skipSpace text.toList
  let (v, s) ← value? (s.length + 1) s
  if skipSpace s = [] then some v else none

end ImportAtlas.Json
