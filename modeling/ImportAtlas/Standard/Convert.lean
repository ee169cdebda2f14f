import ImportAtlas.Decimal.Reader
import ImportAtlas.Settings.Library
import ImportAtlas.Text.Blank

set_option autoImplicit false

/-!
# Converting values to settings

A saved file or a variable may spell a value in another type than its setting's:
a count as a text or as a number without fraction, a flag as a word.  `convert`
brings a JSON value to the type of a shape, or lists what is wrong with it; a
list of texts reports each bad item by its index.
-/

namespace ImportAtlas.Standard

/-- What is wrong with a value. -/
inductive Problem where
  | notInteger
  | fraction
  | unreadableInteger
  | integerTooLong
  | notFinite
  | notBoolean
  | unreadableBoolean
  | notNumber
  | unreadableNumber
  | notText
  /-- a string with surrogates -/
  | notUnicode
  | notList
  | tooSmall (least : Nat)
  deriving DecidableEq, Repr

/-- The kind of a problem. -/
def Problem.kind : Problem → String
  | notInteger => "int_type"
  | fraction => "int_from_float"
  | unreadableInteger => "int_parsing"
  | integerTooLong => "int_parsing_size"
  | notFinite => "finite_number"
  | notBoolean => "bool_type"
  | unreadableBoolean => "bool_parsing"
  | notNumber => "float_type"
  | unreadableNumber => "float_parsing"
  | notText => "string_type"
  | notUnicode => "string_unicode"
  | notList => "list_type"
  | tooSmall _ => "greater_than_equal"

/-- The wording of a problem. -/
def Problem.message : Problem → String
  | notInteger => "Input should be a valid integer"
  | fraction => "Input should be a valid integer, got a number with a fractional part"
  | unreadableInteger => "Input should be a valid integer, unable to parse string as an integer"
  | integerTooLong => "Unable to parse input string as an integer, exceeded maximum size"
  | notFinite => "Input should be a finite number"
  | notBoolean => "Input should be a valid boolean"
  | unreadableBoolean => "Input should be a valid boolean, unable to interpret input"
  | notNumber => "Input should be a valid number"
  | unreadableNumber => "Input should be a valid number, unable to parse string as a number"
  | notText => "Input should be a valid string"
  | notUnicode => "Input should be a valid string, unable to parse raw data as a unicode string"
  | notList => "Input should be a valid list"
  | tooSmall least => "Input should be greater than or equal to " ++ toString least

/-- The text of a string. -/
def textOf (s : List Text.Point) : Except Problem String :=
  match Text.text? s with
  | some text => .ok text
  | none => .error .notUnicode

/-! ## Integers -/

/-- The greatest number of digits of an integer spelled as a text. -/
def maxDigits : Nat := 4300

/-- The bound of the integers that fit a signed word of 64 bits, `2 ^ 63`. -/
def wordBound : Int := 0x8000000000000000

/-- Whether an integer fits a signed word of 64 bits. -/
def fitsWord (n : Int) : Bool :=
  -wordBound ≤ n && n < wordBound

/-- The digits of an integer's text: digits that single underscores may separate, and behind them
an optional point with zeros. -/
def integerDigits? (s : List Char) : Option (List Char) :=
  let whole := s.takeWhile (· != '.')
  if (s.drop (whole.length + 1)).all (· == '0') then Decimal.groupedDigits? whole else none

/-- The integer that a text spells. -/
def integerOfText (s : String) : Except Problem Int :=
  let (negative, rest) := Decimal.splitSign (Text.trimBy Text.isWhiteSpace s.toList)
  match integerDigits? rest with
  | none => .error .unreadableInteger
  | some ds =>
    if maxDigits < ds.length then .error .integerTooLong
    else
      let n : Int := Decimal.natOfDigits ds
      .ok (if negative then -n else n)

/-- The integer that a double without fraction equals, if it lies strictly between the bounds of a
word of 64 bits. -/
def integerOfFloat (x : Float) : Except Problem Int :=
  if x.isNaN || x.isInf then .error .notFinite
  else
    match Decimal.toInt? x with
    | none => .error .fraction
    | some n => if -wordBound < n ∧ n < wordBound then .ok n else .error .integerTooLong

/-- The integer that a value stands for. -/
def integer : Json → Except Problem Int
  | .int n => .ok n
  | .bool b => .ok (if b then 1 else 0)
  | .float x => integerOfFloat x
  | .string s => (textOf s).bind integerOfText
  | _ => .error .notInteger

/-! ## Flags -/

/-- The words for yes. -/
def yesWords : List String := ["1", "on", "t", "true", "y", "yes"]

/-- The words for no. -/
def noWords : List String := ["0", "off", "f", "false", "n", "no"]

/-- A text with the letters A to Z in lower case. -/
def lowerAscii (s : String) : String :=
  String.ofList (s.toList.map Char.toLower)

/-- The flag that an integer stands for. -/
def flagOfInt (n : Int) : Except Problem Bool :=
  if n = 0 then .ok false
  else if n = 1 then .ok true
  else if fitsWord n then .error .unreadableBoolean
  else .error .notBoolean

/-- The flag that a text spells. -/
def flagOfText (s : String) : Except Problem Bool :=
  if yesWords.contains (lowerAscii s) then .ok true
  else if noWords.contains (lowerAscii s) then .ok false
  else .error .unreadableBoolean

/-- The flag that a value stands for. -/
def flagValue : Json → Except Problem Bool
  | .bool b => .ok b
  | .int n => flagOfInt n
  | .float x =>
    match integerOfFloat x with
    | .ok n => flagOfInt n
    | .error _ => .error .notBoolean
  | .string s => (textOf s).bind flagOfText
  | _ => .error .notBoolean

/-! ## Numbers -/

/-- A text without the underscores that stand one by one between other characters. -/
def dropSeparators (s : List Char) : List Char :=
  let groups := s.splitOn '_'
  if groups.all (· != []) then groups.flatten else s

/-- The number that a text spells. -/
def numberOfText (s : String) : Except Problem Float :=
  match Decimal.ofText? (dropSeparators (Text.trimBy Text.isWhiteSpace s.toList)) with
  | some x => .ok x
  | none => .error .unreadableNumber

/-- The number that a value stands for. -/
def number : Json → Except Problem Float
  | .float x => .ok x
  | .int n =>
    let x := Decimal.ofInt n
    if x.isInf then .error .notNumber else .ok x
  | .bool b => .ok (Decimal.ofInt (if b then 1 else 0))
  | .string s => (textOf s).bind numberOfText
  | _ => .error .notNumber

/-! ## Texts -/

/-- The text that a value is. -/
def textValue : Json → Except Problem String
  | .string s => textOf s
  | _ => .error .notText

/-! ## All shapes -/

/-- The complaint about a value, or about the item at an index. -/
def Problem.complaint (problem : Problem) (index : Option Nat) : Complaint :=
  ⟨index, problem.kind, problem.message⟩

/-- The complaints about a whole value. -/
def complaints (problem : Problem) : List Complaint :=
  [problem.complaint none]

/-- The complaint about an item, if it is no text. -/
def itemComplaint? (item : Json × Nat) : Option Complaint :=
  match textValue item.1 with
  | .ok _ => none
  | .error problem => some (problem.complaint (some item.2))

/-- The list of texts that a value is. -/
def textsValue : Json → Except (List Complaint) (List String)
  | .array items =>
    match items.zipIdx.filterMap itemComplaint? with
    | [] => .ok (items.filterMap fun item => (textValue item).toOption)
    | found => .error found
  | _ => .error (complaints .notList)

/-- A value that passes a bound. -/
def bounded {α : Type} (least : Nat) (passes : α → Bool) (x : α) : Except Problem α :=
  if passes x then .ok x else .error (.tooSmall least)

/-- Brings a JSON value to a shape. -/
def convert : (shape : SettingShape) → Json → Except (List Complaint) shape.Value
  | .count least, v =>
    ((integer v).bind (bounded least fun n => (least : Int) ≤ n)).mapError complaints
  | .flag, v => (flagValue v).mapError complaints
  | .seconds, v =>
    ((number v).bind (bounded 0 fun x => Decimal.ofInt 0 ≤ x)).mapError complaints
  | .text, v => (textValue v).mapError complaints
  | .texts, v => textsValue v

end ImportAtlas.Standard
