import ImportAtlas.Decimal.Double

set_option autoImplicit false

/-!
# Reading decimals

The parts of a decimal number on lists of characters, shared by every reader of
numbers, and the number that a whole text spells: a sign, then one of the words
for infinity or for the value that is no number, or digits with an optional
point among them and an optional exponent.
-/

namespace ImportAtlas.Decimal

/-- The digits at the front and what follows them. -/
def digits (s : List Char) : List Char × List Char :=
  (s.takeWhile Char.isDigit, s.dropWhile Char.isDigit)

/-- The number that decimal digits spell. -/
def natOfDigits (ds : List Char) : Nat :=
  ds.foldl (fun n d => n * 10 + (d.toNat - 48)) 0

/-- The sign at the front, true for a minus, and what follows it. -/
def splitSign : List Char → Bool × List Char
  | '-' :: rest => (true, rest)
  | '+' :: rest => (false, rest)
  | s => (false, s)

/-- The digits of a text in which single underscores may separate digits. -/
def groupedDigits? (s : List Char) : Option (List Char) :=
  let groups := s.splitOn '_'
  if groups.all fun g => g != [] && g.all Char.isDigit then some groups.flatten else none

/-- The exponent behind an `e`, if there is one. -/
def exponent (s : List Char) : Option Int × List Char :=
  match s with
  | c :: rest =>
    if c = 'e' ∨ c = 'E' then
      let (negative, rest) := splitSign rest
      match digits rest with
      | ([], _) => (none, s)
      | (found, rest) =>
        let n : Int := natOfDigits found
        (some (if negative then -n else n), rest)
    else (none, s)
  | [] => (none, s)

/-- The digits behind a point, or none and the text as it is. -/
def fraction (s : List Char) : List Char × List Char :=
  match s with
  | '.' :: rest => digits rest
  | _ => ([], s)

/-- The words for infinity. -/
def infinityWords : List (List Char) := ["inf".toList, "infinity".toList]

/-- The word for the value that is no number. -/
def undefinedWord : List Char := "nan".toList

/-- The number that a text spells. -/
def ofText? (s : List Char) : Option Float :=
  let (negative, body) := splitSign s
  let word := body.map Char.toLower
  if infinityWords.contains word then some (if negative then -1.0 / 0.0 else 1.0 / 0.0)
  else if word = undefinedWord then some (0.0 / 0.0)
  else
    let (whole, rest) := digits body
    let (part, rest) := fraction rest
    let (power, rest) := exponent rest
    if whole ++ part = [] ∨ rest ≠ [] then none
    else some (ofDecimal negative (natOfDigits (whole ++ part)) (power.getD 0 - part.length))

end ImportAtlas.Decimal
