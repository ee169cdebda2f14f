import ImportAtlas.Text.PrintableTable
import ImportAtlas.Text.Word

set_option autoImplicit false

/-!
# Quoted text

Messages show a path or a setting's name as a quoted text: single quotes, unless
the text holds a single quote and no double quote.  Inside, the backslash and
the quote in use are escaped by a backslash, line feed, carriage return and tab
by their letter, and every other character without a printed form by its number
in lower-case hexadecimal, with the fewest of two, four or eight digits.
-/

namespace ImportAtlas.Text

/-- Whether a character is shown as itself inside a quoted text. -/
def isPrintable (c : Char) : Bool :=
  if c.toNat < 128 then 32 ≤ c.toNat && c.toNat < 127
  else !inRanges unprintableRanges c.toNat

/-- The hexadecimal digits of `n`, lower-case, padded with zeros to `width` digits. -/
def hexDigits (width n : Nat) : List Char :=
  let digits := Nat.toDigits 16 n
  List.replicate (width - digits.length) '0' ++ digits

/-- The quote that surrounds a text. -/
def quoteFor (s : List Char) : Char :=
  if s.contains '\'' && !s.contains '"' then '"' else '\''

/-- One character inside a text quoted by `q`. -/
def escapeChar (q c : Char) : List Char :=
  if c = q then ['\\', q]
  else if c = '\\' then ['\\', '\\']
  else if c = '\n' then ['\\', 'n']
  else if c = '\r' then ['\\', 'r']
  else if c = '\t' then ['\\', 't']
  else if isPrintable c then [c]
  else if c.toNat < 0x100 then '\\' :: 'x' :: hexDigits 2 c.toNat
  else if c.toNat < 0x10000 then '\\' :: 'u' :: hexDigits 4 c.toNat
  else '\\' :: 'U' :: hexDigits 8 c.toNat

/-- A text in its quoted form. -/
def quote (s : String) : String :=
  let q := quoteFor s.toList
  String.ofList (q :: (s.toList.flatMap (escapeChar q) ++ [q]))

end ImportAtlas.Text
