set_option autoImplicit false

/-!
# Blank characters and trimming

The blank characters are the ones Unicode counts as space, together with the
four information separators U+001C to U+001F.  Everything in the library that
skips space or trims text uses this one class: reference forms, exclusion
patterns, entry arguments and report sections.

Texts are handled as lists of characters.  `trimStart` drops the leading
blanks, `trimEnd` the trailing ones, and `trim` both.
-/

namespace ImportAtlas.Text

/-- A blank: Unicode space, a line or paragraph separator, one of the control
characters U+0009 to U+000D, or an information separator U+001C to U+001F. -/
def isBlank (c : Char) : Bool :=
  let n := c.toNat
  (9 ≤ n && n ≤ 13) || (28 ≤ n && n ≤ 32) || n == 0x85 || n == 0xA0 || n == 0x1680 ||
    (0x2000 ≤ n && n ≤ 0x200A) || n == 0x2028 || n == 0x2029 || n == 0x202F ||
    n == 0x205F || n == 0x3000

/-- A space character of the Unicode property White_Space, which lacks the four
information separators. -/
def isWhiteSpace (c : Char) : Bool :=
  isBlank c && !(28 ≤ c.toNat && c.toNat ≤ 31)

/-- The text without its leading blanks. -/
def trimStart (s : List Char) : List Char :=
  s.dropWhile isBlank

/-- The text without the trailing characters of a class. -/
def dropEndWhile (p : Char → Bool) (s : List Char) : List Char :=
  (s.reverse.dropWhile p).reverse

/-- The text without its trailing blanks. -/
def trimEnd (s : List Char) : List Char :=
  dropEndWhile isBlank s

/-- The text without the characters of a class at either end. -/
def trimBy (p : Char → Bool) (s : List Char) : List Char :=
  dropEndWhile p (s.dropWhile p)

/-- The text without its leading and trailing blanks. -/
def trim (s : List Char) : List Char :=
  trimEnd (trimStart s)

/-- The string without its leading and trailing blanks. -/
def strip (s : String) : String :=
  String.ofList (trim s.toList)

end ImportAtlas.Text
