import ImportAtlas.Text.Blank
import ImportAtlas.Text.Width

set_option autoImplicit false

/-!
# The screen

The screen shows a text line by line.  Some control characters vanish, a tab
widens to the next column that is a multiple of eight, and a line that is wider
than the screen is broken: before a word that does not fit, or inside a word
that fits on no line.  The blanks behind a word stay with it and may hang over
the edge, where they are dropped.
-/

namespace ImportAtlas.Standard.Screen

/-- The columns of the screen. -/
def columns : Nat := 4000

/-- The distance between tab stops. -/
def tabWidth : Nat := 8

/-- A character that the screen never shows. -/
def isDropped (c : Char) : Bool :=
  [7, 8, 11, 12, 13].contains c.toNat

/-- The spaces from a tab to the next stop; a tab is at least one space wide. -/
def tabSpaces (column : Nat) : Nat :=
  tabWidth - column % tabWidth

/-- A line with its tabs widened, from a column on. -/
def widenTabs : (column : Nat) → List Char → List Char
  | _, [] => []
  | column, c :: rest =>
    if c = '\t' then
      List.replicate (tabSpaces column) ' ' ++ widenTabs (column + tabSpaces column) rest
    else c :: widenTabs (column + Text.charWidth c) rest

/-- A word at the front, with the blanks around it, and what follows. -/
def nextWord (s : List Char) : List Char × List Char :=
  let blanks := s.takeWhile Text.isBlank
  let afterBlanks := s.dropWhile Text.isBlank
  let word := afterBlanks.takeWhile fun c => !Text.isBlank c
  let afterWord := afterBlanks.dropWhile fun c => !Text.isBlank c
  (blanks ++ word ++ afterWord.takeWhile Text.isBlank, afterWord.dropWhile Text.isBlank)

/-- The words of a line, each with the blanks around it. -/
def wordsOf (s : List Char) : List (List Char) :=
  match nextWord s with
  | ([], _) => []
  | (word, rest) => if rest.length < s.length then word :: wordsOf rest else [word]
termination_by s.length

/-- A text cut into pieces of at most a given width; `taken` is the current piece, the last
character first, and `column` its width. -/
def chop (width column : Nat) (taken : List Char) : List Char → List (List Char)
  | [] => [taken.reverse]
  | c :: rest =>
    if width < column + Text.charWidth c then
      taken.reverse :: chop width (Text.charWidth c) [c] rest
    else chop width (column + Text.charWidth c) (c :: taken) rest

/-- Lines broken so far: the finished ones, the last first, and the current one with the columns
that it counts. -/
structure Broken where
  finished : List (List Char)
  current : List Char
  column : Nat
  deriving DecidableEq, Repr

namespace Broken

/-- Nothing yet. -/
def empty : Broken := ⟨[], [], 0⟩

/-- Goes on with a piece on a new line, or on the first line if nothing is there yet. -/
def breakBefore (b : Broken) (piece : List Char) : Broken :=
  if b.finished = [] ∧ b.current = [] then ⟨[], piece, Text.width piece⟩
  else ⟨b.current :: b.finished, piece, Text.width piece⟩

/-- Adds a word. -/
def addWord (width : Nat) (b : Broken) (word : List Char) : Broken :=
  let visible := Text.width (Text.trimEnd word)
  if b.column + visible ≤ width then
    { b with current := b.current ++ word, column := b.column + Text.width word }
  else if width < visible then (chop width 0 [] word).foldl breakBefore b
  else b.breakBefore word

/-- The lines. -/
def lines (b : Broken) : List (List Char) :=
  (b.current :: b.finished).reverse

end Broken

/-- A line without the blanks that hang over the edge. -/
def dropOverhang (width : Nat) (s : List Char) : List Char :=
  let blanks := s.length - (Text.trimEnd s).length
  s.take (s.length - min blanks (s.length - width))

/-- A line cut at the edge; half a wide character becomes a space. -/
def crop (left : Nat) : List Char → List Char
  | [] => []
  | c :: rest =>
    if Text.charWidth c ≤ left then c :: crop (left - Text.charWidth c) rest
    else List.replicate left ' '

/-- A line as it fits on the screen. -/
def fit (width : Nat) (s : List Char) : List Char :=
  crop width (dropOverhang width s)

/-- A line broken to a width. -/
def wrapLine (width : Nat) (s : List Char) : List (List Char) :=
  if s.all Text.isBlank then [fit width s]
  else (((wordsOf s).foldl (Broken.addWord width) .empty).lines).map (fit width)

/-- The lines that a screen of a width shows of a text. -/
def linesAt (width : Nat) (text : String) : List (List Char) :=
  let kept := text.toList.filter fun c => !isDropped c
  (kept.splitOn '\n').flatMap fun line => wrapLine width (widenTabs 0 line)

/-- A text as the screen shows it. -/
def shown (text : String) : String :=
  String.ofList (['\n'].intercalate (linesAt columns text))

end ImportAtlas.Standard.Screen
