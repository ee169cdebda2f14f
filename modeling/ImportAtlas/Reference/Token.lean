import ImportAtlas.Text.Blank
import ImportAtlas.Text.Word

set_option autoImplicit false

/-!
# The pieces of a reference

A reference form is read from the front of a text by a few small readers, each
of which returns what follows the piece it read, or nothing when the piece is
not there.  None of them has a choice to make: at every front at most one way of
reading exists, so no reader is ever tried again with a shorter piece.

Every reader that succeeds returns a shorter text, or one no longer in the case
of `blanks`; the loops over texts end by that.
-/

namespace ImportAtlas.Reference

open Text

/-- What follows the blanks at the front, of which there may be none. -/
def blanks (s : List Char) : List Char :=
  s.dropWhile isBlank

/-- What follows the blanks at the front, of which there is at least one. -/
def blanks? : List Char → Option (List Char)
  | [] => none
  | c :: cs => if isBlank c then some (blanks cs) else none

/-- What follows a fixed word at the front. -/
def keyword? (word : String) (s : List Char) : Option (List Char) :=
  word.toList.isPrefixOf? s

/-- What follows one fixed character at the front. -/
def symbol? (c : Char) : List Char → Option (List Char)
  | [] => none
  | d :: cs => if d = c then some cs else none

/-- What follows a run of word characters at the front. -/
def name? : List Char → Option (List Char)
  | [] => none
  | c :: cs => if isWord c then some (cs.dropWhile isWord) else none

/-- Either quote. -/
def isQuote (c : Char) : Bool :=
  c == '\'' || c == '"'

/-- A quoted specifier: an opening quote, at least one character that is no quote, and a closing
quote, which need not be the one it was opened with.  Gives the characters between the quotes and
what follows. -/
def specifier? : List Char → Option (List Char × List Char)
  | [] => none
  | q :: cs =>
    if isQuote q then
      let body := cs.takeWhile fun c => !isQuote c
      match body, cs.dropWhile fun c => !isQuote c with
      | _ :: _, _ :: rest => some (body, rest)
      | _, _ => none
    else none

/-- What follows the first `*/`. -/
def afterComment? : List Char → Option (List Char)
  | [] => none
  | '*' :: '/' :: rest => some rest
  | _ :: rest => afterComment? rest

/-! ## Readers shorten the text -/

theorem length_blanks_le (s : List Char) : (blanks s).length ≤ s.length :=
  (List.dropWhile_suffix _).length_le

theorem length_of_symbol? {c : Char} {s r : List Char} (h : symbol? c s = some r) :
    r.length < s.length := by
  cases s with
  | nil => simp [symbol?] at h
  | cons d cs =>
    simp only [symbol?] at h
    split at h
    · cases h; simp
    · cases h

theorem length_of_name? {s r : List Char} (h : name? s = some r) : r.length < s.length := by
  cases s with
  | nil => simp [name?] at h
  | cons d cs =>
    simp only [name?] at h
    split at h
    · cases h
      have := (List.dropWhile_suffix (l := cs) isWord).length_le
      simp only [List.length_cons]; omega
    · cases h

theorem length_of_blanks? {s r : List Char} (h : blanks? s = some r) : r.length < s.length := by
  cases s with
  | nil => simp [blanks?] at h
  | cons d cs =>
    simp only [blanks?] at h
    split at h
    · cases h
      have := length_blanks_le cs
      simp only [List.length_cons]; omega
    · cases h

theorem length_of_keyword? {w : String} {s r : List Char} (h : keyword? w s = some r) :
    r.length ≤ s.length := by
  unfold keyword? at h
  have key : ∀ (l s : List Char), l.isPrefixOf? s = some r → r.length ≤ s.length := by
    intro l
    induction l with
    | nil => intro s h; cases h; exact Nat.le_refl _
    | cons a l ih =>
      intro s h
      cases s with
      | nil => cases h
      | cons b s =>
        change (if a == b then l.isPrefixOf? s else none) = some r at h
        split at h
        · have := ih s h
          simp only [List.length_cons]; omega
        · cases h
  exact key _ _ h

end ImportAtlas.Reference
