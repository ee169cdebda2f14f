set_option autoImplicit false

/-!
# Paths

A path is an anchor and a list of parts.  The anchor says whether the path is
relative, starts at the root, or starts with exactly two slashes, which is a
spelling of its own and never equal to the root.  Reading a text drops empty
parts and parts `.`, and keeps `..`; so two texts denote one path exactly when
they differ in such parts only.

`normalize` folds each `..` into the part before it, by the text alone and
without looking at a disk.  In an absolute path a `..` with nothing before it is
dropped; in a relative one it stays at the front.
-/

namespace ImportAtlas

/-- Where a path starts. -/
inductive Anchor where
  /-- at the working folder -/
  | relative
  /-- at the root -/
  | root
  /-- at the root, spelled with exactly two slashes -/
  | doubleRoot
  deriving DecidableEq, Repr

/-- The slashes that an anchor is written with. -/
def Anchor.text : Anchor → String
  | .relative => ""
  | .root => "/"
  | .doubleRoot => "//"

/-- A path: an anchor and the parts below it. -/
structure Path where
  anchor : Anchor
  parts : List String
  deriving DecidableEq, Repr

namespace Path

/-- The anchor of a text with `n` leading slashes. -/
def anchorOfSlashes : Nat → Anchor
  | 0 => .relative
  | 2 => .doubleRoot
  | _ => .root

/-- Whether a piece of text between slashes is a part of the path: it is neither empty nor `.`. -/
def isPart (piece : List Char) : Bool :=
  piece != [] && piece != ['.']

/-- The path that a text spells. -/
def ofString (text : String) : Path where
  anchor := anchorOfSlashes (text.toList.takeWhile (· == '/')).length
  parts := ((text.toList.splitOn '/').filter isPart).map String.ofList

/-- The parts of a relative path as a text; the empty path is written `.`. -/
def partsText (parts : List String) : String :=
  if parts = [] then "." else "/".intercalate parts

/-- The text of a path. -/
def text (p : Path) : String :=
  match p.anchor with
  | .relative => partsText p.parts
  | a => a.text ++ "/".intercalate p.parts

/-- Whether the path starts at the root, in either spelling. -/
def isAbsolute (p : Path) : Bool :=
  p.anchor != .relative

/-- The path `other` seen from `base`: an absolute path stands for itself, a relative one
continues `base`. -/
def append (base other : Path) : Path :=
  if other.isAbsolute then other else { base with parts := base.parts ++ other.parts }

instance : Append Path := ⟨append⟩

/-- The path one name below `p`. -/
def child (p : Path) (name : String) : Path :=
  { p with parts := p.parts ++ [name] }

/-- One more part on a stack of parts already folded, the nearest part on top. -/
def foldPart (absolute : Bool) (stack : List String) (part : String) : List String :=
  if part = ".." then
    match stack with
    | [] => if absolute then [] else [".."]
    | top :: below => if top = ".." then ".." :: stack else below
  else part :: stack

/-- The path with every `..` folded into the part before it. -/
def normalize (p : Path) : Path :=
  { p with parts := (p.parts.foldl (foldPart p.isAbsolute) []).reverse }

/-- The normalized absolute path that `p` denotes in the working folder `cwd`. -/
def absolute (cwd p : Path) : Path :=
  (cwd ++ p).normalize

/-- The last part, or the empty text for a path without parts. -/
def name (p : Path) : String :=
  p.parts.getLast?.getD ""

/-- The path without its last part; a path without parts is its own parent. -/
def parent (p : Path) : Path :=
  { p with parts := p.parts.dropLast }

/-- The suffix of a name: the text from its last dot on, unless that dot is the first or the last
character of the name. -/
def suffixOfName (name : List Char) : List Char :=
  let extension := (name.reverse.takeWhile (· != '.')).reverse
  let stem := name.take (name.length - extension.length - 1)
  if name.contains '.' && extension != [] && stem != [] then '.' :: extension else []

/-- The suffix of a path's name, with its dot, or the empty text. -/
def suffix (p : Path) : String :=
  String.ofList (suffixOfName p.name.toList)

/-- The path whose name has another suffix in the place of its own. -/
def withSuffix (p : Path) (suffix : String) : Path :=
  let name := p.name.toList
  let stem := name.take (name.length - (suffixOfName name).length)
  p.parent.child (String.ofList stem ++ suffix)

/-- The parts of `p` below `base`, if `p` is `base` or lies under it. -/
def relativeTo? (p base : Path) : Option (List String) :=
  if p.anchor = base.anchor then base.parts.isPrefixOf? p.parts else none

/-! ## Small laws -/

@[simp] theorem append_of_absolute {base other : Path} (h : other.isAbsolute = true) :
    base ++ other = other := by
  show append base other = other
  simp [append, h]

theorem append_of_relative {base other : Path} (h : other.isAbsolute = false) :
    base ++ other = { base with parts := base.parts ++ other.parts } := by
  show append base other = _
  simp [append, h]

@[simp] theorem normalize_anchor (p : Path) : p.normalize.anchor = p.anchor := rfl

theorem isPrefixOf?_self (parts : List String) : parts.isPrefixOf? parts = some [] := by
  induction parts with
  | nil => rfl
  | cons a l ih =>
    show (if a == a then l.isPrefixOf? l else none) = some []
    rw [if_pos (beq_self_eq_true a), ih]

theorem relativeTo?_self (p : Path) : p.relativeTo? p = some [] := by
  rw [relativeTo?, if_pos rfl, isPrefixOf?_self]

end Path

end ImportAtlas
