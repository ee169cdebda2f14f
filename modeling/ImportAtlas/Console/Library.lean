set_option autoImplicit false

/-!
# The library that prints

Messages carry tags in square brackets that say how a text looks, such as `[red]`
and `[/red]`; and since paths are printed as messages, a path may hold tags as
well.  A library outside this project turns messages into texts and lays out
lines, tables and trees.  It enters as a parameter, and nothing is assumed of it.
-/

namespace ImportAtlas

/-- On which side the cells of a column stand. -/
inductive Alignment where
  | left
  | right
  deriving DecidableEq, Repr

/-- A column: its heading and its alignment. -/
structure Column where
  heading : String
  alignment : Alignment
  deriving DecidableEq, Repr

/-- A table. -/
structure Table where
  title : String
  columns : List Column
  rows : List (List String)
  deriving DecidableEq, Repr

/-- A label, which is a message, with those below it. -/
inductive Branch where
  | mk (label : String) (below : List Branch)

/-- What the library says against a message. -/
structure MarkupFault where
  message : String
  deriving DecidableEq, Repr

/-- What the program calls. -/
class Console where
  /-- the text that a message leaves on a plain screen -/
  plain : String → Except MarkupFault String
  /-- a text as the screen shows it -/
  shown : String → String
  /-- the lines of a table -/
  table : Table → List String
  /-- the lines of a tree -/
  tree : Branch → Except MarkupFault (List String)

end ImportAtlas
