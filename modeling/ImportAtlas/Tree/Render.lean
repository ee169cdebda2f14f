import ImportAtlas.Tree.Basic

set_option autoImplicit false

/-!
# Drawing a tree

A tree is drawn with one line for each folder and file.  The rows of a folder are
its subfolders by name, then its files by name; the last row has the closing
connector.  Below a row that is not the last a bar continues, below the last one
its column is blank.  Folders deeper than a limit are left out with all they
hold, which does not change the connectors of the rows that remain.
-/

namespace ImportAtlas.Tree

/-- A row of a folder. -/
inductive Row where
  | folder (child : Tree)
  | file (leaf : Leaf)

/-- Each element of a list with whether it is the last. -/
def markLast {α : Type} : List α → List (α × Bool)
  | [] => []
  | a :: rest => (a, rest.isEmpty) :: markLast rest

/-- The rows of a folder, in the order in which they are drawn. -/
def rows (tree : Tree) : List (Row × Bool) :=
  let folders := tree.children.mergeSort fun a b => decide (a.name ≤ b.name)
  let files := tree.files.mergeSort fun a b => decide (a.name ≤ b.name)
  markLast (folders.map Row.folder ++ files.map Row.file)

/-- What joins a row to the bar of its folder. -/
def connector (last : Bool) : String :=
  if last then "└── " else "├── "

/-- What continues below a row. -/
def continuation (last : Bool) : String :=
  if last then "    " else "│   "

/-- The text of a file: its name, with the number of its dependencies if asked for and not zero. -/
def label (showCounts : Bool) (leaf : Leaf) : String :=
  if showCounts && leaf.dependencyCount != 0 then
    leaf.name ++ " (" ++ toString leaf.dependencyCount ++ " deps)"
  else leaf.name

/-- The lines below a folder, each after the margin; `levels` counts the levels of subfolders that
are still drawn. -/
def linesBelow (showCounts : Bool) : (levels : Nat) → (margin : String) → Tree → List String
  | 0, margin, tree =>
    (rows tree).flatMap fun (row, last) => match row with
      | .folder _ => []
      | .file leaf => [margin ++ connector last ++ label showCounts leaf]
  | levels + 1, margin, tree =>
    (rows tree).flatMap fun (row, last) => match row with
      | .folder child =>
        (margin ++ connector last ++ child.name ++ "/") ::
          linesBelow showCounts levels (margin ++ continuation last) child
      | .file leaf => [margin ++ connector last ++ label showCounts leaf]

/-- The lines of a tree. -/
def lines (tree : Tree) (maxDepth : Int) (showCounts : Bool) : List String :=
  (tree.name ++ "/") :: linesBelow showCounts maxDepth.toNat "" tree

/-- The drawing of a tree. -/
def render (tree : Tree) (maxDepth : Int) (showCounts : Bool) : String :=
  "\n".intercalate (lines tree maxDepth showCounts)

@[simp] theorem markLast_length {α : Type} (l : List α) : (markLast l).length = l.length := by
  induction l with
  | nil => rfl
  | cons a l ih => simp [markLast, ih]

@[simp] theorem markLast_map_fst {α : Type} (l : List α) : (markLast l).map Prod.fst = l := by
  induction l with
  | nil => rfl
  | cons a l ih => simp [markLast, ih]

end ImportAtlas.Tree
