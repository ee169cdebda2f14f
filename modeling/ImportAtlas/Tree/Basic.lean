import ImportAtlas.Graph.Basic

set_option autoImplicit false

/-!
# The folder tree of a graph

Every file of a graph, entered or only depended on, is placed in a tree of
folders by its identifier.  A file under the source root is placed by its path
below that root; a file beside it goes under a folder `..`, so that the path
through the tree stays right.  Each leaf carries the number of dependencies of
its own file.
-/

namespace ImportAtlas

/-- A file in a tree. -/
structure Leaf where
  name : String
  identifier : String
  dependencyCount : Nat
  deriving DecidableEq, Repr

/-- A folder of a tree: its name, its path from the top, its subfolders and its files, in the order
in which they were placed. -/
inductive Tree where
  | folder (name path : String) (children : List Tree) (files : List Leaf)
  deriving Repr

namespace Tree

/-- The name of a folder. -/
def name : Tree → String
  | folder name _ _ _ => name

/-- The path of a folder from the top. -/
def path : Tree → String
  | folder _ path _ _ => path

/-- The subfolders of a folder. -/
def children : Tree → List Tree
  | folder _ _ children _ => children

/-- The files of a folder. -/
def files : Tree → List Leaf
  | folder _ _ _ files => files

/-- A folder without content. -/
def empty (name path : String) : Tree :=
  folder name path [] []

/-- The tree with a leaf placed in the folder that the segments lead to.  Missing folders are
created behind those already there. -/
def place (leaf : Leaf) : List String → Tree → Tree
  | [], folder name path children files => folder name path children (files ++ [leaf])
  | segment :: rest, folder name path children files =>
    if children.any fun child => child.name == segment then
      folder name path
        (children.map fun child => if child.name = segment then place leaf rest child else child)
        files
    else
      folder name path
        (children ++ [place leaf rest (empty segment (path ++ "/" ++ segment))]) files

/-- The folder that holds the files beside the source root. -/
def besideFolder : String := ".."

/-- The path through the tree that an identifier stands for. -/
def pathOf (identifier : String) : List Char :=
  let text := identifier.toList.map fun c => if c = '\\' then '/' else c
  match "@/".toList.isPrefixOf? text with
  | some below => below
  | none =>
    match "./".toList.isPrefixOf? text with
    | some below => below
    | none => besideFolder.toList ++ '/' :: text

/-- The segments of an identifier: its folders and its name. -/
def segments (identifier : String) : List String :=
  (((pathOf identifier).splitOn '/').filter fun s => s != []).map String.ofList

/-- Every identifier of a graph once, in ascending order. -/
def vertices (graph : Graph) : List String :=
  Text.sort (Assoc.keys graph ++ graph.flatMap Prod.snd).eraseDups

/-- The tree with one file of a graph placed.  An identifier that names no file has no place. -/
def placeFile (graph : Graph) (tree : Tree) (identifier : String) : Tree :=
  let parts := segments identifier
  match parts.getLast? with
  | none => tree
  | some name =>
    if parts = [besideFolder] then tree
    else
      let count := ((Assoc.get? identifier graph).getD []).length
      place ⟨name, identifier, count⟩ parts.dropLast tree

/-- The tree of a graph below a folder of the given name. -/
def ofGraph (graph : Graph) (rootName : String) : Tree :=
  (vertices graph).foldl (placeFile graph) (empty rootName rootName)

end Tree

end ImportAtlas
