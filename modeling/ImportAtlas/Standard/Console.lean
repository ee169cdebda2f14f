import ImportAtlas.Standard.Markup
import ImportAtlas.Standard.Screen
import ImportAtlas.Standard.Table

set_option autoImplicit false

/-!
# The library that prints, as it is installed

A message that breaks over lines continues below its label in a tree.
-/

namespace ImportAtlas.Standard

/-- The text that a message leaves on a plain screen. -/
def plain (message : String) : Except MarkupFault String :=
  (Markup.plain message).mapError fun fault => ⟨fault.message⟩

/-- What leads to a label. -/
def connector (last : Bool) : String :=
  if last then "└── " else "├── "

/-- What continues below a label. -/
def continuation (last : Bool) : String :=
  if last then "    " else "│   "

/-- The lines of a label behind its margin: the first behind the connector, the others behind what
continues below it. -/
def labelLines (margin : String) (last : Bool) (label : String) : List String :=
  match label.toList.splitOn '\n' with
  | [] => []
  | first :: others =>
    (margin ++ connector last ++ String.ofList first) ::
      others.map fun line => margin ++ continuation last ++ String.ofList line

mutual

/-- The lines of labels below a margin. -/
def branchesLines (margin : String) : List Branch → Except MarkupFault (List String)
  | [] => .ok []
  | branch :: rest => do
    let here ← branchLines margin rest.isEmpty branch
    return here ++ (← branchesLines margin rest)

/-- The lines of a label and those below it. -/
def branchLines (margin : String) (last : Bool) : Branch → Except MarkupFault (List String)
  | .mk label below => do
    let text ← plain label
    let lines ← branchesLines (margin ++ continuation last) below
    return labelLines margin last (Screen.shown text) ++ lines

end

/-- The lines of a tree. -/
def treeLines : Branch → Except MarkupFault (List String)
  | .mk label below => do return Screen.shown (← plain label) :: (← branchesLines "" below)

/-- The installed library. -/
instance : Console := ⟨plain, Screen.shown, Table.lines, treeLines⟩

end ImportAtlas.Standard
