import ImportAtlas.Console.Library
import ImportAtlas.Folder.Probe
import ImportAtlas.Json.Writer

set_option autoImplicit false

/-!
# Showing probed folders

A probe is shown as a JSON document or as a tree with a label for each folder.
The labels are messages, so that a tag in a name leaves nothing behind.
-/

namespace ImportAtlas.FolderNode

mutual

/-- A folder as a document. -/
def json : FolderNode → Json
  | .mk name path children =>
    .object [("name", .string name), ("path", .string path),
      ("children", .array (jsonItems children))]

/-- The documents of folders. -/
def jsonItems : List FolderNode → List Json
  | [] => []
  | node :: rest => json node :: jsonItems rest

end

mutual

/-- The label of a folder and those below it. -/
def branch : FolderNode → Branch
  | .mk name _ children => .mk (name ++ "/") (branches children)

/-- The labels of folders. -/
def branches : List FolderNode → List Branch
  | [] => []
  | node :: rest => branch node :: branches rest

end

/-- The tree of a folder. -/
def tree (node : FolderNode) : Branch :=
  .mk ("[bold]" ++ node.name ++ "/[/bold]") (branches node.children)

end ImportAtlas.FolderNode
