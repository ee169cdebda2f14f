import ImportAtlas.Graph.Basic

set_option autoImplicit false

/-!
# Groups of files

A report lists the files of a graph in groups by extension.  Every file belongs
to exactly one group; a file whose extension no group takes belongs to the last.
-/

namespace ImportAtlas

/-- A group of files. -/
inductive Group where
  | javaScript
  | typeScript
  | stylesheets
  | config
  | other
  deriving DecidableEq, Repr

namespace Group

/-- The groups in the order in which they are listed. -/
def all : List Group := [javaScript, typeScript, stylesheets, config, other]

/-- The heading of a group. -/
def name : Group → String
  | javaScript => "JavaScript"
  | typeScript => "TypeScript"
  | stylesheets => "Stylesheets"
  | config => "Config"
  | other => "Other"

/-- The extensions that a group takes. -/
def extensions : Group → List String
  | javaScript => ["js", "jsx"]
  | typeScript => ["ts", "tsx"]
  | stylesheets => ["less", "css"]
  | config => ["json"]
  | other => []

/-- The group of an identifier. -/
def ofFile (identifier : String) : Group :=
  let extension := (Path.ofString identifier).extension
  (all.find? fun g => g.extensions.contains extension).getD other

end Group

/-- The files of a graph by group, each group in ascending order. -/
def filesByGroup (graph : Graph) : List (Group × List String) :=
  let files := Text.sort (Assoc.keys graph)
  Group.all.map fun g => (g, files.filter fun file => Group.ofFile file == g)

end ImportAtlas
