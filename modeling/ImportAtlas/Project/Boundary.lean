import ImportAtlas.Path.Basic
import ImportAtlas.Text.Blank
import ImportAtlas.Text.Search

set_option autoImplicit false

/-!
# The boundary of a project

A path is ignored when it lies outside the project root, when a part of it below
the root is the dependency folder, or when its text below the root starts with
an exclusion pattern or contains the pattern followed by a slash.  Patterns are
plain texts: `dist` covers `distribution/x.js` as well as `a/dist/x.js`.

Entry arguments use a second test, `contains`, which compares the two normalized
texts and knows no exclusions.
-/

namespace ImportAtlas.Project

/-- The folders of installed packages, never part of a project. -/
def dependencyFolders : List String := ["node_modules"]

/-- The text without its leading `./`, however often it is repeated. -/
def dropHere : List Char → List Char
  | '.' :: '/' :: rest => dropHere rest
  | text => text

/-- The text without slashes at either end. -/
def trimSlashes (text : List Char) : List Char :=
  Text.dropEndWhile (· == '/') (text.dropWhile (· == '/'))

/-- An exclusion pattern relative to the project: blanks trimmed, backslashes read as slashes,
leading `./` and surrounding slashes dropped. -/
def cleanPattern (pattern : String) : String :=
  let text := (Text.trim pattern.toList).map fun c => if c = '\\' then '/' else c
  String.ofList (trimSlashes (dropHere text))

/-- The patterns of a list, normalized; those that come out empty are dropped. -/
def cleanPatterns (patterns : List String) : List String :=
  (patterns.map cleanPattern).filter (· != "")

/-- Whether a pattern covers the project-relative text of a path. -/
def patternCovers (pattern relative : List Char) : Bool :=
  pattern.isPrefixOf relative || Text.occursIn (pattern ++ ['/']) relative

/-- Whether the walk and the watcher leave a path alone. -/
def isIgnored (path root : Path) (exclude : List String) : Bool :=
  match path.relativeTo? root with
  | none => true
  | some parts =>
    parts.any dependencyFolders.contains ||
      exclude.any fun pattern => patternCovers pattern.toList (Path.partsText parts).toList

/-- Whether a path is the project root or lies under it, by the texts of the two normalized
absolute paths. -/
def contains (cwd root path : Path) : Bool :=
  let rootText := (Path.absolute cwd root).text.toList
  let pathText := (Path.absolute cwd path).text.toList
  pathText == rootText ||
    (Text.dropEndWhile (· == '/') rootText ++ ['/']).isPrefixOf pathText

/-- A path outside the root is ignored. -/
theorem isIgnored_of_outside {path root : Path} (exclude : List String)
    (h : path.relativeTo? root = none) : isIgnored path root exclude = true := by
  simp [isIgnored, h]

end ImportAtlas.Project
