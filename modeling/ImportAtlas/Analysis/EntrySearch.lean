import ImportAtlas.Reference.Resolve

set_option autoImplicit false

/-!
# Finding an entry file

Without a given entry the first of the usual names that is a file is taken.  A
hint comes before them: the path it names below the root, whatever dots and
slashes it starts with, or the file located behind that path.
-/

namespace ImportAtlas.Analysis

/-- The usual names of entry files, the preferred one first. -/
def usualEntries : List String :=
  ["src/index.js", "src/index.jsx", "src/index.ts", "src/index.tsx", "index.js", "index.jsx",
    "index.ts", "index.tsx", "main.js", "app.js"]

/-- The path that a hint names below a root. -/
def hintPath (root : Path) (hint : String) : Path :=
  root ++ Path.ofString (String.ofList (hint.toList.dropWhile fun c => c == '/' || c == '.'))

/-- The entry file of a root. -/
def findEntry (view : FileView) (root : Path) (hint : Option String) (candidates : List String) :
    Except DiskFault (Option Path) := do
  let hinted ← match hint with
    | none => pure none
    | some hint =>
      if hint = "" then pure none else Reference.locate view inferredSuffixes (hintPath root hint)
  match hinted with
  | some found => return some found
  | none => Reference.firstFile view (candidates.map fun c => root ++ Path.ofString c)

end ImportAtlas.Analysis
