import ImportAtlas.Path.Basic

set_option autoImplicit false

/-!
# Kinds of files

The suffix of a file decides which reference forms are scanned in it, which
count of the statistics it adds to, and which suffixes a reference may leave
out.
-/

namespace ImportAtlas

/-- Which reference forms a file is scanned for. -/
inductive SourceKind where
  | code
  | style
  deriving DecidableEq, Repr

/-- The suffixes of stylesheets, in the order in which companions are looked for. -/
def styleSuffixes : List String := [".less", ".css"]

/-- The suffixes a reference may leave out, the preferred one first. -/
def inferredSuffixes : List String := [".js", ".jsx", ".ts", ".tsx", ".less", ".css", ".json"]

/-- The file types that statistics count one by one. -/
def countedTypes : List String := ["js", "jsx", "ts", "tsx", "less", "css"]

/-- The count of every file whose type is not counted on its own. -/
def otherType : String := "other"

namespace Path

/-- A stylesheet by its suffix, else code. -/
def kind (p : Path) : SourceKind :=
  if styleSuffixes.contains p.suffix then .style else .code

/-- The suffix without its dot. -/
def extension (p : Path) : String :=
  String.ofList (p.suffix.toList.drop 1)

/-- The count that a file adds to. -/
def fileType (p : Path) : String :=
  if countedTypes.contains p.extension then p.extension else otherType

end Path

/-- The word for a kind. -/
def SourceKind.name : SourceKind → String
  | .code => "code"
  | .style => "style"

end ImportAtlas
