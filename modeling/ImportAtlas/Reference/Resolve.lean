import ImportAtlas.Path.Kind
import ImportAtlas.Project.Context
import ImportAtlas.Text.Search

set_option autoImplicit false

/-!
# Resolving references

Two forms of reference are local to a project: `@/` followed by a path below the
source root, and a path that starts with `./` or `../`, seen from the folder of
the referencing file.  Every other reference names an external package and
resolves to nothing.  A remainder that is itself absolute stands for itself.

What a reference resolves to is a candidate.  The file behind it is the candidate
itself if that is a file, else the candidate's text with the first inferred suffix
that makes it one, else the index file with the first such suffix in the folder at
the candidate.
-/

namespace ImportAtlas.Reference

/-- The candidate path of a reference found in the file `source`. -/
def resolve (sourceRoot : Path) (reference : String) (source : Path) : Option Path :=
  match Text.afterPrefix? Project.aliasMark reference with
  | some remainder => some (sourceRoot ++ Path.ofString remainder).normalize
  | none =>
    if Text.startsWith "./" reference || Text.startsWith "../" reference then
      some (source.parent ++ Path.ofString reference).normalize
    else none

/-- The first path of a list that is a file. -/
def firstFile (view : FileView) : List Path → Except DiskFault (Option Path)
  | [] => .ok none
  | p :: rest => do
    if ← view.isFile p then return some p
    firstFile view rest

/-- The candidate's text continued by each suffix. -/
def suffixed (candidate : Path) (suffixes : List String) : List Path :=
  suffixes.map fun suffix => Path.ofString (candidate.text ++ suffix)

/-- The index files of the folder at the candidate. -/
def indexes (candidate : Path) (suffixes : List String) : List Path :=
  suffixes.map fun suffix => candidate ++ Path.ofString ("index" ++ suffix)

/-- The file behind a candidate path. -/
def locate (view : FileView) (suffixes : List String) (candidate : Path) :
    Except DiskFault (Option Path) := do
  match ← firstFile view (candidate :: suffixed candidate suffixes) with
  | some found => return some found
  | none =>
    if ← view.isFolder candidate then firstFile view (indexes candidate suffixes)
    else return none

end ImportAtlas.Reference
