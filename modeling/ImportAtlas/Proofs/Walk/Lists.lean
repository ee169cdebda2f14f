import ImportAtlas.Proofs.Walk.Growth

set_option autoImplicit false

/-!
# The lists of a walk

A file that a call adds gets the list `adjacency` of its references and
companions, whatever the walk was before, from wherever the file was reached and
however deep.  So two traversals of a project agree on every file they share.
-/

namespace ImportAtlas.Walk

open Project

variable (context : Context) (view : FileView) (extractor : Extractor)

/-- The walk after a call; a call that fails leaves it as it was. -/
def after (w : Walk) (path : Path) (depth : Int) : Walk :=
  match w.track context view extractor path depth with
  | .ok w' => w'
  | .error _ => w

/-- The walk that calls leave which are made one after the other, on a walk that has entered
nothing. -/
def traverse (calls : List (Path × Int)) : Walk :=
  calls.foldl (fun w call => w.after context view extractor call.1 call.2) empty

variable {context view extractor}

theorem grows_after (w : Walk) (path : Path) (depth : Int) :
    Grows context view extractor w (w.after context view extractor path depth) := by
  unfold after
  split
  · rename_i h
    exact grows_follow h
  · exact .refl w

theorem get?_after_of_new {w : Walk} {path : Path} {depth : Int} {file : Path}
    (hold : file ∉ Assoc.keys w.graph)
    (hnew : file ∈ Assoc.keys (w.after context view extractor path depth).graph) :
    file ∈ (w.after context view extractor path depth).visited ∧
      Assoc.get? file (w.after context view extractor path depth).graph =
        some (adjacency context view extractor file) := by
  rcases (grows_after w path depth).added file (Assoc.get?_eq_none_iff.mpr hold) with hnone | hlist
  · exact absurd hnew (Assoc.get?_eq_none_iff.mp hnone)
  · exact hlist

/-- Every file of a traversal was visited and has its own list. -/
theorem get?_traverse {calls : List (Path × Int)} {file : Path}
    (hfile : file ∈ Assoc.keys (traverse context view extractor calls).graph) :
    file ∈ (traverse context view extractor calls).visited ∧
      Assoc.get? file (traverse context view extractor calls).graph =
        some (adjacency context view extractor file) := by
  induction calls using List.reverseRecOn with
  | nil => cases hfile
  | append_singleton calls call ih =>
    simp only [traverse, List.foldl_append, List.foldl_cons, List.foldl_nil] at hfile ih ⊢
    by_cases hold : file ∈ Assoc.keys (traverse context view extractor calls).graph
    · -- a file with a list was visited, so its list is kept
      obtain ⟨hvisited, hlist⟩ := ih hold
      have hgrows : Grows context view extractor _ _ :=
        grows_after (traverse context view extractor calls) call.1 call.2
      exact ⟨hgrows.visited.subset hvisited, (hgrows.kept file hvisited).trans hlist⟩
    · exact get?_after_of_new hold hfile

/-- **The list of a file depends on the file alone.**  A file that a call adds to any walk gets
exactly its adjacency, which does not depend on the greatest depth; so traversals made of any
calls, to any depth, agree on the files they share. -/
theorem new_list_eq_adjacency (context : Context) (view : FileView) (extractor : Extractor) :
    (∀ (w : Walk) (path : Path) (depth : Int) (file : Path),
      file ∉ Assoc.keys w.graph →
      file ∈ Assoc.keys (w.after context view extractor path depth).graph →
      Assoc.get? file (w.after context view extractor path depth).graph =
        some (adjacency context view extractor file)) ∧
    (∀ maxDepth : Int, adjacency { context with maxDepth := maxDepth } view extractor =
      adjacency context view extractor) ∧
    (∀ (m n : Int) (calls others : List (Path × Int)) (file : Path),
      file ∈ Assoc.keys (traverse { context with maxDepth := m } view extractor calls).graph →
      file ∈ Assoc.keys (traverse { context with maxDepth := n } view extractor others).graph →
      Assoc.get? file (traverse { context with maxDepth := m } view extractor calls).graph =
        Assoc.get? file (traverse { context with maxDepth := n } view extractor others).graph) := by
  refine ⟨fun w path depth file hold hnew => (get?_after_of_new hold hnew).2,
    adjacency_maxDepth context view extractor, fun m n calls others file hm hn => ?_⟩
  exact (get?_traverse hm).2.trans (get?_traverse hn).2.symm

/-- A stylesheet that imports others. -/
def importing (names : List String) : Entry :=
  .file (String.join (names.map fun name => "@import './" ++ name ++ "';")).toUTF8

/-- A project of two files that refer to each other and to themselves, one of them with a
stylesheet beside it. -/
def pairDisk : Disk where
  entries := [(["p"], .folder), (["p", "a.js"], .file .empty), (["p", "b.js"], .file .empty),
    (["p", "a.css"], .file .empty)]
  workingFolder := ["p"]

def pairFile (name : String) : Path :=
  ⟨.root, ["p", name]⟩

def pairContext (maxDepth : Int) : Context :=
  ⟨⟨.root, ["p"]⟩, ⟨.root, ["p"]⟩, maxDepth, []⟩

def pairExtractor : Extractor :=
  fun _ _ => .ok ["./b", "./a"]

/-- A file of the pair has its list though the other file may not be entered, and the same list
when it is entered from the other file. -/
theorem new_list_eq_adjacency_pair :
    Assoc.get? (pairFile "a.js") (Walk.empty.after (pairContext 0) pairDisk.view pairExtractor
        (Path.ofString "a") 0).graph =
      some [pairFile "b.js", pairFile "a.js", pairFile "a.css"] ∧
    Assoc.get? (pairFile "a.js") (traverse (pairContext 0) pairDisk.view pairExtractor
        [(Path.ofString "a", 0)]).graph =
      Assoc.get? (pairFile "a.js") (traverse (pairContext 1) pairDisk.view pairExtractor
        [(Path.ofString "b", 0)]).graph := by
  have h := new_list_eq_adjacency (pairContext 0) pairDisk.view pairExtractor
  have hlist : adjacency (pairContext 0) pairDisk.view pairExtractor (pairFile "a.js") =
      [pairFile "b.js", pairFile "a.js", pairFile "a.css"] := by decide +kernel
  have hfrom : pairFile "a.js" ∈ Assoc.keys (traverse (pairContext 0) pairDisk.view pairExtractor
      [(Path.ofString "a", 0)]).graph := by decide +kernel
  have hother : pairFile "a.js" ∈ Assoc.keys (traverse (pairContext 1) pairDisk.view pairExtractor
      [(Path.ofString "b", 0)]).graph := by decide +kernel
  refine ⟨?_, h.2.2 0 1 _ _ _ hfrom hother⟩
  rw [h.1 Walk.empty (Path.ofString "a") 0 _ List.not_mem_nil (by decide +kernel), hlist]

end ImportAtlas.Walk
