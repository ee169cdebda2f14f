import ImportAtlas.Proofs.Disk.Below
import ImportAtlas.Proofs.Walk.Order
import ImportAtlas.Tree.Render

set_option autoImplicit false

/-!
# A walk sees its own project only

References may climb out of a project, and the places they lead to are probed
before it is known that they lie outside.  What is found there leaves problems
but no edges: behind a candidate outside the root no file inside it is located,
since the root itself is a folder.  Inside the root every probe is decided by
what lies beneath it.  So two disks that hold the same project, whatever else
they hold, give the same graph.
-/

namespace ImportAtlas

namespace Project

/-- Two disks hold the same project: the root is a folder on both, with the same folders and files
beneath it and the same content of every file that the context does not ignore, and on neither disk
a file has the name of the root with an inferred suffix. -/
structure SameProject (context : Context) (d e : Disk) : Prop where
  alike : d.AlikeBelow e context.projectRoot
  contents : ∀ p, context.ignores p = false → d.entryAt? p.parts = e.entryAt? p.parts
  no_namesake : ∀ suffix ∈ inferredSuffixes,
    d.isFile (Path.ofString (context.projectRoot.text ++ suffix)) ≠ .ok true ∧
      e.isFile (Path.ofString (context.projectRoot.text ++ suffix)) ≠ .ok true

end Project

namespace Walk

open Project

variable {context : Context} {extractor : Extractor} {d e : Disk}

theorem isFile_ne_root {p : Path} (hfolder : d.isFolder context.projectRoot = .ok true)
    (hfile : d.isFile p = .ok true) : p ≠ context.projectRoot := by
  rintro rfl
  unfold Disk.isFolder at hfolder
  unfold Disk.isFile at hfile
  rcases hlook : d.look context.projectRoot with fault | _ | _ | bytes <;>
    simp [hlook, Except.map] at hfolder hfile

/-! ## Candidates outside the root -/

/-- What is located behind a candidate outside the root is ignored. -/
theorem ignores_of_locate_outside (hfolder : d.isFolder context.projectRoot = .ok true)
    {candidate found : Path} (hcandidate : candidate.IsNormal)
    (houtside : candidate.relativeTo? context.projectRoot = none)
    (h : Reference.locate d.view inferredSuffixes candidate = .ok (some found)) :
    context.ignores found = true := by
  by_contra htracked
  rw [Bool.not_eq_true, Context.ignores, isIgnored_eq_false_iff] at htracked
  obtain ⟨below, hbelow, -⟩ := htracked
  obtain ⟨hfile, hplace⟩ := Reference.mem_of_locate h
  have hne := isFile_ne_root hfolder hfile
  rcases hplace with rfl | hplace | hplace
  · rw [houtside] at hbelow
    cases hbelow
  · obtain ⟨suffix, -, -, -, rfl⟩ :=
      Reference.mem_suffixed isSuffix_of_inferred hcandidate hplace
    obtain ⟨parts, hparts⟩ := (Path.relativeTo?_child hbelow).resolve_left hne
    obtain ⟨below, hcandidate⟩ := Path.relativeTo?_of_parent hparts
    rw [houtside] at hcandidate
    cases hcandidate
  · obtain ⟨name, -, rfl⟩ := Reference.mem_indexes isSuffix_of_inferred hplace
    obtain ⟨parts, hparts⟩ := (Path.relativeTo?_child hbelow).resolve_left hne
    rw [houtside] at hparts
    cases hparts

/-! ## Candidates under the root -/

/-- Behind a candidate under the root the same is located on both disks. -/
theorem locate_under (hcontext : context.IsNormal) (h : SameProject context d e)
    {candidate : Path} {below : List String} (hcandidate : candidate.IsNormal)
    (hunder : candidate.relativeTo? context.projectRoot = some below) :
    Reference.locate d.view inferredSuffixes candidate =
      Reference.locate e.view inferredSuffixes candidate := by
  have hroot := hcontext.projectRoot
  obtain ⟨hanchor, hparts⟩ := Path.relativeTo?_eq_some.mp hunder
  refine Reference.locate_congr (h.alike.isKind hroot hcandidate hparts true) ?_
    (h.alike.isKind hroot hcandidate hparts false) ?_
  · intro p hp
    obtain ⟨suffix, hsuffix, hname, htext, rfl⟩ :=
      Reference.mem_suffixed isSuffix_of_inferred hcandidate hp
    have hnormal := hcandidate.parent.child hname
    rcases List.eq_nil_or_concat below with rfl | ⟨front, last, rfl⟩
    · -- the candidate is the root, so the place lies beside it
      obtain rfl := Path.eq_of_relativeTo? hunder (Path.relativeTo?_self context.projectRoot)
      by_cases hne : context.projectRoot.parts = []
      · have hplace : (context.projectRoot.parent.child
          (context.projectRoot.name ++ suffix)).parts =
            context.projectRoot.parts ++ [context.projectRoot.name ++ suffix] := by
          simp [Path.child, Path.parent, hne]
        exact h.alike.isKind hroot hnormal hplace true
      · obtain ⟨hd, he⟩ := h.no_namesake suffix hsuffix
        rw [htext] at hd he
        exact Disk.isFile_beside hroot hne h.alike.left h.alike.right hname hd he
    · have hplace : (candidate.parent.child (candidate.name ++ suffix)).parts =
          context.projectRoot.parts ++ (front ++ [candidate.name ++ suffix]) := by
        simp [Path.child, Path.parent, hparts]
      exact h.alike.isKind hroot hnormal hplace true
  · intro p hp
    obtain ⟨name, hname, rfl⟩ := Reference.mem_indexes isSuffix_of_inferred hp
    have hplace : (candidate.child name).parts =
      context.projectRoot.parts ++ (below ++ [name]) := by
      simp [Path.child, hparts]
    exact h.alike.isKind hroot (hcandidate.child hname) hplace true

/-! ## Destinations and lists -/

theorem destination?_eq (hcontext : context.IsNormal) (h : SameProject context d e) {path : Path}
    (hpath : path.IsSpelled) :
    destination? context d.view path = destination? context e.view path := by
  have hnormal := hcontext.projectRoot.normalize_append hpath
  unfold destination?
  cases hunder : (context.projectRoot ++ path).normalize.relativeTo? context.projectRoot with
  | some below => simp only [locate_under hcontext h hnormal hunder]
  | none =>
    have hignored : context.ignores (context.projectRoot ++ path).normalize = true :=
      isIgnored_of_outside _ hunder
    simp only [hignored, Bool.true_or, if_true]
    rcases Reference.locate d.view _ _ with _ | _ | _ <;>
      rcases Reference.locate e.view _ _ with _ | _ | _ <;> rfl

/-- A reference to a place outside the root gives no edge. -/
theorem edge?_referenceStep_outside (hfolder : d.isFolder context.projectRoot = .ok true)
    {file candidate : Path} {reference : String} (hcandidate : candidate.IsNormal)
    (hresolve : Reference.resolve context.sourceRoot reference file = some candidate)
    (houtside : candidate.relativeTo? context.projectRoot = none) :
    edge? (referenceStep context d.view file reference) = none := by
  by_contra hsome
  obtain ⟨target, htarget⟩ := Option.ne_none_iff_exists'.mp hsome
  obtain ⟨other, hother, hlocate, htracked⟩ := referenceStep_eq_edge (edge?_eq_some htarget)
  cases hresolve.symm.trans hother
  rw [ignores_of_locate_outside hfolder hcandidate houtside hlocate] at htracked
  cases htracked

theorem edge?_referenceStep_eq (hcontext : context.IsNormal) (h : SameProject context d e)
    {file : Path} (hfile : file.IsNormal) (reference : String) :
    edge? (referenceStep context d.view file reference) =
      edge? (referenceStep context e.view file reference) := by
  cases hresolve : Reference.resolve context.sourceRoot reference file with
  | none => simp [referenceStep, hresolve]
  | some candidate =>
    have hcandidate := Reference.isNormal_of_resolve hcontext.sourceRoot hfile hresolve
    cases hunder : candidate.relativeTo? context.projectRoot with
    | some below => simp only [referenceStep, hresolve, locate_under hcontext h hcandidate hunder]
    | none =>
      rw [edge?_referenceStep_outside h.alike.left hcandidate hresolve hunder,
        edge?_referenceStep_outside h.alike.right hcandidate hresolve hunder]

/-- The companions of a file lie beneath the root, so they are probed alike. -/
theorem companionStep_eq (hcontext : context.IsNormal) (h : SameProject context d e) {file : Path}
    (hfile : Settled context d.view file) {suffix : String} (hsuffix : suffix ∈ styleSuffixes)
    (edges : List Path) :
    companionStep context d.view file edges suffix =
      companionStep context e.view file edges suffix := by
  have hnormal := hfile.inside.normal.withSuffix (isSuffix_of_style suffix hsuffix)
  obtain ⟨below, hanchor, hparts, -⟩ := hfile.inside.below
  have hplace : ∃ places, (file.withSuffix suffix).parts = context.projectRoot.parts ++ places := by
    rcases List.eq_nil_or_concat below with rfl | ⟨front, last, rfl⟩
    · -- the root is a folder, so the file is not the root
      have hunder := Path.relativeTo?_eq_some.mpr ⟨hanchor, hparts⟩
      have heq := Path.eq_of_relativeTo? hunder (Path.relativeTo?_self context.projectRoot)
      exact absurd heq (isFile_ne_root h.alike.left hfile.isFile)
    · exact ⟨front ++ [_], by simp [Path.withSuffix, Path.child, Path.parent, hparts]; rfl⟩
  obtain ⟨places, hplace⟩ := hplace
  have hprobe : d.view.isFile (file.withSuffix suffix) = e.view.isFile (file.withSuffix suffix) :=
    h.alike.isKind hcontext.projectRoot hnormal hplace true
  simp only [companionStep, hprobe]

theorem references_eq (hcontext : context.IsNormal) (h : SameProject context d e) {file : Path}
    (hfile : Settled context d.view file) :
    references d.view extractor file = references e.view extractor file := by
  obtain ⟨below, -, hparts, -⟩ := hfile.inside.below
  have hread : d.view.read file = e.view.read file :=
    h.alike.read hcontext.projectRoot hfile.inside.normal hparts
      (h.contents file (inside_iff.mp hfile.inside).2)
  unfold references
  rw [hread]

/-- The list of a file inside the project is the same on both disks. -/
theorem adjacency_eq (hcontext : context.IsNormal) (h : SameProject context d e) {file : Path}
    (hfile : Settled context d.view file) :
    adjacency context d.view extractor file = adjacency context e.view extractor file := by
  have htargets : referenceTargets context d.view extractor file =
      referenceTargets context e.view extractor file := by
    cases hfound : references d.view extractor file with
    | error problem =>
      have hother := (references_eq hcontext h hfile).symm.trans hfound
      rw [referenceTargets_of_error hfound, referenceTargets_of_error hother]
    | ok found =>
      have hother := (references_eq hcontext h hfile).symm.trans hfound
      rw [referenceTargets_of_ok hfound, referenceTargets_of_ok hother]
      simp only [edge?_referenceStep_eq hcontext h hfile.inside.normal]
  cases hkind : file.kind with
  | style => rw [adjacency_of_style hkind, adjacency_of_style hkind, htargets]
  | code =>
    rw [adjacency_of_code hkind, adjacency_of_code hkind, htargets]
    congr 1
    exact List.filterMap_congr fun suffix hsuffix => by
      rw [companionStep_eq hcontext h hfile hsuffix]

/-! ## Traversals -/

/-- The calls of a traversal given by texts. -/
def callsOf (calls : List (String × Int)) : List (Path × Int) :=
  calls.map fun call => (Path.ofString call.1, call.2)

theorem isSpelled_of_mem_callsOf (calls : List (String × Int)) :
    ∀ call ∈ callsOf calls, call.1.IsSpelled := by
  intro call hcall
  obtain ⟨text, -, rfl⟩ := List.mem_map.mp hcall
  exact Path.isSpelled_ofString text.1

theorem enteredBy_eq (hcontext : context.IsNormal) (h : SameProject context d e) {path : Path}
    (hpath : path.IsSpelled) (depth : Int) (entered : List Path) :
    enteredBy context d.view extractor path depth entered =
      enteredBy context e.view extractor path depth entered := by
  rw [enteredBy, enteredBy, ← destination?_eq hcontext h hpath]
  cases hfile : destination? context d.view path with
  | none => rfl
  | some file =>
    refine depthFirst_congr (P := Settled context d.view) (fun f hf => ?_) (fun f hf => ?_) ?_
    · exact adjacency_eq hcontext h hf
    · exact fun target ht => settled_of_mem_adjacency hcontext hf.inside ht
    · exact (destination?_eq_some.mp hfile).settled hcontext hpath

/-- The same files are entered on both disks, in the same order. -/
theorem visited_eq (hcontext : context.IsNormal) (h : SameProject context d e)
    {calls : List (Path × Int)} (hcalls : ∀ call ∈ calls, call.1.IsSpelled) :
    (traverse context d.view extractor calls).visited =
      (traverse context e.view extractor calls).visited := by
  rw [visited_traverse hcontext hcalls, visited_traverse hcontext hcalls]
  exact List.foldl_ext _ _ _ fun entered call hcall =>
    enteredBy_eq hcontext h (hcalls call hcall) call.2 entered

/-- **The graph depends on the project's own files only.**  On two disks that hold the same project,
and may differ in all else, any calls on a walk that has entered nothing leave the same graph; so
the dependency graph, the statistics and every drawing of the folder tree are the same.  The roots
of the context are normalized, as those of every context that `create` makes
(`isNormal_of_create`). -/
theorem graph_eq_of_sameProject (d e : Disk) (context : Context) (extractor : Extractor)
    (calls : List (String × Int)) (hcontext : context.IsNormal) (h : SameProject context d e) :
    let w := traverse context d.view extractor (callsOf calls)
    let w' := traverse context e.view extractor (callsOf calls)
    w.graph = w'.graph ∧ w.dependencyGraph context = w'.dependencyGraph context ∧
      w.statistics = w'.statistics ∧
      ∀ (name : String) (treeDepth : Int) (showCounts : Bool),
        (Tree.ofGraph (w.dependencyGraph context) name).render treeDepth showCounts =
          (Tree.ofGraph (w'.dependencyGraph context) name).render treeDepth showCounts := by
  intro w w'
  have hcalls := isSpelled_of_mem_callsOf calls
  have hgraph : w.graph = w'.graph := by
    rw [graph_traverse hcontext hcalls, graph_traverse hcontext hcalls,
      ← visited_eq hcontext h hcalls]
    refine List.map_congr_left fun file hfile => ?_
    rw [adjacency_eq hcontext h (settled_of_traversed hcontext hcalls file
      (List.mem_reverse.mp hfile))]
  have hdependency : w.dependencyGraph context = w'.dependencyGraph context := by
    unfold dependencyGraph
    rw [hgraph]
  refine ⟨hgraph, hdependency, ?_, fun name treeDepth showCounts => ?_⟩
  · unfold statistics
    rw [hgraph]
  · rw [hdependency]

/-- The files of the pair with a package of some content beside them, and what else is on the
disk. -/
def pairDiskWith (package : ByteArray) (others : List (Location × Entry)) (here : Location) :
    Disk where
  entries := [(["p"], .folder), (["p", "a.js"], .file .empty), (["p", "b.js"], .file .empty),
    (["p", "node_modules"], .folder), (["p", "node_modules", "x.js"], .file package)] ++ others
  workingFolder := here

/-- Every file refers to the other one, to a package, and to a place outside in two ways. -/
def climbingExtractor : Extractor :=
  fun _ _ => .ok ["../q", "./b", "./node_modules/x", "@//q.js", "./a"]

/-- A disk on which the place outside is a file, and one on which it is a folder. -/
def fileBesideDisk : Disk :=
  pairDiskWith .empty [(["q.js"], .file .empty)] ["p"]

def folderBesideDisk : Disk :=
  pairDiskWith ⟨#[65]⟩ [(["q"], .folder), (["q", "z.js"], .file .empty)] []

theorem sameProject_pair : SameProject (pairContext 3) fileBesideDisk folderBesideDisk where
  alike := by
    refine ⟨by decide +kernel, by decide +kernel, fun below => ?_⟩
    simp only [fileBesideDisk, folderBesideDisk, pairDiskWith, pairContext, Disk.entryAt?,
      Assoc.get?, List.cons_append, List.nil_append, List.cons.injEq, reduceCtorEq, if_false]
    split_ifs <;> simp_all [Entry.isFile]
  contents p hp := by
    rw [Context.ignores, isIgnored_eq_false_iff] at hp
    obtain ⟨below, hbelow, hfolders, -⟩ := hp
    have hpackage : ["node_modules", "x.js"] ≠ below := by
      rintro rfl
      exact hfolders "node_modules" (by decide) (by decide)
    rw [(Path.relativeTo?_eq_some.mp hbelow).2]
    simp [fileBesideDisk, folderBesideDisk, pairDiskWith, pairContext, Disk.entryAt?, Assoc.get?,
      hpackage]
  no_namesake := by decide +kernel

/-- The two disks give the same graph though not the same problems. -/
theorem graph_eq_of_sameProject_pair :
    let calls := callsOf [("../q", 0), ("a", 0)]
    let w := traverse (pairContext 3) fileBesideDisk.view climbingExtractor calls
    let w' := traverse (pairContext 3) folderBesideDisk.view climbingExtractor calls
    SameProject (pairContext 3) fileBesideDisk folderBesideDisk ∧ w.graph = w'.graph ∧
      w.diagnostics ≠ w'.diagnostics := by
  intro calls w w'
  have h := graph_eq_of_sameProject fileBesideDisk folderBesideDisk (pairContext 3)
    climbingExtractor [("../q", 0), ("a", 0)]
      ⟨by decide +kernel, by decide +kernel⟩ sameProject_pair
  exact ⟨sameProject_pair, h.1, by decide +kernel⟩

end Walk

end ImportAtlas
