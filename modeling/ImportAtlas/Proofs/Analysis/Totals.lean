import ImportAtlas.Proofs.Analysis.Merging
import ImportAtlas.Proofs.Graph.Totals

set_option autoImplicit false

/-!
# Sums over entries

A result shows the files that its walk reached, each under its own identifier,
and its statistics can be read off its graph.  So the merged statistics count a
merged file once for every entry that reaches it (`Merged.counts_every_entry`).
-/

namespace ImportAtlas

open Project

/-! ## The roots of a project -/

namespace Project

variable {disk : Disk} {context project : Context}

theorem firstFolder_cases {view : FileView} {root found : Path} {names : List String}
    (h : firstFolder view root names = .ok found) :
    found = root ∨ view.isFolder found = .ok true := by
  induction names with
  | nil =>
    cases h
    exact .inl rfl
  | cons name names ih =>
    obtain ⟨there, hthere, h⟩ := Except.bind_eq_ok h
    cases there with
    | true =>
      cases h
      exact .inr hthere
    | false => exact ih h

/-- In a project whose root is a folder the source root is one, too. -/
theorem isFolder_sourceRoot {root : Option Path} {maxDepth : Int} {exclude : List String}
    (hcontext : Context.create disk root maxDepth exclude = .ok context)
    (hroot : disk.isFolder context.projectRoot = .ok true) :
    disk.isFolder context.sourceRoot = .ok true := by
  obtain ⟨sourceRoot, hsource, h⟩ := Except.bind_eq_ok hcontext
  cases h
  rcases firstFolder_cases hsource with heq | hfolder
  · exact heq ▸ hroot
  · exact hfolder

/-- A context of a project, and the context of the same project that excludes nothing. -/
structure Covers (project context : Context) : Prop where
  projectRoot : context.projectRoot = project.projectRoot
  sourceRoot : context.sourceRoot = project.sourceRoot
  exclude : project.exclude = []

theorem covers_of_create {root root' : Option Path} {maxDepth maxDepth' : Int}
    {exclude : List String} (hcontext : Context.create disk root maxDepth exclude = .ok context)
    (hproject : Context.create disk root' maxDepth' [] = .ok project)
    (hroot : context.projectRoot = project.projectRoot) : Covers project context := by
  obtain ⟨-, hsource, -⟩ := Context.create_eq_ok hcontext
  obtain ⟨-, hsource', -, hexclude⟩ := Context.create_eq_ok hproject
  rw [hroot, hsource'] at hsource
  exact ⟨hroot, (Except.ok.inj hsource).symm, hexclude⟩

namespace Covers

theorem identifier_eq (h : Covers project context) : context.identifier = project.identifier := by
  funext p
  rw [Context.identifier, Context.identifier, h.projectRoot, h.sourceRoot]

theorem settled (h : Covers project context) {view : FileView} {p : Path}
    (hp : Walk.Settled context view p) : Walk.Settled project view p := by
  obtain ⟨parts, hanchor, hparts, hfolders, -⟩ := hp.inside.below
  have hnone : ∀ pattern ∈ project.exclude,
      ¬ pattern.toList <+: (Path.partsText parts).toList ∧
      ¬ pattern.toList ++ ['/'] <:+: (Path.partsText parts).toList := by
    simp [h.exclude]
  exact ⟨⟨hp.inside.normal, parts, h.projectRoot ▸ hanchor, h.projectRoot ▸ hparts,
    hfolders, hnone⟩,
    hp.isFile⟩

end Covers

end Project

/-- A walk of a project whose root is a folder enters no root. -/
theorem Walk.rootless_of_settled {disk : Disk} {context : Context} {root : Option Path}
    {maxDepth : Int} {exclude : List String} {w : Walk}
    (hcontext : Context.create disk root maxDepth exclude = .ok context)
    (hroot : disk.isFolder context.projectRoot = .ok true)
    (hsettled : ∀ p ∈ Assoc.keys w.graph, Settled context disk.view p) : w.Rootless context := by
  intro p hp
  constructor
  · rintro rfl
    exact Disk.isFile_ne_of_isFolder hroot (hsettled _ hp).isFile
  · rintro rfl
    exact Disk.isFile_ne_of_isFolder (isFolder_sourceRoot hcontext hroot) (hsettled _ hp).isFile

/-- The options are for a project: their root, however it is written, is that of the project. -/
def Options.IsFor (disk : Disk) (project : Context) (options : Options) : Prop :=
  ∃ root : Option String, options.projectRoot = root.map Path.ofString ∧
    disk.absolute ((root.map Path.ofString).getD disk.workingPath) = project.projectRoot

namespace Analysis

/-- The files that the walk from an entry reaches. -/
def reached (disk : Disk) (options : Options) (entry : Path) : List Path :=
  match Context.create disk options.projectRoot options.maxDepth options.exclude with
  | .ok context => Walk.orderFrom context disk.view Walk.standardExtractor entry
  | .error _ => []

/-- A request for an analysis of an entry of a project, and its result. -/
structure Answers (disk : Disk) (project : Context) (request : Options × String) (a : Analysis) :
    Prop where
  project : request.1.IsFor disk project
  result : ofEntry disk request.1 (Path.ofString request.2) = .ok a

variable {disk : Disk} {project : Context} {request : Options × String} {a : Analysis}

/-- A result shows the files that its walk reached in a context of the project. -/
structure Shows (disk : Disk) (project : Context) (files : List Path) (a : Analysis) : Prop where
  settled : ∀ p ∈ files, Walk.Settled project disk.view p
  nodup : (Assoc.keys a.dependencyGraph).Nodup
  keys : Assoc.keys a.dependencyGraph = files.map project.identifier
  statistics : a.statistics = Graph.statistics a.dependencyGraph

/-- The result of a walk that entered files of the project only, and none of its roots. -/
theorem shows_ofWalk {context : Context} {w : Walk} (hcovers : Covers project context)
    (hmark : MarkFree project disk) (hsound : Walk.Sound context w) (hroots : w.Rootless context)
    (hsettled : ∀ p ∈ Assoc.keys w.graph, Walk.Settled context disk.view p) (options : Options)
    (entry : Path) : Shows disk project (Assoc.keys w.graph) (ofWalk context options entry w) := by
  have hfiles : ∀ p ∈ Assoc.keys w.graph, Walk.Settled project disk.view p := fun p hp =>
    hcovers.settled (hsettled p hp)
  have hnodup : ((Assoc.keys w.graph).map context.identifier).Nodup := by
    rw [hcovers.identifier_eq]
    exact hsound.nodup_keys.map_on fun p hp q hq =>
      Walk.identifier_injective hmark (hfiles p hp) (hfiles q hq)
  refine ⟨hfiles, Assoc.nodup_keys_ofList, ?_, hsound.statistics_eq hroots hnodup⟩
  change Assoc.keys (w.dependencyGraph context) = _
  rw [Walk.dependencyGraph_of_nodup hnodup, Walk.keys_named, hcovers.identifier_eq]

theorem Answers.shows {root : Option Path} {maxDepth : Int}
    (h : Answers disk project request a) (hdisk : disk.workingPath.IsNormal)
    (hproject : Context.create disk root maxDepth [] = .ok project)
    (hmark : MarkFree project disk) :
    Shows disk project (reached disk request.1 (Path.ofString request.2)) a := by
  obtain ⟨⟨root', hroot', hsame⟩, hresult⟩ := h
  obtain ⟨context, w, hcontext, hfolder, htrack, rfl⟩ := ofEntry_eq_ok hresult
  have hentry : (Path.ofString request.2).IsSpelled := Path.isSpelled_ofString _
  have hnormal : context.IsNormal := isNormal_of_create hdisk (hroot' ▸ hcontext)
  have hcovers : Covers project context := by
    refine covers_of_create hcontext hproject ?_
    rw [(Context.create_eq_ok hcontext).1, hroot', hsame]
  -- the path that is tracked is absolute, and its walk is that of the entry as it is given
  rw [Walk.track_normalize hnormal hentry] at htrack
  obtain rfl : Walk.empty.after context disk.view Walk.standardExtractor
      (Path.ofString request.2) 0 = w := by
    rw [Walk.after, htrack]
  have hsound : Walk.Sound context (Walk.empty.after context disk.view Walk.standardExtractor
      (Path.ofString request.2) 0) := Walk.Sound.empty.after hnormal hentry 0
  have hsettled := fun p hp => Walk.settled_after_empty hnormal hentry 0 p
    (hsound.mem_keys_iff.mp hp)
  rw [reached, hcontext]
  change Shows disk project (Walk.orderFrom context disk.view Walk.standardExtractor _) _
  rw [Walk.orderFrom, ← hsound.keys]
  exact shows_ofWalk hcovers hmark hsound (Walk.rootless_of_settled hcontext hfolder hsettled)
    hsettled _ _

variable {orders : List (List Path)} {results : List Analysis}

theorem forall_of_shows (h : List.Forall₂ (Shows disk project) orders results) :
    (∀ files ∈ orders, ∀ p ∈ files, Walk.Settled project disk.view p) ∧
    (∀ graph ∈ results.map dependencyGraph, (Assoc.keys graph).Nodup) ∧
    (results.map dependencyGraph).map Assoc.keys = orders.map (List.map project.identifier) ∧
    results.map Analysis.statistics = (results.map dependencyGraph).map Graph.statistics := by
  induction h with
  | nil => simp
  | cons hfirst _ ih =>
    obtain ⟨hsettled, hnodup, hkeys, hstatistics⟩ := ih
    refine ⟨List.forall_mem_cons.mpr ⟨hfirst.settled, hsettled⟩,
      List.forall_mem_cons.mpr ⟨hfirst.nodup, hnodup⟩, ?_, ?_⟩
    · exact congrArg₂ List.cons hfirst.keys hkeys
    · exact congrArg₂ List.cons hfirst.statistics hstatistics

theorem disjoint_identifiers_iff (hmark : MarkFree project disk) {files others : List Path}
    (hfiles : ∀ p ∈ files, Walk.Settled project disk.view p)
    (hothers : ∀ p ∈ others, Walk.Settled project disk.view p) :
    (files.map project.identifier).Disjoint (others.map project.identifier) ↔
      files.Disjoint others := by
  constructor
  · intro h p hp hp'
    exact h (List.mem_map_of_mem hp) (List.mem_map_of_mem hp')
  · intro h file hfile hfile'
    obtain ⟨p, hp, rfl⟩ := List.mem_map.mp hfile
    obtain ⟨q, hq, heq⟩ := List.mem_map.mp hfile'
    obtain rfl := Walk.identifier_injective hmark (hothers q hq) (hfiles p hp) heq
    exact h hp hq

/-- No two results have a file in common exactly when no file is reached from two entries. -/
theorem pairwise_disjoint_iff (hmark : MarkFree project disk)
    (h : List.Forall₂ (Shows disk project) orders results) :
    ((results.map dependencyGraph).Pairwise fun graph other =>
        (Assoc.keys graph).Disjoint (Assoc.keys other)) ↔ orders.Pairwise List.Disjoint := by
  obtain ⟨hsettled, -, hkeys, -⟩ := forall_of_shows h
  have hmap := @List.pairwise_map _ _ Assoc.keys List.Disjoint (results.map dependencyGraph)
  rw [← hmap, hkeys, List.pairwise_map]
  exact List.Pairwise.iff_of_mem fun hfiles hothers =>
    disjoint_identifiers_iff hmark (hsettled _ hfiles) (hsettled _ hothers)

end Analysis

namespace Merged

open Analysis

/-- **Merged statistics count every entry.**  For the results of requests for a project in which no
file beside the source root has a name that starts with the mark: the merged number of files is the
sum over the merged files of the number of results whose graph has the file, in total and type by
type, and the types add up to the total.  So it is at least the number of merged files, and the same
exactly when no file is reached from two entries.  The merged number of dependencies is that of all
results together, at least that of the merged graph. -/
theorem counts_every_entry (disk : Disk) (root : Option String) (maxDepth : Int)
    (project : Context) (requests : List (Options × String)) (results : List Analysis)
    (hdisk : disk.workingPath.IsNormal)
    (hproject : Context.create disk (root.map Path.ofString) maxDepth [] = .ok project)
    (hmark : MarkFree project disk)
    (hresults : List.Forall₂ (Answers disk project) requests results) (hsome : results ≠ []) :
    ∃ merged, Merged.ofResults? results = some merged ∧
      let files := Assoc.keys merged.dependencyGraph
      let entriesWith := Graph.holding (results.map Analysis.dependencyGraph)
      merged.statistics.totalFiles = ((files.map entriesWith).sum : Int) ∧
      merged.statistics.filesByType = (listedTypes.map fun type =>
        (type, (((files.filter fun file => typeOf file == type).map entriesWith).sum : Int))) ∧
      merged.statistics.typedFiles = merged.statistics.totalFiles ∧
      (files.length : Int) ≤ merged.statistics.totalFiles ∧
      ((files.length : Int) = merged.statistics.totalFiles ↔
        requests.Pairwise fun request other =>
          (reached disk request.1 (Path.ofString request.2)).Disjoint
            (reached disk other.1 (Path.ofString other.2))) ∧
      merged.statistics.totalDependencies =
        (results.map fun a => Graph.dependencies a.dependencyGraph).sum ∧
      Graph.dependencies merged.dependencyGraph ≤ merged.statistics.totalDependencies := by
  have hshows : List.Forall₂ (Shows disk project) (requests.map fun request =>
      reached disk request.1 (Path.ofString request.2)) results :=
    List.forall₂_map_left_iff.mpr (hresults.imp fun _ _ h => h.shows hdisk hproject hmark)
  obtain ⟨-, hnodup, -, hstatistics⟩ := forall_of_shows hshows
  have hdisjoint := (pairwise_disjoint_iff hmark hshows).trans List.pairwise_map
  obtain ⟨first, rest, rfl⟩ := List.exists_cons_of_ne_nil hsome
  refine ⟨_, rfl, ?_⟩
  generalize first :: rest = results at *
  simp only [hstatistics, Graph.sum_statistics]
  obtain ⟨hfiles, htypes⟩ := Graph.statistics_flatten hnodup
  refine ⟨hfiles, htypes, Graph.typedFiles_statistics _, ?_, ?_, ?_,
    Graph.dependencies_merge_le _⟩
  · rw [Assoc.length_keys]
    exact Int.ofNat_le.mpr (Graph.length_merge_le _)
  · rw [Assoc.length_keys, ← hdisjoint, ← Graph.length_merge_eq_iff hnodup]
    exact Int.ofNat_inj
  · have hsum := Graph.dependencies_flatten (results.map Analysis.dependencyGraph)
    rwa [List.map_map] at hsum

/-- Two stylesheets that import a third one, asked for with different options. -/
def sharedRequests : List (Options × String) :=
  [(⟨none, 3, 10, true, []⟩, "a.css"),
    (⟨some (Path.ofString "/p"), 5, 10, false, ["x"]⟩, "b.css")]

/-- The shared stylesheet is one of three files and counts twice. -/
theorem counts_every_entry_shared :
    ∃ results merged, List.Forall₂ (Answers sharedDisk (Walk.pairContext 3)) sharedRequests
      results ∧
      Merged.ofResults? results = some merged ∧
      merged.statistics.totalFiles = 4 ∧ (Assoc.keys merged.dependencyGraph).length = 3 ∧
      ¬ sharedRequests.Pairwise fun request other =>
        (reached sharedDisk request.1 (Path.ofString request.2)).Disjoint
          (reached sharedDisk other.1 (Path.ofString other.2)) := by
  have hroot : sharedDisk.isFolder ⟨.root, ["p"]⟩ = .ok true := by decide +kernel
  have hnormal : (Walk.pairContext 3).IsNormal := ⟨by decide +kernel, by decide +kernel⟩
  have hfirst := @ofEntry_of_canRead sharedDisk ⟨none, 3, 10, true, []⟩ (Walk.pairContext 3)
    (Path.ofString "a.css") (by decide +kernel) hnormal hroot (Path.isSpelled_ofString _)
    (by decide +kernel)
  have hsecond := @ofEntry_of_canRead sharedDisk ⟨some (Path.ofString "/p"), 5, 10, false, ["x"]⟩
    ⟨⟨.root, ["p"]⟩, ⟨.root, ["p"]⟩, 5, ["x"]⟩ (Path.ofString "b.css") (by decide +kernel)
    ⟨hnormal.projectRoot, hnormal.sourceRoot⟩ hroot (Path.isSpelled_ofString _) (by decide +kernel)
  have hanswers : List.Forall₂ (Answers sharedDisk (Walk.pairContext 3)) sharedRequests _ :=
    .cons ⟨⟨none, rfl, by decide +kernel⟩, hfirst⟩
      (.cons ⟨⟨some "/p", rfl, by decide +kernel⟩, hsecond⟩ .nil)
  obtain ⟨merged, hmerged, hfiles, -, -, -, hequal, -⟩ := counts_every_entry sharedDisk none 3
    (Walk.pairContext 3) sharedRequests _ (by decide) (by decide +kernel) (by decide +kernel)
    hanswers (by simp)
  obtain rfl := Option.some.inj hmerged
  refine ⟨_, _, hanswers, rfl, hfiles.trans (by decide +kernel), by decide +kernel, ?_⟩
  rw [← hequal, hfiles]
  decide +kernel

end Merged

end ImportAtlas
