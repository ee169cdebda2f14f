import ImportAtlas.Analysis.Entry
import ImportAtlas.Proofs.Disk.Edit
import ImportAtlas.Proofs.Graph.Faithful
import ImportAtlas.Proofs.Walk.Shared

set_option autoImplicit false

/-!
# Analysing entries apart and together

Each analysis walks from its own entry and names what it visited.  When the
limit does not matter and no two files clash, the graphs of several analyses
name the same files alike, so merging them gives the graph of one traversal of
all entries, less the repeats in its lists (`merge_eq_traversal`).
-/

namespace ImportAtlas

open Project

/-! ## Entries that are files -/

namespace Disk

theorem contains_of_isFile {d : Disk} {p : Path} (h : d.isFile p = .ok true) :
    d.contains p = .ok true := by
  unfold isFile at h
  unfold contains
  rcases hlook : d.look p with fault | _ | _ | bytes | _ <;> simp [hlook, Except.map] at h ⊢

/-- What can be read is a file. -/
theorem isFile_of_canRead {d : Disk} {p : Path} (h : d.canRead p = true) :
    d.isFile p = .ok true := by
  obtain ⟨bytes, hread⟩ : ∃ bytes, d.read p = .ok bytes := by
    unfold canRead at h
    cases hread : d.read p with
    | error fault => simp [hread, Except.isOk, Except.toBool] at h
    | ok bytes => exact ⟨bytes, rfl⟩
  obtain ⟨location, hlocate, hentry⟩ := read_eq_ok_iff.mp hread
  have hlook : d.look p = .ok (some (.file bytes)) :=
    look_eq_some_iff.mpr ⟨location, locate_task .lookUp hlocate, hentry⟩
  rw [isFile, hlook]
  rfl

theorem isFile_ne_of_isFolder {d : Disk} {p : Path} (h : d.isFolder p = .ok true) :
    d.isFile p ≠ .ok true := by
  unfold isFolder at h
  unfold isFile
  rcases hlook : d.look p with fault | _ | _ | bytes | _ <;> simp [hlook, Except.map] at h ⊢

end Disk

namespace Walk

variable {context : Context} {view : FileView} {extractor : Extractor}

/-- A path is tracked as it is seen from the project root. -/
theorem track_normalize (hcontext : context.IsNormal) {path : Path} (hpath : path.IsSpelled)
    (depth : Int) (w : Walk) :
    w.track context view extractor (context.projectRoot ++ path).normalize depth =
      w.track context view extractor path depth := by
  have hnormal := hcontext.projectRoot.normalize_append hpath
  unfold track
  cases levelsAt context depth with
  | zero => rfl
  | succ levels => simp only [follow, hnormal.append_normalize]

/-- Tracking a file never fails. -/
theorem track_of_isFile {path : Path} (hpath : path.IsNormal) (hfile : view.isFile path = .ok true)
    (depth : Int) (w : Walk) : ∃ w', w.track context view extractor path depth = .ok w' := by
  cases hignored : context.ignores path with
  | false =>
    obtain ⟨w', htrack, -⟩ := track_settled ⟨inside_iff.mpr ⟨hpath, hignored⟩, hfile⟩ depth w
    exact ⟨w', htrack⟩
  | true =>
    refine ⟨w, ?_⟩
    unfold track
    cases levelsAt context depth with
    | zero => rfl
    | succ levels =>
      simp only [follow, hpath.append_normalize, hignored, if_true]
      rfl

end Walk

namespace Analysis

theorem checkEntry_of_canRead {disk : Disk} {root entry : Path}
    (h : disk.canRead (root ++ entry).normalize = true) :
    checkEntry disk root entry = .ok (root ++ entry).normalize := by
  have hfile := Disk.isFile_of_canRead h
  unfold checkEntry
  simp only [Disk.contains_of_isFile hfile, hfile, h]
  rfl

/-- Analysing a file of a project that can be read has a result: what its walk shows. -/
theorem ofEntry_of_canRead {disk : Disk} {options : Options} {context : Context} {entry : Path}
    (hcreate : Context.create disk options.projectRoot options.maxDepth options.exclude =
      .ok context)
    (hcontext : context.IsNormal) (hroot : disk.isFolder context.projectRoot = .ok true)
    (hentry : entry.IsSpelled)
    (hfile : disk.canRead (context.projectRoot ++ entry).normalize = true) :
    ofEntry disk options entry =
      .ok (ofWalk context options (context.projectRoot ++ entry).normalize
        (Walk.empty.after context disk.view Walk.standardExtractor entry 0)) := by
  obtain ⟨w, hw⟩ : ∃ w, Walk.empty.track context disk.view Walk.standardExtractor
      (context.projectRoot ++ entry).normalize 0 = .ok w :=
    Walk.track_of_isFile (hcontext.projectRoot.normalize_append hentry)
      (Disk.isFile_of_canRead hfile) 0 Walk.empty
  have hafter := (Walk.track_normalize hcontext hentry 0 Walk.empty).symm.trans hw
  rw [Walk.after, hafter]
  unfold ofEntry
  simp only [hcreate, hroot, checkEntry_of_canRead hfile, hw, Except.mapError, Except.ok_bind]
  rfl

theorem checkEntry_eq_ok {disk : Disk} {root entry path : Path}
    (h : checkEntry disk root entry = .ok path) : path = (root ++ entry).normalize := by
  obtain ⟨there, -, h⟩ := Except.bind_eq_ok h
  cases there with
  | false => cases h
  | true =>
    obtain ⟨file, -, h⟩ := Except.bind_eq_ok h
    cases file with
    | false => cases h
    | true =>
      cases hread : disk.canRead (root ++ entry).normalize with
      | false => simp [hread, throw, throwThe, MonadExceptOf.throw, bind, Except.bind] at h
      | true =>
        simp only [hread] at h
        exact (Except.ok.inj h).symm

/-- Every result is what the walk from an entry shows, in a project whose root is a folder. -/
theorem ofEntry_eq_ok {disk : Disk} {options : Options} {entry : Path} {a : Analysis}
    (h : ofEntry disk options entry = .ok a) : ∃ context walk,
      Context.create disk options.projectRoot options.maxDepth options.exclude = .ok context ∧
      disk.isFolder context.projectRoot = .ok true ∧
      Walk.empty.track context disk.view Walk.standardExtractor
        (context.projectRoot ++ entry).normalize 0 = .ok walk ∧
      a = ofWalk context options (context.projectRoot ++ entry).normalize walk := by
  obtain ⟨context, hcontext, h⟩ := Except.bind_eq_ok h
  obtain ⟨folder, hfolder, h⟩ := Except.bind_eq_ok h
  rw [Except.mapError_eq_ok_iff] at hcontext hfolder
  cases folder with
  | false => cases h
  | true =>
    obtain ⟨path, hpath, h⟩ := Except.bind_eq_ok h
    obtain ⟨walk, hwalk, h⟩ := Except.bind_eq_ok h
    obtain rfl := checkEntry_eq_ok hpath
    exact ⟨context, walk, hcontext, hfolder, Except.mapError_eq_ok_iff.mp hwalk,
      (Except.ok.inj h).symm⟩

end Analysis

/-! ## Files whose identifiers are their own -/

namespace Project

/-- No file beside the source root has a path below the project root that starts with the mark. -/
def MarkFree (context : Context) (disk : Disk) : Prop :=
  ∀ p ∈ trackedFiles context disk, p.relativeTo? context.sourceRoot = none →
    Text.startsWith aliasMark (entryName p context.projectRoot) = false

variable {context : Context} {disk : Disk}

instance : Decidable (MarkFree context disk) :=
  inferInstanceAs (Decidable (∀ p ∈ trackedFiles context disk, _ → _))

theorem MarkFree.not_clash (h : MarkFree context disk) {p q : Path}
    (hq : q ∈ trackedFiles context disk) : ¬ Clash context p q := by
  intro hclash
  obtain ⟨below, hne, -, hplace⟩ := hclash.place
  have hmark : Text.startsWith aliasMark (entryName q context.projectRoot) = true := by
    simp only [entryName, hplace, partsText_markFolder hne, Text.startsWith, String.toList_append,
      List.isPrefixOf_iff_prefix, List.prefix_append]
  rw [h q hq hclash.beside] at hmark
  cases hmark

end Project

namespace Walk

variable {context : Context} {disk : Disk} {extractor : Extractor}

theorem identifier_injective (hmark : MarkFree context disk) {p q : Path}
    (hp : Settled context disk.view p) (hq : Settled context disk.view q)
    (h : context.identifier p = context.identifier q) : p = q := by
  rcases (identifier_eq_iff hp.inside hq.inside).mp h with heq | hclash | hclash
  · exact heq
  · exact absurd hclash (hmark.not_clash hq.mem_trackedFiles)
  · exact absurd hclash (hmark.not_clash hp.mem_trackedFiles)

/-- The identifiers that a file depends on. -/
def dependencies (context : Context) (view : FileView) (extractor : Extractor) (file : Path) :
    List String :=
  Text.sort ((adjacency context view extractor file).map context.identifier)

/-- The dependency graph of a traversal shows its files in the order in which they were entered. -/
theorem dependencyGraph_traverse (hcontext : context.IsNormal) (hmark : MarkFree context disk)
    {calls : List (Path × Int)} (hcalls : ∀ call ∈ calls, call.1.IsSpelled) :
    (traverse context disk.view extractor calls).dependencyGraph context =
      Graph.ofFiles context.identifier (dependencies context disk.view extractor)
        (traverse context disk.view extractor calls).visited.reverse := by
  have hsound : Sound context (traverse context disk.view extractor calls) :=
    sound_traverse hcontext hcalls
  have hunclashing : Unclashing context (traverse context disk.view extractor calls) := by
    intro p _ q hq
    have hsettled := settled_of_traversed hcontext hcalls q (hsound.mem_keys_iff.mp hq)
    exact hmark.not_clash hsettled.mem_trackedFiles
  rw [hsound.dependencyGraph_eq hunclashing, graph_traverse hcontext hcalls, List.map_map]
  rfl

/-- A walk from one entry visits settled files, and its dependency graph shows them in order. -/
theorem dependencyGraph_after (hcontext : context.IsNormal) (hmark : MarkFree context disk)
    {entry : Path} (hentry : entry.IsSpelled) :
    (∀ file ∈ orderFrom context disk.view extractor entry, Settled context disk.view file) ∧
      (Walk.empty.after context disk.view extractor entry 0).dependencyGraph context =
        Graph.ofFiles context.identifier (dependencies context disk.view extractor)
          (orderFrom context disk.view extractor entry) := by
  have hcalls : ∀ call ∈ [(entry, (0 : Int))], call.1.IsSpelled := by simpa using hentry
  refine ⟨fun file hfile => ?_, dependencyGraph_traverse hcontext hmark hcalls⟩
  exact settled_after_empty hcontext hentry 0 file (List.mem_reverse.mp hfile)

/-- Merging the graphs of walks from some entries gives the graph of one walk from all of them. -/
theorem merge_dependencyGraph (hcontext : context.IsNormal) (hmark : MarkFree context disk)
    {entries : List Path} (hentries : ∀ entry ∈ entries, entry.IsSpelled)
    (hlimit : (trackedFiles context disk).length ≤ context.maxDepth) :
    Graph.merge (entries.map fun entry =>
        (Walk.empty.after context disk.view extractor entry 0).dependencyGraph context) =
      ((traverse context disk.view extractor
        (entries.map fun entry => (entry, 0))).dependencyGraph context).map
          fun e => (e.1, e.2.eraseDups) := by
  have hafter := fun entry hentry =>
    @dependencyGraph_after context disk extractor hcontext hmark entry (hentries entry hentry)
  have hsettled : ∀ file ∈ (entries.map (orderFrom context disk.view extractor)).flatten,
      Settled context disk.view file := by
    intro file hfile
    obtain ⟨_, horder, hfile⟩ := List.mem_flatten.mp hfile
    obtain ⟨entry, hentry, rfl⟩ := List.mem_map.mp horder
    exact (hafter entry hentry).1 file hfile
  have hname := fun f hf g hg => identifier_injective hmark (hsettled f hf) (hsettled g hg)
  obtain ⟨-, hvisited⟩ := visited_traverse_entries hcontext hentries hlimit
  calc Graph.merge (entries.map fun entry =>
        (Walk.empty.after context disk.view extractor entry 0).dependencyGraph context)
    _ = Graph.merge ((entries.map (orderFrom context disk.view extractor)).map
          (Graph.ofFiles context.identifier (dependencies context disk.view extractor))) := by
        rw [List.map_congr_left fun entry hentry => (hafter entry hentry).2, List.map_map]
        rfl
    _ = Graph.ofFiles context.identifier
          (fun file => (dependencies context disk.view extractor file).eraseDups)
          (entries.map (orderFrom context disk.view extractor)).flatten.eraseDups :=
        Graph.merge_ofFiles hname
    _ = _ := by
        rw [dependencyGraph_traverse hcontext hmark (by simpa using hentries), hvisited]
        simp [Graph.ofFiles]

end Walk

/-! ## Apart and together -/

namespace Analysis

theorem mapM_of_forall {ε α β : Type} {f : α → Except ε β} {g : α → β} {items : List α}
    (h : ∀ item ∈ items, f item = .ok (g item)) : items.mapM f = .ok (items.map g) := by
  induction items with
  | nil => rfl
  | cons item items ih =>
    rw [List.mapM_cons, h item List.mem_cons_self, ih fun i hi => h i (.tail _ hi)]
    rfl

/-- **Analysing entries apart and merging is walking from them together.**  For entries that are
files and can be read, in a project on which the limit does not matter and in which no file beside
the source root has a name that starts with the mark: every entry has a result, and the merged graph
is the graph of one walk that tracks all entries in turn, its lists without repeats. -/
theorem merge_eq_traversal (disk : Disk) (root : Option String) (maxDepth treeDepth : Int)
    (showCounts : Bool) (exclude : List String) (context : Context) (entries : List String)
    (hdisk : disk.workingPath.IsNormal)
    (hcontext : Context.create disk (root.map Path.ofString) maxDepth exclude = .ok context)
    (hroot : disk.isFolder context.projectRoot = .ok true)
    (hentries : ∀ entry ∈ entries,
      disk.canRead (context.projectRoot ++ Path.ofString entry).normalize = true)
    (hlimit : (trackedFiles context disk).length ≤ maxDepth) (hmark : MarkFree context disk) :
    let options : Options := ⟨root.map Path.ofString, maxDepth, treeDepth, showCounts, exclude⟩
    let shared := Walk.traverse context disk.view Walk.standardExtractor
      (entries.map fun entry => (Path.ofString entry, 0))
    ∃ results, (entries.mapM fun entry => ofEntry disk options (Path.ofString entry)) =
      .ok results ∧
      Graph.merge (results.map Analysis.dependencyGraph) =
        (shared.dependencyGraph context).map fun e => (e.1, e.2.eraseDups) := by
  intro options shared
  have hnormal := isNormal_of_create hdisk hcontext
  obtain ⟨-, -, rfl, -⟩ := Context.create_eq_ok hcontext
  have hspelled : ∀ entry ∈ entries.map Path.ofString, entry.IsSpelled := by
    simpa using fun entry _ => Path.isSpelled_ofString entry
  have hmerge := @Walk.merge_dependencyGraph context disk Walk.standardExtractor hnormal hmark _
    hspelled hlimit
  rw [List.map_map, List.map_map] at hmerge
  refine ⟨_, mapM_of_forall fun entry hentry => ofEntry_of_canRead hcontext hnormal hroot
    (Path.isSpelled_ofString entry) (hentries entry hentry), ?_⟩
  rw [List.map_map]
  exact hmerge

/-- Two stylesheets that import a third one, the first of them twice. -/
def sharedDisk : Disk where
  entries := [(["p"], .folder), (["p", "a.css"], Walk.importing ["c.css", "c.css"]),
    (["p", "b.css"], Walk.importing ["c.css"]), (["p", "c.css"], Walk.importing [])]
  workingFolder := ["p"]

/-- Both analyses show the shared stylesheet, and their merger shows it once, behind the first. -/
theorem merge_eq_traversal_shared :
    ∃ results, (["a.css", "b.css"].mapM fun entry =>
        ofEntry sharedDisk ⟨none, 3, 10, true, []⟩ (Path.ofString entry)) = .ok results ∧
      Assoc.keys (Graph.merge (results.map Analysis.dependencyGraph)) =
        ["@/a.css", "@/c.css", "@/b.css"] := by
  obtain ⟨results, hresults, hmerge⟩ := merge_eq_traversal sharedDisk none 3 10 true []
    (Walk.pairContext 3) ["a.css", "b.css"] (by decide) (by decide +kernel) (by decide +kernel)
    (by decide +kernel) (by decide +kernel) (by decide +kernel)
  refine ⟨results, hresults, ?_⟩
  rw [hmerge]
  decide +kernel

end Analysis

end ImportAtlas
