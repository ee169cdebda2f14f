import ImportAtlas.Graph.Basic
import ImportAtlas.Proofs.Assoc
import ImportAtlas.Proofs.Project.Naming
import ImportAtlas.Proofs.Walk.Boundary
import Mathlib.Algebra.Ring.Int.Defs
import Mathlib.Algebra.Ring.Nat
import Mathlib.Data.List.Nodup

set_option autoImplicit false

/-!
# What a dependency graph loses

A dependency graph is written file by file under the identifiers of the files.
Files with one identifier share one entry, and the last one written takes the
place of the others.  So the graph has an entry for each file that the
statistics count exactly when no two of the files clash, and then it is the
graph of the walk with every path named (`dependencyGraph_faithful`).
-/

namespace ImportAtlas

/-- The number of dependencies that a graph lists, with repeats. -/
def Graph.dependencies (graph : Graph) : Int :=
  graph.foldr (fun e total => (e.2.length : Int) + total) 0

/-- The number of files that the counts by type make up together. -/
def Statistics.typedFiles (s : Statistics) : Int :=
  s.filesByType.foldr (fun count total => count.2 + total) 0

/-! ## Counts by type -/

section Sorting

variable {α β : Type} [DecidableEq β] (f : α → β) (items : List α) {values : List β}

/-- Items sorted by some values are the items that have one of the values. -/
theorem flatMap_filter_perm (h : values.Nodup) :
    (values.flatMap fun value => items.filter fun a => f a == value).Perm
      (items.filter fun a => values.contains (f a)) := by
  induction values with
  | nil => simp
  | cons value values ih =>
    obtain ⟨hfresh, hnodup⟩ := List.nodup_cons.mp h
    have hfirst : ∀ a, (f a == value && (value :: values).contains (f a)) = (f a == value) := by
      intro a
      by_cases hvalue : f a = value <;> simp [hvalue]
    have hothers : ∀ a, (!(f a == value) && (value :: values).contains (f a)) =
        values.contains (f a) := by
      intro a
      by_cases hvalue : f a = value
      · simp [hvalue, hfresh]
      · simp [hvalue]
    have hsplit := List.filter_append_perm (fun a => f a == value)
      (items.filter fun a => (value :: values).contains (f a))
    simp only [List.filter_filter, hfirst, hothers] at hsplit
    rw [List.flatMap_cons]
    exact ((ih hnodup).append_left _).trans hsplit

/-- Counts for different values add up to the count of them all. -/
theorem sum_countP (h : values.Nodup) :
    (values.map fun value => items.countP fun a => f a == value).sum =
      items.countP fun a => values.contains (f a) := by
  have hlength := (flatMap_filter_perm f items h).length_eq
  rw [List.length_flatMap] at hlength
  simpa only [List.countP_eq_length_filter] using hlength

end Sorting

theorem typedFiles_of_counts {types : List String} (count : String → Nat) :
    (types.map fun type => (type, (count type : Int))).foldr
      (fun count (total : Int) => count.2 + total) 0 = ((types.map count).sum : Nat) := by
  induction types with
  | nil => rfl
  | cons type types ih => simp [ih]

theorem nodup_listedTypes : listedTypes.Nodup := by
  decide

theorem Path.fileType_listed (p : Path) : listedTypes.contains p.fileType = true := by
  unfold Path.fileType
  split
  · rename_i h
    simp_all [listedTypes]
  · simp [listedTypes]

namespace Walk

open Project

/-- Every file is counted under one type. -/
theorem typedFiles_statistics (w : Walk) : w.statistics.typedFiles = w.statistics.totalFiles := by
  have hcount := sum_countP (fun e : Path × List Path => e.1.fileType) w.graph nodup_listedTypes
  simp only [Path.fileType_listed, List.countP_true] at hcount
  rw [Statistics.typedFiles, statistics, typedFiles_of_counts, hcount]

/-! ## Named graphs -/

/-- The files and the dependencies of a walk. -/
def vertices (w : Walk) : List Path :=
  Assoc.keys w.graph ++ w.graph.flatMap Prod.snd

/-- An entry of a walk's graph with every path named. -/
def named (context : Context) (entry : Path × List Path) : String × List String :=
  (context.identifier entry.1, Text.sort (entry.2.map context.identifier))

variable {context : Context} {w : Walk}

theorem dependencyGraph_eq_ofList :
    w.dependencyGraph context = Assoc.ofList (w.graph.map (named context)) := rfl

theorem keys_named :
    Assoc.keys (w.graph.map (named context)) = (Assoc.keys w.graph).map context.identifier := by
  simp [Assoc.keys, named]

theorem dependencies_named :
    Graph.dependencies (w.graph.map (named context)) = w.statistics.totalDependencies := by
  simp [Graph.dependencies, statistics, named, List.foldr_map, Text.sort]

theorem Sound.inside_of_vertex (h : Sound context w) {p : Path} (hp : p ∈ w.vertices) :
    Inside context p := by
  rcases List.mem_append.mp hp with hkey | htarget
  · exact h.inside_of_visited (h.mem_keys_iff.mp hkey)
  · obtain ⟨entry, hentry, htarget⟩ := List.mem_flatMap.mp htarget
    exact (h.inside entry hentry).2 p htarget

/-- No two files of a walk clash. -/
def Unclashing (context : Context) (w : Walk) : Prop :=
  ∀ p ∈ Assoc.keys w.graph, ∀ q ∈ Assoc.keys w.graph, ¬ Clash context p q

/-- The identifiers of the files are different exactly when no two of the files clash. -/
theorem Sound.nodup_identifiers_iff (h : Sound context w) :
    ((Assoc.keys w.graph).map context.identifier).Nodup ↔ Unclashing context w := by
  have hinside : ∀ p ∈ Assoc.keys w.graph, Inside context p := fun p hp =>
    h.inside_of_visited (h.mem_keys_iff.mp hp)
  rw [List.nodup_map_iff_inj_on h.nodup_keys]
  constructor
  · intro hinj p hp q hq hclash
    exact hclash.ne (hinj p hp q hq hclash.identifier_eq)
  · intro hunclashing p hp q hq heq
    rcases (identifier_eq_iff (hinside p hp) (hinside q hq)).mp heq with heq | hclash | hclash
    · exact heq
    · exact absurd hclash (hunclashing p hp q hq)
    · exact absurd hclash (hunclashing q hq p hp)

/-- Without a clash the dependency graph is the graph with every path named. -/
theorem Sound.dependencyGraph_eq (h : Sound context w) (hunclashing : Unclashing context w) :
    w.dependencyGraph context = w.graph.map (named context) := by
  rw [dependencyGraph_eq_ofList, Assoc.ofList_of_nodup]
  rw [keys_named]
  exact h.nodup_identifiers_iff.mpr hunclashing

/-- The dependency graph has an entry for every file exactly when no two files clash. -/
theorem Sound.length_dependencyGraph_iff (h : Sound context w) :
    ((w.dependencyGraph context).length : Int) = w.statistics.totalFiles ↔
      Unclashing context w := by
  have hlength := @Assoc.length_ofList_iff _ _ _ (w.graph.map (named context))
  rw [List.length_map, keys_named, h.nodup_identifiers_iff] at hlength
  rw [← hlength, dependencyGraph_eq_ofList]
  exact Int.ofNat_inj

/-- **What the dependency graph shows of a walk.**  After any actions two files or dependencies have
the same identifier only if they clash, and the counts by type add up to the number of files.  The
graph has as many entries as there are files exactly when no two files clash; then it is the graph
of the walk with every path named, and lists as many dependencies as the statistics count. -/
theorem dependencyGraph_faithful (disk : Disk) (root : Option String) (maxDepth : Int)
    (exclude : List String) (context : Context) (extractor : Extractor) (actions : List Action)
    (hdisk : disk.workingPath.IsNormal)
    (hcontext : Context.create disk (root.map Path.ofString) maxDepth exclude = .ok context) :
    let w := (Session.run context extractor ⟨disk, Walk.empty⟩ actions).walk
    let graph := w.dependencyGraph context
    (∀ p ∈ w.vertices, ∀ q ∈ w.vertices, context.identifier p = context.identifier q →
      p = q ∨ Clash context p q ∨ Clash context q p) ∧
    w.statistics.typedFiles = w.statistics.totalFiles ∧
    ((graph.length : Int) = w.statistics.totalFiles ↔ Unclashing context w) ∧
    (Unclashing context w → graph = w.graph.map (named context) ∧
      Graph.dependencies graph = w.statistics.totalDependencies) := by
  intro w graph
  have hsound : Sound context w := Sound.run (isNormal_of_create hdisk hcontext) .empty actions
  refine ⟨fun p hp q hq => ?_, w.typedFiles_statistics, hsound.length_dependencyGraph_iff,
    fun hunclashing => ?_⟩
  · exact (identifier_eq_iff (hsound.inside_of_vertex hp) (hsound.inside_of_vertex hq)).mp
  · have hgraph : graph = w.graph.map (named context) := hsound.dependencyGraph_eq hunclashing
    exact ⟨hgraph, hgraph ▸ dependencies_named⟩

/-- A project with a folder `@` beside its source root. -/
def markDisk : Disk where
  entries := [(["p"], .folder), (["p", "src"], .folder), (["p", "src", "a.js"], .file .empty),
    (["p", "@"], .folder), (["p", "@", "a.js"], .file .empty), (["p", "@", "b.js"], .file .empty)]
  workingFolder := ["p"]

def markContext : Context :=
  ⟨⟨.root, ["p"]⟩, ⟨.root, ["p", "src"]⟩, 3, []⟩

/-- Every file refers to the file `b` beside it. -/
def besideExtractor : Extractor :=
  fun _ _ => .ok ["./b"]

/-- The files `src/a.js` and `@/b.js` of the project do not clash, and `src/a.js` and `@/a.js` do.
-/
theorem dependencyGraph_faithful_mark :
    let w := (Session.run markContext besideExtractor ⟨markDisk, Walk.empty⟩
      [.track "@/b.js" 0, .track "src/a.js" 0]).walk
    let w' := (Session.run markContext besideExtractor ⟨markDisk, Walk.empty⟩
      [.track "@/a.js" 0, .track "src/a.js" 0]).walk
    w.dependencyGraph markContext = w.graph.map (named markContext) ∧
      ¬ Unclashing markContext w' := by
  intro w w'
  have hpair := dependencyGraph_faithful markDisk none 3 [] markContext besideExtractor
    [.track "@/b.js" 0, .track "src/a.js" 0] (by decide) (by decide +kernel)
  have hclash := dependencyGraph_faithful markDisk none 3 [] markContext besideExtractor
    [.track "@/a.js" 0, .track "src/a.js" 0] (by decide) (by decide +kernel)
  have hcount : ((w.dependencyGraph markContext).length : Int) = w.statistics.totalFiles := by
    decide +kernel
  have hloss : ((w'.dependencyGraph markContext).length : Int) ≠ w'.statistics.totalFiles := by
    decide +kernel
  exact ⟨(hpair.2.2.2 (hpair.2.2.1.mp hcount)).1, fun h => hloss (hclash.2.2.1.mpr h)⟩

/-- Identifiers do not identify files: a file under the source root and one at the same place below
the folder `@` share one entry of the graph. -/
theorem not_length_eq_totalFiles :
    ¬ ∀ (disk : Disk) (root : Option String) (maxDepth : Int) (exclude : List String)
      (context : Context) (actions : List Action),
      disk.workingPath.IsNormal →
      Context.create disk (root.map Path.ofString) maxDepth exclude = .ok context →
      let w := (Session.run context standardExtractor ⟨disk, Walk.empty⟩ actions).walk
      ((w.dependencyGraph context).length : Int) = w.statistics.totalFiles := by
  intro hall
  have hcount := hall markDisk none 3 [] markContext [.track "src/a.js" 0, .track "@/a.js" 0]
    (by decide) (by decide +kernel)
  exact absurd hcount (by decide +kernel)

end Walk

end ImportAtlas
