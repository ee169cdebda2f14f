import ImportAtlas.Proofs.Assoc
import ImportAtlas.Proofs.Walk.Reach
import ImportAtlas.Graph.Basic

set_option autoImplicit false

/-!
# Walks with different limits

A walk enters a file where it first meets it, and never again.  With a larger
limit it may meet a file on a long way first, so deep that the limit cuts off
what lies behind the file, though a walk with a smaller limit would meet the
file on a short way and go on from there.  So a larger limit may lose files; but
only behind a file that was entered at the limit, and none when no file is
entered as deep as that.
-/

namespace ImportAtlas.Walk

open Project

variable {context : Context} {view : FileView} {extractor : Extractor}

theorem mem_keys_dependencyGraph {w : Walk} {key : String} :
    key ∈ Assoc.keys (w.dependencyGraph context) ↔
      ∃ file ∈ Assoc.keys w.graph, context.identifier file = key := by
  rw [dependencyGraph, Assoc.mem_keys_ofList]
  simp [Assoc.keys]

/-! ## Contexts that differ in the limit -/

theorem create_maxDepth {disk : Disk} {root : Option Path} {m n : Int} {exclude : List String}
    {shallow deep : Context} (hshallow : Context.create disk root m exclude = .ok shallow)
    (hdeep : Context.create disk root n exclude = .ok deep) :
    shallow = { deep with maxDepth := m } := by
  obtain ⟨sourceRoot, hsource, h⟩ := Except.bind_eq_ok hshallow
  obtain ⟨sourceRoot', hsource', h'⟩ := Except.bind_eq_ok hdeep
  cases hsource.symm.trans hsource'
  cases h
  cases h'
  rfl

/-- What leads where does not depend on the limit. -/
theorem Leads.maxDepth {n : Nat} {m : Int} {file target : Path}
    (h : Leads { context with maxDepth := m } view extractor n file target) :
    Leads context view extractor n file target := by
  induction h with
  | here file => exact .here file
  | edge hedge _ ih => exact .edge hedge ih

theorem Admits.maxDepth {m : Int} {path file : Path}
    (h : Admits { context with maxDepth := m } view path file) : Admits context view path file :=
  ⟨h.path_tracked, h.located, h.file_tracked⟩

/-! ## Where a chain leaves a set of files -/

/-- A chain that starts in a set of files and ends outside it leaves the set over an edge. -/
theorem Leads.exists_leaving {files : List Path} {n : Nat} {file target : Path}
    (h : Leads context view extractor n file target) (hfile : file ∈ files)
    (htarget : target ∉ files) :
    ∃ i j last next, Leads context view extractor i file last ∧ last ∈ files ∧
      Edge context view extractor last next ∧ next ∉ files ∧
      Leads context view extractor j next target ∧ i + j + 1 = n := by
  induction h with
  | here file => exact absurd hfile htarget
  | @edge n file next target hedge hrest ih =>
    by_cases hnext : next ∈ files
    · obtain ⟨i, j, last, first, hbefore, hlast, hleave, hfirst, hafter, hlength⟩ :=
        ih hnext htarget
      exact ⟨i + 1, j, last, first, .edge hedge hbefore, hlast, hleave, hfirst, hafter, by omega⟩
    · exact ⟨0, n, file, next, .here file, hfile, hedge, hnext, hrest, by omega⟩

/-! ## The depth of the first file -/

theorem Call.Makes.visited {c next : Call} (h : Call.Makes context view extractor c next) :
    c.walk.visited ⊆ next.walk.visited := by
  cases h with
  | edge _ htakes =>
    exact fun f hf => (htakes.visited (grows_onwardFrom c.depth)).subset (List.mem_cons_of_mem _ hf)

/-- The file that the first call enters is entered by no later call. -/
theorem depth_of_expandedAt {start : Call} {file : Path} {depth : Int}
    (hfile : Admits context view start.path file)
    (h : ExpandedAt context view extractor start file depth) : depth = start.depth := by
  obtain ⟨c, hcalls, henters, rfl⟩ := h
  rcases Relation.ReflTransGen.cases_head hcalls with rfl | ⟨next, hmakes, hrest⟩
  · rfl
  have hnext : file ∈ next.walk.visited := by
    cases hmakes with
    | @edge entered target u hfirst htakes =>
      obtain rfl := hfile.unique hfirst.admits
      exact (htakes.visited (grows_onwardFrom start.depth)).subset List.mem_cons_self
  have hall : next.walk.visited ⊆ c.walk.visited := by
    clear hmakes hnext
    induction hrest using Relation.ReflTransGen.head_induction_on with
    | refl => exact fun f hf => hf
    | head hstep _ ih => exact fun f hf => ih (hstep.visited hf)
  exact absurd (hall hnext) henters.fresh

/-! ## Lost files -/

/-- A file that a chain of at most `m` edges leads to, and that a walk with a limit of at least `m`
does not enter, lies behind a file that is nearer than the limit but was entered at the limit. -/
theorem exists_cut_of_missing (hcontext : context.IsNormal) {path file k : Path} {m : Nat}
    (hpath : path.IsSpelled) (hfile : Admits context view path file) (hlimit : m ≤ context.maxDepth)
    (hleads : Leads context view extractor m file k)
    (hmissing : k ∉ Assoc.keys (Walk.empty.after context view extractor path 0).graph) :
    ∃ cut i j, cut ∈ Assoc.keys (Walk.empty.after context view extractor path 0).graph ∧
      Leads context view extractor i file cut ∧ Leads context view extractor j cut k ∧
      i + j = m ∧ 0 < j ∧
      ExpandedAt context view extractor ⟨path, 0, Walk.empty⟩ cut context.maxDepth := by
  have hentered : file ∈ Assoc.keys (Walk.empty.after context view extractor path 0).graph :=
    mem_keys_of_admits hcontext hpath hfile (by omega)
  obtain ⟨i, j, cut, next, hbefore, hcut, hedge, hnext, hafter, hlength⟩ :=
    hleads.exists_leaving hentered hmissing
  exact ⟨cut, i, j + 1, hcut, hbefore, .edge hedge hafter, by omega, by omega,
    expandedAt_of_missing hcontext hpath hcut hedge hnext⟩

/-- A key that is missing with a larger limit names a file behind a cut. -/
theorem exists_cut_of_missing_key (hcontext : context.IsNormal) {m : Int} {path : Path}
    {key : String} (hpath : path.IsSpelled) (hle : m ≤ context.maxDepth)
    (hkey : key ∈ Assoc.keys ((Walk.empty.after { context with maxDepth := m } view extractor
      path 0).dependencyGraph { context with maxDepth := m }))
    (hmissing : key ∉ Assoc.keys ((Walk.empty.after context view extractor
      path 0).dependencyGraph context)) :
    ∃ file k cut i j, Admits context view path file ∧ context.identifier k = key ∧
      Leads context view extractor i file cut ∧ Leads context view extractor j cut k ∧
      (i + j : Nat) ≤ m ∧ 0 < j ∧
      cut ∈ Assoc.keys (Walk.empty.after context view extractor path 0).graph ∧
      ExpandedAt context view extractor ⟨path, 0, Walk.empty⟩ cut context.maxDepth := by
  obtain ⟨k, hk, rfl⟩ := mem_keys_dependencyGraph.mp hkey
  have hlost : k ∉ Assoc.keys (Walk.empty.after context view extractor path 0).graph :=
    fun hmem => hmissing (mem_keys_dependencyGraph.mpr ⟨k, hmem, rfl⟩)
  have hfile : ∃ file, Admits { context with maxDepth := m } view path file := by
    by_contra hnone
    rw [graph_of_not_admits hnone] at hk
    cases hk
  obtain ⟨file, hfile⟩ := hfile
  have hshallow : ({ context with maxDepth := m } : Context).IsNormal :=
    ⟨hcontext.projectRoot, hcontext.sourceRoot⟩
  obtain ⟨length, hlength, hleads⟩ := leads_of_mem_keys hshallow hpath hfile hk
  have hwithin : (length : Int) ≤ m := hlength
  obtain ⟨cut, i, j, hcut, hbefore, hafter, hsum, hpos, hexpanded⟩ :=
    exists_cut_of_missing hcontext hpath hfile.maxDepth
      (Int.le_trans hwithin hle) hleads.maxDepth hlost
  exact ⟨file, k, cut, i, j, hfile.maxDepth, rfl, hbefore, hafter, by omega, hpos, hcut, hexpanded⟩

/-- **A larger limit loses files only behind the limit.**  A key that a walk with the limit `m` has
and a walk with a larger limit `n` has not names a file behind another one, the cut, that the larger
walk expanded at its limit, though fewer than `m` edges lead to it.  So no key is lost when no file
is as deep as that: when `n` is as large as the number of files, or `m` is at most one. -/
theorem lost_behind_limit (disk : Disk) (root : Option String) (m n : Int) (exclude : List String)
    (shallow deep : Context) (extractor : Extractor) (entry : String)
    (hdisk : disk.workingPath.IsNormal) (hle : m ≤ n)
    (hshallow : Context.create disk (root.map Path.ofString) m exclude = .ok shallow)
    (hdeep : Context.create disk (root.map Path.ofString) n exclude = .ok deep) :
    let start : Call := ⟨Path.ofString entry, 0, Walk.empty⟩
    let w := Walk.empty.after shallow disk.view extractor start.path start.depth
    let w' := Walk.empty.after deep disk.view extractor start.path start.depth
    (∀ key ∈ Assoc.keys (w.dependencyGraph shallow), key ∉ Assoc.keys (w'.dependencyGraph deep) →
      ∃ file k cut i j, Admits deep disk.view start.path file ∧ deep.identifier k = key ∧
        Leads deep disk.view extractor i file cut ∧ Leads deep disk.view extractor j cut k ∧
        (i + j : Nat) ≤ m ∧ 0 < j ∧ cut ∈ Assoc.keys w'.graph ∧
        ExpandedAt deep disk.view extractor start cut n) ∧
    (m ≤ 1 ∨ (trackedFiles deep disk).length ≤ n →
      ∀ key ∈ Assoc.keys (w.dependencyGraph shallow),
        key ∈ Assoc.keys (w'.dependencyGraph deep)) := by
  intro start w w'
  have hnormal := isNormal_of_create hdisk hdeep
  have hpath : start.path.IsSpelled := Path.isSpelled_ofString entry
  obtain rfl := create_maxDepth hshallow hdeep
  obtain ⟨-, -, rfl, -⟩ := Context.create_eq_ok hdeep
  refine ⟨fun key => exists_cut_of_missing_key hnormal hpath hle, fun hcase key hkey => ?_⟩
  by_contra hmissing
  obtain ⟨file, k, cut, i, j, hfile, -, hbefore, -, hsum, hpos, -, hexpanded⟩ :=
    exists_cut_of_missing_key hnormal hpath hle hkey hmissing
  rcases hcase with hone | hmany
  · -- with at most one edge the cut is the first file, which is not entered that deep
    obtain rfl : i = 0 := by omega
    cases hbefore
    have hdepth := depth_of_expandedAt hfile hexpanded
    simp only [start] at hdepth
    omega
  · exact not_expandedAt_of_le hnormal hpath hmany hexpanded

/-- Stylesheets that import each other in a row, the first of which also imports the last but one.
-/
def ladderDisk : Disk where
  entries := [(["p"], .folder), (["p", "a.css"], importing ["b.css", "d.css"]),
    (["p", "b.css"], importing ["c.css"]), (["p", "c.css"], importing ["d.css"]),
    (["p", "d.css"], importing ["e.css"]), (["p", "e.css"], importing [])]
  workingFolder := ["p"]

theorem ladder_key : "@/e.css" ∈ Assoc.keys ((Walk.empty.after (pairContext 2) ladderDisk.view
    standardExtractor (Path.ofString "a.css") 0).dependencyGraph (pairContext 2)) := by
  rw [mem_keys_dependencyGraph]
  decide +kernel

theorem ladder_missing : "@/e.css" ∉ Assoc.keys ((Walk.empty.after (pairContext 3) ladderDisk.view
    standardExtractor (Path.ofString "a.css") 0).dependencyGraph (pairContext 3)) := by
  rw [mem_keys_dependencyGraph]
  decide +kernel

/-- On the ladder the limit 3 loses the last stylesheet behind a cut, and the limit 5 loses nothing.
-/
theorem lost_behind_limit_ladder :
    (∃ file cut i j k, (pairContext 3).identifier k = "@/e.css" ∧
      Leads (pairContext 3) ladderDisk.view standardExtractor i file cut ∧
      Leads (pairContext 3) ladderDisk.view standardExtractor j cut k ∧
      (i + j : Nat) ≤ (2 : Int) ∧ 0 < j ∧
      ExpandedAt (pairContext 3) ladderDisk.view standardExtractor
        ⟨Path.ofString "a.css", 0, Walk.empty⟩ cut 3) ∧
    ∀ key ∈ Assoc.keys ((Walk.empty.after (pairContext 2) ladderDisk.view standardExtractor
        (Path.ofString "a.css") 0).dependencyGraph (pairContext 2)),
      key ∈ Assoc.keys ((Walk.empty.after (pairContext 5) ladderDisk.view standardExtractor
        (Path.ofString "a.css") 0).dependencyGraph (pairContext 5)) := by
  have hcut := lost_behind_limit ladderDisk none 2 3 [] (pairContext 2) (pairContext 3)
    standardExtractor "a.css" (by decide) (by decide) (by decide +kernel) (by decide +kernel)
  have hall := lost_behind_limit ladderDisk none 2 5 [] (pairContext 2) (pairContext 5)
    standardExtractor "a.css" (by decide) (by decide) (by decide +kernel) (by decide +kernel)
  have hcount : ((trackedFiles (pairContext 5) ladderDisk).length : Int) ≤ 5 := by decide +kernel
  obtain ⟨file, k, cut, i, j, -, hkey, hbefore, hafter, hsum, hpos, -, hexpanded⟩ :=
    hcut.1 "@/e.css" ladder_key ladder_missing
  exact ⟨⟨file, cut, i, j, k, hkey, hbefore, hafter, hsum, hpos, hexpanded⟩, hall.2 (.inr hcount)⟩

/-- A larger limit may lose a file: on the ladder the walk meets the last but one stylesheet at the
end of the row first, where the limit 3 cuts off what it imports. -/
theorem not_keys_subset_of_le :
    ¬ ∀ (disk : Disk) (root : Option String) (m n : Int) (exclude : List String)
      (shallow deep : Context) (entry : String), disk.workingPath.IsNormal → m ≤ n →
      Context.create disk (root.map Path.ofString) m exclude = .ok shallow →
      Context.create disk (root.map Path.ofString) n exclude = .ok deep →
      ∀ key ∈ Assoc.keys ((Walk.empty.after shallow disk.view standardExtractor
          (Path.ofString entry) 0).dependencyGraph shallow),
        key ∈ Assoc.keys ((Walk.empty.after deep disk.view standardExtractor
          (Path.ofString entry) 0).dependencyGraph deep) := by
  intro hall
  exact ladder_missing (hall ladderDisk none 2 3 [] (pairContext 2) (pairContext 3) "a.css"
    (by decide) (by decide) (by decide +kernel) (by decide +kernel) _ ladder_key)

end ImportAtlas.Walk
