import ImportAtlas.Proofs.Project.Inside
import ImportAtlas.Proofs.Walk.Expansion
import ImportAtlas.Proofs.Walk.Lists

set_option autoImplicit false

/-!
# The boundary of a walk

A walk is sound when the files it visited are the keys of its graph and every
path in the graph is inside the project.  Entering a file, listing an edge and
recording a problem keep a walk sound, so every run of calls and resets does,
however the disk changes between them.
-/

namespace ImportAtlas

namespace Walk

open Project

variable {context : Context} {view : FileView} {extractor : Extractor}

/-- What an edge of a file inside leads to is inside. -/
theorem inside_of_mem_adjacency (hcontext : context.IsNormal) {file target : Path}
    (hfile : Inside context file) (h : target ∈ adjacency context view extractor file) :
    Inside context target :=
  inside_iff.mpr ⟨isNormal_of_mem_adjacency hcontext.sourceRoot hfile.normal h,
    ignores_of_mem_adjacency h⟩

/-- The file located behind a path that was read from a text is inside. -/
theorem inside_of_locate (hcontext : context.IsNormal) {path file : Path} (hpath : path.IsSpelled)
    (hlocate : Reference.locate view inferredSuffixes (context.projectRoot ++ path).normalize =
      .ok (some file))
    (hignored : context.ignores file = false) : Inside context file :=
  inside_iff.mpr ⟨Reference.isNormal_of_locate isSuffix_of_inferred
    (hcontext.projectRoot.normalize_append hpath) hlocate, hignored⟩

/-- The files visited are the keys, each once, and all paths are inside the project. -/
structure Sound (context : Context) (w : Walk) : Prop where
  keys : Assoc.keys w.graph = w.visited.reverse
  nodup : w.visited.Nodup
  inside : ∀ entry ∈ w.graph, Inside context entry.1 ∧ ∀ target ∈ entry.2, Inside context target

namespace Sound

variable {w : Walk} {file target : Path}

theorem empty : Sound context Walk.empty :=
  ⟨rfl, List.nodup_nil, fun _ h => nomatch h⟩

theorem mem_keys_iff (h : Sound context w) : file ∈ Assoc.keys w.graph ↔ file ∈ w.visited := by
  rw [h.keys, List.mem_reverse]

theorem nodup_keys (h : Sound context w) : (Assoc.keys w.graph).Nodup := by
  rw [h.keys]
  exact List.nodup_reverse.mpr h.nodup

theorem listed_of_fresh (h : Sound context w) (hfresh : file ∉ w.visited) : w.listed file = [] := by
  rw [listed, Assoc.get?_eq_none_iff.mpr (fun hkey => hfresh (h.mem_keys_iff.mp hkey)),
    Option.getD_none]

theorem inside_of_visited (h : Sound context w) (hfile : file ∈ w.visited) :
    Inside context file := by
  obtain ⟨entry, hentry, rfl⟩ := List.mem_map.mp (h.mem_keys_iff.mpr hfile)
  exact (h.inside entry hentry).1

theorem inside_of_listed (h : Sound context w) (htarget : target ∈ w.listed file) :
    Inside context target := by
  unfold listed at htarget
  cases hlist : Assoc.get? file w.graph with
  | none => simp [hlist] at htarget
  | some edges =>
    rw [hlist] at htarget
    exact (h.inside _ (Assoc.mem_of_get? hlist)).2 target htarget

theorem enter (h : Sound context w) (hfresh : file ∉ w.visited) (hfile : Inside context file) :
    Sound context (w.enter file) where
  keys := by
    have hkey : file ∉ Assoc.keys w.graph := fun hkey => hfresh (h.mem_keys_iff.mp hkey)
    rw [Walk.enter, Assoc.keys_put, if_neg hkey, h.keys, List.reverse_cons]
  nodup := List.nodup_cons.mpr ⟨hfresh, h.nodup⟩
  inside entry hentry := by
    rcases Assoc.mem_of_mem_put hentry with rfl | hentry
    · exact ⟨hfile, fun target ht => h.inside_of_listed ht⟩
    · exact h.inside entry hentry

theorem link (h : Sound context w) (hfile : file ∈ w.visited) (htarget : Inside context target) :
    Sound context (w.link file target) where
  keys := by
    rw [Walk.link, Assoc.keys_put, if_pos (h.mem_keys_iff.mpr hfile)]
    exact h.keys
  nodup := h.nodup
  inside entry hentry := by
    rcases Assoc.mem_of_mem_put hentry with rfl | hentry
    · refine ⟨h.inside_of_visited hfile, fun t ht => ?_⟩
      rcases List.mem_append.mp ht with ht | ht
      · exact h.inside_of_listed ht
      · rwa [List.mem_singleton.mp ht]
    · exact h.inside entry hentry

theorem record (h : Sound context w) (problem : Problem) :
    Sound context (w.record context file problem) :=
  ⟨h.keys, h.nodup, h.inside⟩

/-- Expanding a file keeps a walk sound, at every edge and at the end, if following an edge does. -/
theorem expanding {onward : Onward} (hcontext : context.IsNormal)
    (hgrows : ∀ t v v', onward t v = .ok v' → Grows context view extractor v v')
    (honward : ∀ t v v', t.IsNormal → onward t v = .ok v' → Sound context v → Sound context v')
    (h : Sound context w) (hfresh : file ∉ w.visited) (hfile : Inside context file) :
    (∀ t u, Takes context view extractor onward file w t u →
      Sound context u ∧ file ∈ u.visited) ∧
    Sound context (expand context view extractor onward file w) := by
  have hlink : ∀ {t u}, Takes context view extractor onward file w t u →
      Sound context u ∧ file ∈ u.visited → Sound context (u.link file t) :=
    fun ht hu => hu.1.link hu.2 (inside_of_mem_adjacency hcontext hfile ht.mem_adjacency)
  refine (expand_induction (R := fun u => Sound context u ∧ file ∈ u.visited) ?_ ?_ ?_ ?_).imp_right
    And.left
  · exact ⟨h.enter hfresh hfile, List.mem_cons_self⟩
  · exact fun u problem hu => ⟨hu.1.record problem, hu.2⟩
  · intro t u v ht hu hv
    have hnormal := (inside_of_mem_adjacency hcontext hfile ht.mem_adjacency).normal
    exact ⟨honward t _ v hnormal hv (hlink ht hu), (hgrows t _ v hv).visited.subset hu.2⟩
  · exact fun t u _ problem ht hu _ => ⟨(hlink ht hu).record problem, hu.2⟩

theorem follow {levels : Nat} {path : Path} {w' : Walk} (hcontext : context.IsNormal)
    (hpath : path.IsSpelled) (hfollow : follow context view extractor levels path w = .ok w')
    (h : Sound context w) : Sound context w' := by
  induction levels generalizing path w w' with
  | zero => cases hfollow; exact h
  | succ levels ih =>
    rcases follow_succ_cases hfollow with rfl | ⟨file, -, hlocate, hfresh, hignored, rfl⟩
    · exact h
    · exact (h.expanding hcontext (fun _ _ _ => grows_follow)
        (fun t v v' ht hv hsound => ih ht.isSpelled hv hsound) hfresh
        (inside_of_locate hcontext hpath hlocate hignored)).2

theorem after (hcontext : context.IsNormal) {path : Path} (hpath : path.IsSpelled) (depth : Int)
    (h : Sound context w) : Sound context (w.after context view extractor path depth) := by
  unfold Walk.after
  split
  · rename_i w' htrack
    exact h.follow hcontext hpath htrack
  · exact h

end Sound

/-! ## Runs -/

/-- What happens to a walk and to the disk it looks at. -/
inductive Action where
  | track (path : String) (depth : Int)
  | reset
  /-- files are written or removed, or the disk changes in another way -/
  | change (disk : Disk)

/-- A walk and the disk it looks at. -/
structure Session where
  disk : Disk
  walk : Walk

/-- The session after an action. -/
def Session.step (context : Context) (extractor : Extractor) (s : Session) : Action → Session
  | .track path depth =>
    { s with walk := s.walk.after context s.disk.view extractor (Path.ofString path) depth }
  | .reset => { s with walk := Walk.empty }
  | .change disk => { s with disk := disk }

/-- The session after actions, one after the other. -/
def Session.run (context : Context) (extractor : Extractor) (s : Session) (actions : List Action) :
    Session :=
  actions.foldl (Session.step context extractor) s

theorem Sound.step {s : Session} (hcontext : context.IsNormal) (h : Sound context s.walk)
    (action : Action) : Sound context (s.step context extractor action).walk := by
  cases action with
  | track path depth => exact h.after hcontext (Path.isSpelled_ofString path) depth
  | reset => exact .empty
  | change disk => exact h

theorem Sound.run {s : Session} (hcontext : context.IsNormal) (h : Sound context s.walk)
    (actions : List Action) : Sound context (s.run context extractor actions).walk := by
  induction actions generalizing s with
  | nil => exact h
  | cons action actions ih => exact ih (h.step hcontext action)

/-- Until a reset, a list in a sound walk stays as it is. -/
theorem Sound.get?_run {s : Session} (hcontext : context.IsNormal) (h : Sound context s.walk)
    {actions : List Action} (hreset : .reset ∉ actions) {file : Path} {edges : List Path}
    (hlist : Assoc.get? file s.walk.graph = some edges) :
    Assoc.get? file (s.run context extractor actions).walk.graph = some edges := by
  induction actions generalizing s with
  | nil => exact hlist
  | cons action actions ih =>
    refine ih (h.step hcontext action) (fun hmem => hreset (List.mem_cons_of_mem _ hmem)) ?_
    cases action with
    | track path depth =>
      have hvisited := h.mem_keys_iff.mp (Assoc.mem_keys_of_get? hlist)
      exact ((grows_after _ _ _).kept file hvisited).trans hlist
    | reset => exact absurd List.mem_cons_self hreset
    | change disk => exact hlist

/-- **The walk stays inside the project.**  On a session that starts with nothing entered, and after
any actions, the files visited are the keys of the graph, and every file and every dependency is
inside the project; and from there on a list stays as it is until the next reset. -/
theorem run_inside (disk : Disk) (root : Option String) (maxDepth : Int) (exclude : List String)
    (context : Context) (extractor : Extractor) (actions : List Action)
    (hdisk : disk.workingPath.IsNormal)
    (hcontext : Context.create disk (root.map Path.ofString) maxDepth exclude = .ok context) :
    let s := Session.run context extractor ⟨disk, Walk.empty⟩ actions
    (∀ file, file ∈ s.walk.visited ↔ file ∈ Assoc.keys s.walk.graph) ∧
    (∀ entry ∈ s.walk.graph,
      Inside context entry.1 ∧ ∀ target ∈ entry.2, Inside context target) ∧
    (∀ more : List Action, .reset ∉ more → ∀ file edges,
      Assoc.get? file s.walk.graph = some edges →
      Assoc.get? file (s.run context extractor more).walk.graph = some edges) := by
  have hnormal := isNormal_of_create hdisk hcontext
  have hsound : Sound context (Session.run context extractor ⟨disk, Walk.empty⟩ actions).walk :=
    Sound.run hnormal .empty actions
  exact ⟨fun file => hsound.mem_keys_iff.symm, hsound.inside,
    fun more hreset file edges hlist => hsound.get?_run hnormal hreset hlist⟩

/-- The pair is walked from one file, loses its stylesheet, is walked from outside, and is walked
anew from the other file. -/
def pairActions : List Action :=
  [.track "a" 1, .change ⟨pairDisk.entries.take 3, [], []⟩, .track "../q/../p/a" 0, .reset,
    .track "/p/b" 3]

theorem run_inside_pair :
    let s := Session.run (pairContext 3) pairExtractor ⟨pairDisk, Walk.empty⟩ pairActions
    (∀ file, file ∈ s.walk.visited ↔ file ∈ Assoc.keys s.walk.graph) ∧
      (∀ entry ∈ s.walk.graph,
        Inside (pairContext 3) entry.1 ∧ ∀ target ∈ entry.2, Inside (pairContext 3) target) ∧
      Assoc.get? (pairFile "b.js") (s.run (pairContext 3) pairExtractor
        [.change pairDisk, .track "b.js" 0]).walk.graph =
          some [pairFile "b.js", pairFile "a.js"] := by
  have h := run_inside pairDisk none 3 [] (pairContext 3) pairExtractor pairActions (by decide)
    (by decide +kernel)
  have hlist : Assoc.get? (pairFile "b.js") (Session.run (pairContext 3) pairExtractor
      ⟨pairDisk, Walk.empty⟩ pairActions).walk.graph = some [pairFile "b.js", pairFile "a.js"] := by
    decide +kernel
  exact ⟨h.1, h.2.1, h.2.2 [.change pairDisk, .track "b.js" 0] (by simp) _ _ hlist⟩

/-- A project that lies in a dependency folder itself. -/
def nestedDisk : Disk where
  entries := [(["node_modules"], .folder), (["node_modules", "q"], .folder),
    (["node_modules", "q", "a.js"], .file .empty)]
  workingFolder := ["node_modules", "q"]

/-- Only the parts below the project root are looked at, so a path in the graph may lie in a
dependency folder as a whole. -/
theorem not_free_of_dependencyFolders :
    ¬ ∀ (disk : Disk) (root : Option String) (maxDepth : Int) (exclude : List String)
      (context : Context) (extractor : Extractor) (actions : List Action),
      disk.workingPath.IsNormal →
      Context.create disk (root.map Path.ofString) maxDepth exclude = .ok context →
      ∀ entry ∈ (Session.run context extractor ⟨disk, Walk.empty⟩ actions).walk.graph,
        ∀ folder ∈ dependencyFolders, folder ∉ entry.1.parts := by
  intro hall
  have hgraph := hall nestedDisk none 3 []
    ⟨⟨.root, ["node_modules", "q"]⟩, ⟨.root, ["node_modules", "q"]⟩, 3, []⟩ (fun _ _ => .ok [])
    [.track "a" 0] (by decide) (by decide +kernel)
  have hentry := hgraph (⟨.root, ["node_modules", "q", "a.js"]⟩, []) (by decide +kernel)
  exact hentry "node_modules" (by decide) (by decide)

end Walk

end ImportAtlas
