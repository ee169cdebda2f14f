import ImportAtlas.Proofs.Walk.Call
import Mathlib.Data.List.Perm.Subperm

set_option autoImplicit false

/-!
# What a walk reaches

The files that a call adds are led to, within the limit, from the file it
enters; and every file it adds has all its dependencies among the files visited,
unless it was expanded at the greatest depth.  The calls that led to an expansion
entered different files, so no depth reaches the number of the project's files:
with a limit as large as that the walk enters exactly the files that can be
reached.
-/

namespace ImportAtlas.Walk

open Project

variable {context : Context} {view : FileView} {extractor : Extractor}

/-- `target` is a dependency of `file`. -/
def Edge (context : Context) (view : FileView) (extractor : Extractor)
    (file target : Path) : Prop :=
  target ∈ adjacency context view extractor file

/-- A chain of `n` edges leads from one file to another. -/
inductive Leads (context : Context) (view : FileView) (extractor : Extractor) :
    Nat → Path → Path → Prop where
  | here (file : Path) : Leads context view extractor 0 file file
  | edge {n : Nat} {file next target : Path} (hedge : Edge context view extractor file next)
      (hrest : Leads context view extractor n next target) :
      Leads context view extractor (n + 1) file target

theorem Leads.reflTransGen {n : Nat} {file target : Path}
    (h : Leads context view extractor n file target) :
    Relation.ReflTransGen (Edge context view extractor) file target := by
  induction h with
  | here file => exact .refl
  | edge hedge _ ih => exact .head hedge ih

/-! ## Soundness -/

/-- What a call visits was visited before or is led to from the file it enters, by no more edges
than there are levels left. -/
theorem leads_of_track (hcontext : context.IsNormal) :
    ∀ (depth : Int) {path : Path} {w w' : Walk}, path.IsSpelled →
      w.track context view extractor path depth = .ok w' →
      ∀ k ∈ w'.visited, k ∈ w.visited ∨ ∃ file n, Admits context view path file ∧
        depth + (n : Nat) ≤ context.maxDepth ∧ Leads context view extractor n file k := by
  refine depth_induction context.maxDepth fun depth ih path w w' hpath htrack => ?_
  rcases track_cases htrack with rfl | ⟨file, henters, rfl⟩
  · exact fun k hk => .inl hk
  have hsettled := henters.admits.settled hcontext hpath
  suffices h : ∀ k ∈ (expand context view extractor (onwardFrom context view extractor depth)
      file w).visited, k ∈ w.visited ∨
        ∃ n, depth + (n : Nat) ≤ context.maxDepth ∧ Leads context view extractor n file k from
    fun k hk => (h k hk).imp_right fun ⟨n, hn, hleads⟩ => ⟨file, n, henters.admits, hn, hleads⟩
  refine (expand_induction (R := fun u => ∀ k ∈ u.visited, k ∈ w.visited ∨
    ∃ n, depth + (n : Nat) ≤ context.maxDepth ∧ Leads context view extractor n file k)
    ?_ (fun _ _ hu => hu) ?_ (fun _ _ _ _ _ hu _ => hu)).2
  · intro k hk
    rcases List.mem_cons.mp hk with rfl | hk
    · exact .inr ⟨0, by simpa using henters.depth_le, .here k⟩
    · exact .inl hk
  · intro target u v ht hu hv k hk
    have htarget := settled_of_mem_adjacency hcontext hsettled.inside ht.mem_adjacency
    rcases ih henters.depth_le htarget.inside.normal.isSpelled hv k hk with
      hk | ⟨other, n, hother, hn, hleads⟩
    · exact hu k hk
    · -- the call for the edge enters the target itself
      cases htarget.admits.unique hother
      exact .inr ⟨n + 1, by push_cast; omega, .edge ht.mem_adjacency hleads⟩

/-! ## Closure -/

/-- A call made from `start` enters `file`, and the walk `u` has visited all dependencies of the
file unless that call was at the greatest depth. -/
def EnteredFrom (context : Context) (view : FileView) (extractor : Extractor) (start : Call)
    (u : Walk) (file : Path) : Prop :=
  ∃ c, Relation.ReflTransGen (Call.Makes context view extractor) start c ∧
    c.Enters context view file ∧
    (c.depth < context.maxDepth → ∀ target ∈ adjacency context view extractor file,
      target ∈ u.visited)

theorem EnteredFrom.mono {start : Call} {u v : Walk} {file : Path}
    (h : EnteredFrom context view extractor start u file) (hsub : u.visited ⊆ v.visited) :
    EnteredFrom context view extractor start v file := by
  obtain ⟨c, hcalls, henters, hall⟩ := h
  exact ⟨c, hcalls, henters, fun hlt target ht => hsub (hall hlt target ht)⟩

theorem EnteredFrom.head {start next : Call} {u : Walk} {file : Path}
    (hmakes : Call.Makes context view extractor start next)
    (h : EnteredFrom context view extractor next u file) :
    EnteredFrom context view extractor start u file := by
  obtain ⟨c, hcalls, hrest⟩ := h
  exact ⟨c, .head hmakes hcalls, hrest⟩

/-- What holds while a call expands `file`: what was visited since is the file itself or was
entered by calls made on the way, and within the limit the edges listed so far are visited. -/
structure Closing (context : Context) (view : FileView) (extractor : Extractor) (start : Call)
    (file : Path) (u : Walk) : Prop where
  entered : ∀ k ∈ u.visited, k ∈ start.walk.visited ∨ k = file ∨
    EnteredFrom context view extractor start u k
  followed : start.depth < context.maxDepth → ∀ target ∈ u.listed file, target ∈ u.visited

namespace Closing

variable {start : Call} {file target : Path} {u v : Walk}

theorem enter (hlisted : start.walk.listed file = []) :
    Closing context view extractor start file (start.walk.enter file) where
  entered k hk := by
    rcases List.mem_cons.mp hk with rfl | hk
    · exact .inr (.inl rfl)
    · exact .inl hk
  followed _ t ht := by
    rw [listed_enter, hlisted] at ht
    cases ht

theorem record (h : Closing context view extractor start file u) (problem : Problem) :
    Closing context view extractor start file (u.record context file problem) :=
  ⟨h.entered, h.followed⟩

/-- The call for an edge keeps what holds, if what it adds is entered by calls made from it. -/
theorem edge (h : Closing context view extractor start file u) (hfile : file ∈ u.visited)
    (hmakes : Call.Makes context view extractor start ⟨target, start.depth + 1, u.link file target⟩)
    (hgrows : Grows context view extractor (u.link file target) v)
    (hentered : ∀ k ∈ v.visited, k ∈ (u.link file target).visited ∨
      EnteredFrom context view extractor ⟨target, start.depth + 1, u.link file target⟩ v k)
    (htarget : start.depth < context.maxDepth → target ∈ v.visited) :
    Closing context view extractor start file v where
  entered k hk := by
    rcases hentered k hk with hk | hk
    · exact (h.entered k hk).imp_right (Or.imp_right fun hold => hold.mono hgrows.visited.subset)
    · exact .inr (.inr (hk.head hmakes))
  followed hlt t ht := by
    rw [listed, hgrows.kept file hfile, ← listed, listed_link] at ht
    rcases List.mem_append.mp ht with ht | ht
    · exact hgrows.visited.subset (h.followed hlt t ht)
    · rw [List.mem_singleton.mp ht]
      exact htarget hlt

end Closing

/-- What a call visits was visited before, or is entered by a call made from it. -/
theorem entered_of_track (hcontext : context.IsNormal) :
    ∀ (depth : Int) {path : Path} {w w' : Walk}, path.IsSpelled → Sound context w →
      w.track context view extractor path depth = .ok w' →
      ∀ k ∈ w'.visited, k ∈ w.visited ∨
        EnteredFrom context view extractor ⟨path, depth, w⟩ w' k := by
  refine depth_induction context.maxDepth fun depth ih path w w' hpath hsound htrack => ?_
  rcases track_cases htrack with rfl | ⟨file, henters, rfl⟩
  · exact fun k hk => .inl hk
  have hsettled := henters.admits.settled hcontext hpath
  have hlisted := hsound.listed_of_fresh henters.fresh
  have hclosing : Closing context view extractor ⟨path, depth, w⟩ file
      (expand context view extractor (onwardFrom context view extractor depth) file w) := by
    refine (expand_induction (.enter hlisted) (fun _ problem hu => hu.record problem) ?_ ?_).2
    · intro target u v ht hu hv
      obtain ⟨hsoundu, hfile⟩ := henters.sound_of_takes hcontext hpath hsound ht
      have htarget := settled_of_mem_adjacency hcontext hsettled.inside ht.mem_adjacency
      obtain ⟨_, htracked, hvisited⟩ := track_settled htarget (depth + 1) (u.link file target)
      cases htracked.symm.trans hv
      exact hu.edge hfile (.edge henters ht) (grows_onwardFrom depth target _ v hv)
        (ih henters.depth_le htarget.inside.normal.isSpelled (hsoundu.link hfile htarget.inside) hv)
        hvisited
    · -- the call for an edge does not fail
      intro target u fault problem ht _ hfault
      have htarget := settled_of_mem_adjacency hcontext hsettled.inside ht.mem_adjacency
      obtain ⟨_, htracked, -⟩ := track_settled htarget (depth + 1) (u.link file target)
      cases htracked.symm.trans hfault
  obtain ⟨edges, hdone, hedges⟩ := expanding_expand (grows_onwardFrom depth) henters.fresh
  intro k hk
  rcases hclosing.entered k hk with hk | rfl | hk
  · exact .inl hk
  · refine .inr ⟨_, .refl, henters, fun hlt target ht => hclosing.followed hlt target ?_⟩
    rw [hdone.listed_eq, hlisted, hedges hlisted]
    exact ht
  · exact .inr hk

/-! ## Counting the calls -/

theorem Leads.settled (hcontext : context.IsNormal) {n : Nat} {file target : Path}
    (hfile : Settled context view file) (h : Leads context view extractor n file target) :
    Settled context view target := by
  induction h with
  | here file => exact hfile
  | edge hedge _ ih => exact ih (settled_of_mem_adjacency hcontext hfile.inside hedge)

/-- What holds of a call when every call before it has entered a file of its own: as many files
have been visited as the call is deep. -/
structure Call.Fits (context : Context) (view : FileView) (c : Call) : Prop where
  spelled : c.path.IsSpelled
  sound : Sound context c.walk
  settled : ∀ f ∈ c.walk.visited, Settled context view f
  depth_le : c.depth ≤ c.walk.visited.length

/-- Expanding a settled file visits settled files only. -/
theorem Takes.settled (hcontext : context.IsNormal) {depth : Int} {file target : Path} {w u : Walk}
    (hfile : Settled context view file) (hw : ∀ f ∈ w.visited, Settled context view f)
    (h : Takes context view extractor (onwardFrom context view extractor depth) file w target u) :
    ∀ f ∈ u.visited, Settled context view f := by
  refine (expand_induction (R := fun u => ∀ f ∈ u.visited, Settled context view f) ?_
    (fun _ _ hu => hu) ?_ (fun _ _ _ _ _ hu _ => hu)).1 target u h
  · intro f hf
    rcases List.mem_cons.mp hf with rfl | hf
    · exact hfile
    · exact hw f hf
  · intro t u v ht hu hv f hf
    have htarget := settled_of_mem_adjacency hcontext hfile.inside ht.mem_adjacency
    have hspelled := htarget.inside.normal.isSpelled
    rcases leads_of_track hcontext (depth + 1) hspelled hv f hf with
      hf | ⟨other, n, hother, -, hleads⟩
    · exact hu f hf
    · exact hleads.settled hcontext (hother.settled hcontext hspelled)

theorem Call.Fits.makes (hcontext : context.IsNormal) {c next : Call} (h : c.Fits context view)
    (hmakes : Call.Makes context view extractor c next) : next.Fits context view := by
  cases hmakes with
  | @edge file target u henters htakes =>
    have hfile := henters.admits.settled hcontext h.spelled
    have htarget := settled_of_mem_adjacency hcontext hfile.inside htakes.mem_adjacency
    obtain ⟨hsound, hvisited⟩ := henters.sound_of_takes hcontext h.spelled h.sound htakes
    have hsettled := htakes.settled hcontext hfile h.settled
    have hlength := (htakes.visited (grows_onwardFrom c.depth)).length_le
    have hdepth := h.depth_le
    refine ⟨htarget.inside.normal.isSpelled, hsound.link hvisited htarget.inside, hsettled, ?_⟩
    rw [List.length_cons] at hlength
    simp only [visited_link]
    omega

theorem Call.Fits.calls (hcontext : context.IsNormal) {c last : Call} (h : c.Fits context view)
    (hcalls : Relation.ReflTransGen (Call.Makes context view extractor) c last) :
    last.Fits context view := by
  induction hcalls with
  | refl => exact h
  | tail _ hmakes ih => exact ih.makes hcontext hmakes

/-- A call that enters a file is less deep than the project has files. -/
theorem Call.Fits.depth_lt (hcontext : context.IsNormal) {disk : Disk} {c : Call} {file : Path}
    (h : c.Fits context disk.view) (henters : c.Enters context disk.view file) :
    c.depth < (trackedFiles context disk).length := by
  have hsettled : ∀ f ∈ file :: c.walk.visited, Settled context disk.view f :=
    List.forall_mem_cons.mpr ⟨henters.admits.settled hcontext h.spelled, h.settled⟩
  have hsubset : file :: c.walk.visited ⊆ trackedFiles context disk :=
    fun f hf => (hsettled f hf).mem_trackedFiles
  have hnodup : (file :: c.walk.visited).Nodup := List.nodup_cons.mpr ⟨henters.fresh, h.sound.nodup⟩
  have hlength := (List.subperm_of_subset hnodup hsubset).length_le
  have hdepth := h.depth_le
  rw [List.length_cons] at hlength
  omega

theorem fits_start {path : Path} (hpath : path.IsSpelled) :
    Call.Fits context view ⟨path, 0, Walk.empty⟩ :=
  ⟨hpath, .empty, fun _ h => (nomatch h), Int.le_refl 0⟩

/-! ## A walk from an entry -/

variable (context view extractor) in
/-- When the entry leads to a file within the limit, the call enters it; else nothing is entered. -/
theorem after_empty_cases (path : Path) :
    (∃ file, Call.Enters context view ⟨path, 0, Walk.empty⟩ file ∧
      Walk.empty.track context view extractor path 0 =
        .ok (Walk.empty.after context view extractor path 0)) ∨
      Walk.empty.after context view extractor path 0 = Walk.empty := by
  unfold after
  cases htrack : Walk.empty.track context view extractor path 0 with
  | error fault => exact .inr rfl
  | ok w =>
    rcases track_cases htrack with rfl | ⟨file, henters, -⟩
    · exact .inr rfl
    · exact .inl ⟨file, henters, rfl⟩

theorem graph_of_not_admits {path : Path} (h : ¬ ∃ file, Admits context view path file) :
    (Walk.empty.after context view extractor path 0).graph = [] := by
  rcases after_empty_cases context view extractor path with ⟨file, henters, -⟩ | hempty
  · exact absurd ⟨file, henters.admits⟩ h
  · rw [hempty]
    rfl

theorem listed_after_empty {path k : Path}
    (hk : k ∈ Assoc.keys (Walk.empty.after context view extractor path 0).graph) :
    (Walk.empty.after context view extractor path 0).listed k =
      adjacency context view extractor k := by
  have hnew : k ∉ Assoc.keys Walk.empty.graph := List.not_mem_nil
  rw [listed, (get?_after_of_new hnew hk).2, Option.getD_some]

theorem leads_of_mem_keys (hcontext : context.IsNormal) {path file k : Path}
    (hpath : path.IsSpelled) (hfile : Admits context view path file)
    (hk : k ∈ Assoc.keys (Walk.empty.after context view extractor path 0).graph) :
    ∃ n : Nat, n ≤ context.maxDepth ∧ Leads context view extractor n file k := by
  have hvisited := (Sound.empty.after hcontext hpath 0).mem_keys_iff.mp hk
  rcases after_empty_cases context view extractor path with ⟨_, -, htrack⟩ | hempty
  · rcases leads_of_track hcontext 0 hpath htrack k hvisited with hold | ⟨other, n, hother, hn, h⟩
    · cases hold
    · cases hfile.unique hother
      exact ⟨n, by omega, h⟩
  · rw [hempty] at hvisited
    cases hvisited

theorem entered_of_mem_keys (hcontext : context.IsNormal) {path k : Path} (hpath : path.IsSpelled)
    (hk : k ∈ Assoc.keys (Walk.empty.after context view extractor path 0).graph) :
    EnteredFrom context view extractor ⟨path, 0, Walk.empty⟩
      (Walk.empty.after context view extractor path 0) k := by
  have hvisited := (Sound.empty.after hcontext hpath 0).mem_keys_iff.mp hk
  rcases after_empty_cases context view extractor path with ⟨_, -, htrack⟩ | hempty
  · exact (entered_of_track hcontext 0 hpath .empty htrack k hvisited).resolve_left
      List.not_mem_nil
  · rw [hempty] at hvisited
    cases hvisited

/-- A file with a dependency that was not entered was expanded at the greatest depth. -/
theorem expandedAt_of_missing (hcontext : context.IsNormal) {path k target : Path}
    (hpath : path.IsSpelled)
    (hk : k ∈ Assoc.keys (Walk.empty.after context view extractor path 0).graph)
    (hedge : Edge context view extractor k target)
    (hmissing : target ∉ Assoc.keys (Walk.empty.after context view extractor path 0).graph) :
    ExpandedAt context view extractor ⟨path, 0, Walk.empty⟩ k context.maxDepth := by
  obtain ⟨c, hcalls, henters, hall⟩ := entered_of_mem_keys hcontext hpath hk
  have hdeep : ¬ c.depth < context.maxDepth := fun hlt =>
    hmissing ((Sound.empty.after hcontext hpath 0).mem_keys_iff.mpr (hall hlt target hedge))
  exact ⟨c, hcalls, henters, Int.le_antisymm henters.depth_le (Int.not_lt.mp hdeep)⟩

/-- With a limit as large as the number of files, no file is expanded at the greatest depth. -/
theorem not_expandedAt_of_le (hcontext : context.IsNormal) {disk : Disk} {path k : Path}
    (hpath : path.IsSpelled) (hlimit : (trackedFiles context disk).length ≤ context.maxDepth) :
    ¬ ExpandedAt context disk.view extractor ⟨path, 0, Walk.empty⟩ k context.maxDepth := by
  rintro ⟨c, hcalls, henters, hdepth⟩
  have hlt := ((fits_start hpath).calls hcontext hcalls).depth_lt hcontext henters
  omega

/-- The file that the entry leads to is entered, unless the limit is negative. -/
theorem mem_keys_of_admits (hcontext : context.IsNormal) {path file : Path}
    (hpath : path.IsSpelled) (hfile : Admits context view path file)
    (hlimit : 0 ≤ context.maxDepth) :
    file ∈ Assoc.keys (Walk.empty.after context view extractor path 0).graph := by
  have henters : Call.Enters context view ⟨path, 0, Walk.empty⟩ file :=
    ⟨hlimit, hfile, List.not_mem_nil⟩
  rw [(Sound.empty.after hcontext hpath 0).mem_keys_iff, after, track_of_enters henters]
  obtain ⟨_, hexpanding, -⟩ := expanding_expand (grows_onwardFrom 0) henters.fresh
  exact hexpanding.mem_visited

theorem mem_keys_iff_reachable (hcontext : context.IsNormal) {disk : Disk} {path file k : Path}
    (hpath : path.IsSpelled) (hfile : Admits context disk.view path file)
    (hlimit : (trackedFiles context disk).length ≤ context.maxDepth) :
    k ∈ Assoc.keys (Walk.empty.after context disk.view extractor path 0).graph ↔
      Relation.ReflTransGen (Edge context disk.view extractor) file k := by
  constructor
  · intro hk
    obtain ⟨n, -, hleads⟩ := leads_of_mem_keys hcontext hpath hfile hk
    exact hleads.reflTransGen
  · intro hreach
    induction hreach with
    | refl => exact mem_keys_of_admits hcontext hpath hfile (by omega)
    | tail _ hedge ih =>
      by_contra hmissing
      exact not_expandedAt_of_le hcontext hpath hlimit
        (expandedAt_of_missing hcontext hpath ih hedge hmissing)

/-- **A walk reaches what the limit allows.**  The edges of a walk are the dependencies it lists.
When the entry leads to no file, nothing is entered; else each file entered is led to by at most
`maxDepth` edges, and with a limit as large as the number of the project's files the files entered
are those that can be reached.  A dependency that was not entered is listed only by files that were
expanded at the greatest depth. -/
theorem track_reaches (disk : Disk) (root : Option String) (maxDepth : Int) (exclude : List String)
    (context : Context) (extractor : Extractor) (entry : String)
    (hdisk : disk.workingPath.IsNormal)
    (hcontext : Context.create disk (root.map Path.ofString) maxDepth exclude = .ok context) :
    let start : Call := ⟨Path.ofString entry, 0, Walk.empty⟩
    let w := Walk.empty.after context disk.view extractor start.path start.depth
    (∀ k ∈ Assoc.keys w.graph, ∀ target,
      target ∈ w.listed k ↔ Edge context disk.view extractor k target) ∧
    ((¬ ∃ file, Admits context disk.view start.path file) → w.graph = []) ∧
    (∀ file, Admits context disk.view start.path file →
      (∀ k ∈ Assoc.keys w.graph,
        ∃ n : Nat, n ≤ maxDepth ∧ Leads context disk.view extractor n file k) ∧
      ((trackedFiles context disk).length ≤ maxDepth → ∀ k, k ∈ Assoc.keys w.graph ↔
        Relation.ReflTransGen (Edge context disk.view extractor) file k)) ∧
    (∀ k ∈ Assoc.keys w.graph, ∀ target ∈ w.listed k, target ∉ Assoc.keys w.graph →
      ExpandedAt context disk.view extractor start k maxDepth) := by
  have hnormal := isNormal_of_create hdisk hcontext
  have hpath := Path.isSpelled_ofString entry
  obtain ⟨-, -, rfl, -⟩ := Context.create_eq_ok hcontext
  refine ⟨fun k hk target => ?_, graph_of_not_admits, fun file hfile => ⟨fun k hk => ?_,
    fun hlimit k => ?_⟩, fun k hk target ht hmissing => ?_⟩
  · rw [listed_after_empty hk]
    rfl
  · exact leads_of_mem_keys hnormal hpath hfile hk
  · exact mem_keys_iff_reachable hnormal hpath hfile hlimit
  · rw [listed_after_empty hk] at ht
    exact expandedAt_of_missing hnormal hpath hk ht hmissing

/-- From one file of the pair all three files are reached, and with no level to go the other file
is listed by a file at the greatest depth. -/
theorem track_reaches_pair :
    (∀ k, k ∈ Assoc.keys (Walk.empty.after (pairContext 3) pairDisk.view pairExtractor
        (Path.ofString "a") 0).graph ↔
      Relation.ReflTransGen (Edge (pairContext 3) pairDisk.view pairExtractor)
        (pairFile "a.js") k) ∧
    ExpandedAt (pairContext 0) pairDisk.view pairExtractor ⟨Path.ofString "a", 0, Walk.empty⟩
      (pairFile "a.js") 0 := by
  have hdeep := track_reaches pairDisk none 3 [] (pairContext 3) pairExtractor "a" (by decide)
    (by decide +kernel)
  have hflat := track_reaches pairDisk none 0 [] (pairContext 0) pairExtractor "a" (by decide)
    (by decide +kernel)
  have hfile : Admits (pairContext 3) pairDisk.view (Path.ofString "a") (pairFile "a.js") :=
    ⟨by decide +kernel, by decide +kernel, by decide +kernel⟩
  have hcount : ((trackedFiles (pairContext 3) pairDisk).length : Int) ≤ 3 := by decide +kernel
  have hkey : pairFile "a.js" ∈ Assoc.keys (Walk.empty.after (pairContext 0) pairDisk.view
      pairExtractor (Path.ofString "a") 0).graph := by decide +kernel
  have hlisted : pairFile "b.js" ∈ (Walk.empty.after (pairContext 0) pairDisk.view pairExtractor
      (Path.ofString "a") 0).listed (pairFile "a.js") := by decide +kernel
  have hmissing : pairFile "b.js" ∉ Assoc.keys (Walk.empty.after (pairContext 0) pairDisk.view
      pairExtractor (Path.ofString "a") 0).graph := by decide +kernel
  exact ⟨(hdeep.2.2.1 _ hfile).2 hcount, hflat.2.2.2 _ hkey _ hlisted hmissing⟩

end ImportAtlas.Walk
