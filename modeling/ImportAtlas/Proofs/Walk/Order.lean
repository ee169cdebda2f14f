import ImportAtlas.Proofs.Assoc
import ImportAtlas.Proofs.Walk.Call
import ImportAtlas.Proofs.Walk.DepthFirst

set_option autoImplicit false

/-!
# The order of a walk

A walk fills its lists while it enters other files, but which files it enters,
and in which order, is a plain depth-first search over the lists that the files
have on their own (`visited_after`).  So a traversal is its order of entering,
each file with its own list (`graph_traverse`).
-/

namespace ImportAtlas

namespace Walk

open Project

/-! ## Where tracking a path leads -/

/-- The file that tracking a path leads to, if neither is ignored. -/
def destination? (context : Context) (view : FileView) (path : Path) : Option Path :=
  let path := (context.projectRoot ++ path).normalize
  match Reference.locate view inferredSuffixes path with
  | .ok (some file) => if context.ignores path || context.ignores file then none else some file
  | _ => none

variable {context : Context} {view : FileView} {extractor : Extractor}

theorem destination?_eq_some {path file : Path} :
    destination? context view path = some file ↔ Admits context view path file := by
  constructor
  · intro h
    simp only [destination?] at h
    split at h
    · rename_i found hlocate
      split at h
      · cases h
      · rename_i htracked
        simp only [Bool.or_eq_true, not_or, Bool.not_eq_true] at htracked
        cases h
        exact ⟨htracked.1, hlocate, htracked.2⟩
    · cases h
  · intro h
    simp [destination?, h.located, h.path_tracked, h.file_tracked]

theorem Settled.destination? {file : Path} (h : Settled context view file) :
    destination? context view file = some file :=
  destination?_eq_some.mpr h.admits

/-! ## The search behind a walk -/

variable (context view extractor) in
/-- The files entered, the latest first, after a path is tracked at a depth. -/
def enteredBy (path : Path) (depth : Int) (entered : List Path) : List Path :=
  match destination? context view path with
  | none => entered
  | some file =>
    depthFirst (adjacency context view extractor) (levelsAt context depth) file entered

theorem enteredBy_of_settled {file : Path} (h : Settled context view file) (depth : Int)
    (entered : List Path) :
    enteredBy context view extractor file depth entered =
      depthFirst (adjacency context view extractor) (levelsAt context depth) file entered := by
  rw [enteredBy, h.destination?]

/-- A call that enters no file leaves the files as they are, and so does the search. -/
theorem enteredBy_of_not_enters {path : Path} {depth : Int} {w : Walk}
    (h : ¬ ∃ file, Call.Enters context view ⟨path, depth, w⟩ file) :
    enteredBy context view extractor path depth w.visited = w.visited := by
  unfold enteredBy
  cases hfile : destination? context view path with
  | none => rfl
  | some file =>
    rcases Int.lt_or_le context.maxDepth depth with hlt | hle
    · rw [levelsAt_of_lt hlt]
      rfl
    · refine depthFirst_of_mem (Decidable.byContradiction fun hfresh => h ⟨file, hle, ?_, hfresh⟩)
      exact destination?_eq_some.mp hfile

/-- What a file that is expanded adds is what its list adds, if every edge adds what a search from
its target does. -/
theorem visited_expand (hcontext : context.IsNormal) {path file : Path} {depth : Int} {w : Walk}
    (hpath : path.IsSpelled) (hsound : Sound context w)
    (henters : Call.Enters context view ⟨path, depth, w⟩ file)
    (honward : ∀ {target v v'}, Settled context view target → Sound context v →
      v.track context view extractor target (depth + 1) = .ok v' →
      v'.visited = depthFirst (adjacency context view extractor) (levelsAt context (depth + 1))
        target v.visited) :
    (expand context view extractor (onwardFrom context view extractor depth) file w).visited =
      (adjacency context view extractor file).foldl (fun entered target =>
        depthFirst (adjacency context view extractor) (levelsAt context (depth + 1)) target entered)
        (file :: w.visited) := by
  have hsettled := henters.admits.settled hcontext hpath
  have hlisted := hsound.listed_of_fresh henters.fresh
  obtain ⟨edges, hdone, hedges⟩ := expanding_expand (grows_onwardFrom depth) henters.fresh
  -- the list in progress holds the edges that were followed
  have hlist : (expand context view extractor (onwardFrom context view extractor depth) file
      w).listed file = adjacency context view extractor file := by
    rw [hdone.listed_eq, hlisted, hedges hlisted, List.nil_append]
  rw [← hlist]
  refine (expand_induction (R := fun u => u.visited = (u.listed file).foldl (fun entered target =>
    depthFirst (adjacency context view extractor) (levelsAt context (depth + 1)) target entered)
    (file :: w.visited)) ?_ (fun _ _ hu => hu) ?_ ?_).2
  · rw [listed_enter, hlisted]
    rfl
  · intro target u v htakes hu hv
    obtain ⟨hsoundu, hfile⟩ := henters.sound_of_takes hcontext hpath hsound htakes
    have htarget := settled_of_mem_adjacency hcontext hsettled.inside htakes.mem_adjacency
    have hgrows := grows_onwardFrom depth target _ v hv
    have hmore : v.listed file = u.listed file ++ [target] := by
      rw [listed, hgrows.kept file hfile, ← listed, listed_link]
    rw [honward htarget (hsoundu.link hfile htarget.inside) hv, hmore, List.foldl_append,
      List.foldl_cons, List.foldl_nil, ← hu, visited_link]
  · -- the call for an edge does not fail
    intro target u fault problem htakes _ hfault
    have htarget := settled_of_mem_adjacency hcontext hsettled.inside htakes.mem_adjacency
    obtain ⟨_, htracked, -⟩ := track_settled htarget (depth + 1) (u.link file target)
    cases htracked.symm.trans hfault

/-- Tracking a path enters the files that a depth-first search from its destination enters. -/
theorem visited_track (hcontext : context.IsNormal) :
    ∀ (depth : Int) {path : Path} {w w' : Walk}, path.IsSpelled → Sound context w →
      w.track context view extractor path depth = .ok w' →
      w'.visited = enteredBy context view extractor path depth w.visited := by
  refine depth_induction context.maxDepth fun depth ih path w w' hpath hsound htrack => ?_
  by_cases henters : ∃ file, Call.Enters context view ⟨path, depth, w⟩ file
  · obtain ⟨file, henters⟩ := henters
    cases (track_of_enters henters).symm.trans htrack
    rw [visited_expand hcontext hpath hsound henters, enteredBy,
      destination?_eq_some.mpr henters.admits, levelsAt_of_le henters.depth_le]
    · exact (depthFirst_of_not_mem henters.fresh).symm
    · intro target v v' htarget hsoundv hv
      rw [ih henters.depth_le htarget.inside.normal.isSpelled hsoundv hv,
        enteredBy_of_settled htarget]
  · rw [enteredBy_of_not_enters henters]
    rcases track_cases htrack with rfl | ⟨file, hfile, -⟩
    · rfl
    · exact absurd ⟨file, hfile⟩ henters

theorem visited_after (hcontext : context.IsNormal) {path : Path} (hpath : path.IsSpelled)
    (depth : Int) {w : Walk} (hsound : Sound context w) :
    (w.after context view extractor path depth).visited =
      enteredBy context view extractor path depth w.visited := by
  unfold after
  cases htrack : w.track context view extractor path depth with
  | ok w' => exact visited_track hcontext depth hpath hsound htrack
  | error fault =>
    refine (enteredBy_of_not_enters fun ⟨file, henters⟩ => ?_).symm
    cases (track_of_enters henters).symm.trans htrack

/-! ## Traversals -/

theorem traverse_concat (calls : List (Path × Int)) (call : Path × Int) :
    traverse context view extractor (calls ++ [call]) =
      (traverse context view extractor calls).after context view extractor call.1 call.2 := by
  rw [traverse, List.foldl_append]
  rfl

theorem sound_traverse (hcontext : context.IsNormal) {calls : List (Path × Int)}
    (hcalls : ∀ call ∈ calls, call.1.IsSpelled) :
    Sound context (traverse context view extractor calls) := by
  induction calls using List.reverseRecOn with
  | nil => exact .empty
  | append_singleton calls call ih =>
    rw [traverse_concat]
    exact (ih fun c hc => hcalls c (by simp [hc])).after hcontext (hcalls call (by simp)) call.2

theorem visited_traverse (hcontext : context.IsNormal) {calls : List (Path × Int)}
    (hcalls : ∀ call ∈ calls, call.1.IsSpelled) :
    (traverse context view extractor calls).visited =
      calls.foldl (fun entered call => enteredBy context view extractor call.1 call.2 entered)
        [] := by
  induction calls using List.reverseRecOn with
  | nil => rfl
  | append_singleton calls call ih =>
    have hbefore : ∀ c ∈ calls, c.1.IsSpelled := fun c hc => hcalls c (by simp [hc])
    rw [traverse_concat, visited_after hcontext (hcalls call (by simp)) call.2
      (sound_traverse hcontext hbefore), ih hbefore, List.foldl_append]
    rfl

/-- A call enters settled files only. -/
theorem settled_of_mem_enteredBy (hcontext : context.IsNormal) {path : Path}
    (hpath : path.IsSpelled)
    {depth : Int} {entered : List Path} (h : ∀ file ∈ entered, Settled context view file) :
    ∀ file ∈ enteredBy context view extractor path depth entered, Settled context view file := by
  unfold enteredBy
  cases hfile : destination? context view path with
  | none => exact h
  | some file =>
    refine depthFirst_forall (fun f hf target ht => ?_) ?_ h
    · exact settled_of_mem_adjacency hcontext hf.inside ht
    · exact (destination?_eq_some.mp hfile).settled hcontext hpath

theorem settled_of_traversed (hcontext : context.IsNormal) {calls : List (Path × Int)}
    (hcalls : ∀ call ∈ calls, call.1.IsSpelled) :
    ∀ file ∈ (traverse context view extractor calls).visited, Settled context view file := by
  rw [visited_traverse hcontext hcalls]
  refine List.foldlRecOn calls _
    (motive := fun entered => ∀ file ∈ entered, Settled context view file) ?_ ?_
  · exact fun _ hfile => nomatch hfile
  · exact fun entered hentered call hcall =>
      settled_of_mem_enteredBy hcontext (hcalls call hcall) hentered

/-- A walk from one path enters settled files only. -/
theorem settled_after_empty (hcontext : context.IsNormal) {path : Path} (hpath : path.IsSpelled)
    (depth : Int) :
    ∀ file ∈ (Walk.empty.after context view extractor path depth).visited,
      Settled context view file := by
  have hcalls : ∀ call ∈ [(path, depth)], call.1.IsSpelled := by simpa using hpath
  exact settled_of_traversed hcontext hcalls

/-- The graph of a traversal is the order in which its files were entered, each with its own
list. -/
theorem graph_traverse (hcontext : context.IsNormal) {calls : List (Path × Int)}
    (hcalls : ∀ call ∈ calls, call.1.IsSpelled) :
    (traverse context view extractor calls).graph =
      (traverse context view extractor calls).visited.reverse.map fun file =>
        (file, adjacency context view extractor file) := by
  have hsound : Sound context (traverse context view extractor calls) :=
    sound_traverse hcontext hcalls
  rw [← hsound.keys]
  exact Assoc.eq_map_of_get? hsound.nodup_keys fun file hfile => (get?_traverse hfile).2

end Walk

end ImportAtlas
