import ImportAtlas.Proofs.Walk.Boundary
import Mathlib.Logic.Relation

set_option autoImplicit false

/-!
# The calls of a walk

Tracking a path makes a call for each edge it takes, one level deeper, and those
calls make calls in turn.  `Call.Makes` is that relation, with the walk that each
call is made on; a file is expanded at a depth when a call at that depth enters
it.  Every edge leads to a file that the disk shows inside the project, so the
calls for edges never fail, and within the limit they leave their file visited.
-/

namespace ImportAtlas.Walk

open Project

variable {context : Context} {view : FileView} {extractor : Extractor}

/-! ## Files that tracking leads to -/

/-- A file inside the project that the view shows. -/
structure Settled (context : Context) (view : FileView) (file : Path) : Prop where
  inside : Inside context file
  isFile : view.isFile file = .ok true

/-- Tracking `path` leads to `file`: neither is ignored, and the file is located behind the path. -/
structure Admits (context : Context) (view : FileView) (path file : Path) : Prop where
  path_tracked : context.ignores (context.projectRoot ++ path).normalize = false
  located : Reference.locate view inferredSuffixes (context.projectRoot ++ path).normalize =
    .ok (some file)
  file_tracked : context.ignores file = false

theorem Admits.unique {path file other : Path} (h : Admits context view path file)
    (hother : Admits context view path other) : file = other := by
  have heq := h.located.symm.trans hother.located
  simpa using heq

theorem Admits.settled (hcontext : context.IsNormal) {path file : Path} (hpath : path.IsSpelled)
    (h : Admits context view path file) : Settled context view file :=
  ⟨inside_of_locate hcontext hpath h.located h.file_tracked, (Reference.mem_of_locate h.located).1⟩

/-- Tracking the path of a settled file leads to the file itself. -/
theorem Settled.admits {file : Path} (h : Settled context view file) :
    Admits context view file file := by
  have hpath : (context.projectRoot ++ file).normalize = file :=
    h.inside.normal.append_normalize _
  have htracked := (inside_iff.mp h.inside).2
  exact ⟨by rw [hpath]; exact htracked, by rw [hpath]; exact Reference.locate_of_isFile h.isFile,
    htracked⟩

theorem Settled.mem_trackedFiles {disk : Disk} {file : Path} (h : Settled context disk.view file) :
    file ∈ trackedFiles context disk :=
  Project.mem_trackedFiles h.inside h.isFile

theorem settled_of_mem_adjacency (hcontext : context.IsNormal) {file target : Path}
    (hfile : Inside context file) (h : target ∈ adjacency context view extractor file) :
    Settled context view target :=
  ⟨inside_of_mem_adjacency hcontext hfile h, isFile_of_mem_adjacency h⟩

/-! ## Calls -/

/-- A call: a path tracked at a depth, and the walk it is tracked on. -/
structure Call where
  path : Path
  depth : Int
  walk : Walk

/-- The call enters the file. -/
structure Call.Enters (context : Context) (view : FileView) (c : Call) (file : Path) : Prop where
  depth_le : c.depth ≤ context.maxDepth
  admits : Admits context view c.path file
  fresh : file ∉ c.walk.visited

variable (context view extractor) in
/-- How the edges of a file entered at a depth are followed: one level deeper. -/
def onwardFrom (depth : Int) : Onward :=
  follow context view extractor (levelsAt context (depth + 1))

/-- The call makes another one: it enters a file, and takes an edge of it. -/
inductive Call.Makes (context : Context) (view : FileView) (extractor : Extractor) :
    Call → Call → Prop where
  | edge {c : Call} {file target : Path} {u : Walk} (henters : c.Enters context view file)
      (htakes : Takes context view extractor (onwardFrom context view extractor c.depth) file c.walk
        target u) :
      Call.Makes context view extractor c ⟨target, c.depth + 1, u.link file target⟩

/-- In the run of a call, the file is expanded at the depth. -/
def ExpandedAt (context : Context) (view : FileView) (extractor : Extractor) (start : Call)
    (file : Path) (depth : Int) : Prop :=
  ∃ c, Relation.ReflTransGen (Call.Makes context view extractor) start c ∧
    c.Enters context view file ∧ c.depth = depth

theorem levelsAt_of_lt {depth : Int} (h : context.maxDepth < depth) :
    levelsAt context depth = 0 := by
  unfold levelsAt
  omega

theorem levelsAt_of_le {depth : Int} (h : depth ≤ context.maxDepth) :
    levelsAt context depth = levelsAt context (depth + 1) + 1 := by
  unfold levelsAt
  omega

/-- What holds at a depth if it holds one level deeper, as long as that is within the limit, holds
at every depth. -/
theorem depth_induction {P : Int → Prop} (maxDepth : Int)
    (h : ∀ depth, (depth ≤ maxDepth → P (depth + 1)) → P depth) : ∀ depth, P depth := by
  intro depth
  induction hn : (maxDepth - depth + 1).toNat generalizing depth with
  | zero => exact h depth fun hle => by omega
  | succ n ih => exact h depth fun _ => ih (depth + 1) (by omega)

/-- A call leaves the walk as it is, or it expands the file it enters. -/
theorem track_cases {path : Path} {depth : Int} {w w' : Walk}
    (h : w.track context view extractor path depth = .ok w') :
    w' = w ∨ ∃ file, Call.Enters context view ⟨path, depth, w⟩ file ∧
      w' = expand context view extractor (onwardFrom context view extractor depth) file w := by
  unfold track at h
  rcases Int.lt_or_le context.maxDepth depth with hlt | hle
  · rw [levelsAt_of_lt hlt] at h
    cases h
    exact .inl rfl
  · rw [levelsAt_of_le hle] at h
    rcases follow_succ_cases h with rfl | ⟨file, hpath, hlocate, hfresh, hfile, rfl⟩
    · exact .inl rfl
    · exact .inr ⟨file, ⟨hle, ⟨hpath, hlocate, hfile⟩, hfresh⟩, rfl⟩

/-- A call that enters a file expands it. -/
theorem track_of_enters {path file : Path} {depth : Int} {w : Walk}
    (h : Call.Enters context view ⟨path, depth, w⟩ file) :
    w.track context view extractor path depth =
      .ok (expand context view extractor (onwardFrom context view extractor depth) file w) := by
  have hfresh := h.fresh
  rw [track, levelsAt_of_le h.depth_le, follow]
  simp only [h.admits.path_tracked, h.admits.located, h.admits.file_tracked, Except.ok_bind,
    List.contains_eq_mem, decide_eq_true_eq, hfresh, Bool.or_false, Bool.false_eq_true, if_false]
  rfl

theorem grows_onwardFrom (depth : Int) (target : Path) (v v' : Walk)
    (h : onwardFrom context view extractor depth target v = .ok v') :
    Grows context view extractor v v' :=
  grows_follow h

/-- Tracking a settled file never fails, and within the limit leaves it visited. -/
theorem track_settled {file : Path} (h : Settled context view file) (depth : Int) (w : Walk) :
    ∃ w', w.track context view extractor file depth = .ok w' ∧
      (depth ≤ context.maxDepth → file ∈ w'.visited) := by
  rcases Int.lt_or_le context.maxDepth depth with hlt | hle
  · refine ⟨w, ?_, fun hle => absurd hlt (Int.not_lt.mpr hle)⟩
    rw [track, levelsAt_of_lt hlt]
    rfl
  · by_cases hfresh : file ∈ w.visited
    · refine ⟨w, ?_, fun _ => hfresh⟩
      rw [track, levelsAt_of_le hle, follow]
      simp only [h.admits.path_tracked, h.admits.located, Except.ok_bind, List.contains_eq_mem,
        hfresh, Bool.false_eq_true, if_false]
      rfl
    · refine ⟨_, track_of_enters ⟨hle, h.admits, hfresh⟩, fun _ => ?_⟩
      obtain ⟨_, hexpanding, -⟩ := expanding_expand (grows_onwardFrom depth) hfresh
      exact hexpanding.mem_visited

/-- When a call takes an edge, the walk is sound and the file entered. -/
theorem Call.Enters.sound_of_takes (hcontext : context.IsNormal) {c : Call} {file target : Path}
    {u : Walk} (h : c.Enters context view file) (hpath : c.path.IsSpelled)
    (hsound : Sound context c.walk)
    (htakes : Takes context view extractor (onwardFrom context view extractor c.depth) file c.walk
      target u) :
    Sound context u ∧ file ∈ u.visited :=
  (hsound.expanding hcontext (grows_onwardFrom c.depth)
    (fun _ _ _ ht hv hs => hs.follow hcontext ht.isSpelled hv) h.fresh
    (h.admits.settled hcontext hpath).inside).1 target u htakes

end ImportAtlas.Walk
