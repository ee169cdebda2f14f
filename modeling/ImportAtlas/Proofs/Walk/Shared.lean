import ImportAtlas.Proofs.Graph.Merge
import ImportAtlas.Proofs.Walk.Order
import ImportAtlas.Proofs.Walk.Reach

set_option autoImplicit false

/-!
# Walks that share what they visited

A walk from an entry with a large limit visits files that lead to each other
only.  A later walk that shares its state skips these files, and visits the
others in the order in which it would have visited them on its own.  So the
files of a traversal are those of the walks from its entries one after the other,
each where it comes first (`visited_traverse_entries`).
-/

namespace ImportAtlas.Walk

open Project

variable {context : Context} {disk : Disk} {extractor : Extractor}

/-- The files of a walk lead to each other only. -/
def Closed (context : Context) (view : FileView) (extractor : Extractor) (w : Walk) : Prop :=
  ∀ file ∈ w.visited, ∀ target ∈ adjacency context view extractor file, target ∈ w.visited

theorem closed_empty : Closed context disk.view extractor Walk.empty :=
  fun _ hfile => nomatch hfile

/-- With a limit as large as the number of files, a walk from an entry is closed. -/
theorem closed_after_empty (hcontext : context.IsNormal) {path : Path} (hpath : path.IsSpelled)
    (hlimit : (trackedFiles context disk).length ≤ context.maxDepth) :
    Closed context disk.view extractor (Walk.empty.after context disk.view extractor path 0) := by
  have hsound : Sound context (Walk.empty.after context disk.view extractor path 0) :=
    Sound.empty.after hcontext hpath 0
  intro file hfile target htarget
  by_contra hmissing
  rw [← hsound.mem_keys_iff] at hfile hmissing
  exact not_expandedAt_of_le hcontext hpath hlimit
    (expandedAt_of_missing hcontext hpath hfile htarget hmissing)

/-- A walk that goes on from a closed one adds what it visits on its own, less the files visited
before. -/
theorem visited_after_of_closed (hcontext : context.IsNormal) {path : Path} (hpath : path.IsSpelled)
    {depth : Int} {w : Walk} (hsound : Sound context w)
    (hclosed : Closed context disk.view extractor w) :
    (w.after context disk.view extractor path depth).visited =
      (Walk.empty.after context disk.view extractor path depth).visited.filter
        (· ∉ w.visited) ++ w.visited := by
  rw [visited_after hcontext hpath depth hsound, visited_after hcontext hpath depth .empty]
  unfold enteredBy
  cases destination? context disk.view path with
  | none => rfl
  | some file =>
    simp only
    rw [← depthFirst_skip hclosed]
    rfl

theorem Closed.after (hcontext : context.IsNormal) {path : Path} (hpath : path.IsSpelled)
    (hlimit : (trackedFiles context disk).length ≤ context.maxDepth) {w : Walk}
    (hsound : Sound context w) (hclosed : Closed context disk.view extractor w) :
    Closed context disk.view extractor (w.after context disk.view extractor path 0) := by
  intro file hfile target htarget
  rw [visited_after_of_closed hcontext hpath hsound hclosed] at hfile ⊢
  by_cases hold : target ∈ w.visited
  · exact List.mem_append_right _ hold
  rcases List.mem_append.mp hfile with hnew | hfile
  · refine List.mem_append_left _ (List.mem_filter.mpr ⟨?_, by simpa using hold⟩)
    exact closed_after_empty hcontext hpath hlimit file (List.mem_of_mem_filter hnew) target htarget
  · exact absurd (hclosed file hfile target htarget) hold

/-- The order of the files that a walk from an entry visits. -/
def orderFrom (context : Context) (view : FileView) (extractor : Extractor) (entry : Path) :
    List Path :=
  (Walk.empty.after context view extractor entry 0).visited.reverse

theorem nodup_orderFrom (hcontext : context.IsNormal) {entry : Path} (hentry : entry.IsSpelled) :
    (orderFrom context disk.view extractor entry).Nodup :=
  List.nodup_reverse.mpr (Sound.empty.after hcontext hentry 0).nodup

/-- **A traversal is the walks from its entries without repeats.**  With a limit as large as the
number of the project's files, the files of a traversal are, in order, those of the walks from its
entries on their own, each where it comes first. -/
theorem visited_traverse_entries (hcontext : context.IsNormal) {entries : List Path}
    (hentries : ∀ entry ∈ entries, entry.IsSpelled)
    (hlimit : (trackedFiles context disk).length ≤ context.maxDepth) :
    Closed context disk.view extractor
        (traverse context disk.view extractor (entries.map fun entry => (entry, 0))) ∧
      (traverse context disk.view extractor (entries.map fun entry => (entry, 0))).visited.reverse =
        (entries.map (orderFrom context disk.view extractor)).flatten.eraseDups := by
  induction entries using List.reverseRecOn with
  | nil => exact ⟨closed_empty, rfl⟩
  | append_singleton entries entry ih =>
    have hbefore : ∀ e ∈ entries, e.IsSpelled := fun e he => hentries e (List.mem_append_left _ he)
    have hentry : entry.IsSpelled := hentries entry (by simp)
    have hsound : Sound context
        (traverse context disk.view extractor (entries.map fun entry => (entry, 0))) :=
      sound_traverse hcontext (by simpa using hbefore)
    obtain ⟨hclosed, horder⟩ := ih hbefore
    rw [List.map_append, List.map_cons, List.map_nil, traverse_concat]
    refine ⟨hclosed.after hcontext hentry hlimit hsound, ?_⟩
    have hvisited : ∀ file, file ∈ (traverse context disk.view extractor
        (entries.map fun entry => (entry, 0))).visited ↔
          file ∈ (entries.map (orderFrom context disk.view extractor)).flatten := fun file => by
      rw [← List.mem_reverse, horder, List.mem_eraseDups]
    rw [visited_after_of_closed hcontext hentry hsound hclosed, List.reverse_append, horder,
      List.map_append, List.flatten_append, List.map_cons, List.map_nil, List.flatten_singleton,
      eraseDups_append_of_nodup (nodup_orderFrom hcontext hentry), orderFrom, List.filter_reverse]
    simp only [hvisited]

end ImportAtlas.Walk
