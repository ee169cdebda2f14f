import ImportAtlas.Analysis.Result
import ImportAtlas.Proofs.Assoc
import Mathlib.Data.List.Basic
import Mathlib.Data.List.Perm.Lattice

set_option autoImplicit false

/-!
# Merged graphs

The merger of graphs has every file at the place where it comes first, with what
all graphs list for it, less the repeats; so graphs may be merged in groups, and
another order of the graphs changes no more than orders (`merge_ordered_union`).
Graphs that show the same files agree on the list of a file they share: what a
later graph says of a file that an earlier one has is there already
(`merge_ofFiles`).
-/

namespace ImportAtlas

section FirstOccurrences

variable {α : Type} [DecidableEq α] {items : List α} {item : α}

/-- One more item counts only if it is new. -/
theorem eraseDups_concat :
    (items ++ [item]).eraseDups =
      if item ∈ items then items.eraseDups else items.eraseDups ++ [item] := by
  rw [List.eraseDups_append, List.cons_removeAll, List.nil_removeAll]
  by_cases h : item ∈ items <;> simp [h, List.eraseDups_cons]

theorem eraseDups_of_nodup (h : items.Nodup) : items.eraseDups = items := by
  induction items using List.reverseRecOn with
  | nil => rfl
  | append_singleton items item ih =>
    obtain ⟨hitems, -, hnew⟩ := List.nodup_append.mp h
    have hfresh : item ∉ items := fun hmem => hnew item hmem item List.mem_cons_self rfl
    rw [eraseDups_concat, if_neg hfresh, ih hitems]

/-- Of a list without repeats the new items are added, in their order. -/
theorem eraseDups_append_of_nodup {more : List α} (h : more.Nodup) :
    (items ++ more).eraseDups = items.eraseDups ++ more.filter (· ∉ items) := by
  have hremove : more.removeAll items = more.filter (· ∉ items) := by
    simp [List.removeAll]
  rw [List.eraseDups_append, hremove, eraseDups_of_nodup (h.filter _)]

theorem nodup_eraseDups (items : List α) : items.eraseDups.Nodup := by
  induction items using List.reverseRecOn with
  | nil => exact List.nodup_nil
  | append_singleton items item ih =>
    rw [eraseDups_concat]
    by_cases hitem : item ∈ items
    · rwa [if_pos hitem]
    · rw [if_neg hitem]
      exact ih.append (List.nodup_singleton item) (by simpa using hitem)

/-- Repeats may be dropped from two lists before they are joined. -/
theorem eraseDups_append_eraseDups (items more : List α) :
    (items.eraseDups ++ more.eraseDups).eraseDups = (items ++ more).eraseDups := by
  induction more using List.reverseRecOn with
  | nil => simpa using eraseDups_of_nodup (nodup_eraseDups items)
  | append_singleton more item ih =>
    rw [@eraseDups_concat _ _ more]
    by_cases hmore : item ∈ more
    · rw [if_pos hmore, ih, ← List.append_assoc, eraseDups_concat,
        if_pos (List.mem_append_right _ hmore)]
    · rw [if_neg hmore, ← List.append_assoc, ← List.append_assoc, eraseDups_concat,
        eraseDups_concat, ih]
      simp only [List.mem_append, List.mem_eraseDups]

/-- The first occurrences of lists with the same items are the same items. -/
theorem eraseDups_perm {more : List α} (h : ∀ item, item ∈ items ↔ item ∈ more) :
    items.eraseDups.Perm more.eraseDups := by
  rw [List.perm_ext_iff_of_nodup (nodup_eraseDups items) (nodup_eraseDups more)]
  simpa only [List.mem_eraseDups] using h

end FirstOccurrences

namespace Graph

/-! ## One list -/

theorem addNew_concat (known added : List String) (dependency : String) :
    addNew known (added ++ [dependency]) =
      if dependency ∈ addNew known added then addNew known added
      else addNew known added ++ [dependency] := by
  simp [addNew, List.foldl_append]

/-- What is added comes behind what is known, each dependency once. -/
theorem addNew_eraseDups (known added : List String) :
    addNew known.eraseDups added = (known ++ added).eraseDups := by
  induction added using List.reverseRecOn with
  | nil => rw [List.append_nil]; rfl
  | append_singleton added dependency ih =>
    rw [addNew_concat, ih, ← List.append_assoc, eraseDups_concat]
    simp only [List.mem_eraseDups]

/-- Added to nothing, a list loses its repeats. -/
theorem addNew_nil (added : List String) : addNew [] added = added.eraseDups :=
  addNew_eraseDups [] added

/-- What is known is not added again. -/
theorem addNew_of_subset {known added : List String} (h : added ⊆ known) :
    addNew known added = known := by
  induction added using List.reverseRecOn with
  | nil => rfl
  | append_singleton added dependency ih =>
    obtain ⟨hadded, hlast⟩ := List.append_subset.mp h
    rw [addNew_concat, ih hadded, if_pos (hlast List.mem_cons_self)]

/-! ## One file -/

/-- A file is written at the end when it is new. -/
theorem addFile_of_not_mem {merged : Graph} {file : String} (h : file ∉ Assoc.keys merged)
    (dependencies : List String) :
    addFile merged file dependencies = merged ++ [(file, dependencies.eraseDups)] := by
  rw [addFile, Assoc.get?_eq_none_iff.mpr h, Option.getD_none, addNew_nil, Assoc.put_of_not_mem h]

/-- A file that has its list may be added again. -/
theorem addFile_of_get? {merged : Graph} {file : String} {dependencies : List String}
    (h : Assoc.get? file merged = some dependencies.eraseDups) :
    addFile merged file dependencies = merged := by
  rw [addFile, h, Option.getD_some, addNew_of_subset fun d hd => List.mem_eraseDups.mpr hd,
    Assoc.put_of_get? h]

/-! ## Graphs of the same files -/

theorem merge_eq_foldl (graphs : List Graph) :
    merge graphs = graphs.flatten.foldl (fun merged e => addFile merged e.1 e.2) [] := by
  rw [List.foldl_flatten]
  rfl

variable {α : Type} {name : α → String} {dependencies : α → List String} {files : List α}

/-- The graph of some files, each with its name and its list. -/
def ofFiles (name : α → String) (dependencies : α → List String) (files : List α) : Graph :=
  files.map fun file => (name file, dependencies file)

theorem keys_ofFiles : Assoc.keys (ofFiles name dependencies files) = files.map name := by
  simp [Assoc.keys, ofFiles]

theorem ofFiles_concat (file : α) :
    ofFiles name dependencies (files ++ [file]) =
      ofFiles name dependencies files ++ [(name file, dependencies file)] := by
  simp [ofFiles]

theorem get?_ofFiles (hname : ∀ f ∈ files, ∀ g ∈ files, name f = name g → f = g) {file : α}
    (hfile : file ∈ files) :
    Assoc.get? (name file) (ofFiles name dependencies files) = some (dependencies file) := by
  induction files with
  | nil => cases hfile
  | cons first rest ih =>
    rw [ofFiles, List.map_cons, Assoc.get?]
    by_cases heq : name first = name file
    · rw [if_pos heq, hname first List.mem_cons_self file hfile heq]
    · rw [if_neg heq]
      have hrest := (List.mem_cons.mp hfile).resolve_left fun h => heq (h ▸ rfl)
      exact ih (fun f hf g hg => hname f (.tail _ hf) g (.tail _ hg)) hrest

variable [DecidableEq α]

/-- Files that are added one after the other stay where they came first. -/
theorem foldl_addFile_ofFiles (hname : ∀ f ∈ files, ∀ g ∈ files, name f = name g → f = g) :
    (ofFiles name dependencies files).foldl (fun merged e => addFile merged e.1 e.2) [] =
      ofFiles name (fun file => (dependencies file).eraseDups) files.eraseDups := by
  induction files using List.reverseRecOn with
  | nil => rfl
  | append_singleton files file ih =>
    have hbefore : ∀ f ∈ files, ∀ g ∈ files, name f = name g → f = g := fun f hf g hg =>
      hname f (List.mem_append_left _ hf) g (List.mem_append_left _ hg)
    rw [ofFiles_concat, List.foldl_append, ih hbefore, eraseDups_concat, List.foldl_cons,
      List.foldl_nil]
    by_cases hmem : file ∈ files
    · rw [if_pos hmem]
      refine addFile_of_get? (get?_ofFiles ?_ (List.mem_eraseDups.mpr hmem))
      simpa only [List.mem_eraseDups] using hbefore
    · rw [if_neg hmem, ofFiles_concat]
      refine addFile_of_not_mem (fun hkey => hmem ?_) _
      rw [keys_ofFiles, List.mem_map] at hkey
      obtain ⟨f, hf, heq⟩ := hkey
      rw [List.mem_eraseDups] at hf
      exact hname f (List.mem_append_left _ hf) file (by simp) heq ▸ hf

/-- **Merging graphs of the same files.**  If different files have different names, the merger of
their graphs has every file at the place where it comes first, its list without repeats. -/
theorem merge_ofFiles {orders : List (List α)}
    (hname : ∀ f ∈ orders.flatten, ∀ g ∈ orders.flatten, name f = name g → f = g) :
    merge (orders.map (ofFiles name dependencies)) =
      ofFiles name (fun file => (dependencies file).eraseDups) orders.flatten.eraseDups := by
  rw [merge_eq_foldl, ← foldl_addFile_ofFiles hname, ofFiles, List.map_flatten]
  rfl

/-! ## Any graphs -/

/-- What graphs list for a file, one list after the other. -/
def listings (graphs : List Graph) (file : String) : List String :=
  (graphs.flatten.filter fun entry => entry.1 = file).flatMap Prod.snd

theorem listings_append (graphs more : List Graph) (file : String) :
    listings (graphs ++ more) file = listings graphs file ++ listings more file := by
  simp [listings]

theorem flatMap_filter_of_nodup {graph : Graph} (h : (Assoc.keys graph).Nodup) (file : String) :
    (graph.filter fun entry => entry.1 = file).flatMap Prod.snd =
      (Assoc.get? file graph).getD [] := by
  induction graph with
  | nil => rfl
  | cons entry graph ih =>
    obtain ⟨hfresh, hgraph⟩ := List.nodup_cons.mp h
    by_cases hfile : entry.1 = file
    · subst hfile
      have hnone : (graph.filter fun other => other.1 = entry.1) = [] := by
        refine List.filter_eq_nil_iff.mpr fun other hother heq => hfresh ?_
        exact of_decide_eq_true heq ▸ List.mem_map_of_mem hother
      rw [List.filter_cons_of_pos (by simp), hnone, Assoc.get?, if_pos rfl]
      simp
    · rw [List.filter_cons_of_neg (by simpa using hfile), Assoc.get?, if_neg hfile, ih hgraph]

/-- Merging entries one after the other keeps the files in the order in which they come first, and
lists for a file what the entries list for it. -/
theorem foldl_addFile (entries : Graph) :
    Assoc.keys (entries.foldl (fun merged e => addFile merged e.1 e.2) []) =
        (Assoc.keys entries).eraseDups ∧
      ∀ file, (Assoc.get? file (entries.foldl (fun merged e => addFile merged e.1 e.2)
        [])).getD [] =
        ((entries.filter fun entry => entry.1 = file).flatMap Prod.snd).eraseDups := by
  induction entries using List.reverseRecOn with
  | nil => exact ⟨rfl, fun _ => rfl⟩
  | append_singleton entries last ih =>
    obtain ⟨hkeys, hlists⟩ := ih
    rw [List.foldl_append, List.foldl_cons, List.foldl_nil]
    generalize entries.foldl (fun merged e => addFile merged e.1 e.2) [] = merged at hkeys hlists ⊢
    constructor
    · rw [addFile, Assoc.keys_put, hkeys, Assoc.keys_append]
      simp only [List.mem_eraseDups]
      exact eraseDups_concat.symm
    · intro file
      rw [addFile, Assoc.get?_put, List.filter_append, List.flatMap_append]
      by_cases hfile : file = last.1
      · subst hfile
        rw [if_pos rfl, Option.getD_some, hlists, addNew_eraseDups]
        simp
      · rw [if_neg hfile, hlists]
        simp [Ne.symm hfile]

theorem keys_merge (graphs : List Graph) :
    Assoc.keys (merge graphs) = (Assoc.keys graphs.flatten).eraseDups := by
  rw [merge_eq_foldl]
  exact (foldl_addFile graphs.flatten).1

theorem get?_merge (graphs : List Graph) (file : String) :
    (Assoc.get? file (merge graphs)).getD [] = (listings graphs file).eraseDups := by
  rw [merge_eq_foldl]
  exact (foldl_addFile graphs.flatten).2 file

theorem nodup_keys_merge (graphs : List Graph) : (Assoc.keys (merge graphs)).Nodup := by
  rw [keys_merge]
  exact nodup_eraseDups _

/-- Merging loses no file and no dependency. -/
theorem mem_merge {graphs : List Graph} {entry : String × List String}
    (h : entry ∈ graphs.flatten) : entry.1 ∈ Assoc.keys (merge graphs) ∧
      entry.2 ⊆ (Assoc.get? entry.1 (merge graphs)).getD [] := by
  rw [keys_merge, get?_merge, List.mem_eraseDups]
  refine ⟨List.mem_map_of_mem h, fun dependency hdependency => ?_⟩
  rw [List.mem_eraseDups, listings, List.mem_flatMap]
  exact ⟨entry, List.mem_filter.mpr ⟨h, by simp⟩, hdependency⟩

/-! ## The ordered union -/

theorem merge_eq_union (graphs : List Graph) :
    merge graphs = (Assoc.keys graphs.flatten).eraseDups.map fun file =>
      (file, (listings graphs file).eraseDups) := by
  rw [← keys_merge]
  refine Assoc.eq_map_of_get? (nodup_keys_merge graphs) fun file hfile => ?_
  rw [← get?_merge]
  cases hlist : Assoc.get? file (merge graphs) with
  | none => exact absurd hfile (Assoc.get?_eq_none_iff.mp hlist)
  | some list => rfl

/-- In graphs that have no file twice, the lists of a file are those that it is looked up with. -/
theorem listings_of_nodup {graphs : List Graph} (h : ∀ graph ∈ graphs, (Assoc.keys graph).Nodup)
    (file : String) :
    listings graphs file = graphs.flatMap fun graph => (Assoc.get? file graph).getD [] := by
  induction graphs with
  | nil => rfl
  | cons graph graphs ih =>
    obtain ⟨hgraph, hgraphs⟩ := List.forall_mem_cons.mp h
    rw [← List.singleton_append, listings_append, ih hgraphs, List.flatMap_append,
      List.flatMap_singleton, listings, List.flatten_singleton, flatMap_filter_of_nodup hgraph]

/-- A merged graph lists for a file what the graphs list for it, less the repeats. -/
theorem listings_merge (graphs : List Graph) (file : String) :
    listings [merge graphs] file = (listings graphs file).eraseDups := by
  rw [listings_of_nodup (List.forall_mem_singleton.mpr (nodup_keys_merge graphs)),
    List.flatMap_singleton, get?_merge]

/-- Graphs may be merged in two groups. -/
theorem merge_append (graphs more : List Graph) :
    merge (graphs ++ more) = merge [merge graphs, merge more] := by
  have hkeys : (Assoc.keys (graphs ++ more).flatten).eraseDups =
      (Assoc.keys [merge graphs, merge more].flatten).eraseDups := by
    rw [List.flatten_append, Assoc.keys_append, List.flatten_cons, List.flatten_singleton,
      Assoc.keys_append, keys_merge, keys_merge, eraseDups_append_eraseDups]
  have hlists : ∀ file, (listings (graphs ++ more) file).eraseDups =
      (listings [merge graphs, merge more] file).eraseDups := by
    intro file
    have hpair := listings_append [merge graphs] [merge more] file
    rw [List.singleton_append] at hpair
    rw [hpair, listings_merge, listings_merge, listings_append, eraseDups_append_eraseDups]
  rw [merge_eq_union, merge_eq_union, hkeys]
  simp only [hlists]

/-- **Merging is an ordered union.**  The merger of graphs has the files in the order in which they
come first, each with what all graphs list for it, in order and without repeats.  Graphs may be
merged in two groups and the two mergers merged.  In another order of the graphs the files of the
merger are the same, and so are the dependencies of each. -/
theorem merge_ordered_union :
    (∀ graphs : List Graph,
      merge graphs = (Assoc.keys graphs.flatten).eraseDups.map fun file =>
        (file, (listings graphs file).eraseDups)) ∧
    (∀ graphs more : List Graph, merge (graphs ++ more) = merge [merge graphs, merge more]) ∧
    (∀ graphs others : List Graph, graphs.Perm others →
      (Assoc.keys (merge graphs)).Perm (Assoc.keys (merge others)) ∧
      ∀ file, ((Assoc.get? file (merge graphs)).getD []).Perm
        ((Assoc.get? file (merge others)).getD [])) := by
  refine ⟨merge_eq_union, merge_append, fun graphs others hperm => ⟨?_, fun file => ?_⟩⟩
  · rw [keys_merge, keys_merge]
    exact eraseDups_perm fun file => (hperm.flatten.map Prod.fst).mem_iff
  · rw [get?_merge, get?_merge]
    exact eraseDups_perm fun dependency =>
      ((hperm.flatten.filter _).flatMap_right _).mem_iff

/-- Two graphs that both have a file, one of them with a dependency twice. -/
def sharedGraphs : List Graph :=
  [[("@/a.js", ["@/s.js"]), ("@/s.js", ["@/y.js"])],
    [("@/b.js", ["@/s.js"]), ("@/s.js", ["@/x.js", "@/y.js", "@/x.js"])]]

/-- The shared file has what both graphs list, where the first has it; with the graphs the other way
round it has the same in another order. -/
theorem merge_ordered_union_shared :
    merge sharedGraphs = [("@/a.js", ["@/s.js"]), ("@/s.js", ["@/y.js", "@/x.js"]),
        ("@/b.js", ["@/s.js"])] ∧
      sharedGraphs.Perm sharedGraphs.reverse ∧
      (Assoc.keys (merge sharedGraphs)).Perm (Assoc.keys (merge sharedGraphs.reverse)) ∧
      ["@/y.js", "@/x.js"].Perm
        ((Assoc.get? "@/s.js" (merge sharedGraphs.reverse)).getD []) := by
  obtain ⟨hunion, -, hperm⟩ := merge_ordered_union
  have hreverse : sharedGraphs.Perm sharedGraphs.reverse := (List.reverse_perm _).symm
  refine ⟨(hunion sharedGraphs).trans (by decide +kernel), hreverse, ?_, ?_⟩
  · exact (hperm _ _ hreverse).1
  · exact (List.Perm.of_eq (by decide +kernel)).trans ((hperm _ _ hreverse).2 "@/s.js")

end Graph

end ImportAtlas
