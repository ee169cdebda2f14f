import ImportAtlas.Proofs.Graph.Counting
import ImportAtlas.Proofs.Graph.Merge
import Mathlib.Algebra.BigOperators.Group.List.Lemmas
import Mathlib.Algebra.Order.BigOperators.Group.List
import Mathlib.Algebra.Order.Group.Nat

set_option autoImplicit false

/-!
# Sums over graphs

The statistics of some graphs add up to those of all their entries, one graph
behind the other (`Graph.sum_statistics`).  In the merger of the graphs a file is
there once, but the sums count it for every graph that has it.
-/

namespace ImportAtlas

section FirstOccurrences

variable {α : Type} [DecidableEq α] (items : List α)

theorem eraseDups_perm_dedup : items.eraseDups.Perm items.dedup := by
  rw [List.perm_ext_iff_of_nodup (nodup_eraseDups items) (List.nodup_dedup items)]
  simp

theorem length_eraseDups_le : items.eraseDups.length ≤ items.length := by
  rw [(eraseDups_perm_dedup items).length_eq]
  exact (List.dedup_sublist items).length_le

theorem length_eraseDups_eq_iff : items.eraseDups.length = items.length ↔ items.Nodup := by
  rw [(eraseDups_perm_dedup items).length_eq, ← List.dedup_eq_self]
  exact ⟨(List.dedup_sublist items).eq_of_length, congrArg List.length⟩

end FirstOccurrences

/-! ## Sums of statistics -/

namespace Statistics

variable {known added : List (String × Int)}

theorem addTypes_cons (first : String × Int) :
    addTypes known (first :: added) = addTypes
      (Assoc.put first.1 ((Assoc.get? first.1 known).getD 0 + first.2) known) added := rfl

theorem keys_addTypes (h : Assoc.keys added ⊆ Assoc.keys known) :
    Assoc.keys (addTypes known added) = Assoc.keys known := by
  induction added generalizing known with
  | nil => rfl
  | cons first rest ih =>
    obtain ⟨hfirst, hrest⟩ := List.cons_subset.mp h
    rw [addTypes_cons, ih, Assoc.keys_put, if_pos hfirst]
    rwa [Assoc.keys_put, if_pos hfirst]

theorem get?_addTypes (hnodup : (Assoc.keys added).Nodup) {type : String} {count : Int}
    (hcount : Assoc.get? type known = some count) :
    Assoc.get? type (addTypes known added) =
      some (count + (Assoc.get? type added).getD 0) := by
  induction added generalizing known count with
  | nil => simpa [addTypes, Assoc.get?] using hcount
  | cons first rest ih =>
    obtain ⟨hfresh, hrest⟩ := List.nodup_cons.mp hnodup
    rw [addTypes_cons]
    by_cases htype : type = first.1
    · subst htype
      have hput : Assoc.get? first.1 (Assoc.put first.1
          ((Assoc.get? first.1 known).getD 0 + first.2) known) = some (count + first.2) := by
        rw [Assoc.get?_put, if_pos rfl, hcount, Option.getD_some]
      rw [ih hrest hput, Assoc.get?_eq_none_iff.mpr hfresh, Assoc.get?, if_pos rfl]
      simp
    · have hput : Assoc.get? type (Assoc.put first.1
          ((Assoc.get? first.1 known).getD 0 + first.2) known) = some count := by
        rw [Assoc.get?_put, if_neg htype, hcount]
      rw [ih hrest hput, Assoc.get?, if_neg (Ne.symm htype)]

/-- Counts of the same types are added type by type. -/
theorem addTypes_map {types : List String} (h : types.Nodup) (count more : String → Int) :
    addTypes (types.map fun type => (type, count type)) (types.map fun type => (type, more type)) =
      types.map fun type => (type, count type + more type) := by
  have hsum : Assoc.keys (addTypes (types.map fun type => (type, count type))
      (types.map fun type => (type, more type))) = types := by
    rw [keys_addTypes (by simp), Assoc.keys_map]
  refine (Assoc.eq_map_of_get? (hsum.symm ▸ h) fun type htype => ?_).trans (by rw [hsum])
  rw [hsum] at htype
  rw [get?_addTypes (by simpa using h) (Assoc.get?_map_of_mem count htype),
    Assoc.get?_map_of_mem more htype, Option.getD_some]

end Statistics

namespace Graph

theorem dependencies_eq_length (graph : Graph) :
    dependencies graph = ((graph.flatMap Prod.snd).length : Nat) := by
  induction graph with
  | nil => rfl
  | cons entry graph ih =>
    rw [List.flatMap_cons, List.length_append, Int.natCast_add, ← ih]
    rfl

theorem dependencies_append (graph more : Graph) :
    dependencies (graph ++ more) = dependencies graph + dependencies more := by
  simp only [dependencies_eq_length, List.flatMap_append, List.length_append, Int.natCast_add]

theorem add_statistics (graph more : Graph) :
    (statistics graph).add (statistics more) = statistics (graph ++ more) := by
  rw [Statistics.add, statistics, statistics, statistics, Statistics.addTypes_map nodup_listedTypes,
    dependencies_append, Assoc.keys_append]
  simp [List.countP_append]

/-- The statistics of graphs add up to those of all their entries. -/
theorem sum_statistics (graphs : List Graph) :
    Statistics.sum (graphs.map statistics) = statistics graphs.flatten := by
  induction graphs using List.reverseRecOn with
  | nil => rfl
  | append_singleton graphs last ih =>
    rw [List.map_append, Statistics.sum, List.foldl_append, ← Statistics.sum, ih, List.map_cons,
      List.map_nil, List.foldl_cons, List.foldl_nil, add_statistics, List.flatten_append,
      List.flatten_singleton]

theorem dependencies_flatten (graphs : List Graph) :
    dependencies graphs.flatten = (graphs.map dependencies).sum := by
  induction graphs with
  | nil => rfl
  | cons graph graphs ih =>
    rw [List.flatten_cons, dependencies_append, ih, List.map_cons, List.sum_cons]

/-! ## How often a file counts -/

variable {graphs : List Graph}

/-- The number of graphs that have a file. -/
def holding (graphs : List Graph) (file : String) : Nat :=
  graphs.countP fun graph => (Assoc.keys graph).contains file

theorem count_keys_flatten (h : ∀ graph ∈ graphs, (Assoc.keys graph).Nodup) (file : String) :
    (Assoc.keys graphs.flatten).count file = holding graphs file := by
  induction graphs with
  | nil => rfl
  | cons graph graphs ih =>
    obtain ⟨hgraph, hgraphs⟩ := List.forall_mem_cons.mp h
    rw [List.flatten_cons, Assoc.keys_append, List.count_append, ih hgraphs, hgraph.count, holding,
      holding, List.countP_cons, Nat.add_comm]
    simp

/-- Counting the files of the merger as often as there are graphs that have them counts the files of
all graphs. -/
theorem sum_holding (h : ∀ graph ∈ graphs, (Assoc.keys graph).Nodup) (p : String → Bool) :
    (((Assoc.keys (merge graphs)).filter p).map (holding graphs)).sum =
      (Assoc.keys graphs.flatten).countP p := by
  -- no graph has a file twice, so a file comes as often as there are graphs that have it
  have hcount := List.sum_map_count_dedup_filter_eq_countP p (Assoc.keys graphs.flatten)
  rw [keys_merge, (((eraseDups_perm_dedup _).filter p).map _).sum_eq, ← hcount]
  exact congrArg List.sum (List.map_congr_left fun file _ => (count_keys_flatten h file).symm)

/-- The counts of all graphs are those of the merger, each file counted for every graph that has
it. -/
theorem statistics_flatten (h : ∀ graph ∈ graphs, (Assoc.keys graph).Nodup) :
    (statistics graphs.flatten).totalFiles =
        (((Assoc.keys (merge graphs)).map (holding graphs)).sum : Int) ∧
      (statistics graphs.flatten).filesByType = listedTypes.map fun type =>
        (type, ((((Assoc.keys (merge graphs)).filter fun file => typeOf file == type).map
          (holding graphs)).sum : Int)) := by
  constructor
  · have hall := sum_holding h fun _ => true
    rw [List.filter_true, List.countP_true, Assoc.length_keys] at hall
    rw [hall]
    rfl
  · simp only [sum_holding h]
    rfl

theorem length_merge_le (graphs : List Graph) :
    (merge graphs).length ≤ graphs.flatten.length := by
  have hle := length_eraseDups_le (Assoc.keys graphs.flatten)
  rwa [← keys_merge, Assoc.length_keys, Assoc.length_keys] at hle

/-- Merging keeps the number of files exactly when no two graphs share one. -/
theorem length_merge_eq_iff (h : ∀ graph ∈ graphs, (Assoc.keys graph).Nodup) :
    (merge graphs).length = graphs.flatten.length ↔
      graphs.Pairwise fun graph other => (Assoc.keys graph).Disjoint (Assoc.keys other) := by
  have hnodup : (Assoc.keys graphs.flatten).Nodup ↔
      graphs.Pairwise fun graph other => (Assoc.keys graph).Disjoint (Assoc.keys other) := by
    rw [Assoc.keys, List.map_flatten, ← List.flatMap_def, List.nodup_flatMap]
    exact and_iff_right h
  rw [← hnodup, ← length_eraseDups_eq_iff, ← keys_merge, Assoc.length_keys, Assoc.length_keys]

/-- The lists of a graph are those that are found file by file. -/
theorem flatMap_listings_perm (graphs : List Graph) :
    ((Assoc.keys graphs.flatten).eraseDups.flatMap (listings graphs)).Perm
      (graphs.flatten.flatMap Prod.snd) := by
  have hperm := flatMap_filter_perm Prod.fst graphs.flatten
    (nodup_eraseDups (Assoc.keys graphs.flatten))
  rw [List.filter_eq_self.mpr] at hperm
  · have hlists := hperm.flatMap_right Prod.snd
    rw [List.flatMap_assoc] at hlists
    exact hlists
  · intro entry hentry
    rw [List.contains_iff_mem, List.mem_eraseDups]
    exact List.mem_map_of_mem hentry

/-- Merging adds no dependency. -/
theorem dependencies_merge_le (graphs : List Graph) :
    dependencies (merge graphs) ≤ dependencies graphs.flatten := by
  rw [dependencies_eq_length, dependencies_eq_length, merge_eq_union, List.flatMap_map,
    ← (flatMap_listings_perm graphs).length_eq, List.length_flatMap, List.length_flatMap]
  exact Int.ofNat_le.mpr (List.sum_le_sum fun file _ => length_eraseDups_le _)

end Graph

end ImportAtlas
