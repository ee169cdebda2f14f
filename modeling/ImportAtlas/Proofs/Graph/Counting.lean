import ImportAtlas.Proofs.Graph.Faithful

set_option autoImplicit false

/-!
# Statistics read off a graph

The identifier of a file ends with the file's own name, and so has its suffix,
its kind and its type; only a root itself has no name below a root.  So the
statistics of a walk are those of its dependency graph, when the files have
different identifiers and none of them is a root (`Sound.statistics_eq`).
-/

namespace ImportAtlas

namespace Path

variable {p q : Path}

theorem suffix_of_name (h : p.name = q.name) : p.suffix = q.suffix := by
  rw [suffix, suffix, h]

theorem fileType_of_name (h : p.name = q.name) : p.fileType = q.fileType := by
  rw [fileType, fileType, extension, extension, suffix_of_name h]

/-- The name is the last part, whatever stands in front of it. -/
theorem name_of_parts (h : p.parts ≠ []) {front : List String}
    (hparts : q.parts = front ++ p.parts) :
    q.name = p.name := by
  rw [name, name, hparts, List.getLast?_append_of_ne_nil front h]

/-- A path below a base, and not the base itself, has the name of what is below. -/
theorem name_of_relativeTo? {base : Path} {below : List String}
    (h : p.relativeTo? base = some below) (hne : p ≠ base) :
    below ≠ [] ∧ p.name = (⟨.relative, below⟩ : Path).name := by
  have hbelow : below ≠ [] := by
    rintro rfl
    exact hne (eq_of_relativeTo? h (relativeTo?_self base))
  exact ⟨hbelow, name_of_parts hbelow (relativeTo?_eq_some.mp h).2⟩

end Path

namespace Project

variable {context : Context} {p : Path}

/-- The identifier of a file ends with the name of the file. -/
theorem name_identifier (hp : Inside context p) (hproject : p ≠ context.projectRoot)
    (hsource : p ≠ context.sourceRoot) :
    (Path.ofString (context.identifier p)).name = p.name := by
  cases hunder : p.relativeTo? context.sourceRoot with
  | some below =>
    obtain ⟨hne, hname⟩ := Path.name_of_relativeTo? hunder hsource
    have hnames := hp.normal.names_of_relativeTo? hunder
    rw [identifier_under hunder, ← partsText_markFolder hne,
      Path.ofString_partsText (List.forall_mem_cons.mpr ⟨isName_markFolder, hnames⟩), hname]
    exact Path.name_of_parts hne (List.singleton_append (x := markFolder)).symm
  | none =>
    obtain ⟨below, hanchor, hparts, -⟩ := hp.below
    have hroot := Path.relativeTo?_eq_some.mpr ⟨hanchor, hparts⟩
    rw [identifier_beside hunder hroot,
      Path.ofString_partsText (hp.normal.names_of_relativeTo? hroot),
      (Path.name_of_relativeTo? hroot hproject).2]

end Project

/-- The type that the file of an identifier is counted under. -/
def typeOf (identifier : String) : String :=
  (Path.ofString identifier).fileType

/-- The number of files that are counted under a type. -/
def Statistics.count (s : Statistics) (type : String) : Int :=
  (Assoc.get? type s.filesByType).getD 0

/-- The statistics that can be read off a graph. -/
def Graph.statistics (graph : Graph) : Statistics where
  totalFiles := graph.length
  totalDependencies := graph.dependencies
  filesByType := listedTypes.map fun type =>
    (type, ((Assoc.keys graph).countP fun file => typeOf file == type : Nat))

theorem Graph.count_statistics (graph : Graph) {type : String} (h : type ∈ listedTypes) :
    graph.statistics.count type =
      ((Assoc.keys graph).countP fun file => typeOf file == type : Nat) := by
  rw [Statistics.count, statistics, Assoc.get?_map_of_mem _ h, Option.getD_some]

/-- Every file is counted under one type. -/
theorem Graph.typedFiles_statistics (graph : Graph) :
    graph.statistics.typedFiles = graph.statistics.totalFiles := by
  have hcount := sum_countP typeOf (Assoc.keys graph) nodup_listedTypes
  simp only [typeOf, Path.fileType_listed, List.countP_true, Assoc.length_keys] at hcount
  rw [Statistics.typedFiles, statistics, typedFiles_of_counts]
  simp only [typeOf, hcount]

namespace Walk

open Project

/-- None of the files of a walk is a root of the project. -/
def Rootless (context : Context) (w : Walk) : Prop :=
  ∀ p ∈ Assoc.keys w.graph, p ≠ context.projectRoot ∧ p ≠ context.sourceRoot

variable {context : Context} {w : Walk}

/-- Under different identifiers the dependency graph is the graph with every path named. -/
theorem dependencyGraph_of_nodup (h : ((Assoc.keys w.graph).map context.identifier).Nodup) :
    w.dependencyGraph context = w.graph.map (named context) := by
  rw [dependencyGraph_eq_ofList, Assoc.ofList_of_nodup]
  rwa [keys_named]

theorem Sound.name_of_key (h : Sound context w) (hroots : w.Rootless context) {p : Path}
    (hp : p ∈ Assoc.keys w.graph) : (Path.ofString (context.identifier p)).name = p.name :=
  name_identifier (h.inside_of_visited (h.mem_keys_iff.mp hp)) (hroots p hp).1 (hroots p hp).2

/-- The statistics of a walk are those of its dependency graph. -/
theorem Sound.statistics_eq (h : Sound context w) (hroots : w.Rootless context)
    (hnodup : ((Assoc.keys w.graph).map context.identifier).Nodup) :
    w.statistics = Graph.statistics (w.dependencyGraph context) := by
  have htypes : ∀ type, (w.graph.countP fun entry => entry.1.fileType == type) =
      (Assoc.keys (w.graph.map (named context))).countP fun file => typeOf file == type := by
    intro type
    rw [keys_named, Assoc.keys, List.map_map, List.countP_map]
    refine List.countP_congr fun entry hentry => ?_
    have hname := h.name_of_key hroots (List.mem_map_of_mem hentry)
    simp [typeOf, Path.fileType_of_name hname]
  rw [dependencyGraph_of_nodup hnodup, Graph.statistics, dependencies_named, List.length_map]
  simp only [← htypes]
  rfl

end Walk

end ImportAtlas
