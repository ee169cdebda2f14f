import ImportAtlas.Graph.Group
import ImportAtlas.Proofs.Graph.Counting

set_option autoImplicit false

/-!
# Groups and types

A report sorts the files of a graph into groups by their identifiers; a walk
counts its files by types and scans them by kinds, both by their paths.  Since an
identifier has the name of its file, the three agree (`groups_agree`), but for a
project root that is a file itself (`not_groups_agree_root`).
-/

namespace ImportAtlas

namespace Path

variable {p : Path}

/-- A suffix is empty, or a dot and the extension. -/
theorem suffix_cases (p : Path) : p.suffix = "" ∨ p.suffix = "." ++ p.extension := by
  unfold extension suffix
  generalize hname : suffixOfName p.name.toList = suffix
  have hsuffix : suffix = [] ∨ ∃ extension, suffix = '.' :: extension := by
    simp only [suffixOfName] at hname
    split at hname
    · exact .inr ⟨_, hname.symm⟩
    · exact .inl hname.symm
  obtain rfl | ⟨extension, rfl⟩ := hsuffix
  · exact .inl rfl
  · exact .inr (by simp)

/-- Stylesheets are the files that are counted as such. -/
theorem kind_eq_style_iff : p.kind = .style ↔ p.fileType ∈ ["less", "css"] := by
  have hkind : p.kind = .style ↔ p.suffix ∈ styleSuffixes := by
    simp [kind]
  have htype : p.fileType ∈ ["less", "css"] ↔ p.extension ∈ ["less", "css"] := by
    unfold fileType
    generalize p.extension = extension
    by_cases hcounted : extension ∈ countedTypes
    · simp [hcounted]
    · simp_all [countedTypes, otherType]
  rw [hkind, htype]
  rcases p.suffix_cases with hsuffix | hsuffix
  · have hextension : p.extension = "" := by
      rw [extension, hsuffix]
      rfl
    simp [hsuffix, hextension, styleSuffixes]
  · have hstyles : styleSuffixes = ["less", "css"].map ("." ++ ·) := by
      decide
    rw [hsuffix, hstyles]
    exact List.mem_map_of_injective fun _ _ => (String.append_right_inj ".").mp

end Path

namespace Group

/-- The types that the files of a group are counted under. -/
def types : Group → List String
  | javaScript => ["js", "jsx"]
  | typeScript => ["ts", "tsx"]
  | stylesheets => ["less", "css"]
  | config => [otherType]
  | other => [otherType]

theorem mem_all (group : Group) : group ∈ all := by
  cases group <;> decide

theorem nodup_all : all.Nodup := by
  decide

/-- The file of an identifier is counted under a type of its group. -/
theorem typeOf_mem_types (file : String) : typeOf file ∈ (ofFile file).types := by
  unfold typeOf Path.fileType ofFile
  generalize (Path.ofString file).extension = extension
  by_cases hlisted : extension ∈ "json" :: countedTypes
  · revert extension
    decide +kernel
  · simp only [countedTypes, List.mem_cons, List.not_mem_nil, or_false, not_or] at hlisted
    simp [all, extensions, countedTypes, types, hlisted]

/-- Groups have the files of some types if no other group has files of these types. -/
theorem mem_groups_iff {groups : List Group} {types : List String}
    (h : ∀ group ∈ all, ∀ type ∈ group.types, (group ∈ groups ↔ type ∈ types)) (file : String) :
    ofFile file ∈ groups ↔ typeOf file ∈ types :=
  h _ (mem_all _) _ (typeOf_mem_types file)

end Group

namespace Graph

/-- The files that a graph has in a group. -/
def filesIn (graph : Graph) (group : Group) : List String :=
  (Assoc.get? group (filesByGroup graph)).getD []

variable {graph : Graph}

theorem filesIn_eq (graph : Graph) (group : Group) :
    graph.filesIn group = (Text.sort (Assoc.keys graph)).filter fun file =>
      Group.ofFile file == group := by
  rw [filesIn, filesByGroup, Assoc.get?_map_of_mem _ (Group.mem_all group), Option.getD_some]

theorem filesByGroup_eq (graph : Graph) :
    filesByGroup graph = Group.all.map fun group => (group, graph.filesIn group) := by
  simp only [filesIn_eq, filesByGroup]

theorem mem_filesIn {group : Group} {file : String} :
    file ∈ graph.filesIn group ↔ file ∈ Assoc.keys graph ∧ Group.ofFile file = group := by
  rw [filesIn_eq, List.mem_filter, (Text.sort_perm _).mem_iff, beq_iff_eq]

/-- Every file is in one group. -/
theorem flatMap_filesByGroup_perm (graph : Graph) :
    ((filesByGroup graph).flatMap Prod.snd).Perm (Assoc.keys graph) := by
  have hall : ∀ file, Group.all.contains (Group.ofFile file) = true := fun file =>
    List.contains_iff_mem.mpr (Group.mem_all _)
  have hsorted := flatMap_filter_perm Group.ofFile (Text.sort (Assoc.keys graph)) Group.nodup_all
  simp only [hall, List.filter_true, ← filesIn_eq] at hsorted
  rw [filesByGroup_eq, List.flatMap_map]
  exact hsorted.trans (Text.sort_perm _)

theorem mem_filesByGroup {group : Group} {files : List String} :
    (group, files) ∈ filesByGroup graph ↔ files = graph.filesIn group := by
  rw [filesByGroup_eq, List.mem_map]
  constructor
  · rintro ⟨_, -, hentry⟩
    obtain ⟨rfl, rfl⟩ := Prod.mk.inj hentry
    rfl
  · rintro rfl
    exact ⟨group, Group.mem_all group, rfl⟩

/-- A file of the graph is listed in its own group only. -/
theorem listed_iff {file : String} (h : file ∈ Assoc.keys graph) {group : Group}
    {files : List String} : (group, files) ∈ filesByGroup graph ∧ file ∈ files ↔
      group = Group.ofFile file ∧ files = graph.filesIn group := by
  rw [mem_filesByGroup]
  constructor
  · rintro ⟨rfl, hfile⟩
    exact ⟨(mem_filesIn.mp hfile).2.symm, rfl⟩
  · rintro ⟨hgroup, rfl⟩
    exact ⟨rfl, mem_filesIn.mpr ⟨h, hgroup.symm⟩⟩

theorem existsUnique_filesByGroup {file : String} (h : file ∈ Assoc.keys graph) :
    ∃! entry, entry ∈ filesByGroup graph ∧ file ∈ entry.2 := by
  -- the group and its files are named, or the entries are compared by computing them
  obtain ⟨group, hgroup⟩ : ∃ group, group = Group.ofFile file := ⟨_, rfl⟩
  obtain ⟨files, hfiles⟩ : ∃ files, files = graph.filesIn group := ⟨_, rfl⟩
  refine ⟨(group, files), (listed_iff h).mpr ⟨hgroup, hfiles⟩, ?_⟩
  rintro ⟨group', files'⟩ hother
  obtain ⟨hgroup', hfiles'⟩ := (listed_iff h).mp hother
  rw [hfiles', hfiles, hgroup', hgroup]

theorem pairwise_filesByGroup {entry : Group × List String} (h : entry ∈ filesByGroup graph) :
    entry.2.Pairwise (· ≤ ·) := by
  rw [mem_filesByGroup.mp h, filesIn_eq]
  exact (Text.sort_pairwise _).filter _

theorem length_filesIn (graph : Graph) (group : Group) :
    (graph.filesIn group).length =
      (Assoc.keys graph).countP fun file => Group.ofFile file == group := by
  rw [filesIn_eq, ← List.countP_eq_length_filter]
  exact (Text.sort_perm _).countP_eq _

/-- Groups have together as many files as are counted under the types of their files. -/
theorem sum_length_filesIn (graph : Graph) (groups : List Group) (types : List String)
    (hgroups : groups.Nodup) (htypes : types.Nodup)
    (h : ∀ group ∈ Group.all, ∀ type ∈ group.types, (group ∈ groups ↔ type ∈ types)) :
    (groups.map fun group => (graph.filesIn group).length).sum =
      (types.map fun type => (Assoc.keys graph).countP fun file => typeOf file == type).sum := by
  simp only [length_filesIn]
  rw [sum_countP Group.ofFile _ hgroups, sum_countP typeOf _ htypes]
  refine List.countP_congr fun file _ => ?_
  rw [List.contains_iff_mem, List.contains_iff_mem, Group.mem_groups_iff h]

/-- The numbers of files in the groups are those of the counts by type. -/
theorem length_filesIn_statistics (graph : Graph) :
    ((graph.filesIn .javaScript).length : Int) =
        graph.statistics.count "js" + graph.statistics.count "jsx" ∧
      ((graph.filesIn .typeScript).length : Int) =
        graph.statistics.count "ts" + graph.statistics.count "tsx" ∧
      ((graph.filesIn .stylesheets).length : Int) =
        graph.statistics.count "less" + graph.statistics.count "css" ∧
      ((graph.filesIn .config).length : Int) + (graph.filesIn .other).length =
        graph.statistics.count otherType := by
  have hscripts := graph.sum_length_filesIn [.javaScript] ["js", "jsx"]
    (by decide) (by decide) (by decide)
  have htyped := graph.sum_length_filesIn [.typeScript] ["ts", "tsx"]
    (by decide) (by decide) (by decide)
  have hstyles := graph.sum_length_filesIn [.stylesheets] ["less", "css"]
    (by decide) (by decide) (by decide)
  have hothers := graph.sum_length_filesIn [.config, .other] [otherType]
    (by decide) (by decide) (by decide)
  simp only [List.map_cons, List.map_nil, List.sum_cons, List.sum_nil, Nat.add_zero] at *
  refine ⟨?_, ?_, ?_, ?_⟩
  · rw [count_statistics graph (by decide), count_statistics graph (by decide)]
    exact_mod_cast hscripts
  · rw [count_statistics graph (by decide), count_statistics graph (by decide)]
    exact_mod_cast htyped
  · rw [count_statistics graph (by decide), count_statistics graph (by decide)]
    exact_mod_cast hstyles
  · rw [count_statistics graph (by decide)]
    exact_mod_cast hothers

end Graph

namespace Walk

open Project

variable {context : Context} {w : Walk}

/-- A file is among the stylesheets of the graph exactly when it is scanned as one. -/
theorem Sound.mem_stylesheets_iff (h : Sound context w) (hroots : w.Rootless context)
    (hnodup : ((Assoc.keys w.graph).map context.identifier).Nodup) {p : Path}
    (hp : p ∈ Assoc.keys w.graph) :
    context.identifier p ∈ (w.dependencyGraph context).filesIn .stylesheets ↔ p.kind = .style := by
  have hkey : context.identifier p ∈ Assoc.keys (w.dependencyGraph context) := by
    rw [dependencyGraph_of_nodup hnodup, keys_named]
    exact List.mem_map_of_mem hp
  have htype : typeOf (context.identifier p) = p.fileType :=
    Path.fileType_of_name (h.name_of_key hroots hp)
  rw [Graph.mem_filesIn, and_iff_right hkey, Path.kind_eq_style_iff, ← htype,
    ← @Group.mem_groups_iff [.stylesheets] _ (by decide), List.mem_singleton]

/-- The groups of a walk's dependency graph have the numbers of files that its statistics count,
and the stylesheets are the files that are scanned as such. -/
structure GroupsAgree (context : Context) (w : Walk) : Prop where
  javaScript : (((w.dependencyGraph context).filesIn .javaScript).length : Int) =
    w.statistics.count "js" + w.statistics.count "jsx"
  typeScript : (((w.dependencyGraph context).filesIn .typeScript).length : Int) =
    w.statistics.count "ts" + w.statistics.count "tsx"
  stylesheets : (((w.dependencyGraph context).filesIn .stylesheets).length : Int) =
    w.statistics.count "less" + w.statistics.count "css"
  others : (((w.dependencyGraph context).filesIn .config).length : Int) +
      ((w.dependencyGraph context).filesIn .other).length =
    w.statistics.count otherType
  styles : ∀ p ∈ Assoc.keys w.graph,
    (context.identifier p ∈ (w.dependencyGraph context).filesIn .stylesheets ↔ p.kind = .style)

/-- **Groups, counts and kinds agree.**  Every file of a graph is in one of its groups, and the
groups are sorted.  After any actions the groups agree with the statistics and with the kinds of the
files, if the files have different identifiers and none of them is a root of the project. -/
theorem groups_agree :
    (∀ graph : Graph,
      (∀ file ∈ Assoc.keys graph, ∃! entry, entry ∈ filesByGroup graph ∧ file ∈ entry.2) ∧
      ((filesByGroup graph).flatMap Prod.snd).Perm (Assoc.keys graph) ∧
      ∀ entry ∈ filesByGroup graph, entry.2.Pairwise (· ≤ ·)) ∧
    ∀ (disk : Disk) (root : Option String) (maxDepth : Int) (exclude : List String)
      (context : Context) (extractor : Extractor) (actions : List Action),
      disk.workingPath.IsNormal →
      Context.create disk (root.map Path.ofString) maxDepth exclude = .ok context →
      let w := (Session.run context extractor ⟨disk, Walk.empty⟩ actions).walk
      ((Assoc.keys w.graph).map context.identifier).Nodup → w.Rootless context →
      w.GroupsAgree context := by
  refine ⟨fun graph => ⟨fun file hfile => graph.existsUnique_filesByGroup hfile,
    graph.flatMap_filesByGroup_perm, fun entry hentry => graph.pairwise_filesByGroup hentry⟩, ?_⟩
  intro disk root maxDepth exclude context extractor actions hdisk hcontext w hnodup hroots
  have hsound : Sound context w := Sound.run (isNormal_of_create hdisk hcontext) .empty actions
  obtain ⟨hscripts, htyped, hstyles, hothers⟩ :=
    (w.dependencyGraph context).length_filesIn_statistics
  rw [← hsound.statistics_eq hroots hnodup] at hscripts htyped hstyles hothers
  exact ⟨hscripts, htyped, hstyles, hothers,
    fun p hp => hsound.mem_stylesheets_iff hroots hnodup hp⟩

/-- A project of files with unusual names. -/
def namesDisk : Disk where
  entries := [(["p"], .folder), (["p", "a.d.ts"], .file .empty), (["p", ".css"], .file .empty),
    (["p", "b.css"], .file .empty), (["p", "js"], .file .empty), (["p", "c."], .file .empty),
    (["p", "d.min.json"], .file .empty)]
  workingFolder := ["p"]

def namesContext : Context :=
  ⟨⟨.root, ["p"]⟩, ⟨.root, ["p"]⟩, 3, []⟩

/-- Of the unusual names only one is that of a stylesheet. -/
theorem groups_agree_names :
    let w := (Session.run namesContext standardExtractor ⟨namesDisk, Walk.empty⟩
      [.track "a.d.ts" 0, .track ".css" 0, .track "b.css" 0, .track "js" 0, .track "c." 0,
        .track "d.min.json" 0]).walk
    w.GroupsAgree namesContext ∧
      (((w.dependencyGraph namesContext).filesIn .stylesheets).length : Int) = 1 ∧
      w.statistics.count otherType = 4 := by
  intro w
  have hagree := groups_agree.2 namesDisk none 3 [] namesContext standardExtractor
    [.track "a.d.ts" 0, .track ".css" 0, .track "b.css" 0, .track "js" 0, .track "c." 0,
      .track "d.min.json" 0] (by decide) (by decide +kernel) (by decide +kernel)
    (by unfold Rootless; decide +kernel)
  exact ⟨hagree, hagree.stylesheets.trans (by decide +kernel), by decide +kernel⟩

/-- A project root that is a file loses its name in its identifier: it is counted under its type
and is in no group of it. -/
theorem not_groups_agree_root :
    ¬ ∀ (disk : Disk) (root : Option String) (maxDepth : Int) (exclude : List String)
      (context : Context) (extractor : Extractor) (actions : List Action),
      disk.workingPath.IsNormal →
      Context.create disk (root.map Path.ofString) maxDepth exclude = .ok context →
      let w := (Session.run context extractor ⟨disk, Walk.empty⟩ actions).walk
      ((Assoc.keys w.graph).map context.identifier).Nodup → w.GroupsAgree context := by
  intro hall
  have hagree := hall ⟨[(["a.js"], .file .empty)], [], []⟩ (some "/a.js") 3 []
    ⟨⟨.root, ["a.js"]⟩, ⟨.root, ["a.js"]⟩, 3, []⟩ standardExtractor [.track "." 0]
    (by decide) (by decide +kernel) (by decide +kernel)
  exact absurd hagree.javaScript (by decide +kernel)

end Walk

end ImportAtlas
