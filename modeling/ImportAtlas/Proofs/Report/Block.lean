import ImportAtlas.Proofs.Json.Lines
import ImportAtlas.Proofs.Report.Lines
import ImportAtlas.Proofs.Tree.Lines
import ImportAtlas.Report.Markdown

set_option autoImplicit false

/-!
# The block of the graph

A report shows its graph as a block of JSON between two fences.  Nothing that
stands before the block opens one of its kind (`Unopened`), and nothing inside
closes it, since every line of a document begins with a bracket or a space
(`closing_not_mem_graphText`).  So the first block of the kind is the graph's,
and it reads back as the graph (`graph_block_read`).
-/

namespace ImportAtlas

/-! ## Reading a graph -/

namespace Json

/-- The text of a string. -/
def text? : Json → Option String
  | .string text => Text.text? text
  | _ => none

/-- The texts of an array of strings. -/
def texts? : Json → Option (List String)
  | .array items => items.mapM text?
  | _ => none

end Json

namespace Graph

/-- The graph of a document, if it is one: an object whose members are arrays of texts. -/
def ofJson? : Json → Option Graph
  | .object members =>
    members.mapM fun member => do return (← Text.text? member.1, ← member.2.texts?)
  | _ => none

theorem mapM_map_eq_some {α β : Type} {f : α → Option β} {g : β → α} (h : ∀ b, f (g b) = some b)
    (items : List β) : (items.map g).mapM f = some items := by
  induction items with
  | nil => rfl
  | cons b items ih => simp [h, ih]

/-- A graph is read back from its document. -/
theorem ofJson?_json (graph : Graph) : ofJson? graph.json = some graph := by
  have htexts : ∀ texts, (Json.strings texts).texts? = some texts :=
    mapM_map_eq_some (g := fun text : String => Json.string text) Text.text?_points
  exact mapM_map_eq_some (fun (file, dependencies) => by simp [htexts]) graph

theorem isWritable_json {graph : Graph} (h : (Assoc.keys graph).Nodup) : graph.json.IsWritable := by
  have hkeys : Assoc.keys (graph.map fun entry => (Text.points entry.1, Json.strings entry.2)) =
      (Assoc.keys graph).map Text.points := by
    simp [Assoc.keys, Function.comp_def]
  refine .object (hkeys ▸ h.map Text.points_injective) (fun member hmember => ?_)
    fun member hmember => ?_
  · obtain ⟨entry, -, rfl⟩ := List.mem_map.mp hmember
    exact Json.sealed_points entry.1
  · obtain ⟨⟨file, dependencies⟩, -, rfl⟩ := List.mem_map.mp hmember
    refine .array fun item hitem => ?_
    obtain ⟨text, -, rfl⟩ := List.mem_map.mp hitem
    exact .string (Json.sealed_points text)

end Graph

/-! ## The fences -/

namespace Report

open Section

/-- The line that opens the block of the graph. -/
def opening : List Char := "```json".toList

/-- The line that closes a block. -/
def closing : List Char := "```".toList

/-- No line of the text opens a block of the graph's kind. -/
abbrev Unopened (text : String) : Prop :=
  opening ∉ linesOf text.toList

variable {r : Report} {text : String}

theorem toList_text (r : Report) : r.text.toList = joinLines (r.lines.map String.toList) := by
  rw [Report.text, String.toList_intercalate]
  rfl

theorem linesOf_text (r : Report) :
    linesOf r.text.toList = r.lines.flatMap fun text => linesOf text.toList := by
  have hne : r.lines.map String.toList ≠ [] := by simp [lines, headLines]
  rw [toList_text, linesOf_joinLines_eq_flatMap hne, List.flatMap_map]

/-- A line that begins otherwise opens no block. -/
theorem unopened_line (hline : '\n' ∉ text.toList) (hhead : text.toList.head? ≠ some '\x60') :
    Unopened text := by
  rw [Unopened, linesOf_of_not_mem hline, List.mem_singleton]
  intro heq
  rw [← heq] at hhead
  exact hhead (by decide +kernel)

/-- A line with a blank one behind it opens no block if the line alone opens none. -/
theorem Unopened.paragraph (h : Unopened text) : Unopened (text ++ "\n") := by
  have hlines : linesOf (text ++ "\n").toList = linesOf text.toList ++ [[]] := by
    rw [String.toList_append]
    exact linesOf_append text.toList []
  rw [Unopened, hlines, List.mem_append]
  rintro (hmem | hmem)
  · exact h hmem
  · exact absurd hmem (by decide)

theorem line_end_not_mem_repr (n : Int) : '\n' ∉ n.repr.toList := fun hmem =>
  absurd (Json.isNumberChar_of_mem_toString n _ hmem) (by decide)

/-- The title, the entries and the names of the file types that a report shows are single lines. -/
structure HasPlainHead (r : Report) : Prop where
  title : '\n' ∉ r.title.toList
  entryFile : '\n' ∉ r.entryFile.toList
  entries : ∀ entry ∈ r.entries, '\n' ∉ entry.entryFile.toList
  fileTypes : ∀ counted ∈ r.statistics.filesByType, '\n' ∉ counted.1.toList

theorem unopened_headLines (h : r.HasPlainHead) : ∀ text ∈ headLines r, Unopened text := by
  have htitle : Unopened ("# " ++ r.title) :=
    unopened_line (by simp [h.title]) (by simp)
  have hentry : Unopened ("**Entry file:** " ++ code r.entryFile) :=
    unopened_line (by simp [code, h.entryFile]) (by simp)
  intro text htext
  rcases List.mem_cons.mp htext with rfl | htext
  · exact htitle.paragraph
  · split at htext
    · cases htext
    · obtain rfl := List.mem_singleton.mp htext
      exact hentry.paragraph

theorem unopened_statisticsLines (h : r.HasPlainHead) :
    ∀ text ∈ statisticsLines r, Unopened text := by
  intro text htext
  simp only [statisticsLines, List.mem_append, List.mem_cons, List.mem_map, List.mem_filter,
    List.not_mem_nil, or_false] at htext
  rcases htext with ((rfl | rfl | rfl | rfl | rfl) | ⟨counted, ⟨hcounted, -⟩, rfl⟩) | rfl
  · decide +kernel
  · exact unopened_line (by simp [line_end_not_mem_repr]) (by simp)
  · exact unopened_line (by simp [line_end_not_mem_repr]) (by simp)
  · decide +kernel
  · decide +kernel
  · exact unopened_line (by simp [line_end_not_mem_repr, h.fileTypes counted hcounted]) (by simp)
  · decide +kernel

theorem unopened_entryLines (h : r.HasPlainHead) : ∀ text ∈ entryLines r, Unopened text := by
  intro text htext
  unfold entryLines at htext
  split at htext
  · cases htext
  · simp only [List.mem_append, List.mem_map, List.mem_singleton] at htext
    rcases htext with (rfl | ⟨entry, hentry, rfl⟩) | rfl
    · decide +kernel
    · exact unopened_line
        (by simp [code, line_end_not_mem_repr, h.entries entry hentry]) (by simp)
    · decide +kernel

theorem unopened_treeLines (h : Unopened r.directoryTree) :
    ∀ text ∈ treeLines r, Unopened text := by
  intro text htext
  unfold treeLines at htext
  split at htext
  · cases htext
  · simp only [List.mem_cons, List.not_mem_nil, or_false] at htext
    rcases htext with rfl | rfl | rfl | rfl
    · decide +kernel
    · decide +kernel
    · exact h
    · decide +kernel

/-! ## The block -/

/-- What a report says before the block of its graph. -/
def linesBefore (r : Report) : List String :=
  headLines r ++ statisticsLines r ++ entryLines r ++ treeLines r ++ ["## Dependencies\n"]

/-- What a report says behind the block. -/
def linesBehind (r : Report) : List String :=
  filesLines r ++ skippedLines r

theorem lines_eq (r : Report) :
    r.lines = linesBefore r ++ "```json" :: graphText r :: "```\n" :: linesBehind r := by
  simp only [lines, graphLines, linesBefore, linesBehind, List.append_assoc, List.cons_append,
    List.nil_append]

theorem unopened_linesBefore (h : r.HasPlainHead) (htree : Unopened r.directoryTree) :
    ∀ text ∈ linesBefore r, Unopened text := by
  intro text htext
  simp only [linesBefore, List.mem_append, List.mem_singleton] at htext
  rcases htext with (((htext | htext) | htext) | htext) | rfl
  · exact unopened_headLines h text htext
  · exact unopened_statisticsLines h text htext
  · exact unopened_entryLines h text htext
  · exact unopened_treeLines htree text htext
  · decide +kernel

/-- No line of the document closes the block. -/
theorem closing_not_mem_graphText (h : (Assoc.keys r.graph).Nodup) :
    closing ∉ linesOf r.graphText.toList := by
  have hindented : Json.Indented r.graphText.toList :=
    Json.indented_textAt (Graph.isWritable_json h) 0
  have hhead : r.graphText.toList.head? = some '\x7b' := Json.head_textAt_object .lines 0 _
  intro hmem
  rcases List.infix_cons_iff.mp (infix_of_mem_linesOf hmem) with hfirst | hrest
  · obtain ⟨rest, hrest⟩ := (List.prefix_cons_inj '\n').mp hfirst
    simp [← hrest, closing] at hhead
  · have hchain := hindented.lines.infix hrest
    simp [closing, Json.Follows] at hchain

/-- **The block of a report reads back as its graph.**  Whatever the files and dependencies of a
graph are called, the lines of the report between the first that opens a block of JSON and the next
that closes one are a document of the graph, with the same files in the same order and the same
lists; the title, the entries and the file types must be single lines, and no line of the folder
tree may open such a block.  A drawn tree has no such line when its names are single lines. -/
theorem graph_block_read :
    (∀ r : Report, (Assoc.keys r.graph).Nodup → r.HasPlainHead → Unopened r.directoryTree →
      ∃ before block after,
        linesOf r.text.toList = before ++ opening :: (block ++ closing :: after) ∧
          opening ∉ before ∧ closing ∉ block ∧
          (Json.parse? (String.ofList (joinLines block))).bind Graph.ofJson? = some r.graph) ∧
    ∀ (tree : Tree) (maxDepth : Int) (showCounts : Bool), tree.Named (Tree.Lacks '\n') →
      Unopened (tree.render maxDepth showCounts) := by
  constructor
  · intro r hkeys hhead htree
    refine ⟨(linesBefore r).flatMap fun text => linesOf text.toList, linesOf r.graphText.toList,
      [] :: (linesBehind r).flatMap fun text => linesOf text.toList, ?_, ?_,
      closing_not_mem_graphText hkeys, ?_⟩
    · rw [linesOf_text, lines_eq, List.flatMap_append]
      rfl
    · intro hmem
      obtain ⟨text, htext, hopens⟩ := List.mem_flatMap.mp hmem
      exact unopened_linesBefore hhead htree text htext hopens
    · rw [joinLines_linesOf, String.ofList_toList, graphText,
        Json.parse?_write (Graph.isWritable_json hkeys), Option.bind_some, Graph.ofJson?_json]
  · intro tree maxDepth showCounts hnamed
    have hhead : opening.head? = some '\x60' := by decide +kernel
    have hlast : opening.getLast? = some 'n' := by decide +kernel
    rw [Unopened, Tree.linesOf_render_of_named hnamed, List.mem_map]
    rintro ⟨line, hline, hopens⟩
    rcases List.mem_cons.mp hline with rfl | hline
    · -- the name of the tree ends with a slash
      rw [← hopens, String.toList_append, List.getLast?_append] at hlast
      cases hlast
    · obtain ⟨c, hc, hbegins⟩ :=
        (Tree.isRow_of_mem_linesBelow (.inl rfl) (.inl rfl) hnamed line hline).begins
      obtain rfl : '\x60' = c := Option.some.inj (hhead.symm.trans (hopens ▸ hbegins))
      simp at hc

/-- A report whose files look like fences, quotes and line ends, below a drawn tree. -/
def fencedReport : Report where
  title := "```json"
  entryFile := "@/```json"
  statistics := ⟨2, 1, [("js", 2)]⟩
  entries := []
  directoryTree := Tree.render (.folder "```json" "" [] [⟨"```json", "@/```json", 1⟩]) 3 true
  graph := [("@/```json", ["a\n```\n```json", "\"\\"]), ("a\n```\n```json", []), ("\"\\", ["\t"])]
  diagnostics := []

/-- Fences in the names of files do not end the block, nor do they begin another before it. -/
theorem graph_block_read_fenced : ∃ before block after,
    linesOf fencedReport.text.toList = before ++ opening :: (block ++ closing :: after) ∧
      opening ∉ before ∧ closing ∉ block ∧
      (Json.parse? (String.ofList (joinLines block))).bind Graph.ofJson? =
        some fencedReport.graph := by
  have hplain : fencedReport.HasPlainHead :=
    ⟨by decide +kernel, by decide +kernel, nofun, by decide +kernel⟩
  have htree : Unopened fencedReport.directoryTree :=
    graph_block_read.2 _ 3 true (.folder (by decide +kernel) nofun (by decide +kernel))
  exact graph_block_read.1 fencedReport (by decide +kernel) hplain htree

end Report

end ImportAtlas
