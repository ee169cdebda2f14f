import ImportAtlas.Proofs.Analysis.Merging
import ImportAtlas.Proofs.Analysis.Outcomes
import ImportAtlas.Proofs.Report.LastUpdate
import ImportAtlas.Proofs.Report.Shown
import ImportAtlas.Proofs.Tree.Lines

set_option autoImplicit false

/-!
# One report, one section

A report is meant to be one section of its document: no line behind its first
one begins as a top-level heading.  This is so unless a text that the report shows
as it is brings such a line (`one_section_iff`); among one-line texts only the
name of the folder that heads the tree can.  A report that is one section is cut
out whole by the next update.
-/

namespace ImportAtlas.Report

open Section Text

/-- Read from a file, the report has no top-level heading behind its first line. -/
def IsOneSection (r : Report) : Prop :=
  ∀ line ∈ (linesOf (unifyLineEnds r.text.toList)).tail, ¬ ['#', ' '] <+: line

instance (r : Report) : Decidable (IsOneSection r) :=
  inferInstanceAs (Decidable (∀ line ∈ _, _))

/-- A report of what an analysis or a batch finds. -/
inductive IsFound (disk : Disk) (options : Options) (title : String) : Report → Prop where
  | entry {path : Path} {a : Analysis} (h : Analysis.ofEntry disk options path = .ok a) :
      IsFound disk options title (a.report title)
  | batch {workers : Int} {entries : List String} {b : Batch} {data : Merged}
      (h : Batch.Returns workers disk options entries b) (hdata : b.data? = some data) :
      IsFound disk options title (data.report title)

variable {disk : Disk} {options : Options} {context : Project.Context} {title : String}
  {r : Report} {graph : Graph}

theorem isOneSection_iff (hkeys : (Assoc.keys r.graph).Nodup) (hn : '\n' ∉ r.title.toList)
    (hr : '\r' ∉ r.title.toList) : IsOneSection r ↔
      (∀ text ∈ shownTexts r, ¬ HasInnerHeading text.toList) ∧ ¬ Brings r.directoryTree := by
  rw [← not_iff_not, not_and_or]
  push Not
  rw [← hasInnerHeading_text hkeys hn hr, ← exists_heading_iff]
  simp [IsOneSection]

/-! ## Updating -/

/-- The heading is a line of its own. -/
theorem exists_text_eq (r : Report) :
    ∃ rest, r.text.toList = ("# " ++ r.title).toList ++ '\n' :: rest := by
  obtain ⟨rest, hhead, -⟩ := headLines_eq r
  rw [toList_text, lines, hhead]
  simp only [List.cons_append, List.map_cons, String.toList_append]
  generalize List.map String.toList _ = others
  cases others with
  | nil => exact ⟨[], by simp [joinLines]⟩
  | cons second others =>
    refine ⟨'\n' :: joinLines (second :: others), ?_⟩
    rw [joinLines_cons_cons]
    simp

theorem markerOf_text (hn : '\n' ∉ r.title.toList) :
    markerOf r.text.toList = ("# " ++ r.title).toList := by
  obtain ⟨rest, hrest⟩ := exists_text_eq r
  have hmarker : ∀ c ∈ ("# " ++ r.title).toList, (c != '\n') = true := by
    intro c hc
    simp only [bne_iff_ne]
    rintro rfl
    simp [hn] at hc
  rw [hrest, markerOf, List.takeWhile_append_of_pos hmarker]
  simp

theorem IsOneSection.isReport (h : IsOneSection r) (hn : '\n' ∉ r.title.toList) :
    IsReport ("# " ++ r.title).toList r.text.toList where
  begins := markerOf_text hn
  single := by
    rintro line hline ⟨rest, rfl, -⟩
    exact h _ hline ⟨rest, rfl⟩

/-- The next update cuts out a report that is one section, and nothing else. -/
theorem IsOneSection.replace_eq (h : IsOneSection r) (hn : '\n' ∉ r.title.toList)
    (hr : '\r' ∉ r.title.toList) {front : List (List Char)} {content : List Char}
    (hfront : ∀ line ∈ front, '\n' ∉ line ∧ ¬ IsMarkerLine ("# " ++ r.title).toList line)
    (hcontent : markerOf content = ("# " ++ r.title).toList) :
    replace content (joinLines (front ++ linesOf (unifyLineEnds r.text.toList))) =
      spaced (partsAround front [] ++ [content]) := by
  have hreturn : '\r' ∉ ("# " ++ r.title).toList := by simp [hr]
  obtain ⟨body, hbody, hruns⟩ := (h.isReport hn).linesOf_eq hreturn
  have hlines : ∀ line ∈ front ++ linesOf (unifyLineEnds r.text.toList), '\n' ∉ line := by
    intro line hline
    rcases List.mem_append.mp hline with hline | hline
    · exact (hfront line hline).1
    · exact not_mem_of_mem_linesOf hline
  have hmarker : IsMarkerLine ("# " ++ r.title).toList ("# " ++ r.title).toList :=
    ⟨[], by simp, nofun⟩
  have hsplits := @Splits.present _ front body [] _ (fun line hline => (hfront line hline).2)
    hmarker hruns nofun
  refine Splits.replace_eq ?_
  rw [linesOf_joinLines (by simp [hbody]) hlines, hbody, hcontent]
  simpa using hsplits

/-! ## The folder tree -/

theorem brings_iff {text : String} (hn : '\n' ∉ text.toList) (hr : '\r' ∉ text.toList) :
    Brings text ↔ ['#', ' '] <+: text.toList := by
  rw [Brings, hasInnerHeading_cons]
  simp [not_hasInnerHeading_of_not_mem hn hr]

/-- With names of one line only the name of the tree can begin as a heading. -/
theorem brings_render_iff {tree : Tree} (hn : tree.Named (Tree.Lacks '\n'))
    (hr : tree.Named (Tree.Lacks '\r')) (maxDepth : Int) (showCounts : Bool) :
    Brings (tree.render maxDepth showCounts) ↔ ['#', ' '] <+: tree.name.toList := by
  have hrows : ¬ ∃ row ∈ tree.linesBelow showCounts maxDepth.toNat "", Brings row := by
    rintro ⟨row, hrow, hbrings⟩
    have hrow' := Tree.isRow_of_mem_linesBelow (.inl rfl) (.inl rfl) hn row hrow
    have hrow'' := Tree.isRow_of_mem_linesBelow (.inr rfl) (.inl rfl) hr row hrow
    -- but a row begins with its margin or its connector
    obtain ⟨rest, hrest⟩ := (brings_iff hrow'.lacks hrow''.lacks).mp hbrings
    obtain ⟨c, hc, hhead⟩ := hrow'.begins
    rw [← hrest] at hhead
    obtain rfl : '#' = c := Option.some.inj hhead
    simp at hc
  have hhead : Brings (tree.name ++ "/") ↔ ['#', ' '] <+: tree.name.toList := by
    rw [brings_iff (by simpa using hn.name) (by simpa using hr.name), String.toList_append]
    exact prefix_append_cons (by decide) tree.name.toList []
  have hjoin : '\n' :: (tree.render maxDepth showCounts).toList =
      joinLines ([] :: (tree.lines maxDepth showCounts).map String.toList) := by
    rw [Tree.render, String.toList_intercalate]
    rfl
  rw [Brings, hjoin, hasInnerHeading_joinLines, or_iff_right hasInnerHeading_nil, Tree.lines,
    List.map_cons, List.exists_mem_cons_iff, ← hhead]
  refine or_iff_left fun hmem => hrows ?_
  simpa using hmem

/-- A report shows the tree of a graph below the head folder of a project, and the files of the
graph. -/
structure ShowsTree (r : Report) (options : Options) (context : Project.Context) (graph : Graph) :
    Prop where
  drawn : r.directoryTree =
    (Tree.ofGraph graph (Analysis.treeName context)).render options.treeDepth options.showCounts
  files : ∀ entry ∈ graph, entry.1 ∈ Assoc.keys r.graph ∧
    entry.2 ⊆ (Assoc.get? entry.1 r.graph).getD []

theorem ShowsTree.mem_shownTexts (h : ShowsTree r options context graph) {identifier : String}
    (hvertex : identifier ∈ Tree.vertices graph) : identifier ∈ shownTexts r := by
  have hshown : ∀ file ∈ Assoc.keys r.graph,
      ∀ text ∈ file :: (Assoc.get? file r.graph).getD [], text ∈ shownTexts r := by
    intro file hfile text htext
    simp only [shownTexts, List.mem_cons, List.mem_append, List.mem_flatMap]
    exact .inr (.inl (.inr ⟨file, hfile, List.mem_cons.mp htext⟩))
  rw [(Tree.vertices_perm graph).mem_iff, List.mem_dedup, List.mem_append] at hvertex
  rcases hvertex with hkey | hdependency
  · obtain ⟨entry, hentry, rfl⟩ := List.mem_map.mp hkey
    exact hshown _ (h.files entry hentry).1 _ List.mem_cons_self
  · obtain ⟨entry, hentry, hmem⟩ := List.mem_flatMap.mp hdependency
    obtain ⟨hfile, hlist⟩ := h.files entry hentry
    exact hshown _ hfile _ (List.mem_cons_of_mem _ (hlist hmem))

/-- With texts of one line the tree brings a heading only in the name of the head folder. -/
theorem ShowsTree.brings_iff (h : ShowsTree r options context graph)
    (hlines : ∀ text ∈ Analysis.treeName context :: shownTexts r,
      '\n' ∉ text.toList ∧ '\r' ∉ text.toList) :
    Brings r.directoryTree ↔ ['#', ' '] <+: (Analysis.treeName context).toList := by
  obtain ⟨hroot, hshown⟩ := List.forall_mem_cons.mp hlines
  have hname := Tree.ofGraph_name graph (Analysis.treeName context)
  rw [h.drawn, brings_render_iff, hname]
  · exact Tree.named_ofGraph hroot.1 fun identifier hvertex segment hsegment =>
      Tree.not_mem_segment (by decide) (by decide) hsegment
        (hshown identifier (h.mem_shownTexts hvertex)).1
  · exact Tree.named_ofGraph hroot.2 fun identifier hvertex segment hsegment =>
      Tree.not_mem_segment (by decide) (by decide) hsegment
        (hshown identifier (h.mem_shownTexts hvertex)).2

/-! ## What an analysis and a batch find -/

theorem exists_ofWalk {path : Path} {a : Analysis}
    (h : Analysis.ofEntry disk options path = .ok a) : ∃ context entry walk,
      Project.Context.create disk options.projectRoot options.maxDepth options.exclude =
        .ok context ∧ a = Analysis.ofWalk context options entry walk := by
  obtain ⟨context, walk, hcontext, -, -, ha⟩ := Analysis.ofEntry_eq_ok h
  exact ⟨context, _, walk, hcontext, ha⟩

/-- What merged data shows besides sums is that of its results. -/
theorem ofResults?_eq_some {results : List Analysis} {data : Merged}
    (h : Merged.ofResults? results = some data) :
    data.dependencyGraph = Graph.merge (results.map Analysis.dependencyGraph) ∧
      ∃ first ∈ results, data.directoryTree = first.directoryTree := by
  cases results with
  | nil => cases h
  | cons first rest =>
    cases h
    exact ⟨rfl, first, List.mem_cons_self, rfl⟩

/-- Every result that a batch merges is that of an entry. -/
theorem exists_ofEntry_of_mem {workers : Int} {entries : List String} {b : Batch}
    (h : Batch.Returns workers disk options entries b) {a : Analysis} (ha : a ∈ b.entryResults) :
    ∃ path, Analysis.ofEntry disk options path = .ok a := by
  obtain ⟨outcomes, houtcomes, hshows⟩ :=
    Batch.exists_outcomes_of_ofEntries (Batch.returns_iff.mp h)
  rw [hshows.analysed, List.mem_filterMap] at ha
  obtain ⟨outcome, hmem, houtcome⟩ := ha
  obtain ⟨entry, -, hentry⟩ := Batch.exists_entry_of_mem houtcomes hmem
  cases hentry with
  | missing => cases houtcome
  | outside => cases houtcome
  | failed => cases houtcome
  | analysed hthere hinside hanalysis =>
    cases houtcome
    exact ⟨_, hanalysis⟩

theorem IsFound.showsTree (h : IsFound disk options title r) :
    r.title = title ∧ (Assoc.keys r.graph).Nodup ∧ ∃ context graph,
      Project.Context.create disk options.projectRoot options.maxDepth options.exclude =
        .ok context ∧ ShowsTree r options context graph := by
  cases h with
  | entry h =>
    obtain ⟨context, file, walk, hcontext, rfl⟩ := exists_ofWalk h
    have hkeys : (Assoc.keys (walk.dependencyGraph context)).Nodup := Assoc.nodup_keys_ofList
    refine ⟨rfl, hkeys, context, walk.dependencyGraph context, hcontext, rfl,
      fun entry hentry => ?_⟩
    have hlist : Assoc.get? entry.1 (walk.dependencyGraph context) = some entry.2 :=
      Assoc.get?_of_mem hkeys hentry
    refine ⟨List.mem_map_of_mem hentry, ?_⟩
    change entry.2 ⊆ (Assoc.get? entry.1 (walk.dependencyGraph context)).getD []
    rw [hlist]
    exact List.Subset.refl _
  | @batch workers entries b data h hdata =>
    obtain ⟨outcomes, houtcomes, hshows⟩ :=
      Batch.exists_outcomes_of_ofEntries (Batch.returns_iff.mp h)
    obtain ⟨hgraph, first, hfirst, htree⟩ := ofResults?_eq_some (hshows.merged.symm.trans hdata)
    obtain ⟨path, hpath⟩ := exists_ofEntry_of_mem h hfirst
    obtain ⟨context, file, walk, hcontext, rfl⟩ := exists_ofWalk hpath
    refine ⟨rfl, ?_, context, walk.dependencyGraph context, hcontext, htree,
      fun entry hentry => ?_⟩
    · change (Assoc.keys data.dependencyGraph).Nodup
      rw [hgraph]
      exact Graph.nodup_keys_merge _
    · have hmem : walk.dependencyGraph context ∈
          b.entryResults.map Analysis.dependencyGraph := List.mem_map_of_mem hfirst
      have hmerge := Graph.mem_merge (List.mem_flatten.mpr ⟨_, hmem, hentry⟩)
      rwa [← hgraph] at hmerge

/-- **When a report is one section.**  The report of an analysis or of a batch has no top-level
heading behind its first line exactly when no text that it shows as it is has one inside, and the
folder tree has none on its lines.  Where these texts and the name of the head folder are lines,
it is one section exactly when that name does not begin as a heading.  The next update cuts out
a report that is one section as a whole, wherever it stands behind other text. -/
theorem one_section_iff (h : IsFound disk options title r) (hn : '\n' ∉ title.toList)
    (hr : '\r' ∉ title.toList) :
    (IsOneSection r ↔
      (∀ text ∈ shownTexts r, ¬ HasInnerHeading text.toList) ∧ ¬ Brings r.directoryTree) ∧
    (∀ context, Project.Context.create disk options.projectRoot options.maxDepth options.exclude =
        .ok context →
      (∀ text ∈ Analysis.treeName context :: shownTexts r,
        '\n' ∉ text.toList ∧ '\r' ∉ text.toList) →
      (IsOneSection r ↔ ¬ ['#', ' '] <+: (Analysis.treeName context).toList)) ∧
    (IsOneSection r → ∀ (front : List (List Char)) (content : List Char),
      (∀ line ∈ front, '\n' ∉ line ∧ ¬ IsMarkerLine ("# " ++ title).toList line) →
      markerOf content = ("# " ++ title).toList →
      replace content (joinLines (front ++ linesOf (unifyLineEnds r.text.toList))) =
        spaced (partsAround front [] ++ [content])) := by
  obtain ⟨rfl, hkeys, context, graph, hcontext, hshows⟩ := h.showsTree
  have hone := isOneSection_iff hkeys hn hr
  refine ⟨hone, fun context' hcontext' hlines => ?_,
    fun hsection front content hfront => hsection.replace_eq hn hr hfront⟩
  obtain rfl : context = context' := Except.ok.inj (hcontext.symm.trans hcontext')
  have hshown : ∀ text ∈ shownTexts r, ¬ HasInnerHeading text.toList := by
    intro text htext
    obtain ⟨hn, hr⟩ := hlines text (List.mem_cons_of_mem _ htext)
    exact not_hasInnerHeading_of_not_mem hn hr
  rw [hone, and_iff_right hshown, hshows.brings_iff hlines]

/-- What is found behind the second file of the pair, which leads nowhere. -/
def pairAnalysis : Analysis where
  entryFile := "b.js"
  dependencyGraph := [("@/b.js", [])]
  directoryTree := "p/\n└── b.js"
  statistics := ⟨1, 0, [("js", 1), ("jsx", 0), ("ts", 0), ("tsx", 0), ("less", 0), ("css", 0),
    ("other", 0)]⟩
  diagnostics := []

/-- Its report is one section, and is replaced behind a line of other text. -/
theorem one_section_iff_pair :
    let r := pairAnalysis.report "Report"
    IsFound Walk.pairDisk Batch.pairOptions "Report" r ∧ IsOneSection r ∧
      replace "# Report\nnew".toList
          (joinLines (["Notes".toList] ++ linesOf (unifyLineEnds r.text.toList))) =
        spaced (partsAround ["Notes".toList] [] ++ ["# Report\nnew".toList]) := by
  intro r
  have hanalysis : Analysis.ofEntry Walk.pairDisk Batch.pairOptions (Path.ofString "b.js") =
      .ok pairAnalysis := by
    decide +kernel
  have hfound : IsFound Walk.pairDisk Batch.pairOptions "Report" r := .entry hanalysis
  obtain ⟨-, hlines, hreplace⟩ := one_section_iff hfound (by decide +kernel) (by decide +kernel)
  have hone : IsOneSection r :=
    (hlines (Walk.pairContext 3) (by decide +kernel) (by decide +kernel)).mpr (by decide +kernel)
  exact ⟨hfound, hone, hreplace hone _ _ (by decide +kernel) (by decide +kernel)⟩

/-- A script with a reference that goes on in the next line, where it looks like a heading. -/
def brokenLineDisk : Disk where
  entries := [(["p"], .folder), (["p", "a.js"], .file "import './b\n# c';\n".toUTF8)]
  workingFolder := ["p"]

/-- The walk enters the script alone and skips the reference. -/
def brokenLineWalk : Walk :=
  ⟨[Walk.pairFile "a.js"], [(Walk.pairFile "a.js", [])],
    [⟨"@/a.js", "locate", "cannot find './b\n# c'"⟩]⟩

def brokenLineReport : Report :=
  (Analysis.ofWalk (Walk.pairContext 3) Batch.pairOptions (Walk.pairFile "a.js")
    brokenLineWalk).report "Report"

theorem isFound_brokenLineReport :
    IsFound brokenLineDisk Batch.pairOptions "Report" brokenLineReport := by
  have hwalk : Walk.empty.after (Walk.pairContext 3) brokenLineDisk.view Walk.standardExtractor
      (Path.ofString "a.js") 0 = brokenLineWalk := by
    decide +kernel
  have hcreate : Project.Context.create brokenLineDisk none 3 [] = .ok (Walk.pairContext 3) := by
    decide +kernel
  have hanalysis := @Analysis.ofEntry_of_canRead brokenLineDisk Batch.pairOptions _
    (Path.ofString "a.js") hcreate ⟨by decide, by decide⟩ (by decide +kernel)
    (Path.isSpelled_ofString "a.js") (by decide +kernel)
  rw [hwalk] at hanalysis
  exact .entry hanalysis

/-- A reference brings a heading into a report, and the next update keeps what stands behind it. -/
theorem broken_line_keeps_rest :
    IsFound brokenLineDisk Batch.pairOptions "Report" brokenLineReport ∧
    ¬ IsOneSection brokenLineReport ∧
    replace brokenLineReport.text.toList (unifyLineEnds brokenLineReport.text.toList) =
      "# c'\n\n".toList ++ brokenLineReport.text.toList := by
  refine ⟨isFound_brokenLineReport, ?_, ?_⟩
  · rw [isOneSection_iff (by decide +kernel) (by decide +kernel) (by decide +kernel)]
    intro hplain
    exact hplain.1 "cannot find './b\n# c'" (by decide +kernel) (by decide +kernel)
  · rw [toList_text]
    decide +kernel

end ImportAtlas.Report
