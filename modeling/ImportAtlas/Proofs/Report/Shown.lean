import ImportAtlas.Proofs.Report.Block
import ImportAtlas.Proofs.Report.Headings

set_option autoImplicit false

/-!
# Headings in a report

A report shows texts of its project as they are: identifiers, the folder tree,
and what was skipped.  All else in it, and the graph, whose line ends are
escaped, brings no heading.  So there is a heading inside exactly when one of
these texts brings it (`hasInnerHeading_text`).
-/

namespace ImportAtlas.Report

open Section

/-- On a line of its own the text brings a heading into a document. -/
abbrev Brings (text : String) : Prop :=
  HasInnerHeading ('\n' :: text.toList)

/-- The texts of a project that a report shows as they are, but for the folder tree. -/
def shownTexts (r : Report) : List String :=
  r.entryFile :: ((r.statistics.filesByType.filter fun e => 0 < e.2).map Prod.fst ++
    r.entries.map Analysis.entryFile ++
    (Assoc.keys r.graph).flatMap (fun file => file :: (Assoc.get? file r.graph).getD []) ++
    r.diagnostics.flatMap fun d => [d.file, d.stage, d.message])

variable {r : Report}

theorem exists_mem_flatMap {α β : Type} {l : List α} {f : α → List β} {P : β → Prop} :
    (∃ b ∈ l.flatMap f, P b) ↔ ∃ a ∈ l, ∃ b ∈ f a, P b := by
  simp only [List.mem_flatMap]
  tauto

/-! ## Numbers -/

theorem plain_of_isNumberChar {s : List Char} (h : ∀ c ∈ s, Json.isNumberChar c = true) :
    ∀ c ∈ s, c ∉ ['\n', '\r', '#'] := by
  intro c hc hmem
  have hnumber := h c hc
  simp only [List.mem_cons, List.not_mem_nil, or_false] at hmem
  rcases hmem with rfl | rfl | rfl <;> exact absurd hnumber (by decide)

@[simp] theorem hasInnerHeading_repr_append (n : Int) (b : List Char) :
    HasInnerHeading (n.repr.toList ++ b) ↔ HasInnerHeading b :=
  hasInnerHeading_append_of_plain
    (plain_of_isNumberChar (Json.isNumberChar_of_mem_toString n)) b

@[simp] theorem hasInnerHeading_repr (n : Int) : ¬ HasInnerHeading n.repr.toList := by
  rw [← List.append_nil n.repr.toList, hasInnerHeading_repr_append]
  exact hasInnerHeading_nil

@[simp] theorem hasInnerHeading_toDigits (n : Nat) : ¬ HasInnerHeading (Nat.toDigits 10 n) :=
  not_hasInnerHeading_of_not_mem
    (fun h => plain_of_isNumberChar (Json.isNumberChar_of_mem_toDigits n) _ h (by decide))
    (fun h => plain_of_isNumberChar (Json.isNumberChar_of_mem_toDigits n) _ h (by decide))

/-! ## The sections of a report -/

theorem headLines_eq (r : Report) : ∃ rest, headLines r = ("# " ++ r.title ++ "\n") :: rest ∧
    ((∃ line ∈ rest, Brings line) ↔ HasInnerHeading r.entryFile.toList) := by
  refine ⟨_, rfl, ?_⟩
  split
  · rename_i hempty
    simp [hempty]
  · simp [Brings, code]

theorem statisticsLines_bring : (∃ line ∈ statisticsLines r, Brings line) ↔
    ∃ text ∈ (r.statistics.filesByType.filter fun e => 0 < e.2).map Prod.fst,
      HasInnerHeading text.toList := by
  simp [statisticsLines, Brings, or_and_right, exists_or]

theorem entryLines_bring : (∃ line ∈ entryLines r, Brings line) ↔
    ∃ text ∈ r.entries.map Analysis.entryFile, HasInnerHeading text.toList := by
  unfold entryLines
  split
  · rename_i hempty
    simp [hempty]
  · simp [Brings, code, or_and_right, exists_or]

theorem treeLines_bring : (∃ line ∈ treeLines r, Brings line) ↔ Brings r.directoryTree := by
  unfold treeLines
  split
  · rename_i hempty
    simp [Brings, hempty]
  · simp [Brings]

theorem skippedLines_bring : (∃ line ∈ skippedLines r, Brings line) ↔
    ∃ text ∈ r.diagnostics.flatMap fun d => [d.file, d.stage, d.message],
      HasInnerHeading text.toList := by
  have hline : ∀ d : Diagnostic,
      Brings ("- " ++ code d.file ++ " (" ++ d.stage ++ "): " ++ d.message) ↔
        ∃ text ∈ [d.file, d.stage, d.message], HasInnerHeading text.toList := by
    intro d
    simp [Brings, code]
  rw [exists_mem_flatMap]
  simp only [← hline]
  unfold skippedLines
  split
  · rename_i hnone
    simp [hnone]
  · simp [or_and_right, exists_or]

/-- The graph's block brings no heading: its lines begin with brackets and spaces. -/
theorem graphLines_bring_none (h : (Assoc.keys r.graph).Nodup) :
    ¬ ∃ line ∈ graphLines r, Brings line := by
  have hindented : Json.Indented r.graphText.toList :=
    Json.indented_textAt (Graph.isWritable_json h) 0
  have hreturn : '\r' ∉ r.graphText.toList :=
    Json.return_not_mem_textAt (Graph.isWritable_json h) 0
  have hhead : r.graphText.toList.head? = some '\x7b' := Json.head_textAt_object .lines 0 _
  have hnone : ¬ HasInnerHeading r.graphText.toList := by
    rintro (hn | hr)
    · -- a line of the block begins with a space or a closing bracket
      have hchain := hindented.lines.infix hn
      simp [Json.Follows] at hchain
    · exact hreturn (hr.subset List.mem_cons_self)
  have hstart : ¬ ['#', ' '] <+: r.graphText.toList := by
    rintro ⟨rest, hrest⟩
    simp [← hrest] at hhead
  simp [graphLines, Brings, hnone, hstart]

/-- Of dependencies in a row each brings its own. -/
theorem hasInnerHeading_intercalate (dependencies : List String) :
    HasInnerHeading (", ".intercalate (dependencies.map code)).toList ↔
      ∃ text ∈ dependencies, HasInnerHeading text.toList := by
  induction dependencies with
  | nil => simp
  | cons first rest ih =>
    cases rest with
    | nil => simp [code]
    | cons second rest =>
      rw [String.toList_intercalate] at ih ⊢
      simp only [List.map_cons, List.intercalate_cons_cons] at ih ⊢
      -- the mark behind one dependency and the one before the next are seams without a heading
      rw [List.append_assoc, hasInnerHeading_append (.inr (by simp)),
        hasInnerHeading_append (.inl (by simp)), ih]
      simp [code]

theorem fileLines_bring (file : String) : (∃ line ∈ fileLines r file, Brings line) ↔
    ∃ text ∈ file :: (Assoc.get? file r.graph).getD [], HasInnerHeading text.toList := by
  unfold fileLines
  by_cases hnone : (Assoc.get? file r.graph).getD [] = []
  · simp [hnone, Brings]
  · simp only [hnone, if_false, List.exists_mem_cons_iff, ← hasInnerHeading_intercalate]
    simp [Brings]

theorem groupLines_bring (group : Group) (files : List String) :
    (∃ line ∈ groupLines r group files, Brings line) ↔
      ∃ file ∈ files, ∃ text ∈ file :: (Assoc.get? file r.graph).getD [],
        HasInnerHeading text.toList := by
  have hheading : ¬ Brings ("### " ++ group.name ++ " (" ++ toString files.length ++ ")\n") := by
    cases group <;> simp [Brings, Group.name]
  simp only [← fileLines_bring, ← exists_mem_flatMap]
  unfold groupLines
  split
  · rename_i hempty
    simp [hempty]
  · rw [List.exists_mem_cons_iff]
    exact or_iff_right hheading

theorem exists_mem_filesByGroup (graph : Graph) (P : String → Prop) :
    (∃ entry ∈ filesByGroup graph, ∃ file ∈ entry.2, P file) ↔
      ∃ file ∈ Assoc.keys graph, P file := by
  have hall : ∀ group : Group, group ∈ Group.all := by
    intro group
    cases group <;> decide
  simp [filesByGroup, hall, (Text.sort_perm _).mem_iff]

theorem filesLines_bring : (∃ line ∈ filesLines r, Brings line) ↔
    ∃ text ∈ (Assoc.keys r.graph).flatMap fun file => file :: (Assoc.get? file r.graph).getD [],
      HasInnerHeading text.toList := by
  have hstart : ∀ line ∈ ["## Files\n", "Tracked **" ++ toString r.graph.length ++ "** files:\n"],
      ¬ Brings line := by
    simp [Brings]
  unfold filesLines
  simp only [List.mem_append, or_and_right, exists_or]
  rw [or_iff_right (by push Not; exact hstart), exists_mem_flatMap, exists_mem_flatMap]
  simp only [groupLines_bring]
  exact exists_mem_filesByGroup r.graph _

/-! ## The whole report -/

/-- A report has a heading inside exactly when a text that it shows brings one. -/
theorem hasInnerHeading_text (hkeys : (Assoc.keys r.graph).Nodup) (hn : '\n' ∉ r.title.toList)
    (hr : '\r' ∉ r.title.toList) : HasInnerHeading r.text.toList ↔
      (∃ text ∈ shownTexts r, HasInnerHeading text.toList) ∨ Brings r.directoryTree := by
  obtain ⟨rest, hhead, hrest⟩ := headLines_eq r
  have htitle : ¬ HasInnerHeading ("# " ++ r.title ++ "\n").toList := by
    simp [not_hasInnerHeading_of_not_mem hn hr]
  have hbrings : ∀ texts : List String,
      (∃ line ∈ texts.map String.toList, HasInnerHeading ('\n' :: line)) ↔
        ∃ text ∈ texts, Brings text := by
    simp
  rw [toList_text, lines, hhead]
  simp only [List.cons_append, List.map_cons]
  rw [hasInnerHeading_joinLines, or_iff_right htitle, hbrings]
  simp only [shownTexts, List.exists_mem_cons_iff, List.mem_append, or_and_right, exists_or,
    hrest, statisticsLines_bring, entryLines_bring, treeLines_bring, graphLines_bring_none hkeys,
    filesLines_bring, skippedLines_bring, false_or, or_assoc]
  simp only [or_left_comm, or_comm]

end ImportAtlas.Report
