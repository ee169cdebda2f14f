import ImportAtlas.Proofs.Tree.Reading

set_option autoImplicit false

/-!
# The lines of a drawing

When no name in a tree holds a line end, the drawing has a line for each row and
no other: the first line is the name of the tree, and every other one begins
with a connector or with a column of its margin (`IsRow`).  The names in the tree
of a graph are parts of identifiers (`named_ofGraph`).
-/

namespace ImportAtlas.Tree

open Section

/-- The text does not hold a character. -/
abbrev Lacks (b : Char) (text : String) : Prop :=
  b ∉ text.toList

/-- Every name in the tree has a property. -/
inductive Named (P : String → Prop) : Tree → Prop where
  | folder {name path : String} {children : List Tree} {files : List Leaf} (own : P name)
      (below : ∀ child ∈ children, Named P child) (leaves : ∀ leaf ∈ files, P leaf.name) :
      Named P (.folder name path children files)

theorem Named.name {P : String → Prop} {tree : Tree} (h : tree.Named P) : P tree.name := by
  cases h
  assumption

/-- The text does not hold a character and begins as a row of a drawing does. -/
structure IsRow (b : Char) (row : String) : Prop where
  lacks : Lacks b row
  begins : ∃ c ∈ [' ', '│', '├', '└'], row.toList.head? = some c

variable {b : Char} {tree : Tree} {margin row text : String}

theorem IsRow.append (h : IsRow b row) (htext : Lacks b text) : IsRow b (row ++ text) where
  lacks := by simp [Lacks, h.lacks, htext]
  begins := by
    obtain ⟨c, hc, hhead⟩ := h.begins
    exact ⟨c, hc, by simp [hhead]⟩

/-- A margin is empty, or begins as the rows do. -/
theorem IsRow.behind (h : IsRow b row) (hmargin : margin = "" ∨ IsRow b margin) :
    IsRow b (margin ++ row) := by
  rcases hmargin with rfl | hmargin
  · rwa [String.empty_append]
  · exact hmargin.append h.lacks

theorem isRow_connector (hb : b = '\n' ∨ b = '\r') (last : Bool) : IsRow b (connector last) := by
  refine ⟨?_, ?_⟩
  · rcases hb with rfl | rfl <;> cases last <;> decide +kernel
  · cases last
    · exact ⟨'├', by decide, by decide +kernel⟩
    · exact ⟨'└', by decide, by decide +kernel⟩

theorem isRow_continuation (hb : b = '\n' ∨ b = '\r') (last : Bool) :
    IsRow b (continuation last) := by
  refine ⟨?_, ?_⟩
  · rcases hb with rfl | rfl <;> cases last <;> decide +kernel
  · cases last
    · exact ⟨'│', by decide, by decide +kernel⟩
    · exact ⟨' ', by decide, by decide +kernel⟩

/-- The number of dependencies holds no line end. -/
theorem lacks_label (hb : b = '\n' ∨ b = '\r') (showCounts : Bool) {leaf : Leaf}
    (h : Lacks b leaf.name) : Lacks b (label showCounts leaf) := by
  have hdigits : b ∉ Nat.toDigits 10 leaf.dependencyCount := fun hmem =>
    absurd (Nat.isDigit_of_mem_toDigits (by omega) (by omega) hmem)
      (by rcases hb with rfl | rfl <;> decide)
  have hnote : b ∉ " (".toList ∧ b ∉ " deps)".toList := by
    rcases hb with rfl | rfl <;> decide +kernel
  unfold label
  split
  · simpa [Lacks, h, hdigits, and_assoc] using hnote
  · exact h

/-! ## Rows -/

theorem mem_rows {row : Row} {last : Bool} (h : (row, last) ∈ rows tree) :
    (∃ child ∈ tree.children, row = .folder child) ∨ ∃ leaf ∈ tree.files, row = .file leaf := by
  have hrow : row ∈ (rows tree).map Prod.fst := List.mem_map.mpr ⟨_, h, rfl⟩
  rw [rows, markLast_map_fst, List.mem_append, List.mem_map, List.mem_map] at hrow
  rcases hrow with ⟨child, hchild, rfl⟩ | ⟨leaf, hleaf, rfl⟩
  · exact .inl ⟨child, List.mem_mergeSort.mp hchild, rfl⟩
  · exact .inr ⟨leaf, List.mem_mergeSort.mp hleaf, rfl⟩

theorem isRow_file (hb : b = '\n' ∨ b = '\r') (hmargin : margin = "" ∨ IsRow b margin)
    (last showCounts : Bool) {leaf : Leaf} (h : Lacks b leaf.name) :
    IsRow b (margin ++ connector last ++ label showCounts leaf) :=
  ((isRow_connector hb last).behind hmargin).append (lacks_label hb showCounts h)

/-- Every line below a folder is a row. -/
theorem isRow_of_mem_linesBelow (hb : b = '\n' ∨ b = '\r') {showCounts : Bool} {levels : Nat}
    (hmargin : margin = "" ∨ IsRow b margin) (h : tree.Named (Lacks b)) :
    ∀ line ∈ linesBelow showCounts levels margin tree, IsRow b line := by
  induction levels generalizing margin tree with
  | zero =>
    intro line hline
    rw [linesBelow] at hline
    obtain ⟨⟨row, last⟩, hrow, hline⟩ := List.mem_flatMap.mp hline
    cases h with
    | folder own below leaves =>
      rcases mem_rows hrow with ⟨child, -, rfl⟩ | ⟨leaf, hleaf, rfl⟩
      · cases hline
      · obtain rfl := List.mem_singleton.mp hline
        exact isRow_file hb hmargin last showCounts (leaves leaf hleaf)
  | succ levels ih =>
    intro line hline
    rw [linesBelow] at hline
    obtain ⟨⟨row, last⟩, hrow, hline⟩ := List.mem_flatMap.mp hline
    cases h with
    | folder own below leaves =>
      rcases mem_rows hrow with ⟨child, hchild, rfl⟩ | ⟨leaf, hleaf, rfl⟩
      · have hnamed := below child hchild
        rcases List.mem_cons.mp hline with rfl | hline
        · have hrow := ((isRow_connector hb last).behind hmargin).append hnamed.name
          exact hrow.append (by rcases hb with rfl | rfl <;> decide +kernel)
        · exact ih (.inr ((isRow_continuation hb last).behind hmargin)) hnamed line hline
      · obtain rfl := List.mem_singleton.mp hline
        exact isRow_file hb hmargin last showCounts (leaves leaf hleaf)

/-- The lines of a drawing are the name of the tree and a row for each folder and file that is
drawn. -/
theorem linesOf_render_of_named (h : tree.Named (Lacks '\n')) (maxDepth : Int)
    (showCounts : Bool) :
    linesOf (render tree maxDepth showCounts).toList =
      (lines tree maxDepth showCounts).map String.toList := by
  refine linesOf_render ?_
  rw [lines, List.forall_mem_cons]
  exact ⟨by simp [h.name],
    fun row hrow => (isRow_of_mem_linesBelow (.inl rfl) (.inl rfl) h row hrow).lacks⟩

/-! ## The names in the tree of a graph -/

theorem named_empty {P : String → Prop} {name : String} (h : P name) (path : String) :
    (empty name path).Named P :=
  .folder h nofun nofun

/-- Placing a leaf brings its name and those of the folders that lead to it. -/
theorem Named.place {P : String → Prop} {leaf : Leaf} {segments : List String}
    (h : tree.Named P) (hleaf : P leaf.name) (hsegments : ∀ segment ∈ segments, P segment) :
    (place leaf segments tree).Named P := by
  induction segments generalizing tree with
  | nil =>
    cases h with
    | folder own below leaves =>
      refine .folder own below fun other hother => ?_
      rcases List.mem_append.mp hother with hother | hother
      · exact leaves other hother
      · rwa [List.mem_singleton.mp hother]
  | cons segment rest ih =>
    obtain ⟨hsegment, hrest⟩ := List.forall_mem_cons.mp hsegments
    cases h with
    | folder own below leaves =>
      rw [Tree.place]
      split
      · refine .folder own (fun child hchild => ?_) leaves
        obtain ⟨other, hother, rfl⟩ := List.mem_map.mp hchild
        split
        · exact ih (below other hother) hrest
        · exact below other hother
      · refine .folder own (fun child hchild => ?_) leaves
        rcases List.mem_append.mp hchild with hchild | hchild
        · exact below child hchild
        · rw [List.mem_singleton.mp hchild]
          exact ih (named_empty hsegment _) hrest

/-- Every name in the tree of a graph is that of its top or part of a path. -/
theorem named_ofGraph {P : String → Prop} {graph : Graph} {rootName : String} (hroot : P rootName)
    (h : ∀ identifier ∈ vertices graph, ∀ segment ∈ segments identifier, P segment) :
    (ofGraph graph rootName).Named P := by
  unfold ofGraph
  generalize vertices graph = identifiers at h ⊢
  induction identifiers using List.reverseRecOn with
  | nil => exact named_empty hroot rootName
  | append_singleton identifiers identifier ih =>
    rw [List.foldl_append, List.foldl_cons, List.foldl_nil]
    have hbefore := ih fun other hother => h other (List.mem_append_left _ hother)
    by_cases hplace : HasPlace identifier
    · have hparts := h identifier (by simp)
      rw [← @dropLast_append_leafOf_name graph _ hplace] at hparts
      rw [placeFile_of_hasPlace hplace]
      exact hbefore.place (hparts _ (by simp)) fun segment hsegment =>
        hparts segment (List.mem_append_left _ hsegment)
    · rwa [placeFile_of_not_hasPlace hplace]

end ImportAtlas.Tree
