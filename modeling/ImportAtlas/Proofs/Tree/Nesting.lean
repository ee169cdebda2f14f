import ImportAtlas.Proofs.Tree.Lines

set_option autoImplicit false

/-!
# Drawings as nested rows

The lines of a drawing are nested as its folders are: behind the line of a folder
stand the lines of the rows drawn inside it.  The rows of every folder ascend,
only the last of them has the closing connector, and the lines inside a row go on
from its column (`WellDrawn`).  A smaller limit cuts folders out of the drawing,
each with what is inside it, and changes no other line (`limit_only_hides`).
-/

namespace ImportAtlas.Tree

open Section

/-! ## Rows in their order -/

/-- What a line says of its row. -/
def Row.text (showCounts : Bool) : Row → String
  | .folder child => child.name ++ "/"
  | .file leaf => label showCounts leaf

/-- Folders come before files, and each of them by name. -/
def Row.Precedes : Row → Row → Prop
  | .folder a, .folder b => a.name ≤ b.name
  | .folder _, .file _ => True
  | .file _, .folder _ => False
  | .file a, .file b => a.name ≤ b.name

/-- The subfolders of a folder by name. -/
def foldersByName (tree : Tree) : List Tree :=
  tree.children.mergeSort fun a b => decide (a.name ≤ b.name)

/-- The files of a folder by name. -/
def filesByName (tree : Tree) : List Leaf :=
  tree.files.mergeSort fun a b => decide (a.name ≤ b.name)

/-- The rows of a folder that are drawn when so many levels of subfolders are. -/
def shownRows : (levels : Nat) → Tree → List Row
  | 0, tree => (filesByName tree).map Row.file
  | _ + 1, tree => (foldersByName tree).map Row.folder ++ (filesByName tree).map Row.file

theorem rows_eq (tree : Tree) : rows tree =
    markLast ((foldersByName tree).map Row.folder ++ (filesByName tree).map Row.file) := rfl

/-- Sorted by name, a list ascends by name. -/
theorem pairwise_mergeSort_name {α : Type} (name : α → String) (items : List α) :
    (items.mergeSort fun a b => decide (name a ≤ name b)).Pairwise fun a b => name a ≤ name b := by
  have hsorted := @List.pairwise_mergeSort _ (fun a b => decide (name a ≤ name b))
    (fun a b c hab hbc => by simp only [decide_eq_true_eq] at *; exact String.le_trans hab hbc)
    (fun a b => by simpa using String.le_total (name a) (name b)) items
  exact hsorted.imp of_decide_eq_true

theorem pairwise_files (tree : Tree) :
    ((filesByName tree).map Row.file).Pairwise Row.Precedes :=
  List.pairwise_map.mpr (pairwise_mergeSort_name Leaf.name tree.files)

theorem pairwise_shownRows (levels : Nat) (tree : Tree) :
    (shownRows levels tree).Pairwise Row.Precedes := by
  cases levels with
  | zero => exact pairwise_files tree
  | succ levels =>
    refine List.pairwise_append.mpr ⟨?_, pairwise_files tree, ?_⟩
    · exact List.pairwise_map.mpr (pairwise_mergeSort_name Tree.name tree.children)
    · intro a ha b hb
      obtain ⟨child, -, rfl⟩ := List.mem_map.mp ha
      obtain ⟨leaf, -, rfl⟩ := List.mem_map.mp hb
      trivial

theorem shownRows_perm (levels : Nat) (tree : Tree) :
    (shownRows levels tree).Perm
      ((if levels = 0 then [] else tree.children.map Row.folder) ++ tree.files.map Row.file) := by
  have hfiles := (List.mergeSort_perm tree.files fun a b => decide (a.name ≤ b.name)).map Row.file
  cases levels with
  | zero => exact hfiles
  | succ levels =>
    have hfolders := (List.mergeSort_perm tree.children fun a b => decide (a.name ≤ b.name)).map
      Row.folder
    exact hfolders.append hfiles

/-! ## Nested rows -/

/-- A row as it is drawn: its line, and behind it the rows drawn inside it. -/
structure Block where
  row : Row
  line : String
  inside : List Block

namespace Block

mutual

/-- The line of a row, followed by those inside it. -/
def lines : Block → List String
  | ⟨_, line, inside⟩ => line :: allLines inside

/-- The lines of rows. -/
def allLines : List Block → List String
  | [] => []
  | block :: rest => block.lines ++ allLines rest

end

mutual

/-- A row without the folders nested deeper than a limit, and without all that is inside these;
nothing is left of a folder when the limit is zero. -/
def cut : (limit : Nat) → Block → List Block
  | _, ⟨.file leaf, line, inside⟩ => [⟨.file leaf, line, inside⟩]
  | 0, ⟨.folder _, _, _⟩ => []
  | limit + 1, ⟨.folder child, line, inside⟩ => [⟨.folder child, line, cutAll limit inside⟩]

/-- Rows without the folders nested deeper than a limit, and without all that is inside these. -/
def cutAll : (limit : Nat) → List Block → List Block
  | _, [] => []
  | limit, block :: rest => block.cut limit ++ cutAll limit rest

end

theorem allLines_eq_flatMap (blocks : List Block) : allLines blocks = blocks.flatMap lines := by
  induction blocks with
  | nil => rfl
  | cons block rest ih => rw [allLines, ih, List.flatMap_cons]

theorem cutAll_eq_flatMap (limit : Nat) (blocks : List Block) :
    cutAll limit blocks = blocks.flatMap (cut limit) := by
  induction blocks with
  | nil => rfl
  | cons block rest ih => rw [cutAll, ih, List.flatMap_cons]

theorem mem_lines {line : String} {block : Block} :
    line ∈ block.lines ↔ line = block.line ∨ line ∈ allLines block.inside := by
  obtain ⟨row, text, inside⟩ := block
  rw [lines, List.mem_cons]

end Block

/-- The rows of a folder are drawn as they should be, behind a margin and with so many levels of
subfolders. -/
inductive WellDrawn (showCounts : Bool) :
    (levels : Nat) → (margin : String) → Tree → List Block → Prop where
  | rows {levels : Nat} {margin : String} {tree : Tree} {blocks : List Block}
      (content : (blocks.map Block.row).Perm
        ((if levels = 0 then [] else tree.children.map Row.folder) ++ tree.files.map Row.file))
      (sorted : (blocks.map Block.row).Pairwise Row.Precedes)
      (connectors : ∀ before block after, blocks = before ++ block :: after →
        block.line = margin ++ connector after.isEmpty ++ block.row.text showCounts)
      (columns : ∀ before block after, blocks = before ++ block :: after →
        ∀ line ∈ Block.allLines block.inside, ∃ rest,
          line = margin ++ continuation after.isEmpty ++ rest)
      (files : ∀ block ∈ blocks, ∀ leaf, block.row = .file leaf → block.inside = [])
      (folders : ∀ before block after, blocks = before ++ block :: after →
        ∀ child, block.row = .folder child →
          WellDrawn showCounts (levels - 1) (margin ++ continuation after.isEmpty) child
            block.inside) :
      WellDrawn showCounts levels margin tree blocks

/-! ## A drawing, nested -/

/-- A drawn row. -/
def Row.block (showCounts : Bool) (margin : String) (inside : String → Tree → List Block)
    (row : Row) (last : Bool) : Block where
  row := row
  line := margin ++ connector last ++ row.text showCounts
  inside := match row with
    | .folder child => inside (margin ++ continuation last) child
    | .file _ => []

/-- The drawn rows of a folder. -/
def drawRows (showCounts : Bool) (margin : String) (inside : String → Tree → List Block)
    (rows : List Row) : List Block :=
  (markLast rows).map fun entry => Row.block showCounts margin inside entry.1 entry.2

/-- The rows of a drawing, nested. -/
def nested (showCounts : Bool) : (levels : Nat) → (margin : String) → Tree → List Block
  | 0, margin, tree => drawRows showCounts margin (fun _ _ => []) (shownRows 0 tree)
  | levels + 1, margin, tree =>
    drawRows showCounts margin (nested showCounts levels) (shownRows (levels + 1) tree)

/-- What is drawn inside the folders of a drawing. -/
def nestedInside (showCounts : Bool) : (levels : Nat) → (margin : String) → Tree → List Block
  | 0 => fun _ _ => []
  | levels + 1 => nested showCounts levels

variable {showCounts : Bool} {margin : String} {inside : String → Tree → List Block}
  {rows : List Row}

@[simp] theorem map_row_drawRows :
    (drawRows showCounts margin inside rows).map Block.row = rows := by
  rw [drawRows, List.map_map]
  exact markLast_map_fst rows

theorem nested_eq (showCounts : Bool) (levels : Nat) (margin : String) (tree : Tree) :
    nested showCounts levels margin tree =
      drawRows showCounts margin (nestedInside showCounts levels) (shownRows levels tree) := by
  cases levels <;> rfl

/-- A drawn row knows whether it is the last. -/
theorem exists_block_of_drawRows {before after : List Block} {block : Block}
    (h : drawRows showCounts margin inside rows = before ++ block :: after) :
    ∃ row ∈ rows, block = Row.block showCounts margin inside row after.isEmpty := by
  induction rows generalizing before with
  | nil => simp [drawRows, markLast] at h
  | cons row rows ih =>
    cases before with
    | nil =>
      obtain ⟨rfl, rfl⟩ := List.cons.inj h
      refine ⟨row, List.mem_cons_self, ?_⟩
      cases rows <;> rfl
    | cons first before =>
      obtain ⟨row, hrow, hblock⟩ := ih (List.cons.inj h).2
      exact ⟨row, List.mem_cons_of_mem _ hrow, hblock⟩

theorem mem_of_mem_markLast {α : Type} {items : List α} {entry : α × Bool}
    (h : entry ∈ markLast items) : entry.1 ∈ items := by
  rw [← markLast_map_fst items]
  exact List.mem_map_of_mem h

/-- Folders that give nothing leave the rows behind them as they are. -/
theorem flatMap_markLast_folders {β : Type} {f : Row × Bool → List β}
    (h : ∀ child last, f (.folder child, last) = []) (children : List Tree) (rows : List Row) :
    (markLast (children.map Row.folder ++ rows)).flatMap f = (markLast rows).flatMap f := by
  induction children with
  | nil => rfl
  | cons child children ih =>
    rw [List.map_cons, List.cons_append, markLast, List.flatMap_cons, h, List.nil_append, ih]

/-! ## The lines are those of the drawing -/

theorem allLines_drawRows : Block.allLines (drawRows showCounts margin inside rows) =
    (markLast rows).flatMap fun entry =>
      (Row.block showCounts margin inside entry.1 entry.2).lines := by
  rw [Block.allLines_eq_flatMap, drawRows, List.flatMap_map]

theorem lines_block_file (leaf : Leaf) (last : Bool) :
    ((Row.file leaf).block showCounts margin inside last).lines =
      [margin ++ connector last ++ label showCounts leaf] := rfl

theorem lines_block_folder (child : Tree) (last : Bool) :
    ((Row.folder child).block showCounts margin inside last).lines =
      (margin ++ connector last ++ child.name ++ "/") ::
        Block.allLines (inside (margin ++ continuation last) child) := by
  simp [Row.block, Block.lines, Row.text, String.append_assoc]

theorem allLines_nested (levels : Nat) (margin : String) (tree : Tree) :
    Block.allLines (nested showCounts levels margin tree) =
      linesBelow showCounts levels margin tree := by
  induction levels generalizing margin tree with
  | zero =>
    rw [nested, allLines_drawRows, linesBelow, rows_eq, flatMap_markLast_folders fun _ _ => rfl,
      shownRows]
    refine List.flatMap_congr fun entry hentry => ?_
    obtain ⟨row, last⟩ := entry
    obtain ⟨leaf, -, rfl⟩ := List.mem_map.mp (mem_of_mem_markLast hentry)
    exact lines_block_file leaf last
  | succ levels ih =>
    rw [nested, allLines_drawRows, linesBelow, rows_eq, shownRows]
    refine List.flatMap_congr fun entry _ => ?_
    obtain ⟨row, last⟩ := entry
    cases row with
    | folder child => rw [lines_block_folder, ih]
    | file leaf => exact lines_block_file leaf last

/-! ## The drawing is as it should be -/

/-- Every line inside a folder goes on from its margin. -/
theorem exists_rest_of_mem_nested (levels : Nat) (margin : String) (tree : Tree) :
    ∀ line ∈ Block.allLines (nested showCounts levels margin tree), ∃ rest,
      line = margin ++ rest := by
  induction levels generalizing margin tree with
  | zero =>
    intro line hline
    rw [allLines_nested, linesBelow] at hline
    obtain ⟨⟨row, last⟩, -, hline⟩ := List.mem_flatMap.mp hline
    cases row with
    | folder child => cases hline
    | file leaf =>
      obtain rfl := List.mem_singleton.mp hline
      exact ⟨_, String.append_assoc⟩
  | succ levels ih =>
    intro line hline
    rw [nested, allLines_drawRows] at hline
    obtain ⟨⟨row, last⟩, -, hline⟩ := List.mem_flatMap.mp hline
    rcases Block.mem_lines.mp hline with rfl | hline
    · exact ⟨_, String.append_assoc⟩
    · cases row with
      | folder child =>
        obtain ⟨rest, rfl⟩ := ih _ child line hline
        exact ⟨_, String.append_assoc⟩
      | file leaf => cases hline

theorem exists_rest_of_mem_nestedInside (levels : Nat) (margin : String) (tree : Tree) :
    ∀ line ∈ Block.allLines (nestedInside showCounts levels margin tree), ∃ rest,
      line = margin ++ rest := by
  cases levels with
  | zero => exact fun line hline => nomatch hline
  | succ levels => exact exists_rest_of_mem_nested levels margin tree

theorem wellDrawn_nested (levels : Nat) (margin : String) (tree : Tree) :
    WellDrawn showCounts levels margin tree (nested showCounts levels margin tree) := by
  induction levels using Nat.strongRecOn generalizing margin tree with
  | ind levels ih =>
    rw [nested_eq]
    refine .rows ?_ ?_ ?_ ?_ ?_ ?_
    · rw [map_row_drawRows]
      exact shownRows_perm levels tree
    · rw [map_row_drawRows]
      exact pairwise_shownRows levels tree
    · intro before block after hsplit
      obtain ⟨row, -, rfl⟩ := exists_block_of_drawRows hsplit
      rfl
    · intro before block after hsplit line hline
      obtain ⟨row, -, rfl⟩ := exists_block_of_drawRows hsplit
      cases row with
      | folder child => exact exists_rest_of_mem_nestedInside levels _ child line hline
      | file leaf => cases hline
    · intro block hblock leaf hleaf
      obtain ⟨before, after, hsplit⟩ := List.append_of_mem hblock
      obtain ⟨row, -, rfl⟩ := exists_block_of_drawRows hsplit
      obtain rfl : row = .file leaf := hleaf
      rfl
    · intro before block after hsplit child hchild
      obtain ⟨row, hrow, rfl⟩ := exists_block_of_drawRows hsplit
      obtain rfl : row = .folder child := hchild
      cases levels with
      | zero =>
        obtain ⟨leaf, -, hleaf⟩ := List.mem_map.mp hrow
        cases hleaf
      | succ levels => exact ih levels (Nat.lt_succ_self levels) _ child

/-! ## Cutting folders out -/

/-- Nothing is cut out of a file. -/
theorem cut_block_file (limit : Nat) (other : String → Tree → List Block) (leaf : Leaf)
    (last : Bool) : ((Row.file leaf).block showCounts margin inside last).cut limit =
      [(Row.file leaf).block showCounts margin other last] := by
  cases limit <;> rfl

theorem cut_block_succ (limit : Nat) (row : Row) (last : Bool) :
    (row.block showCounts margin inside last).cut (limit + 1) =
      [row.block showCounts margin (fun margin tree => Block.cutAll limit (inside margin tree))
        last] := by
  cases row <;> rfl

/-- With no level left, files are drawn as they are with any. -/
theorem flatMap_cut_files (margin : String) (tree : Tree) :
    ((markLast ((filesByName tree).map Row.file)).flatMap fun entry =>
      (Row.block showCounts margin inside entry.1 entry.2).cut 0) =
      nested showCounts 0 margin tree := by
  have hfile : ∀ entry ∈ markLast ((filesByName tree).map Row.file),
      (Row.block showCounts margin inside entry.1 entry.2).cut 0 =
        [Row.block showCounts margin (fun _ _ => []) entry.1 entry.2] := by
    intro entry hentry
    obtain ⟨leaf, -, hleaf⟩ := List.mem_map.mp (mem_of_mem_markLast hentry)
    rw [← hleaf]
    exact cut_block_file ..
  rw [List.flatMap_congr hfile, ← List.map_eq_flatMap]
  rfl

theorem cutAll_zero_nested (levels : Nat) (margin : String) (tree : Tree) :
    Block.cutAll 0 (nested showCounts levels margin tree) = nested showCounts 0 margin tree := by
  rw [nested_eq, Block.cutAll_eq_flatMap, drawRows, List.flatMap_map]
  cases levels with
  | zero => exact flatMap_cut_files margin tree
  | succ levels =>
    rw [shownRows, flatMap_markLast_folders fun _ _ => rfl]
    exact flatMap_cut_files margin tree

theorem cutAll_succ_drawRows (limit : Nat) :
    Block.cutAll (limit + 1) (drawRows showCounts margin inside rows) =
      drawRows showCounts margin (fun margin tree => Block.cutAll limit (inside margin tree))
        rows := by
  rw [Block.cutAll_eq_flatMap, drawRows, drawRows, List.flatMap_map, List.map_eq_flatMap]
  exact List.flatMap_congr fun entry _ => cut_block_succ limit entry.1 entry.2

/-- A smaller limit cuts folders out of a drawing. -/
theorem cutAll_nested {m n : Nat} (h : m ≤ n) (margin : String) (tree : Tree) :
    Block.cutAll m (nested showCounts n margin tree) = nested showCounts m margin tree := by
  induction n generalizing m margin tree with
  | zero =>
    obtain rfl := Nat.le_zero.mp h
    exact cutAll_zero_nested 0 margin tree
  | succ n ih =>
    cases m with
    | zero => exact cutAll_zero_nested (n + 1) margin tree
    | succ m =>
      have hinside : (fun margin child => Block.cutAll m (nested showCounts n margin child)) =
          nested showCounts m := by
        funext margin child
        exact ih (Nat.le_of_succ_le_succ h) margin child
      rw [nested, nested, cutAll_succ_drawRows, hinside]
      rfl

/-- **A limit only hides, and every connector is right.**  The lines of a drawing are those of
nested rows that are drawn as they should be; and the drawing with a smaller limit is that with a
larger one without the folders nested deeper than the smaller limit and all that is inside these. -/
theorem limit_only_hides {tree : Tree} (h : tree.Named (Lacks '\n')) (showCounts : Bool) :
    ∃ blocks : Int → List Block,
      (∀ limit : Int,
        linesOf (render tree limit showCounts).toList =
          (tree.name ++ "/").toList :: (Block.allLines (blocks limit)).map String.toList ∧
        WellDrawn showCounts limit.toNat "" tree (blocks limit)) ∧
      ∀ m n : Int, 0 ≤ m → m ≤ n → blocks m = Block.cutAll m.toNat (blocks n) := by
  refine ⟨fun limit => nested showCounts limit.toNat "" tree, fun limit => ⟨?_, ?_⟩, ?_⟩
  · rw [linesOf_render_of_named h, lines, List.map_cons, allLines_nested]
  · exact wellDrawn_nested limit.toNat "" tree
  · intro m n hm hle
    exact (cutAll_nested (Int.toNat_le_toNat hle) "" tree).symm

/-- A tree with a folder in a folder, both with a file, and a file beside them. -/
def branchTree : Tree :=
  .folder "src" "src"
    [.folder "a" "src/a" [.folder "b" "src/a/b" [] [⟨"x.js", "@/a/b/x.js", 2⟩]]
      [⟨"z.js", "@/a/z.js", 0⟩]]
    [⟨"y.js", "@/y.js", 0⟩]

theorem named_branchTree : branchTree.Named (Lacks '\n') := by
  have hb : (Tree.folder "b" "src/a/b" [] [⟨"x.js", "@/a/b/x.js", 2⟩]).Named (Lacks '\n') :=
    .folder (by decide) nofun (List.forall_mem_singleton.mpr (by decide))
  have ha : (Tree.folder "a" "src/a" [.folder "b" "src/a/b" [] [⟨"x.js", "@/a/b/x.js", 2⟩]]
      [⟨"z.js", "@/a/z.js", 0⟩]).Named (Lacks '\n') :=
    .folder (by decide) (List.forall_mem_singleton.mpr hb)
      (List.forall_mem_singleton.mpr (by decide))
  exact .folder (by decide) (List.forall_mem_singleton.mpr ha)
    (List.forall_mem_singleton.mpr (by decide))

/-- Two levels deep all of the tree is drawn; with one level the inner folder goes, and with it the
line of its file. -/
theorem limit_only_hides_branch :
    branchTree.Named (Lacks '\n') ∧ ∃ blocks : Int → List Block,
      WellDrawn true 2 "" branchTree (blocks 2) ∧
      "src/".toList :: (Block.allLines (blocks 2)).map String.toList =
        ["src/", "├── a/", "│   ├── b/", "│   │   └── x.js (2 deps)", "│   └── z.js",
          "└── y.js"].map String.toList ∧
      "src/".toList :: (Block.allLines (Block.cutAll 1 (blocks 2))).map String.toList =
        ["src/", "├── a/", "│   └── z.js", "└── y.js"].map String.toList := by
  obtain ⟨blocks, hdrawn, hcut⟩ := limit_only_hides named_branchTree true
  have hall : linesOf (render branchTree 2 true).toList =
      ["src/", "├── a/", "│   ├── b/", "│   │   └── x.js (2 deps)", "│   └── z.js",
        "└── y.js"].map String.toList := by cbv
  have hsome : linesOf (render branchTree 1 true).toList =
      ["src/", "├── a/", "│   └── z.js", "└── y.js"].map String.toList := by cbv
  have hcut : blocks 1 = Block.cutAll 1 (blocks 2) := hcut 1 2 (by decide) (by decide)
  exact ⟨named_branchTree, blocks, (hdrawn 2).2, (hdrawn 2).1.symm.trans hall,
    hcut ▸ (hdrawn 1).1.symm.trans hsome⟩

end ImportAtlas.Tree
