import ImportAtlas.Proofs.Path.Normal
import ImportAtlas.Proofs.Report.Lines
import ImportAtlas.Proofs.Tree.Placing
import ImportAtlas.Tree.Render

set_option autoImplicit false

/-!
# Reading a drawn tree back

A drawing is read line by line: each group of four columns stands for a level,
then comes a connector, and then the name; a slash behind the name marks a
folder.  What is read is what was drawn, whatever the names are, as long as they
hold no slash and no line end (`Reads.drawn`).  So the drawing of a graph's tree
shows each of its files and folders down to the limit, and nothing else
(`read_render`).
-/

namespace ImportAtlas.Tree

open Section

/-! ## The reader -/

/-- What a line of a drawing stands for, by its path from the top. -/
inductive Mark where
  | folder (path : List String)
  | file (path : List String)
  deriving DecidableEq, Repr

/-- The number of levels above a line and the text behind its connector. -/
def readLine : List Char → Option (Nat × List Char)
  | ' ' :: ' ' :: ' ' :: ' ' :: rest => (readLine rest).map fun (depth, text) => (depth + 1, text)
  | '│' :: ' ' :: ' ' :: ' ' :: rest => (readLine rest).map fun (depth, text) => (depth + 1, text)
  | '├' :: '─' :: '─' :: ' ' :: rest => some (0, rest)
  | '└' :: '─' :: '─' :: ' ' :: rest => some (0, rest)
  | _ => none

/-- What lines stand for below the folder of the last line above them that is one; a line of fewer
levels leaves folders. -/
def readLines : (above : List String) → List (List Char) → Option (List Mark)
  | _, [] => some []
  | above, line :: rest => do
    let (depth, text) ← readLine line
    if text.getLast? = some '/' then
      let path := above.take depth ++ [String.ofList text.dropLast]
      (readLines path rest).map (.folder path :: ·)
    else
      (readLines above rest).map (.file (above.take depth ++ [String.ofList text]) :: ·)

/-- What a drawing shows below its first line. -/
def readDrawing (drawing : String) : Option (List Mark) :=
  readLines [] (linesOf drawing.toList).tail

/-! ## Drawn lines with what they stand for -/

/-- A folder or a file of a tree with its path from the top. -/
inductive Item where
  | folder (path : List String)
  | file (path : List String) (leaf : Leaf)
  deriving DecidableEq, Repr

namespace Item

/-- What can be read of an item. -/
def mark : Item → Mark
  | folder path => .folder path
  | file path _ => .file path

/-- The path of an item. -/
def path : Item → List String
  | folder path => path
  | file path _ => path

/-- What a line says behind the name of its item. -/
def note (showCounts : Bool) : Item → String
  | folder _ => ""
  | file _ leaf =>
    if showCounts && leaf.dependencyCount != 0 then
      " (" ++ toString leaf.dependencyCount ++ " deps)"
    else ""

end Item

/-- The lines below a folder that is at a path, without counts, and what they stand for. -/
def drawn : (levels : Nat) → (margin : String) → (above : List String) → Tree →
    List (String × Item)
  | 0, margin, above, tree =>
    (rows tree).flatMap fun (row, last) => match row with
      | .folder _ => []
      | .file leaf =>
        [(margin ++ connector last ++ leaf.name, .file (above ++ [leaf.name]) leaf)]
  | levels + 1, margin, above, tree =>
    (rows tree).flatMap fun (row, last) => match row with
      | .folder child =>
        (margin ++ connector last ++ child.name ++ "/", .folder (above ++ [child.name])) ::
          drawn levels (margin ++ continuation last) (above ++ [child.name]) child
      | .file leaf =>
        [(margin ++ connector last ++ leaf.name, .file (above ++ [leaf.name]) leaf)]

theorem label_eq (showCounts : Bool) (leaf : Leaf) (path : List String) :
    label showCounts leaf = leaf.name ++ (Item.file path leaf).note showCounts := by
  unfold label Item.note
  by_cases h : (showCounts && leaf.dependencyCount != 0) = true
  · simp only [h, if_true, String.append_assoc]
  · simp only [h, if_false, String.append_empty, Bool.false_eq_true]

/-- Every drawn line is the line of its item, with its note. -/
theorem linesBelow_eq (showCounts : Bool) (levels : Nat) (margin : String) (above : List String)
    (tree : Tree) :
    linesBelow showCounts levels margin tree =
      (drawn levels margin above tree).map fun line => line.1 ++ line.2.note showCounts := by
  induction levels generalizing margin above tree with
  | zero =>
    rw [linesBelow, drawn, List.map_flatMap]
    congr
    funext (row, last)
    cases row with
    | folder child => rfl
    | file leaf => simp [label_eq showCounts leaf (above ++ [leaf.name]), String.append_assoc]
  | succ levels ih =>
    rw [linesBelow, drawn, List.map_flatMap]
    congr
    funext (row, last)
    cases row with
    | folder child =>
      simp only [ih _ (above ++ [child.name]), List.map_cons, Item.note, String.append_empty]
    | file leaf => simp [label_eq showCounts leaf (above ++ [leaf.name]), String.append_assoc]

/-- What the rows of a folder give, whatever their order and connectors are. -/
theorem flatMap_rows_perm (onFolder : Tree → List Item) (onFile : Leaf → Item) (tree : Tree) :
    ((rows tree).flatMap fun row => match row.1 with
      | .folder child => onFolder child
      | .file leaf => [onFile leaf]).Perm
      (tree.children.flatMap onFolder ++ tree.files.map onFile) := by
  rw [← List.flatMap_map Prod.fst fun row : Row => match row with
    | .folder child => onFolder child
    | .file leaf => [onFile leaf]]
  rw [rows, markLast_map_fst, List.flatMap_append, List.flatMap_map, List.flatMap_map,
    List.map_eq_flatMap]
  exact ((List.mergeSort_perm _ _).flatMap fun _ _ => .refl _).append
    ((List.mergeSort_perm _ _).flatMap fun _ _ => .refl _)

/-- The folders and files of a tree, down to a level, with the path of the tree in front. -/
def itemsWithin (levels : Nat) (above : List String) (tree : Tree) : List Item :=
  ((foldersWithin levels tree).map fun path => .folder (above ++ path)) ++
    (filesWithin levels tree).map fun file => .file (above ++ file.1) file.2

/-- Every folder and file of a tree is drawn, down to the level. -/
theorem drawn_perm (levels : Nat) (margin : String) (above : List String) (tree : Tree) :
    ((drawn levels margin above tree).map Prod.snd).Perm (itemsWithin levels above tree) := by
  induction levels generalizing margin above tree with
  | zero =>
    have hrows := flatMap_rows_perm (fun _ => [])
      (fun leaf => .file (above ++ [leaf.name]) leaf) tree
    have hnone : (tree.children.flatMap fun _ => ([] : List Item)) = [] :=
      List.flatMap_eq_nil_iff.mpr fun _ _ => rfl
    rw [drawn, List.map_flatMap]
    refine ((List.Perm.flatMap_left _ fun row _ => ?_).trans hrows).trans ?_
    · obtain ⟨row, last⟩ := row
      cases row <;> exact .refl _
    · simp [hnone, itemsWithin, foldersWithin, filesWithin, Function.comp_def]
  | succ levels ih =>
    have hrows := flatMap_rows_perm
      (fun child => .folder (above ++ [child.name]) ::
        itemsWithin levels (above ++ [child.name]) child)
      (fun leaf => .file (above ++ [leaf.name]) leaf) tree
    rw [drawn, List.map_flatMap]
    refine ((List.Perm.flatMap_left _ fun row _ => ?_).trans hrows).trans ?_
    · obtain ⟨row, last⟩ := row
      cases row with
      | folder child => exact (ih _ _ child).cons _
      | file leaf => exact .refl _
    · -- the folders of every subfolder come before its files, and now before all files
      have hperm := List.flatMap_append_perm tree.children
        (fun child => Item.folder (above ++ [child.name]) ::
          (foldersWithin levels child).map fun path => .folder (above ++ child.name :: path))
        (fun child => (filesWithin levels child).map fun file =>
          .file (above ++ child.name :: file.1) file.2)
      simp only [itemsWithin, foldersWithin, filesWithin, List.map_append, List.map_flatMap,
        List.map_map, List.map_cons, Function.comp_def, List.append_assoc, List.singleton_append]
      refine (hperm.symm.append_right _).trans ?_
      rw [List.append_assoc]
      exact List.perm_append_comm.append_left _

/-! ## Reading what was drawn -/

/-- A margin of so many levels. -/
def IsMargin (depth : Nat) (margin : String) : Prop :=
  ∀ text, readLine (margin.toList ++ text) =
    (readLine text).map fun line => (line.1 + depth, line.2)

theorem isMargin_empty : IsMargin 0 "" := by
  intro text
  cases h : readLine text <;> simp [h]

/-- A bar or a blank column is one level more. -/
theorem IsMargin.continuation {depth : Nat} {margin : String} (h : IsMargin depth margin)
    (last : Bool) : IsMargin (depth + 1) (margin ++ continuation last) := by
  have hbar : ∀ text, readLine ((Tree.continuation last).toList ++ text) =
      (readLine text).map fun line => (line.1 + 1, line.2) := by
    intro text
    cases last <;> rfl
  intro text
  rw [String.toList_append, List.append_assoc, h, hbar, Option.map_map]
  congr
  funext line
  simp only [Function.comp_apply, Nat.add_comm 1 depth, Nat.add_assoc]

/-- Behind a margin and a connector stands the name. -/
theorem IsMargin.readLine_eq {depth : Nat} {margin : String} (h : IsMargin depth margin)
    (last : Bool) (name : String) :
    readLine (margin ++ connector last ++ name).toList = some (depth, name.toList) := by
  rw [String.toList_append, String.toList_append, List.append_assoc, h]
  cases last <;> simp [connector, readLine]

/-- Below a folder, lines are read as what they stand for, whatever lines came before them and
come behind. -/
def Reads (above : List String) (lines : List (String × Item)) : Prop :=
  ∀ stack rest, above <+: stack → ∃ stack', above <+: stack' ∧
    readLines stack (lines.map (fun line => line.1.toList) ++ rest) =
      (readLines stack' rest).map (lines.map (fun line => line.2.mark) ++ ·)

theorem reads_nil (above : List String) : Reads above [] := by
  intro stack rest hstack
  refine ⟨stack, hstack, ?_⟩
  cases h : readLines stack rest <;> simp [h]

theorem Reads.append {above : List String} {lines more : List (String × Item)}
    (h : Reads above lines) (hmore : Reads above more) : Reads above (lines ++ more) := by
  intro stack rest hstack
  obtain ⟨stack₁, hstack₁, hread₁⟩ := h stack (more.map (fun line => line.1.toList) ++ rest) hstack
  obtain ⟨stack₂, hstack₂, hread₂⟩ := hmore stack₁ rest hstack₁
  refine ⟨stack₂, hstack₂, ?_⟩
  rw [List.map_append, List.append_assoc, hread₁, hread₂, Option.map_map]
  simp only [List.map_append, List.append_assoc, Function.comp_def]

theorem Reads.flatMap {α : Type} {above : List String} {items : List α}
    {f : α → List (String × Item)} (h : ∀ item ∈ items, Reads above (f item)) :
    Reads above (items.flatMap f) := by
  induction items with
  | nil => exact reads_nil above
  | cons item items ih =>
    rw [List.flatMap_cons]
    exact (h item List.mem_cons_self).append
      (ih fun other hother => h other (List.mem_cons_of_mem _ hother))

/-- A line of a file. -/
theorem reads_file {above : List String} {margin : String} (hmargin : IsMargin above.length margin)
    (last : Bool) {leaf : Leaf} (hname : '/' ∉ leaf.name.toList) :
    Reads above [(margin ++ connector last ++ leaf.name, .file (above ++ [leaf.name]) leaf)] := by
  intro stack rest hstack
  refine ⟨stack, hstack, ?_⟩
  have hfile : leaf.name.toList.getLast? ≠ some '/' :=
    fun hlast => hname (List.mem_of_getLast? hlast)
  have htake : stack.take above.length = above := (List.prefix_iff_eq_take.mp hstack).symm
  simp only [List.map_singleton, List.singleton_append, readLines, hmargin.readLine_eq,
    Option.bind_eq_bind, Option.bind_some, if_neg hfile, htake, String.ofList_toList, Item.mark]

/-- A line of a folder, and the lines below it. -/
theorem reads_folder {above : List String} {margin : String}
    (hmargin : IsMargin above.length margin) (last : Bool) {name : String}
    {below : List (String × Item)} (hbelow : Reads (above ++ [name]) below) :
    Reads above ((margin ++ connector last ++ name ++ "/",
      .folder (above ++ [name])) :: below) := by
  intro stack rest hstack
  obtain ⟨stack', hstack', hread⟩ := hbelow (above ++ [name]) rest List.prefix_rfl
  refine ⟨stack', (List.prefix_append _ _).trans hstack', ?_⟩
  have hline : readLine (margin ++ connector last ++ name ++ "/").toList =
      some (above.length, name.toList ++ ['/']) := by
    rw [String.append_assoc, hmargin.readLine_eq, String.toList_append]
    rfl
  have htake : stack.take above.length = above := (List.prefix_iff_eq_take.mp hstack).symm
  simp only [List.map_cons, List.cons_append, readLines, hline, Option.bind_eq_bind,
    Option.bind_some, List.getLast?_concat, if_true, List.dropLast_concat, String.ofList_toList,
    htake, hread, Option.map_map, Item.mark]
  rfl

/-- No name on the way to an item holds a character. -/
def Item.Avoids (c : Char) (item : Item) : Prop :=
  ∀ name ∈ item.path, c ∉ name.toList

/-- A drawn tree is read back. -/
theorem reads_drawn {levels : Nat} {margin : String} {above : List String} {tree : Tree}
    (hmargin : IsMargin above.length margin)
    (hnames : ∀ line ∈ drawn levels margin above tree, line.2.Avoids '/') :
    Reads above (drawn levels margin above tree) := by
  induction levels generalizing margin above tree with
  | zero =>
    rw [drawn] at hnames ⊢
    apply Reads.flatMap
    rintro ⟨row, last⟩ hrow
    have hnames := fun line hline => hnames line (List.mem_flatMap.mpr ⟨_, hrow, hline⟩)
    cases row with
    | folder child => exact reads_nil above
    | file leaf =>
      exact reads_file hmargin last (hnames _ List.mem_cons_self leaf.name (by simp [Item.path]))
  | succ levels ih =>
    rw [drawn] at hnames ⊢
    apply Reads.flatMap
    rintro ⟨row, last⟩ hrow
    have hnames := fun line hline => hnames line (List.mem_flatMap.mpr ⟨_, hrow, hline⟩)
    cases row with
    | folder child =>
      have hdepth : IsMargin (above ++ [child.name]).length (margin ++ continuation last) := by
        simpa using hmargin.continuation last
      exact reads_folder hmargin last
        (ih hdepth fun line hline => hnames line (List.mem_cons_of_mem _ hline))
    | file leaf =>
      exact reads_file hmargin last (hnames _ List.mem_cons_self leaf.name (by simp [Item.path]))

/-- No line end comes into the lines of a tree. -/
theorem not_mem_of_mem_drawn {levels : Nat} {margin : String} {above : List String} {tree : Tree}
    (hmargin : '\n' ∉ margin.toList)
    (hnames : ∀ line ∈ drawn levels margin above tree, line.2.Avoids '\n') :
    ∀ line ∈ drawn levels margin above tree, '\n' ∉ line.1.toList := by
  have hconnector : ∀ last, '\n' ∉ (connector last).toList := by
    intro last
    cases last <;> simp [connector]
  have hcontinuation : ∀ last, '\n' ∉ (continuation last).toList := by
    intro last
    cases last <;> simp [continuation]
  induction levels generalizing margin above tree with
  | zero =>
    rw [drawn] at hnames ⊢
    intro line hline
    obtain ⟨⟨row, last⟩, hrow, hline⟩ := List.mem_flatMap.mp hline
    have hname := hnames line (List.mem_flatMap.mpr ⟨_, hrow, hline⟩)
    cases row with
    | folder child => cases hline
    | file leaf =>
      obtain rfl := List.mem_singleton.mp hline
      have hleaf := hname leaf.name (by simp [Item.path])
      simp [hmargin, hconnector, hleaf]
  | succ levels ih =>
    rw [drawn] at hnames ⊢
    intro line hline
    obtain ⟨⟨row, last⟩, hrow, hline⟩ := List.mem_flatMap.mp hline
    have hnames := fun line hline => hnames line (List.mem_flatMap.mpr ⟨_, hrow, hline⟩)
    cases row with
    | folder child =>
      rcases List.mem_cons.mp hline with rfl | hline
      · have hchild := hnames _ hline child.name (by simp [Item.path])
        simp [hmargin, hconnector, hchild]
      · exact ih (by simp [hmargin, hcontinuation])
          (fun line hline => hnames line (List.mem_cons_of_mem _ hline)) line hline
    | file leaf =>
      have hleaf := hnames line hline
      obtain rfl := List.mem_singleton.mp hline
      have hleaf := hleaf leaf.name (by simp [Item.path])
      simp [hmargin, hconnector, hleaf]

/-! ## The drawing of a graph -/

theorem slash_not_mem_segment {identifier segment : String} (h : segment ∈ segments identifier) :
    '/' ∉ segment.toList := by
  obtain ⟨piece, hpiece, rfl⟩ := List.mem_map.mp h
  rw [String.toList_ofList]
  exact Path.not_mem_of_mem_splitOn (List.mem_of_mem_filter hpiece)

/-- A path has no other characters than its identifier, but for slashes and dots. -/
theorem not_mem_pathOf {b : Char} (hslash : b ≠ '/') (hdot : b ≠ '.') {identifier : String}
    (h : b ∉ identifier.toList) : b ∉ pathOf identifier := by
  have htext : b ∉ identifier.toList.map fun c => if c = '\\' then '/' else c := by
    intro hmem
    obtain ⟨c, hc, heq⟩ := List.mem_map.mp hmem
    split at heq
    · exact hslash heq.symm
    · exact h (heq ▸ hc)
  unfold pathOf
  simp only
  generalize (identifier.toList.map fun c => if c = '\\' then '/' else c) = text at htext ⊢
  split
  · rename_i below hbelow
    rw [← List.isPrefixOf?_eq_some_iff_append_eq.mp hbelow] at htext
    exact fun hmem => htext (List.mem_append_right _ hmem)
  · split
    · rename_i below hbelow
      rw [← List.isPrefixOf?_eq_some_iff_append_eq.mp hbelow] at htext
      exact fun hmem => htext (List.mem_append_right _ hmem)
    · simpa [besideFolder, hslash, hdot] using htext

theorem not_mem_segment {b : Char} (hslash : b ≠ '/') (hdot : b ≠ '.')
    {identifier segment : String} (h : segment ∈ segments identifier)
    (hb : b ∉ identifier.toList) : b ∉ segment.toList := by
  obtain ⟨piece, hpiece, rfl⟩ := List.mem_map.mp h
  rw [String.toList_ofList]
  intro hmem
  exact not_mem_pathOf hslash hdot hb
    (Path.mem_of_mem_splitOn (List.mem_of_mem_filter hpiece) hmem)

theorem linesOf_render {tree : Tree} {maxDepth : Int} {showCounts : Bool}
    (h : ∀ line ∈ lines tree maxDepth showCounts, '\n' ∉ line.toList) :
    linesOf (render tree maxDepth showCounts).toList =
      (lines tree maxDepth showCounts).map String.toList := by
  have hjoin : (render tree maxDepth showCounts).toList =
      joinLines ((lines tree maxDepth showCounts).map String.toList) := by
    rw [render, String.toList_intercalate]
    rfl
  rw [hjoin, linesOf_joinLines (by simp [lines])]
  intro text htext
  obtain ⟨line, hline, rfl⟩ := List.mem_map.mp htext
  exact h line hline

/-- The files of a graph, keys and dependencies, each once, that a drawing of a depth shows. -/
def shownFiles (graph : Graph) (maxDepth : Int) : List String :=
  (Assoc.keys graph ++ graph.flatMap Prod.snd).dedup.filter fun identifier =>
    decide (HasPlace identifier) &&
      decide (((segments identifier).dropLast.length : Int) ≤ maxDepth)

/-- The folders that lead to the files of a graph, each once, that a drawing of a depth shows. -/
def shownFolders (graph : Graph) (maxDepth : Int) : List (List String) :=
  (((Assoc.keys graph ++ graph.flatMap Prod.snd).flatMap fun identifier =>
      (segments identifier).dropLast.inits).filter fun path =>
    path != [] && decide ((path.length : Int) ≤ maxDepth)).dedup

/-- The items that a drawing shows. -/
theorem itemsWithin_ofGraph (graph : Graph) (rootName : String) {maxDepth : Int}
    (hdepth : 0 ≤ maxDepth) :
    (itemsWithin maxDepth.toNat [] (ofGraph graph rootName)).Perm
      ((shownFolders graph maxDepth).map Item.folder ++
        (shownFiles graph maxDepth).map fun identifier =>
          .file (segments identifier) (leafOf graph identifier)) := by
  have hholds := holds_ofGraph graph rootName maxDepth.toNat
  have hlevels : ∀ length : Nat, length ≤ maxDepth.toNat ↔ (length : Int) ≤ maxDepth := by
    intro length
    omega
  have hfolders : (foldersWithin maxDepth.toNat (ofGraph graph rootName)).Perm
      (shownFolders graph maxDepth) := by
    refine (List.perm_ext_iff_of_nodup hholds.once (List.nodup_dedup _)).mpr fun path => ?_
    rw [hholds.folders, List.mem_dedup, List.mem_filter, List.mem_flatMap]
    simp only [(vertices_perm graph).mem_iff, List.mem_dedup, List.mem_inits, hlevels,
      Bool.and_eq_true, bne_iff_ne, decide_eq_true_eq]
    constructor
    · rintro ⟨identifier, hvertex, hne, hprefix, hlength⟩
      exact ⟨⟨identifier, hvertex, hprefix⟩, hne, hlength⟩
    · rintro ⟨⟨identifier, hvertex, hprefix⟩, hne, hlength⟩
      exact ⟨identifier, hvertex, hne, hprefix, hlength⟩
  have hfiles : (filesWithin maxDepth.toNat (ofGraph graph rootName)).Perm
      ((shownFiles graph maxDepth).map fun identifier =>
        (segments identifier, leafOf graph identifier)) := by
    refine hholds.files.trans (List.Perm.map _ ?_)
    refine ((vertices_perm graph).filter _).trans (.of_eq ?_)
    unfold shownFiles
    congr
    funext identifier
    simp only [IsShown, hlevels, Bool.decide_and]
  refine (hfolders.map _).append ((hfiles.map _).trans (.of_eq ?_))
  rw [List.map_map]
  rfl

theorem line_end_not_mem_note (showCounts : Bool) (item : Item) :
    '\n' ∉ (item.note showCounts).toList := by
  cases item with
  | folder path => simp [Item.note]
  | file path leaf =>
    have hdigits : '\n' ∉ Nat.toDigits 10 leaf.dependencyCount := fun hmem =>
      absurd (Nat.isDigit_of_mem_toDigits (by omega) (by omega) hmem) (by decide)
    unfold Item.note
    simp only
    split
    · simp [hdigits]
    · simp

theorem ofGraph_name (graph : Graph) (rootName : String) :
    (ofGraph graph rootName).name = rootName := by
  unfold ofGraph
  induction vertices graph using List.reverseRecOn with
  | nil => rfl
  | append_singleton identifiers identifier ih =>
    rw [List.foldl_append, List.foldl_cons, List.foldl_nil]
    by_cases h : HasPlace identifier
    · rw [placeFile_of_hasPlace h, place_name, ih]
    · rw [placeFile_of_not_hasPlace h, ih]

/-- The way to a shown item is part of the path of a file. -/
theorem exists_of_mem_itemsWithin {graph : Graph} {rootName : String} {maxDepth : Int}
    (hdepth : 0 ≤ maxDepth) {item : Item}
    (h : item ∈ itemsWithin maxDepth.toNat [] (ofGraph graph rootName)) :
    ∃ identifier ∈ Assoc.keys graph ++ graph.flatMap Prod.snd,
      ∀ name ∈ item.path, name ∈ segments identifier := by
  rw [(itemsWithin_ofGraph graph rootName hdepth).mem_iff, List.mem_append, List.mem_map,
    List.mem_map] at h
  rcases h with ⟨path, hpath, rfl⟩ | ⟨identifier, hfile, rfl⟩
  · rw [shownFolders, List.mem_dedup, List.mem_filter, List.mem_flatMap] at hpath
    obtain ⟨⟨identifier, hvertex, hinit⟩, -⟩ := hpath
    rw [List.mem_inits] at hinit
    exact ⟨identifier, hvertex, fun name hname =>
      List.mem_of_mem_dropLast (hinit.subset hname)⟩
  · rw [shownFiles, List.mem_filter, List.mem_dedup] at hfile
    exact ⟨identifier, hfile.1, fun name hname => hname⟩

/-- **A drawn tree loses and invents nothing.**  Read back line by line, the drawing of a graph's
tree without counts shows each file of the graph whose folders are within the limit once, and each
folder that leads to a file once, down to the limit.  With counts, the line of a file gains only
the number of its own dependencies, if it has any. -/
theorem read_render (graph : Graph) (rootName : String) (maxDepth : Int)
    (hgraph : ∀ identifier ∈ Assoc.keys graph ++ graph.flatMap Prod.snd,
      '\n' ∉ identifier.toList)
    (hroot : '\n' ∉ rootName.toList) (hdepth : 0 ≤ maxDepth) :
    ∃ drawn : List (String × Item),
      readDrawing (render (ofGraph graph rootName) maxDepth false) =
        some (drawn.map fun line => line.2.mark) ∧
      (drawn.map Prod.snd).Perm
        ((shownFolders graph maxDepth).map Item.folder ++
          (shownFiles graph maxDepth).map fun identifier =>
            .file (segments identifier) (leafOf graph identifier)) ∧
      ∀ showCounts, linesOf (render (ofGraph graph rootName) maxDepth showCounts).toList =
        (rootName ++ "/").toList ::
          drawn.map fun line => (line.1 ++ line.2.note showCounts).toList := by
  have hitems := drawn_perm maxDepth.toNat "" [] (ofGraph graph rootName)
  -- every name that is drawn is a segment of an identifier
  have hnames : ∀ line ∈ drawn maxDepth.toNat "" [] (ofGraph graph rootName),
      line.2.Avoids '/' ∧ line.2.Avoids '\n' := by
    intro line hline
    obtain ⟨identifier, hvertex, hpath⟩ := exists_of_mem_itemsWithin hdepth
      (hitems.mem_iff.mp (List.mem_map_of_mem hline))
    constructor
    · intro name hname
      exact slash_not_mem_segment (hpath name hname)
    · intro name hname
      exact not_mem_segment (by decide) (by decide) (hpath name hname)
        (hgraph identifier hvertex)
  have hlines : ∀ showCounts, linesOf (render (ofGraph graph rootName) maxDepth showCounts).toList =
      (rootName ++ "/").toList ::
        (drawn maxDepth.toNat "" [] (ofGraph graph rootName)).map fun line =>
          (line.1 ++ line.2.note showCounts).toList := by
    intro showCounts
    have hdrawn := not_mem_of_mem_drawn (by simp) fun line hline => (hnames line hline).2
    rw [linesOf_render, lines, ofGraph_name, linesBelow_eq showCounts _ _ [], List.map_cons,
      List.map_map]
    · rfl
    · intro text htext
      rw [lines, ofGraph_name, linesBelow_eq showCounts _ _ []] at htext
      rcases List.mem_cons.mp htext with rfl | htext
      · simp [hroot]
      · obtain ⟨line, hline, rfl⟩ := List.mem_map.mp htext
        simp [hdrawn line hline, line_end_not_mem_note]
  refine ⟨drawn maxDepth.toNat "" [] (ofGraph graph rootName), ?_,
    hitems.trans (itemsWithin_ofGraph graph rootName hdepth), hlines⟩
  have hreads : Reads [] (drawn maxDepth.toNat "" [] (ofGraph graph rootName)) :=
    reads_drawn isMargin_empty fun line hline => (hnames line hline).1
  have hplain : ∀ item : Item, item.note false = "" := by
    intro item
    cases item <;> simp [Item.note]
  obtain ⟨stack, -, hread⟩ := hreads [] [] List.nil_prefix
  rw [List.append_nil] at hread
  simp only [readDrawing, hlines, List.tail_cons, hplain, String.append_empty, hread, readLines,
    Option.map_some, List.append_nil]

/-- A folder and a file of one name, a file beside the source root, and a name that looks like a
connector. -/
theorem read_render_connector :
    ∃ drawn : List (String × Item),
      readDrawing (render (ofGraph [("@/a/b.js", ["@/a", "x.js", "@/├── /y.js"]),
        ("@/a", [])] "src")
        1 false) = some (drawn.map fun line => line.2.mark) ∧
      (drawn.map Prod.snd).Perm [.folder ["a"], .folder [".."], .folder ["├── "],
        .file ["a", "b.js"] ⟨"b.js", "@/a/b.js", 3⟩, .file ["a"] ⟨"a", "@/a", 0⟩,
        .file ["..", "x.js"] ⟨"x.js", "x.js", 0⟩,
        .file ["├── ", "y.js"] ⟨"y.js", "@/├── /y.js", 0⟩] ∧
      ∀ showCounts,
        linesOf (render (ofGraph [("@/a/b.js", ["@/a", "x.js", "@/├── /y.js"]), ("@/a", [])] "src")
          1 showCounts).toList =
        "src/".toList :: drawn.map fun line => (line.1 ++ line.2.note showCounts).toList := by
  obtain ⟨drawn, hread, hperm, hlines⟩ :=
    read_render [("@/a/b.js", ["@/a", "x.js", "@/├── /y.js"]), ("@/a", [])] "src" 1
      (by decide) (by decide) (by decide)
  refine ⟨drawn, hread, hperm.trans (.of_eq ?_), hlines⟩
  decide +kernel

end ImportAtlas.Tree
