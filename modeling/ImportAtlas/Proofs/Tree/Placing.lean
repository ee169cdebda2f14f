import ImportAtlas.Proofs.Graph.Merge
import ImportAtlas.Tree.Basic
import Mathlib.Data.List.Dedup
import Mathlib.Data.List.Induction
import Mathlib.Data.List.Nodup
import Mathlib.Data.List.Perm.Basic

set_option autoImplicit false

/-!
# What a tree holds

The folders and files of a tree, each with its path from the top, down to a
number of levels.  Placing a leaf adds its file and the folders that lead to it,
and nothing else (`mem_foldersWithin_place`, `filesWithin_place`); each folder
stays there once.  So the tree of a graph holds the files of its vertices and
the folders that lead to them (`filesWithin_ofGraph`, `mem_foldersWithin_ofGraph`).
-/

namespace ImportAtlas.Tree

/-- The folders below a folder, at most so many levels down, as paths from there. -/
def foldersWithin : (levels : Nat) → Tree → List (List String)
  | 0, _ => []
  | levels + 1, tree => tree.children.flatMap fun child =>
      [child.name] :: (foldersWithin levels child).map (child.name :: ·)

/-- The files below a folder, in folders at most so many levels down, with their paths from
there. -/
def filesWithin : (levels : Nat) → Tree → List (List String × Leaf)
  | 0, tree => tree.files.map fun leaf => ([leaf.name], leaf)
  | levels + 1, tree =>
    (tree.files.map fun leaf => ([leaf.name], leaf)) ++ tree.children.flatMap fun child =>
      (filesWithin levels child).map fun file => (child.name :: file.1, file.2)

theorem mem_foldersWithin_succ {levels : Nat} {tree : Tree} {path : List String} :
    path ∈ foldersWithin (levels + 1) tree ↔ ∃ head tail, path = head :: tail ∧
      ∃ child ∈ tree.children, child.name = head ∧
        (tail = [] ∨ tail ∈ foldersWithin levels child) := by
  simp only [foldersWithin, List.mem_flatMap, List.mem_cons, List.mem_map]
  constructor
  · rintro ⟨child, hchild, rfl | ⟨tail, htail, rfl⟩⟩
    · exact ⟨_, _, rfl, child, hchild, rfl, .inl rfl⟩
    · exact ⟨_, _, rfl, child, hchild, rfl, .inr htail⟩
  · rintro ⟨head, tail, rfl, child, hchild, rfl, rfl | htail⟩
    · exact ⟨child, hchild, .inl rfl⟩
    · exact ⟨child, hchild, .inr ⟨tail, htail, rfl⟩⟩

theorem nil_notMem_foldersWithin {levels : Nat} {tree : Tree} :
    [] ∉ foldersWithin levels tree := by
  cases levels with
  | zero => exact List.not_mem_nil
  | succ levels => simp [mem_foldersWithin_succ]

/-- Every folder is there once when the subfolders have different names and hold every folder
once. -/
theorem nodup_foldersWithin_succ {levels : Nat} {tree : Tree} :
    (foldersWithin (levels + 1) tree).Nodup ↔ (tree.children.map name).Nodup ∧
      ∀ child ∈ tree.children, (foldersWithin levels child).Nodup := by
  have hbranch : ∀ child : Tree,
      ([child.name] :: (foldersWithin levels child).map (child.name :: ·)).Nodup ↔
        (foldersWithin levels child).Nodup := by
    intro child
    have hinj : Function.Injective (child.name :: · : List String → List String) :=
      List.cons_injective
    simp [List.nodup_cons, List.nodup_map_iff hinj, nil_notMem_foldersWithin]
  have hdisjoint : ∀ a b : Tree,
      List.Disjoint ([a.name] :: (foldersWithin levels a).map (a.name :: ·))
        ([b.name] :: (foldersWithin levels b).map (b.name :: ·)) ↔ a.name ≠ b.name := by
    intro a b
    constructor
    · intro hdisjoint hname
      exact hdisjoint List.mem_cons_self (hname ▸ List.mem_cons_self)
    · intro hname path ha hb
      have hhead : ∀ c : Tree, path ∈ [c.name] :: (foldersWithin levels c).map (c.name :: ·) →
          path.head? = some c.name := by
        intro c hc
        rcases List.mem_cons.mp hc with rfl | hc
        · rfl
        · obtain ⟨rest, -, rfl⟩ := List.mem_map.mp hc
          rfl
      exact hname (Option.some.inj ((hhead a ha).symm.trans (hhead b hb)))
  have hnames : (tree.children.map name).Nodup ↔
      tree.children.Pairwise fun a b => a.name ≠ b.name := List.pairwise_map
  rw [foldersWithin, List.nodup_flatMap, hnames, and_comm]
  refine and_congr ⟨fun h => h.imp ?_, fun h => h.imp ?_⟩
    (forall₂_congr fun child _ => hbranch child)
  · exact fun {a b} => (hdisjoint a b).mp
  · exact fun {a b} => (hdisjoint a b).mpr

/-! ## Placing a leaf -/

@[simp] theorem place_name (leaf : Leaf) (segments : List String) (tree : Tree) :
    (place leaf segments tree).name = tree.name := by
  obtain ⟨name, path, children, files⟩ := tree
  cases segments with
  | nil => rfl
  | cons segment rest =>
    rw [place]
    split <;> rfl

theorem place_nil (leaf : Leaf) (tree : Tree) :
    (place leaf [] tree).children = tree.children ∧
      (place leaf [] tree).files = tree.files ++ [leaf] := by
  obtain ⟨name, path, children, files⟩ := tree
  exact ⟨rfl, rfl⟩

theorem place_files_cons (leaf : Leaf) (segment : String) (rest : List String) (tree : Tree) :
    (place leaf (segment :: rest) tree).files = tree.files := by
  obtain ⟨name, path, children, files⟩ := tree
  rw [place]
  split <;> rfl

/-- A leaf is placed in the one subfolder of the name, or in a new one behind the others. -/
theorem place_children_cons (leaf : Leaf) (segment : String) (rest : List String) {tree : Tree}
    (h : (tree.children.map name).Nodup) :
    (∃ before child after, tree.children = before ++ child :: after ∧ child.name = segment ∧
      (place leaf (segment :: rest) tree).children = before ++ place leaf rest child :: after) ∨
    ∃ path, segment ∉ tree.children.map name ∧
      (place leaf (segment :: rest) tree).children =
        tree.children ++ [place leaf rest (empty segment path)] := by
  obtain ⟨name, path, children, files⟩ := tree
  change (children.map Tree.name).Nodup at h
  rw [place]
  by_cases hfound : segment ∈ children.map Tree.name
  · refine .inl ?_
    obtain ⟨child, hchild, rfl⟩ := List.mem_map.mp hfound
    obtain ⟨before, after, rfl⟩ := List.append_of_mem hchild
    have hothers : ∀ other ∈ before ++ after, other.name ≠ child.name := by
      intro other hother hname
      rw [List.map_append, List.map_cons, List.nodup_middle, ← List.map_append,
        List.nodup_cons] at h
      exact h.1 (hname ▸ List.mem_map_of_mem hother)
    have hkeep : ∀ part : List Tree, (∀ other ∈ part, other.name ≠ child.name) →
        (part.map fun other =>
          if other.name = child.name then place leaf rest other else other) = part := by
      intro part hpart
      conv_rhs => rw [← List.map_id part]
      exact List.map_congr_left fun other hother => if_neg (hpart other hother)
    refine ⟨before, child, after, rfl, rfl, ?_⟩
    rw [if_pos (by simp), Tree.children, List.map_append, List.map_cons, if_pos rfl,
      hkeep before fun other hother => hothers other (List.mem_append_left _ hother),
      hkeep after fun other hother => hothers other (List.mem_append_right _ hother)]
  · refine .inr ⟨path ++ "/" ++ segment, hfound, ?_⟩
    rw [if_neg]
    · rfl
    · simpa using hfound

@[simp] theorem empty_name (name path : String) : (empty name path).name = name := rfl

@[simp] theorem foldersWithin_empty (levels : Nat) (name path : String) :
    foldersWithin levels (empty name path) = [] := by
  cases levels <;> rfl

@[simp] theorem filesWithin_empty (levels : Nat) (name path : String) :
    filesWithin levels (empty name path) = [] := by
  cases levels <;> rfl

/-- Placing a leaf adds the folders that lead to its place, and no others. -/
theorem mem_foldersWithin_place {leaf : Leaf} {levels : Nat} {segments : List String} {tree : Tree}
    (h : (foldersWithin levels tree).Nodup) {path : List String} :
    path ∈ foldersWithin levels (place leaf segments tree) ↔
      path ∈ foldersWithin levels tree ∨
        path ≠ [] ∧ path <+: segments ∧ path.length ≤ levels := by
  induction levels generalizing segments tree path with
  | zero => cases path <;> simp [foldersWithin]
  | succ levels ih =>
    obtain ⟨hnames, hbelow⟩ := nodup_foldersWithin_succ.mp h
    cases segments with
    | nil =>
      rw [foldersWithin, (place_nil leaf tree).1, ← foldersWithin]
      cases path <;> simp
    | cons segment rest =>
      cases path with
      | nil => simp [nil_notMem_foldersWithin]
      | cons head tail =>
        -- the subfolder that the leaf is placed in has the folders on the rest of its way
        have hchild : ∀ child, (foldersWithin levels child).Nodup →
            (tail = [] ∨ tail ∈ foldersWithin levels (place leaf rest child) ↔
              (tail = [] ∨ tail ∈ foldersWithin levels child) ∨
                tail <+: rest ∧ tail.length ≤ levels) := by
          intro child hchild
          rw [ih hchild]
          by_cases htail : tail = [] <;> simp [htail]
        simp only [mem_foldersWithin_succ, List.cons.injEq, exists_and_left, exists_eq_left',
          and_assoc, List.cons_prefix_cons, List.length_cons, Nat.add_le_add_iff_right, ne_eq,
          reduceCtorEq, not_false_eq_true, true_and]
        rcases place_children_cons leaf segment rest hnames with
          ⟨before, child, after, hchildren, rfl, hplaced⟩ | ⟨top, hnew, hplaced⟩
        · have hbelow := hchild child (hbelow child (by simp [hchildren]))
          simp only [hchildren, hplaced, List.mem_append, List.mem_cons, or_and_right, exists_or,
            exists_eq_left, place_name, hbelow]
          grind
        · have hempty := hchild (empty segment top) (by simp)
          simp only [hplaced, List.mem_append, List.mem_singleton, or_and_right, exists_or,
            exists_eq_left, place_name, hempty]
          simp only [foldersWithin_empty, List.not_mem_nil, or_false, empty_name]
          grind

/-- Placing a leaf keeps every folder there once. -/
theorem nodup_foldersWithin_place {leaf : Leaf} {levels : Nat} {segments : List String}
    {tree : Tree} (h : (foldersWithin levels tree).Nodup) :
    (foldersWithin levels (place leaf segments tree)).Nodup := by
  induction levels generalizing segments tree with
  | zero => exact List.nodup_nil
  | succ levels ih =>
    obtain ⟨hnames, hbelow⟩ := nodup_foldersWithin_succ.mp h
    rw [nodup_foldersWithin_succ]
    cases segments with
    | nil =>
      rw [(place_nil leaf tree).1]
      exact ⟨hnames, hbelow⟩
    | cons segment rest =>
      rcases place_children_cons leaf segment rest hnames with
        ⟨before, child, after, hchildren, rfl, hplaced⟩ | ⟨top, hnew, hplaced⟩
      · rw [hchildren] at hnames hbelow
        rw [hplaced]
        refine ⟨by simpa using hnames, fun other hother => ?_⟩
        rcases List.mem_append.mp hother with hother | hother
        · exact hbelow other (List.mem_append_left _ hother)
        · rcases List.mem_cons.mp hother with rfl | hother
          · exact ih (hbelow child (by simp))
          · exact hbelow other (by simp [hother])
      · rw [hplaced, List.map_append, List.map_singleton, place_name]
        refine ⟨hnames.append (List.nodup_singleton _) ?_, fun other hother => ?_⟩
        · simpa using hnew
        · rcases List.mem_append.mp hother with hother | hother
          · exact hbelow other hother
          · obtain rfl := List.mem_singleton.mp hother
            exact ih (by simp)

/-- Placing a leaf adds its file, if its place is not too deep, and no other. -/
theorem filesWithin_place {leaf : Leaf} {levels : Nat} {segments : List String} {tree : Tree}
    (h : (foldersWithin levels tree).Nodup) :
    (filesWithin levels (place leaf segments tree)).Perm
      (filesWithin levels tree ++
        if segments.length ≤ levels then [(segments ++ [leaf.name], leaf)] else []) := by
  induction levels generalizing segments tree with
  | zero =>
    cases segments with
    | nil => simp [filesWithin, place_nil]
    | cons segment rest => simp [filesWithin, place_files_cons]
  | succ levels ih =>
    obtain ⟨hnames, hbelow⟩ := nodup_foldersWithin_succ.mp h
    cases segments with
    | nil =>
      simp only [filesWithin, place_nil, List.map_append, List.map_singleton, List.length_nil,
        Nat.zero_le, if_true, List.nil_append, List.append_assoc]
      exact List.perm_append_comm.append_left _
    | cons segment rest =>
      -- in the subfolder that it is placed in, the file has the rest of its path
      have hchild : ∀ child, child.name = segment → (foldersWithin levels child).Nodup →
          ((filesWithin levels (place leaf rest child)).map
              fun file => (segment :: file.1, file.2)).Perm
            ((filesWithin levels child).map (fun file => (segment :: file.1, file.2)) ++
              if (segment :: rest).length ≤ levels + 1 then
                [(segment :: rest ++ [leaf.name], leaf)] else []) := by
        intro child hname hnodup
        have hrest := @ih rest child hnodup
        have hfiles := hrest.map fun file => (segment :: file.1, file.2)
        by_cases hdepth : rest.length ≤ levels
        · simpa [hdepth] using hfiles
        · simpa [hdepth] using hfiles
      generalize (if (segment :: rest).length ≤ levels + 1 then
        [(segment :: rest ++ [leaf.name], leaf)] else []) = new at hchild ⊢
      simp only [filesWithin, place_files_cons, List.append_assoc]
      refine List.Perm.append_left _ ?_
      rcases place_children_cons leaf segment rest hnames with
        ⟨before, child, after, hchildren, rfl, hplaced⟩ | ⟨top, hnew, hplaced⟩
      · have hbelow := hchild child rfl (hbelow child (by simp [hchildren]))
        simp only [hchildren, hplaced, List.flatMap_append, List.flatMap_cons, place_name,
          List.append_assoc]
        refine List.Perm.append_left _ ((hbelow.append_right _).trans ?_)
        rw [List.append_assoc]
        exact List.perm_append_comm.append_left _
      · have hempty := hchild (empty segment top) rfl (by simp)
        rw [hplaced, List.flatMap_append]
        refine List.Perm.append_left _ ?_
        simpa using hempty

/-! ## The tree of a graph -/

/-- The number of dependencies that a graph lists for a file. -/
def dependencyCount (graph : Graph) (identifier : String) : Nat :=
  ((Assoc.get? identifier graph).getD []).length

/-- The leaf of a file of a graph. -/
def leafOf (graph : Graph) (identifier : String) : Leaf :=
  ⟨(segments identifier).getLastD "", identifier, dependencyCount graph identifier⟩

/-- An identifier that names a file. -/
def HasPlace (identifier : String) : Prop :=
  segments identifier ≠ [] ∧ segments identifier ≠ [besideFolder]

instance (identifier : String) : Decidable (HasPlace identifier) :=
  inferInstanceAs (Decidable (_ ∧ _))

theorem placeFile_of_hasPlace {graph : Graph} {identifier : String} (h : HasPlace identifier)
    (tree : Tree) : placeFile graph tree identifier =
      place (leafOf graph identifier) (segments identifier).dropLast tree := by
  obtain ⟨before, last, hlast⟩ := (List.eq_nil_or_concat (segments identifier)).resolve_left h.1
  have hbeside := h.2
  rw [List.concat_eq_append] at hlast
  rw [hlast] at hbeside
  simp [placeFile, leafOf, dependencyCount, hlast, hbeside]

theorem placeFile_of_not_hasPlace {graph : Graph} {identifier : String}
    (h : ¬ HasPlace identifier) (tree : Tree) : placeFile graph tree identifier = tree := by
  unfold placeFile
  by_cases hempty : segments identifier = []
  · simp [hempty]
  · have hbeside : segments identifier = [besideFolder] := by
      simpa [HasPlace, hempty] using h
    simp [hbeside]

/-- The path of a leaf's file is the segments of its identifier. -/
theorem dropLast_append_leafOf_name {graph : Graph} {identifier : String}
    (h : HasPlace identifier) :
    (segments identifier).dropLast ++ [(leafOf graph identifier).name] = segments identifier := by
  obtain ⟨before, last, hlast⟩ := (List.eq_nil_or_concat (segments identifier)).resolve_left h.1
  simp [leafOf, hlast]

/-- A file whose folders are drawn down to a level. -/
def IsShown (levels : Nat) (identifier : String) : Prop :=
  HasPlace identifier ∧ (segments identifier).dropLast.length ≤ levels

instance (levels : Nat) (identifier : String) : Decidable (IsShown levels identifier) :=
  inferInstanceAs (Decidable (_ ∧ _))

/-- Down to a level, the tree holds the files that identifiers stand for, each with its own
dependencies counted, and the folders that lead to them, each once. -/
structure Holds (graph : Graph) (levels : Nat) (identifiers : List String) (tree : Tree) :
    Prop where
  once : (foldersWithin levels tree).Nodup
  folders : ∀ path, path ∈ foldersWithin levels tree ↔ ∃ identifier ∈ identifiers,
    path ≠ [] ∧ path <+: (segments identifier).dropLast ∧ path.length ≤ levels
  files : (filesWithin levels tree).Perm
    ((identifiers.filter fun identifier => decide (IsShown levels identifier)).map
      fun identifier => (segments identifier, leafOf graph identifier))

variable {graph : Graph} {levels : Nat} {identifiers : List String} {tree : Tree}

theorem Holds.placeFile (h : Holds graph levels identifiers tree) (identifier : String) :
    Holds graph levels (identifiers ++ [identifier]) (placeFile graph tree identifier) := by
  by_cases hplace : HasPlace identifier
  · rw [placeFile_of_hasPlace hplace]
    refine ⟨nodup_foldersWithin_place h.once, fun path => ?_, ?_⟩
    · rw [mem_foldersWithin_place h.once, h.folders]
      simp only [List.mem_append, List.mem_singleton, or_and_right, exists_or, exists_eq_left]
    · refine (filesWithin_place h.once).trans ?_
      rw [List.filter_append, List.map_append]
      refine h.files.append ?_
      rw [dropLast_append_leafOf_name hplace]
      by_cases hdepth : (segments identifier).dropLast.length ≤ levels
      · have hshown : IsShown levels identifier := ⟨hplace, hdepth⟩
        rw [if_pos hdepth, List.filter_cons_of_pos (by simpa using hshown)]
        rfl
      · have hshown : ¬ IsShown levels identifier := fun hshown => hdepth hshown.2
        rw [if_neg hdepth, List.filter_cons_of_neg (by simpa using hshown)]
        rfl
  · have hshown : ¬ IsShown levels identifier := fun hshown => hplace hshown.1
    rw [placeFile_of_not_hasPlace hplace]
    refine ⟨h.once, fun path => ?_, by simpa [hshown] using h.files⟩
    have hnone : ¬ (path ≠ [] ∧ path <+: (segments identifier).dropLast ∧
        path.length ≤ levels) := by
      rintro ⟨hne, hprefix, -⟩
      have hempty : (segments identifier).dropLast = [] := by
        by_cases hempty : segments identifier = []
        · rw [hempty]
          rfl
        · have hbeside : segments identifier = [besideFolder] := by
            simpa [HasPlace, hempty] using hplace
          rw [hbeside]
          rfl
      rw [hempty, List.prefix_nil] at hprefix
      exact hne hprefix
    rw [h.folders]
    simp only [List.mem_append, List.mem_singleton, or_and_right, exists_or, exists_eq_left, hnone,
      or_false]

/-- The tree of a graph holds the files of its vertices. -/
theorem holds_ofGraph (graph : Graph) (rootName : String) (levels : Nat) :
    Holds graph levels (vertices graph) (ofGraph graph rootName) := by
  unfold ofGraph
  induction vertices graph using List.reverseRecOn with
  | nil => exact ⟨by simp, by simp, by simp⟩
  | append_singleton identifiers identifier ih =>
    rw [List.foldl_append]
    exact ih.placeFile identifier

/-- Every key and every dependency is a vertex, once. -/
theorem vertices_perm (graph : Graph) :
    (vertices graph).Perm (Assoc.keys graph ++ graph.flatMap Prod.snd).dedup := by
  refine (Text.sort_perm _).trans ?_
  rw [List.perm_ext_iff_of_nodup (nodup_eraseDups _) (List.nodup_dedup _)]
  simp

end ImportAtlas.Tree
