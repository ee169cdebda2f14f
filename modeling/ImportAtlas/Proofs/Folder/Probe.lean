import ImportAtlas.Folder.Probe
import ImportAtlas.Proofs.Disk.Edit
import Mathlib.Data.List.Nodup

set_option autoImplicit false

/-!
# What a probe finds

A probe is meant to be a picture of the folders on the disk.  `Descends` says,
by locations alone, which folders can be reached from a folder through
subfolders of names that are not ignored; the probe asks the disk by paths and
goes down a limited number of levels.  When the folders on the way can be listed
by their paths, the nodes of a probe are the folders that are reached in fewer
steps, each of them once (`probe_exact`).
-/

namespace ImportAtlas

/-! ## Texts of spelled paths -/

namespace Path

variable {p q : Path}

theorem IsSpelled.areSegments (h : p.IsSpelled) : AreSegments p.parts where
  no_slash part hpart := by
    by_cases hup : part = ".."
    · rw [hup]
      decide
    · exact (h part hpart hup).no_slash
  head_ne hhead := (h "" (List.mem_of_head? hhead) (by decide)).ne_empty rfl

theorem IsSpelled.partsOf_eq (h : p.IsSpelled) : partsOf p.parts = p.parts := by
  refine List.filter_eq_self.mpr fun part hpart => ?_
  by_cases hup : part = ".."
  · rw [hup]
    decide
  · exact isPart_iff.mpr (not_or.mpr ⟨(h part hpart hup).ne_empty, (h part hpart hup).ne_here⟩)

/-- A spelled path is read back from its text. -/
theorem IsSpelled.ofString_text (h : p.IsSpelled) : ofString p.text = p := by
  have hread : ∀ slashes : Nat, ofString (spelled slashes p.parts) =
      ⟨anchorOfSlashes slashes, p.parts⟩ := fun slashes => by
    rw [h.areSegments.ofString_spelled, h.partsOf_eq]
  by_cases hnil : p.parts = []
  · rcases p with ⟨anchor, parts⟩
    subst hnil
    cases anchor <;> decide +kernel
  · rw [text_of_parts hnil]
    rcases p with ⟨_ | _ | _, parts⟩
    · exact hread 0
    · exact hread 1
    · exact hread 2

theorem IsSpelled.text_injective (hp : p.IsSpelled) (hq : q.IsSpelled) (h : p.text = q.text) :
    p = q := by
  rw [← hp.ofString_text, h, hq.ofString_text]

theorem IsSpelled.child (h : p.IsSpelled) {name : String} (hname : IsName name) :
    (p.child name).IsSpelled :=
  List.forall_mem_append.mpr ⟨h, List.forall_mem_singleton.mpr fun _ => hname⟩

theorem name_child (p : Path) (name : String) : (p.child name).name = name := by
  simp [Path.name, child]

/-- The path that leads on from a path by names. -/
def below (p : Path) (names : List String) : Path :=
  { p with parts := p.parts ++ names }

theorem below_nil (p : Path) : p.below [] = p := by
  simp [below]

theorem below_cons (p : Path) (name : String) (names : List String) :
    p.below (name :: names) = (p.child name).below names := by
  simp [below, child]

theorem IsSpelled.below (h : p.IsSpelled) {names : List String}
    (hnames : ∀ name ∈ names, IsName name) :
    (p.below names).IsSpelled :=
  List.forall_mem_append.mpr ⟨h, fun name hname _ => hnames name hname⟩

end Path

/-! ## Nodes -/

namespace FolderNode

mutual
/-- A node and all nodes below it. -/
def nodes : FolderNode → List FolderNode
  | mk name path children => mk name path children :: nodesBelow children
/-- The nodes of a list of nodes and all below them. -/
def nodesBelow : List FolderNode → List FolderNode
  | [] => []
  | child :: rest => child.nodes ++ nodesBelow rest
end

theorem nodesBelow_eq (children : List FolderNode) :
    nodesBelow children = children.flatMap nodes := by
  induction children with
  | nil => rfl
  | cons child rest ih => rw [nodesBelow, ih, List.flatMap_cons]

theorem nodes_mk (name path : String) (children : List FolderNode) :
    (mk name path children).nodes = mk name path children :: children.flatMap nodes := by
  rw [nodes, nodesBelow_eq]

/-- The node shows the folder at the path. -/
structure Shows (n : FolderNode) (p : Path) : Prop where
  name : n.name = p.name
  path : n.path = p.text

end FolderNode

/-! ## Folders on the disk -/

namespace Disk

variable {d : Disk} {here : Location} {p : Path} {ignored names : List String} {name : String}
  {levels : Nat}

/-- Locations are lists of names, and each has one entry. -/
structure IsTree (d : Disk) : Prop where
  names : ∀ location ∈ Assoc.keys d.entries, ∀ name ∈ location, IsName name
  nodup : (Assoc.keys d.entries).Nodup

/-- The names lead from a folder down through subfolders, none of an ignored name. -/
inductive Descends (d : Disk) (ignored : List String) : Location → List String → Prop where
  | here {here : Location} : Descends d ignored here []
  | down {here : Location} {name : String} {names : List String} (hname : name ∉ ignored)
      (hfolder : d.isFolderAt (here ++ [name]) = true)
      (hrest : Descends d ignored (here ++ [name]) names) :
      Descends d ignored here (name :: names)

/-- The folders that are reached in fewer steps than there are levels can be listed. -/
def Readable (d : Disk) (ignored : List String) (levels : Nat) (p : Path)
    (here : Location) : Prop :=
  ∀ names, d.Descends ignored here names → names.length < levels →
    ∃ listed, d.names (p.below names) = .ok listed

theorem mem_keys_of_isFolderAt (h : d.isFolderAt (here ++ [name]) = true) :
    here ++ [name] ∈ Assoc.keys d.entries := by
  rw [isFolderAt, decide_eq_true_eq, entryAt?, if_neg (by simp)] at h
  exact Assoc.mem_keys_of_get? h

theorem IsTree.isName (hd : d.IsTree) (h : here ++ [name] ∈ Assoc.keys d.entries) : IsName name :=
  hd.names _ h name (by simp)

theorem Descends.isName (hd : d.IsTree) (h : d.Descends ignored here names) :
    ∀ name ∈ names, IsName name := by
  induction h with
  | here => nofun
  | down hname hfolder _ ih =>
    exact List.forall_mem_cons.mpr ⟨hd.isName (mem_keys_of_isFolderAt hfolder), ih⟩

/-! ## Listing a folder -/

/-- The name that a location has in a folder. -/
def nameIn? (here location : Location) : Option String :=
  match location.getLast? with
  | some name => if location.dropLast = here then some name else none
  | none => none

theorem nameIn?_eq_some {location : Location} :
    nameIn? here location = some name ↔ location = here ++ [name] := by
  rcases List.eq_nil_or_concat location with rfl | ⟨front, last, rfl⟩
  · simp [nameIn?]
  · simp [nameIn?]

theorem namesAt_eq (d : Disk) (here : Location) :
    d.namesAt here = (Assoc.keys d.entries).filterMap (nameIn? here) := by
  rw [Assoc.keys, List.filterMap_map]
  rfl

theorem mem_namesAt : name ∈ d.namesAt here ↔ here ++ [name] ∈ Assoc.keys d.entries := by
  simp [namesAt_eq, nameIn?_eq_some]

theorem IsTree.nodup_namesAt (hd : d.IsTree) (here : Location) : (d.namesAt here).Nodup := by
  rw [namesAt_eq]
  refine hd.nodup.filterMap fun location other name hlocation hother => ?_
  rw [Option.mem_def, nameIn?_eq_some] at hlocation hother
  rw [hlocation, hother]

/-- A path is listed when it is located at a folder. -/
theorem names_eq_ok_iff {listed : List String} : d.names p = .ok listed ↔
    ∃ here, d.locate .listFolder p = .ok here ∧ d.isFolderAt here = true ∧
      listed = d.namesAt here := by
  unfold Disk.names
  cases d.locate .listFolder p with
  | error cause => simp
  | ok here =>
    cases hfolder : d.isFolderAt here with
    | false => simp [hfolder]
    | true => simpa [hfolder] using eq_comm

/-- The folder below a located one is located one name further. -/
theorem locate_child (hhere : d.locate .listFolder p = .ok here) (hname : IsName name)
    {there : Location} (h : d.locate .listFolder (p.child name) = .ok there) :
    there = here ++ [name] := by
  obtain ⟨-, hfollow⟩ := locate_eq_ok_iff.mp hhere
  obtain ⟨-, hchild⟩ := locate_eq_ok_iff.mp h
  obtain ⟨folder, hfolder, -, hpart⟩ := follow_concat.mp hchild
  rw [if_neg hname.ne_up] at hpart
  obtain rfl := Except.ok.inj (hfollow.symm.trans hfolder)
  exact hpart.2.1

theorem locate_of_hasFolder_child (hhere : d.locate .listFolder p = .ok here) (hname : IsName name)
    (h : d.hasFolder (p.child name) = true) :
    d.locate .listFolder (p.child name) = .ok (here ++ [name]) ∧
      d.isFolderAt (here ++ [name]) = true := by
  have hfolder : d.isFolder (p.child name) = .ok true := by
    unfold hasFolder at h
    split at h
    · rename_i there heq
      rw [heq, h]
    · cases h
  obtain ⟨there, hlookUp, hat⟩ := isFolder_iff.mp hfolder
  have hthere := locate_task .listFolder hlookUp
  obtain rfl := locate_child hhere hname hthere
  exact ⟨hthere, hat⟩

theorem hasFolder_of_names {listed : List String} (h : d.names p = .ok listed) :
    d.hasFolder p = true := by
  obtain ⟨here, hhere, hfolder, -⟩ := names_eq_ok_iff.mp h
  rw [hasFolder, isFolder_iff.mpr ⟨here, locate_task .lookUp hhere, hfolder⟩]

theorem mem_subfolders_iff (hhere : d.locate .listFolder p = .ok here)
    (hfolder : d.isFolderAt here = true) : name ∈ d.subfolders ignored p ↔
      here ++ [name] ∈ Assoc.keys d.entries ∧ name ∉ ignored ∧
        d.hasFolder (p.child name) = true := by
  have hnames : d.names p = .ok (d.namesAt here) := names_eq_ok_iff.mpr ⟨here, hhere, hfolder, rfl⟩
  simp only [subfolders, sortedNames, hnames, List.mem_filter, (Text.sort_perm _).mem_iff,
    mem_namesAt, Bool.and_eq_true, Bool.not_eq_true', List.contains_eq_mem,
    decide_eq_false_iff_not]

/-- The subfolders of a probe ascend strictly. -/
theorem IsTree.subfolders_pairwise (hd : d.IsTree) (ignored : List String) (p : Path) :
    (d.subfolders ignored p).Pairwise (· < ·) := by
  refine List.Pairwise.filter _ ?_
  unfold sortedNames
  split
  · rename_i listed hlisted
    obtain ⟨here, -, -, rfl⟩ := names_eq_ok_iff.mp hlisted
    have hnodup : (Text.sort (d.namesAt here)).Nodup :=
      (Text.sort_perm _).nodup_iff.mpr (hd.nodup_namesAt here)
    exact ((Text.sort_pairwise _).and hnodup).imp fun h =>
      Decidable.byContradiction fun hlt => h.2 (String.le_antisymm h.1 (String.not_lt.mp hlt))
  · exact .nil

/-! ## Probes -/

/-- The node shows the folders that are reached from `p` in fewer steps than there are levels, each
of them once, in folders whose paths are joined by name and whose children ascend. -/
structure Depicts (d : Disk) (ignored : List String) (levels : Nat) (p : Path) (here : Location)
    (node : FolderNode) : Prop where
  top : node.Shows p
  sound : ∀ n ∈ node.nodes, ∃ names, d.Descends ignored here names ∧ names.length < levels ∧
    n.Shows (p.below names)
  complete : ∀ names, d.Descends ignored here names → names.length < levels →
    ∃ n ∈ node.nodes, n.Shows (p.below names)
  once : (node.nodes.map FolderNode.path).Nodup
  joined : ∀ n ∈ node.nodes, ∀ child ∈ n.children,
    child.path = ((Path.ofString n.path).child child.name).text
  ascending : ∀ n ∈ node.nodes, (n.children.map FolderNode.name).Pairwise (· < ·)

theorem shows_of_probe {node : FolderNode} (h : d.probe ignored levels p = some node) :
    node.Shows p := by
  cases levels with
  | zero => cases h
  | succ levels =>
    cases h
    exact ⟨rfl, rfl⟩

theorem exists_probe (ignored : List String) (p : Path) (hlevels : 0 < levels) :
    ∃ node, d.probe ignored levels p = some node := by
  cases levels with
  | zero => cases hlevels
  | succ levels => exact ⟨_, rfl⟩

theorem Readable.isFolderAt (h : d.Readable ignored (levels + 1) p here)
    (hhere : d.locate .listFolder p = .ok here) : d.isFolderAt here = true := by
  obtain ⟨listed, hlisted⟩ := h [] .here (Nat.succ_pos levels)
  obtain ⟨there, hthere, hfolder, -⟩ := names_eq_ok_iff.mp hlisted
  rw [Path.below_nil, hhere] at hthere
  exact Except.ok.inj hthere ▸ hfolder

theorem Readable.child (h : d.Readable ignored (levels + 1) p here) (hname : name ∉ ignored)
    (hfolder : d.isFolderAt (here ++ [name]) = true) :
    d.Readable ignored levels (p.child name) (here ++ [name]) := by
  intro names hnames hlength
  rw [← Path.below_cons]
  exact h (name :: names) (.down hname hfolder hnames) (Nat.succ_lt_succ hlength)

/-- The subfolders that a probe goes down to are those that are reached in one step, as long as
there is a level left. -/
theorem mem_subfolders_of_isFolderAt (hhere : d.locate .listFolder p = .ok here)
    (hread : d.Readable ignored (levels + 1) p here) (hlevels : 0 < levels) (hname : name ∉ ignored)
    (hfolder : d.isFolderAt (here ++ [name]) = true) : name ∈ d.subfolders ignored p := by
  obtain ⟨listed, hlisted⟩ := hread [name] (.down hname hfolder .here) (Nat.succ_lt_succ hlevels)
  rw [Path.below_cons, Path.below_nil] at hlisted
  exact (mem_subfolders_iff hhere (hread.isFolderAt hhere)).mpr
    ⟨mem_keys_of_isFolderAt hfolder, hname, hasFolder_of_names hlisted⟩

/-! ## The nodes below a node -/

/-- The nodes of the subfolders of a folder. -/
def childNodes (d : Disk) (ignored : List String) (levels : Nat) (p : Path) : List FolderNode :=
  (d.subfolders ignored p).filterMap fun name => d.probe ignored levels (p.child name)

theorem probe_succ (d : Disk) (ignored : List String) (levels : Nat) (p : Path) :
    d.probe ignored (levels + 1) p = some (.mk p.name p.text (d.childNodes ignored levels p)) := rfl

theorem mem_childNodes {child : FolderNode} : child ∈ d.childNodes ignored levels p ↔
    ∃ name ∈ d.subfolders ignored p, d.probe ignored levels (p.child name) = some child :=
  List.mem_filterMap

/-- The nodes of a probe are its top and the nodes of the probes of subfolders. -/
theorem mem_nodes_iff {n : FolderNode} :
    n ∈ (FolderNode.mk p.name p.text (d.childNodes ignored levels p)).nodes ↔
      n = .mk p.name p.text (d.childNodes ignored levels p) ∨
      ∃ name ∈ d.subfolders ignored p, ∃ child,
        d.probe ignored levels (p.child name) = some child ∧ n ∈ child.nodes := by
  rw [FolderNode.nodes_mk, List.mem_cons, List.mem_flatMap]
  refine or_congr_right ⟨?_, ?_⟩
  · rintro ⟨child, hmem, hn⟩
    obtain ⟨name, hname, hchild⟩ := mem_childNodes.mp hmem
    exact ⟨name, hname, child, hchild, hn⟩
  · rintro ⟨name, hname, child, hchild, hn⟩
    exact ⟨child, mem_childNodes.mpr ⟨name, hname, hchild⟩, hn⟩

theorem path_of_mem_childNodes (hp : p.IsSpelled) {child : FolderNode}
    (h : child ∈ d.childNodes ignored levels p) :
    child.path = ((Path.ofString p.text).child child.name).text := by
  obtain ⟨name, -, hchild⟩ := mem_childNodes.mp h
  have hshows := shows_of_probe hchild
  rw [hshows.path, hshows.name, Path.name_child, hp.ofString_text]

theorem childNodes_pairwise (hd : d.IsTree) :
    ((d.childNodes ignored levels p).map FolderNode.name).Pairwise (· < ·) := by
  refine List.pairwise_map.mpr (List.pairwise_filterMap.mpr ?_)
  refine (hd.subfolders_pairwise ignored p).imp fun {name other} hlt child hchild next hnext => ?_
  rwa [(shows_of_probe hchild).name, (shows_of_probe hnext).name, Path.name_child, Path.name_child]

/-- Names that lead on from a path are told by the text they lead to. -/
theorem names_of_text_below (hp : p.IsSpelled) {front others : List String}
    (hfront : ∀ name ∈ front, IsName name) (hothers : ∀ name ∈ others, IsName name)
    (h : (p.below front).text = (p.below others).text) : front = others := by
  have hpath := (hp.below hfront).text_injective (hp.below hothers) h
  exact List.append_cancel_left (congrArg Path.parts hpath)

/-- What the probe of a subfolder shows lies behind the subfolder's name. -/
theorem Depicts.exists_below {child : FolderNode} (hd : d.IsTree) (hname : IsName name)
    (h : d.Depicts ignored levels (p.child name) (here ++ [name]) child) :
    ∀ text ∈ child.nodes.map FolderNode.path, ∃ names,
      (∀ part ∈ name :: names, IsName part) ∧ text = (p.below (name :: names)).text := by
  intro text htext
  obtain ⟨n, hn, rfl⟩ := List.mem_map.mp htext
  obtain ⟨names, hnames, -, hshows⟩ := h.sound n hn
  refine ⟨names, List.forall_mem_cons.mpr ⟨hname, hnames.isName hd⟩, ?_⟩
  rw [hshows.path, Path.below_cons]

/-- A folder is shown once when each of its subfolders is depicted. -/
theorem nodup_paths (hd : d.IsTree) (hp : p.IsSpelled)
    (hchildren : ∀ name ∈ d.subfolders ignored p, IsName name ∧
      ∀ child, d.probe ignored levels (p.child name) = some child →
        d.Depicts ignored levels (p.child name) (here ++ [name]) child) :
    ((FolderNode.mk p.name p.text (d.childNodes ignored levels p)).nodes.map
      FolderNode.path).Nodup := by
  rw [FolderNode.nodes_mk, List.map_cons, List.nodup_cons, List.map_flatMap]
  constructor
  · intro htop
    obtain ⟨child, hmem, htext⟩ := List.mem_flatMap.mp htop
    obtain ⟨name, hname, hchild⟩ := mem_childNodes.mp hmem
    obtain ⟨hisName, hdepicts⟩ := hchildren name hname
    obtain ⟨names, hnames, heq⟩ := (hdepicts child hchild).exists_below hd hisName _ htext
    have hnone : [] = name :: names :=
      names_of_text_below hp nofun hnames (by rwa [Path.below_nil])
    cases hnone
  · refine List.nodup_flatMap.mpr ⟨fun child hmem => ?_, ?_⟩
    · obtain ⟨name, hname, hchild⟩ := mem_childNodes.mp hmem
      exact ((hchildren name hname).2 child hchild).once
    · refine List.pairwise_filterMap.mpr ((hd.subfolders_pairwise ignored p).imp_of_mem ?_)
      intro name other hname hother hlt child hchild next hnext text htext hnextText
      obtain ⟨hisName, hdepicts⟩ := hchildren name hname
      obtain ⟨hotherName, hotherDepicts⟩ := hchildren other hother
      obtain ⟨names, hnames, heq⟩ := (hdepicts child hchild).exists_below hd hisName _ htext
      obtain ⟨others, hothers, hotherEq⟩ :=
        (hotherDepicts next hnext).exists_below hd hotherName _ hnextText
      cases names_of_text_below hp hnames hothers (heq.symm.trans hotherEq)
      exact String.lt_irrefl _ hlt

/-- A probe depicts the folders below it, level by level. -/
theorem depicts_probe (hd : d.IsTree) (hp : p.IsSpelled)
    (hhere : d.locate .listFolder p = .ok here) (hread : d.Readable ignored levels p here)
    {node : FolderNode} (h : d.probe ignored levels p = some node) :
    d.Depicts ignored levels p here node := by
  induction levels generalizing p here node with
  | zero => cases h
  | succ levels ih =>
    have htop := shows_of_probe h
    obtain rfl := Option.some.inj ((probe_succ d ignored levels p).symm.trans h)
    -- each subfolder is a step, and what is probed there depicts what lies below it
    have hstep : ∀ name ∈ d.subfolders ignored p, IsName name ∧ name ∉ ignored ∧
        d.isFolderAt (here ++ [name]) = true ∧
        ∀ child, d.probe ignored levels (p.child name) = some child →
          d.Depicts ignored levels (p.child name) (here ++ [name]) child := by
      intro name hmem
      obtain ⟨hkey, hignored, hhas⟩ := (mem_subfolders_iff hhere (hread.isFolderAt hhere)).mp hmem
      have hname := hd.isName hkey
      obtain ⟨hthere, hat⟩ := locate_of_hasFolder_child hhere hname hhas
      exact ⟨hname, hignored, hat, fun child hchild =>
        ih (hp.child hname) hthere (hread.child hignored hat) hchild⟩
    refine ⟨htop, fun n hn => ?_, fun names hnames hlength => ?_, ?_, fun n hn => ?_,
      fun n hn => ?_⟩
    · rcases mem_nodes_iff.mp hn with rfl | ⟨name, hname, child, hchild, hn⟩
      · exact ⟨[], .here, Nat.succ_pos levels, by rwa [Path.below_nil]⟩
      · obtain ⟨-, hignored, hat, hdepicts⟩ := hstep name hname
        obtain ⟨names, hnames, hlength, hshows⟩ := (hdepicts child hchild).sound n hn
        exact ⟨name :: names, .down hignored hat hnames, Nat.succ_lt_succ hlength,
          by rwa [Path.below_cons]⟩
    · cases hnames with
      | here => exact ⟨_, mem_nodes_iff.mpr (.inl rfl), by rwa [Path.below_nil]⟩
      | @down _ name names hignored hat hrest =>
        have hlength := Nat.lt_of_succ_lt_succ hlength
        have hlevels := Nat.zero_lt_of_lt hlength
        have hname := mem_subfolders_of_isFolderAt hhere hread hlevels hignored hat
        obtain ⟨child, hchild⟩ := exists_probe ignored (p.child name) hlevels
        obtain ⟨n, hn, hshows⟩ := ((hstep name hname).2.2.2 child hchild).complete names
          hrest hlength
        exact ⟨n, mem_nodes_iff.mpr (.inr ⟨name, hname, child, hchild, hn⟩),
          by rwa [Path.below_cons]⟩
    · exact nodup_paths hd hp fun name hname => ⟨(hstep name hname).1, (hstep name hname).2.2.2⟩
    · rcases mem_nodes_iff.mp hn with rfl | ⟨name, hname, child, hchild, hn⟩
      · exact fun child hchild => path_of_mem_childNodes hp hchild
      · exact ((hstep name hname).2.2.2 child hchild).joined n hn
    · rcases mem_nodes_iff.mp hn with rfl | ⟨name, hname, child, hchild, hn⟩
      · exact childNodes_pairwise hd
      · exact ((hstep name hname).2.2.2 child hchild).ascending n hn

/-- A probe between two depths is empty exactly when no level is left. -/
theorem probeBetween_eq_none_iff {depth maxDepth : Int} :
    d.probeBetween ignored depth maxDepth p = .ok none ↔ maxDepth ≤ depth := by
  unfold probeBetween listable
  cases hlevels : (maxDepth - depth).toNat with
  | zero => exact iff_of_true rfl (by omega)
  | succ levels =>
    refine iff_of_false (fun h => ?_) (by omega)
    obtain ⟨_, -, h⟩ := Except.bind_eq_ok h
    rw [probe_succ] at h
    cases h

/-- **A probe is exact.**  It is empty exactly when no level is left.  Otherwise its nodes are the
folders that are reached from the start in fewer steps than there are levels, each once, with their
names and paths, if these can be listed. -/
theorem probe_exact (hd : d.IsTree) (ignored : List String) (depth maxDepth : Int) (text : String)
    (hhere : d.locate .listFolder (Path.ofString text) = .ok here)
    (hread : d.Readable ignored (maxDepth - depth).toNat (Path.ofString text) here) :
    (d.probeBetween ignored depth maxDepth (Path.ofString text) = .ok none ↔ maxDepth ≤ depth) ∧
    (depth < maxDepth → ∃ node,
      d.probeBetween ignored depth maxDepth (Path.ofString text) = .ok (some node) ∧
      d.Depicts ignored (maxDepth - depth).toNat (Path.ofString text) here node) := by
  refine ⟨probeBetween_eq_none_iff, fun hlt => ?_⟩
  obtain ⟨node, hnode⟩ :
      ∃ node, d.probe ignored (maxDepth - depth).toNat (Path.ofString text) = some node :=
    exists_probe ignored _ (by omega)
  refine ⟨node, ?_, depicts_probe hd (Path.isSpelled_ofString text) hhere hread hnode⟩
  have hnul : (Path.ofString text).holdsNul = false := (locate_eq_ok_iff.mp hhere).1.noNul
  rw [probeBetween, listable, hnul, Bool.and_false, hnode]
  rfl

theorem Descends.isFolderAt (h : d.Descends ignored here names) (hhere : d.isFolderAt here = true) :
    d.isFolderAt (here ++ names) = true := by
  induction h with
  | here => rwa [List.append_nil]
  | down _ hfolder _ ih => simpa using ih hfolder

/-- All folders can be listed when each folder entry can. -/
theorem readable_of_entries (hhere : d.isFolderAt here = true)
    (h : ∀ location ∈ here :: Assoc.keys d.entries, d.isFolderAt location = true →
      (d.names (p.below (location.drop here.length))).isOk = true) :
    d.Readable ignored levels p here := by
  intro names hnames _
  have hfolder := hnames.isFolderAt hhere
  have hmem : here ++ names ∈ here :: Assoc.keys d.entries := by
    rcases List.eq_nil_or_concat names with rfl | ⟨front, last, rfl⟩
    · simp
    · rw [List.concat_eq_append, ← List.append_assoc] at hfolder ⊢
      exact List.mem_cons_of_mem _ (mem_keys_of_isFolderAt hfolder)
  have hlisted := h _ hmem hfolder
  rw [List.drop_left] at hlisted
  exact Except.exists_of_isOk hlisted

/-- Folders within folders, one of an ignored name, and a file of that name. -/
def nestedFolders : Disk where
  entries := [(["w"], .folder), (["w", "b"], .folder), (["w", "b", "dist"], .file .empty),
    (["w", "dist"], .folder), (["w", "dist", "e"], .folder), (["w", "a"], .folder),
    (["w", "a", "c"], .folder), (["w", "a", "c", "d"], .folder)]
  workingFolder := ["w"]

theorem probe_exact_nested : ∃ node,
    nestedFolders.probeBetween ["dist"] 1 4 (Path.ofString ".") = .ok (some node) ∧
      (∃ n ∈ node.nodes, n.path = "a/c") ∧ ∀ n ∈ node.nodes, n.path ≠ "a/c/d" := by
  have htree : nestedFolders.IsTree := ⟨by decide +kernel, by decide +kernel⟩
  have hread : nestedFolders.Readable ["dist"] (4 - 1 : Int).toNat (Path.ofString ".") ["w"] :=
    readable_of_entries (by decide +kernel) (by decide +kernel)
  obtain ⟨node, hnode, hdepicts⟩ :=
    (probe_exact htree ["dist"] 1 4 "." (by decide +kernel) hread).2 (by decide)
  refine ⟨node, hnode, ?_, fun n hn hpath => ?_⟩
  · have hdown : nestedFolders.Descends ["dist"] ["w"] ["a", "c"] :=
      .down (by decide) (by decide +kernel) (.down (by decide) (by decide +kernel) .here)
    obtain ⟨n, hn, hshows⟩ := hdepicts.complete ["a", "c"] hdown (by decide)
    exact ⟨n, hn, hshows.path.trans (by decide +kernel)⟩
  · obtain ⟨names, hnames, hlength, hshows⟩ := hdepicts.sound n hn
    have hdeep : names = ["a", "c", "d"] :=
      names_of_text_below (Path.isSpelled_ofString ".") (hnames.isName htree) (by decide)
        (hshows.path.symm.trans (hpath.trans (by decide +kernel)))
    rw [hdeep] at hlength
    exact absurd hlength (by decide)

end Disk

end ImportAtlas
