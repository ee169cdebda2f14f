import ImportAtlas.Proofs.Analysis.Isolation
import ImportAtlas.Proofs.Analysis.Merging
import ImportAtlas.Proofs.Project.Boundary
import ImportAtlas.Proofs.Project.Naming

set_option autoImplicit false

/-!
# The outcome of an entry

An analysis fails for one of four reasons, which the disk alone decides before
the walk begins; the walk itself has no way to fail when the entry is a file
(`exists_track_of_isFile`).  `EndsWith` gives the rules.  What returns shows the
entry first, or nothing at all when the entry is ignored.

All this needs a disk that can be asked.  A path whose names are short is not
always one: when its whole text is too long, the analysis ends in a fault of the
disk instead of saying that the entry is missing.  And a file that is there may be
closed, which is refused as well (`closed_and_deep_entries`).
-/

namespace ImportAtlas

open Project

/-! ## Asking the disk -/

/-- Between two names there is a slash. -/
theorem Path.length_parts_le_text (p : Path) : p.parts.length ≤ p.text.utf8ByteSize + 1 := by
  by_cases hnil : p.parts = []
  · simp [hnil]
  · have hjoin : p.parts.length ≤ ("/".intercalate p.parts).utf8ByteSize + 1 := by
      generalize p.parts = parts
      induction parts with
      | nil => simp
      | cons part parts ih =>
        cases parts with
        | nil => simp
        | cons next rest =>
          rw [String.intercalate_cons_cons, String.utf8ByteSize_append, String.utf8ByteSize_append]
          have hslash : "/".utf8ByteSize = 1 := rfl
          simp only [List.length_cons] at ih ⊢
          omega
    rw [Path.text_of_parts hnil, String.utf8ByteSize_append]
    omega

namespace Disk

variable {disk : Disk} {p : Path}

/-- A path whose text is too long cannot be looked up. -/
theorem contains_of_long (hnul : p.holdsNul = false)
    (hlong : maxPathBytes < p.text.utf8ByteSize) : disk.contains p = .error ⟨.nameTooLong, p⟩ := by
  have hlocate : disk.locate .lookUp p = .error .nameTooLong := by
    simp [locate, checkPath, hnul, hlong, bind, Except.bind]
  rw [contains, look, hlocate]
  rfl

theorem exists_look_of_contains {there : Bool} (h : disk.contains p = .ok there) :
    ∃ found, disk.look p = .ok found := by
  unfold contains at h
  cases hlook : disk.look p with
  | error fault => simp [hlook, Except.map] at h
  | ok found => exact ⟨found, rfl⟩

theorem exists_isFile_of_contains {there : Bool} (h : disk.contains p = .ok there) :
    ∃ file, disk.isFile p = .ok file := by
  obtain ⟨found, hlook⟩ := exists_look_of_contains h
  exact ⟨_, congrArg (Except.map _) hlook⟩

theorem exists_isFolder_of_isShort (h : p.IsShort) : ∃ there, disk.isFolder p = .ok there := by
  obtain ⟨there, hthere⟩ := exists_contains_of_isShort h
  obtain ⟨found, hlook⟩ := exists_look_of_contains hthere
  exact ⟨_, congrArg (Except.map _) hlook⟩

end Disk

/-- Which of several folders exists can be asked when all their paths are short. -/
theorem Project.exists_firstFolder {disk : Disk} {root : Path} {names : List String}
    (h : ∀ name ∈ names, (root.child name).IsShort) :
    ∃ found, firstFolder disk.view root names = .ok found := by
  induction names with
  | nil => exact ⟨root, rfl⟩
  | cons name names ih =>
    obtain ⟨hname, hnames⟩ := List.forall_mem_cons.mp h
    obtain ⟨there, hview⟩ : ∃ there, disk.view.isFolder (root.child name) = .ok there :=
      Disk.exists_isFolder_of_isShort hname
    obtain ⟨found, hfound⟩ := ih hnames
    cases there with
    | false => exact ⟨found, by simp [firstFolder, hview, hfound]⟩
    | true => exact ⟨root.child name, by simp [firstFolder, hview]; rfl⟩

/-! ## Keys keep their order -/

namespace Assoc

variable {α β : Type} [DecidableEq α] {key : α} {value : β} {pairs : List (α × β)}

theorem keys_prefix_put : keys pairs <+: keys (put key value pairs) := by
  rw [keys_put]
  split
  · exact List.prefix_rfl
  · exact List.prefix_append _ _

/-- The first key that is written stays the first. -/
theorem head?_keys_ofList : (keys (ofList pairs)).head? = (keys pairs).head? := by
  cases pairs with
  | nil => rfl
  | cons first rest =>
    have hfirst : [first.1] <+: keys (ofList (first :: rest)) := by
      induction rest using List.reverseRecOn with
      | nil => exact List.prefix_rfl
      | append_singleton rest last ih =>
        rw [← List.cons_append, ofList, List.foldl_append, ← ofList]
        exact ih.trans keys_prefix_put
    obtain ⟨more, hmore⟩ := hfirst
    rw [← hmore]
    rfl

end Assoc

namespace Walk

variable {context : Context} {view : FileView} {extractor : Extractor} {w w' : Walk}
    {path file : Path}

theorem keys_prefix_expand {onward : Onward}
    (honward : ∀ t v v', onward t v = .ok v' → Assoc.keys v.graph <+: Assoc.keys v'.graph) :
    Assoc.keys (w.enter file).graph <+:
      Assoc.keys (expand context view extractor onward file w).graph := by
  refine (expand_induction (R := fun u => Assoc.keys (w.enter file).graph <+: Assoc.keys u.graph)
    List.prefix_rfl (fun _ _ hu => hu) (fun t u v _ hu hv => ?_) (fun t u _ _ _ hu _ => ?_)).2
  · exact (hu.trans Assoc.keys_prefix_put).trans (honward t _ v hv)
  · exact hu.trans Assoc.keys_prefix_put

/-- A walk adds new keys behind those that there are. -/
theorem keys_prefix_follow {levels : Nat}
    (h : follow context view extractor levels path w = .ok w') :
    Assoc.keys w.graph <+: Assoc.keys w'.graph := by
  induction levels generalizing path w w' with
  | zero =>
    cases h
    exact List.prefix_rfl
  | succ levels ih =>
    rcases follow_succ_cases h with rfl | ⟨file, -, -, -, -, rfl⟩
    · exact List.prefix_rfl
    · exact Assoc.keys_prefix_put.trans (keys_prefix_expand fun _ _ _ => ih)

/-! ## The walk from a file -/

/-- What the walk from a file shows: the file first, unless it is ignored or no level is wanted. -/
structure StartsAt (context : Context) (file : Path) (w : Walk) : Prop where
  first : context.ignores file = false → 0 ≤ context.maxDepth →
    (Assoc.keys w.graph).head? = some file
  nothing : context.ignores file = true ∨ context.maxDepth < 0 → w = .empty

/-- **The walk from a file never fails**, whatever the disk and the extractor answer about files. -/
theorem exists_track_of_isFile
    (h : view.isFile (context.projectRoot ++ path).normalize = .ok true) :
    ∃ w, Walk.empty.track context view extractor path 0 = .ok w ∧
      StartsAt context (context.projectRoot ++ path).normalize w := by
  have hlocated : Reference.locate view inferredSuffixes (context.projectRoot ++ path).normalize =
      .ok (some (context.projectRoot ++ path).normalize) := Reference.locate_of_isFile h
  rcases Int.lt_or_le context.maxDepth 0 with hlt | hle
  · refine ⟨.empty, ?_, fun _ hle => absurd hlt (Int.not_lt.mpr hle), fun _ => rfl⟩
    rw [track, levelsAt_of_lt hlt]
    rfl
  · cases hignored : context.ignores (context.projectRoot ++ path).normalize with
    | true =>
      refine ⟨.empty, ?_, fun htracked => ?_, fun _ => rfl⟩
      · rw [track, levelsAt_of_le hle, follow]
        simp only [hignored, if_true]
        rfl
      · rw [hignored] at htracked
        cases htracked
    | false =>
      refine ⟨_, track_of_enters ⟨hle, ⟨hignored, hlocated, hignored⟩, List.not_mem_nil⟩,
        fun _ _ => ?_, fun hnothing => ?_⟩
      · have honward : ∀ t v v', onwardFrom context view extractor 0 t v = .ok v' →
            Assoc.keys v.graph <+: Assoc.keys v'.graph := fun _ _ _ => keys_prefix_follow
        obtain ⟨more, hmore⟩ := keys_prefix_expand honward
        rw [← hmore]
        rfl
      · rw [hignored] at hnothing
        exact absurd (hnothing.resolve_left Bool.false_ne_true) (Int.not_lt.mpr hle)

end Walk

/-! ## How an analysis ends -/

namespace Analysis

open Batch (rootOf entryPath)

variable {disk : Disk} {options : Options} {entry : String}

/-- What an analysis asks the disk before its walk. -/
structure IsAskable (disk : Disk) (options : Options) (entry : String) : Prop where
  source : ∃ source, sourceRootOf disk.view (rootOf disk options) = .ok source
  root : ∃ there, disk.isFolder (rootOf disk options) = .ok there
  entry : disk.isFolder (rootOf disk options) = .ok true → Batch.IsAskable disk options entry

/-- The rules by which an analysis ends. -/
inductive EndsWith (disk : Disk) (options : Options) (entry : String) :
    Except AnalysisError Analysis → Prop where
  | fault {fault : DiskFault} (hasked : ¬ IsAskable disk options entry) :
      EndsWith disk options entry (.error (.disk fault))
  | rootNotFolder (hasked : IsAskable disk options entry)
      (hroot : disk.isFolder (rootOf disk options) = .ok false) :
      EndsWith disk options entry (.error (.rootNotFolder (rootOf disk options)))
  | entryMissing (hasked : IsAskable disk options entry)
      (hroot : disk.isFolder (rootOf disk options) = .ok true)
      (hthere : disk.contains (entryPath disk options entry) = .ok false) :
      EndsWith disk options entry (.error (.entryMissing (entryPath disk options entry)))
  | entryNotFile (hasked : IsAskable disk options entry)
      (hroot : disk.isFolder (rootOf disk options) = .ok true)
      (hthere : disk.contains (entryPath disk options entry) = .ok true)
      (hfile : disk.isFile (entryPath disk options entry) = .ok false) :
      EndsWith disk options entry (.error (.entryNotFile (entryPath disk options entry)))
  | entryUnreadable (hasked : IsAskable disk options entry)
      (hroot : disk.isFolder (rootOf disk options) = .ok true)
      (hfile : disk.isFile (entryPath disk options entry) = .ok true)
      (hread : disk.canRead (entryPath disk options entry) = false) :
      EndsWith disk options entry (.error (.entryUnreadable (entryPath disk options entry)))
  | returns {context : Context} {w : Walk} (hasked : IsAskable disk options entry)
      (hroot : disk.isFolder (rootOf disk options) = .ok true)
      (hread : disk.canRead (entryPath disk options entry) = true)
      (hcontext : Context.create disk options.projectRoot options.maxDepth options.exclude =
        .ok context)
      (hstarts : Walk.StartsAt context (entryPath disk options entry) w) :
      EndsWith disk options entry (.ok (ofWalk context options (entryPath disk options entry) w))

theorem exists_create_iff : (∃ context,
    Context.create disk options.projectRoot options.maxDepth options.exclude = .ok context) ↔
    ∃ source, sourceRootOf disk.view (rootOf disk options) = .ok source := by
  constructor
  · rintro ⟨context, hcontext⟩
    obtain ⟨source, hsource, -⟩ := Except.bind_eq_ok hcontext
    exact ⟨source, hsource⟩
  · rintro ⟨source, hsource⟩
    refine ⟨⟨rootOf disk options, source, options.maxDepth, cleanPatterns options.exclude⟩, ?_⟩
    exact congrArg (· >>= _) hsource

theorem rootOf_of_create {context : Context}
    (h : Context.create disk options.projectRoot options.maxDepth options.exclude = .ok context) :
    context.projectRoot = rootOf disk options :=
  (Context.create_eq_ok h).1

/-- Seen from any folder an entry's path is the same. -/
theorem normalize_append_entryPath (root : Path) :
    (root ++ entryPath disk options entry).normalize = entryPath disk options entry :=
  Path.append_normalize_of_absolute (Path.isAbsolute_append (disk.isAbsolute_absolute _)) root

/-- The walk from an entry that is a file never fails. -/
theorem exists_track_entryPath (context : Context)
    (hfile : disk.isFile (entryPath disk options entry) = .ok true) :
    ∃ w, Walk.empty.track context disk.view Walk.standardExtractor
        (entryPath disk options entry) 0 = .ok w ∧
      Walk.StartsAt context (entryPath disk options entry) w := by
  have hshown : disk.view.isFile
      (context.projectRoot ++ entryPath disk options entry).normalize = .ok true := by
    simp only [normalize_append_entryPath, Disk.view, hfile]
  obtain ⟨w, htrack, hstarts⟩ := Walk.exists_track_of_isFile hshown
  rw [normalize_append_entryPath] at hstarts
  exact ⟨w, htrack, hstarts⟩

/-- Every analysis ends by one of the rules. -/
theorem endsWith_ofEntry (disk : Disk) (options : Options) (entry : String) :
    EndsWith disk options entry (ofEntry disk options (Path.ofString entry)) := by
  unfold ofEntry
  cases hcreate : Context.create disk options.projectRoot options.maxDepth options.exclude with
  | error fault =>
    refine .fault fun hasked => ?_
    obtain ⟨context, hcontext⟩ := exists_create_iff.mpr hasked.source
    rw [hcreate] at hcontext
    cases hcontext
  | ok context =>
    have hsource := exists_create_iff.mp ⟨context, hcreate⟩
    have hpath : (context.projectRoot ++ Path.ofString entry).normalize =
        entryPath disk options entry := by
      rw [rootOf_of_create hcreate]
      rfl
    simp only [Except.mapError, Except.ok_bind, checkEntry, hpath]
    rw [rootOf_of_create hcreate]
    rcases hroot : disk.isFolder (rootOf disk options) with fault | _ | _
    · refine .fault fun hasked => ?_
      obtain ⟨there, hthere⟩ := hasked.root
      rw [hroot] at hthere
      cases hthere
    · exact .rootNotFolder ⟨hsource, ⟨_, hroot⟩, fun h => by simp [hroot] at h⟩ hroot
    · rcases hthere : disk.contains (entryPath disk options entry) with fault | there
      · refine .fault fun hasked => ?_
        obtain ⟨there, hthere'⟩ := hasked.entry hroot
        rw [hthere] at hthere'
        cases hthere'
      · have hasked : IsAskable disk options entry :=
          ⟨hsource, ⟨_, hroot⟩, fun _ => ⟨there, hthere⟩⟩
        cases there with
        | false => exact .entryMissing hasked hroot hthere
        | true =>
          obtain ⟨file, hfile⟩ := Disk.exists_isFile_of_contains hthere
          rw [hfile]
          cases file with
          | false => exact .entryNotFile hasked hroot hthere hfile
          | true =>
            cases hread : disk.canRead (entryPath disk options entry) with
            | false => exact .entryUnreadable hasked hroot hfile hread
            | true =>
              obtain ⟨w, htrack, hstarts⟩ := exists_track_entryPath context hfile
              change EndsWith disk options entry
                ((Walk.empty.track context disk.view Walk.standardExtractor
                  (entryPath disk options entry) 0).mapError .disk >>= fun walk =>
                    pure (ofWalk context options (entryPath disk options entry) walk))
              rw [htrack]
              exact .returns hasked hroot hread hcreate hstarts

/-! ## What a result shows -/

/-- A result shows nothing but the head of the tree. -/
structure ShowsNothing (context : Context) (a : Analysis) : Prop where
  graph : a.dependencyGraph = []
  statistics : a.statistics = .zero
  diagnostics : a.diagnostics = []
  tree : a.directoryTree = treeName context ++ "/"

/-- A result shows the file of the entry before all others. -/
structure ShowsFirst (context : Context) (entry : Path) (a : Analysis) : Prop where
  first : (Assoc.keys a.dependencyGraph).head? = some (context.identifier entry)
  counted : 1 ≤ a.statistics.totalFiles

theorem showsNothing_ofWalk_empty (context : Context) (options : Options) (entry : Path) :
    ShowsNothing context (ofWalk context options entry .empty) where
  graph := rfl
  statistics := rfl
  diagnostics := rfl
  tree := by
    have hvertices : Tree.vertices [] = [] := by simp [Tree.vertices, Assoc.keys, Text.sort]
    have hrows : Tree.rows (Tree.empty (treeName context) (treeName context)) = [] := by
      simp [Tree.rows, Tree.empty, Tree.children, Tree.files, Tree.markLast]
    have htree : Tree.ofGraph [] (treeName context) =
        Tree.empty (treeName context) (treeName context) := by
      rw [Tree.ofGraph, hvertices, List.foldl_nil]
    change (Tree.ofGraph [] (treeName context)).render options.treeDepth options.showCounts = _
    rw [htree, Tree.render, Tree.lines]
    cases options.treeDepth.toNat <;> rw [Tree.linesBelow, hrows] <;> rfl

theorem showsFirst_ofWalk {context : Context} {file : Path} {w : Walk}
    (h : (Assoc.keys w.graph).head? = some file) (options : Options) (entry : Path) :
    ShowsFirst context file (ofWalk context options entry w) := by
  obtain ⟨⟨key, dependencies⟩, rest, hgraph, rfl⟩ :
      ∃ pair rest, w.graph = pair :: rest ∧ pair.1 = file := by
    cases hgraph : w.graph with
    | nil => simp [hgraph, Assoc.keys] at h
    | cons pair rest => exact ⟨pair, rest, rfl, by simpa [hgraph, Assoc.keys] using h⟩
  constructor
  · change (Assoc.keys (w.dependencyGraph context)).head? = _
    rw [Walk.dependencyGraph, Assoc.head?_keys_ofList, hgraph]
    rfl
  · change 1 ≤ (w.graph.length : Int)
    rw [hgraph, List.length_cons]
    omega

/-- The walk leaves the entry alone. -/
def IsIgnored (disk : Disk) (options : Options) (entry : String) : Prop :=
  ∃ reason, IgnoredFor (entryPath disk options entry) (rootOf disk options)
    (cleanPatterns options.exclude) reason

theorem ignores_entryPath_iff {context : Context}
    (h : Context.create disk options.projectRoot options.maxDepth options.exclude = .ok context) :
    context.ignores (entryPath disk options entry) = true ↔ IsIgnored disk options entry := by
  obtain ⟨-, -, -, hexclude⟩ := Context.create_eq_ok h
  rw [Context.ignores, isIgnored_iff_reason, rootOf_of_create h, hexclude]
  rfl

/-- The paths that an analysis asks about before its walk. -/
def askedPaths (disk : Disk) (options : Options) (entry : String) : List Path :=
  rootOf disk options :: entryPath disk options entry ::
    sourceFolders.map (rootOf disk options).child

/-- The disk can be asked about short paths. -/
theorem isAskable_of_isShort (h : ∀ p ∈ askedPaths disk options entry, p.IsShort) :
    IsAskable disk options entry := by
  obtain ⟨hroot, h⟩ := List.forall_mem_cons.mp h
  obtain ⟨hentry, hfolders⟩ := List.forall_mem_cons.mp h
  refine ⟨exists_firstFolder fun name hname => hfolders _ (List.mem_map_of_mem hname),
    Disk.exists_isFolder_of_isShort hroot, fun _ => Disk.exists_contains_of_isShort hentry⟩

/-- An analysis ends in a fault of the disk exactly when the disk cannot be asked. -/
theorem EndsWith.fault_iff {outcome : Except AnalysisError Analysis}
    (h : EndsWith disk options entry outcome) :
    (∃ fault, outcome = .error (.disk fault)) ↔ ¬ IsAskable disk options entry := by
  cases h with
  | fault hasked => exact iff_of_true ⟨_, rfl⟩ hasked
  | rootNotFolder hasked => exact iff_of_false nofun (not_not_intro hasked)
  | entryMissing hasked => exact iff_of_false nofun (not_not_intro hasked)
  | entryNotFile hasked => exact iff_of_false nofun (not_not_intro hasked)
  | entryUnreadable hasked => exact iff_of_false nofun (not_not_intro hasked)
  | returns hasked => exact iff_of_false nofun (not_not_intro hasked)

/-- What returns shows the entry first, or nothing when the entry is ignored or no level is
wanted. -/
theorem EndsWith.shows {result : Analysis} (h : EndsWith disk options entry (.ok result)) :
    ∃ context,
      Context.create disk options.projectRoot options.maxDepth options.exclude = .ok context ∧
      (¬ IsIgnored disk options entry → 0 ≤ options.maxDepth →
        ShowsFirst context (entryPath disk options entry) result) ∧
      (IsIgnored disk options entry ∨ options.maxDepth < 0 → ShowsNothing context result) := by
  cases h with
  | @returns context w _ _ _ hcontext hstarts =>
    have hignored : context.ignores (entryPath disk options entry) = true ↔
        IsIgnored disk options entry := ignores_entryPath_iff hcontext
    obtain ⟨-, -, hlimit, -⟩ := Context.create_eq_ok hcontext
    refine ⟨context, hcontext, ?_, ?_⟩
    · intro htracked hdepth
      refine showsFirst_ofWalk (hstarts.first ?_ ?_) options _
      · exact Bool.eq_false_iff.mpr fun h => htracked (hignored.mp h)
      · rwa [hlimit]
    · intro hnothing
      rw [hstarts.nothing (by rwa [hignored, hlimit])]
      exact showsNothing_ofWalk_empty context options _

theorem isAskable_pair (h : ∃ there, Walk.pairDisk.contains
    (entryPath Walk.pairDisk Batch.pairOptions entry) = .ok there) :
    IsAskable Walk.pairDisk Batch.pairOptions entry where
  source := ⟨⟨.root, ["p"]⟩, by decide +kernel⟩
  root := ⟨true, by decide +kernel⟩
  entry := fun _ => h

/-- A project of one file, which may not be read. -/
def closedDisk : Disk where
  entries := [(["p"], .folder), (["p", "a.js"], .closedFile)]
  workingFolder := ["p"]

/-- An entry far below the root, each of its names a letter. -/
def deepEntry : String :=
  Path.partsText (List.replicate 5000 "a")

theorem entryPath_deepEntry : entryPath Walk.pairDisk Batch.pairOptions deepEntry =
    ⟨.root, "p" :: List.replicate 5000 "a"⟩ := by
  have hroot : rootOf Walk.pairDisk Batch.pairOptions = ⟨.root, ["p"]⟩ := by decide +kernel
  have hname : IsName "a" := by decide
  have hnames : ∀ part ∈ List.replicate 5000 "a", IsName part := fun part hpart =>
    List.eq_of_mem_replicate hpart ▸ hname
  rw [entryPath, deepEntry, Path.ofString_partsText hnames, hroot, Path.append_of_relative rfl]
  refine Path.normalize_of_ne_up (List.forall_mem_append.mpr ⟨by decide, fun part hpart => ?_⟩)
  exact (hnames part hpart).ne_up

theorem parts_deepEntry : ∀ part ∈ (entryPath Walk.pairDisk Batch.pairOptions deepEntry).parts,
    part = "p" ∨ part = "a" := by
  rw [entryPath_deepEntry]
  exact fun part hpart => (List.mem_cons.mp hpart).imp_right List.eq_of_mem_replicate

/-- The disk cannot be asked about an entry of 5000 letters. -/
theorem contains_deepEntry :
    Walk.pairDisk.contains (entryPath Walk.pairDisk Batch.pairOptions deepEntry) =
      .error ⟨.nameTooLong, entryPath Walk.pairDisk Batch.pairOptions deepEntry⟩ := by
  refine Disk.contains_of_long (List.any_eq_false.mpr fun part hpart => ?_) ?_
  · rcases parts_deepEntry part hpart with rfl | rfl <;> decide
  · have hlength := Path.length_parts_le_text (entryPath Walk.pairDisk Batch.pairOptions deepEntry)
    rw [entryPath_deepEntry, List.length_cons, List.length_replicate, ← entryPath_deepEntry]
      at hlength
    unfold maxPathBytes
    omega

theorem deepEntry_faults : ∃ fault,
    ofEntry Walk.pairDisk Batch.pairOptions (Path.ofString deepEntry) = .error (.disk fault) := by
  have hunasked : ¬ IsAskable Walk.pairDisk Batch.pairOptions deepEntry := fun hasked => by
    obtain ⟨there, hthere⟩ := hasked.entry (by decide +kernel)
    rw [contains_deepEntry] at hthere
    cases hthere
  generalize houtcome : ofEntry Walk.pairDisk Batch.pairOptions (Path.ofString deepEntry) = outcome
  cases houtcome ▸ endsWith_ofEntry Walk.pairDisk Batch.pairOptions deepEntry with
  | fault => exact ⟨_, rfl⟩
  | rootNotFolder hasked => exact absurd hasked hunasked
  | entryMissing hasked => exact absurd hasked hunasked
  | entryNotFile hasked => exact absurd hasked hunasked
  | entryUnreadable hasked => exact absurd hasked hunasked
  | returns hasked => exact absurd hasked hunasked

/-- No name in the paths that an analysis asks about is too long. -/
def AsksShortNames (disk : Disk) (options : Options) (entry : String) : Prop :=
  ∀ p ∈ askedPaths disk options entry, ∀ part ∈ p.parts, part.utf8ByteSize ≤ maxNameBytes

instance (disk : Disk) (options : Options) (entry : String) :
    Decidable (AsksShortNames disk options entry) :=
  inferInstanceAs (Decidable (∀ p ∈ askedPaths disk options entry, _))

theorem asksShortNames_deepEntry :
    AsksShortNames Walk.pairDisk Batch.pairOptions deepEntry := by
  have hbeside : ∀ p ∈ rootOf Walk.pairDisk Batch.pairOptions ::
      sourceFolders.map (rootOf Walk.pairDisk Batch.pairOptions).child,
      ∀ part ∈ p.parts, part.utf8ByteSize ≤ maxNameBytes := by decide +kernel
  obtain ⟨hfirst, hfolders⟩ := List.forall_mem_cons.mp hbeside
  refine List.forall_mem_cons.mpr ⟨hfirst, List.forall_mem_cons.mpr
    ⟨fun part hpart => ?_, hfolders⟩⟩
  rcases parts_deepEntry part hpart with rfl | rfl <;> decide

end Analysis

end ImportAtlas
