import ImportAtlas.Proofs.Disk.Look
import ImportAtlas.Project.Context
import Mathlib.Data.List.Dedup

set_option autoImplicit false

/-!
# Inside a project

A path is inside a project when it is normalized, lies at or under the project
root, has no dependency folder among its parts below the root, and when its text
below the root neither starts with an exclusion pattern nor contains one with a
slash behind it.  A normalized path is inside exactly when the context does not
ignore it.  The files inside are among `trackedFiles`, so there are only as many.
The roots of a context that `create` makes are normalized.
-/

namespace ImportAtlas

namespace Text

theorem occursIn_iff {needle text : List Char} :
    occursIn needle text = true ↔ needle <:+: text := by
  induction text with
  | nil => rw [occursIn, List.isPrefixOf_iff_prefix, List.prefix_nil, List.infix_nil]
  | cons c text ih =>
    rw [occursIn, Bool.or_eq_true, List.isPrefixOf_iff_prefix, ih, List.infix_cons_iff]

end Text

namespace Project

theorem patternCovers_eq_false_iff {pattern text : List Char} :
    patternCovers pattern text = false ↔ ¬ pattern <+: text ∧ ¬ pattern ++ ['/'] <:+: text := by
  rw [patternCovers, Bool.or_eq_false_iff, ← Bool.not_eq_true, ← Bool.not_eq_true,
    List.isPrefixOf_iff_prefix, Text.occursIn_iff]

/-- A path that a walk may hold. -/
structure Inside (context : Context) (p : Path) : Prop where
  normal : p.IsNormal
  below : ∃ parts, p.anchor = context.projectRoot.anchor ∧
    p.parts = context.projectRoot.parts ++ parts ∧
    (∀ folder ∈ dependencyFolders, folder ∉ parts) ∧
    ∀ pattern ∈ context.exclude,
      ¬ pattern.toList <+: (Path.partsText parts).toList ∧
      ¬ pattern.toList ++ ['/'] <:+: (Path.partsText parts).toList

theorem isIgnored_eq_false_iff {p root : Path} {exclude : List String} :
    isIgnored p root exclude = false ↔
      ∃ parts, p.relativeTo? root = some parts ∧ (∀ folder ∈ dependencyFolders, folder ∉ parts) ∧
        ∀ pattern ∈ exclude,
          patternCovers pattern.toList (Path.partsText parts).toList = false := by
  unfold isIgnored
  cases h : p.relativeTo? root with
  | none => simp
  | some parts =>
    simp only [Bool.or_eq_false_iff, List.any_eq_false, List.contains_eq_mem, Bool.not_eq_true,
      Option.some.injEq, exists_eq_left', decide_eq_false_iff_not]
    exact and_congr_left fun _ => ⟨fun hp f hf hm => hp f hm hf, fun hp f hf hm => hp f hm hf⟩

/-- The paths that a context does not ignore are those inside. -/
theorem inside_iff {context : Context} {p : Path} :
    Inside context p ↔ p.IsNormal ∧ context.ignores p = false := by
  rw [Context.ignores, isIgnored_eq_false_iff]
  simp only [Path.relativeTo?_eq_some, patternCovers_eq_false_iff]
  constructor
  · rintro ⟨hnormal, parts, hanchor, hparts, hrest⟩
    exact ⟨hnormal, parts, ⟨hanchor, hparts⟩, hrest⟩
  · rintro ⟨hnormal, parts, ⟨hanchor, hparts⟩, hrest⟩
    exact ⟨hnormal, parts, hanchor, hparts, hrest⟩

/-! ## The files of a project -/

/-- The files of the disk that the context does not ignore, as paths below its root. -/
def trackedFiles (context : Context) (disk : Disk) : List Path :=
  let paths := disk.entries.map fun entry => ⟨context.projectRoot.anchor, entry.1⟩
  paths.dedup.filter fun p => disk.isFile p = .ok true ∧ context.ignores p = false

theorem mem_trackedFiles {context : Context} {disk : Disk} {p : Path} (hp : Inside context p)
    (hfile : disk.isFile p = .ok true) : p ∈ trackedFiles context disk := by
  obtain ⟨_, hanchor, -⟩ := hp.below
  obtain ⟨found, hentry, hfound⟩ := Disk.entryAt?_of_isFile hp.normal hfile
  unfold Disk.entryAt? at hentry
  split at hentry
  · exact absurd (Option.some.inj hentry).symm hfound
  obtain ⟨entry, hmem, hparts⟩ := List.mem_map.mp (Assoc.mem_keys_of_get? hentry)
  refine List.mem_filter.mpr ⟨List.mem_dedup.mpr (List.mem_map.mpr ⟨entry, hmem, ?_⟩), ?_⟩
  · rw [hparts, ← hanchor]
  · simp [hfile, (inside_iff.mp hp).2]

/-! ## Contexts -/

/-- Both roots are normalized. -/
structure Context.IsNormal (context : Context) : Prop where
  projectRoot : context.projectRoot.IsNormal
  sourceRoot : context.sourceRoot.IsNormal

theorem isName_of_sourceFolder : ∀ name ∈ sourceFolders, IsName name := by
  decide

theorem isNormal_of_firstFolder {view : FileView} {root found : Path} {names : List String}
    (hroot : root.IsNormal) (hnames : ∀ name ∈ names, IsName name)
    (h : firstFolder view root names = .ok found) : found.IsNormal := by
  induction names with
  | nil =>
    cases h
    exact hroot
  | cons name names ih =>
    obtain ⟨there, -, h⟩ := Except.bind_eq_ok h
    cases there with
    | true =>
      cases h
      exact hroot.child (hnames name List.mem_cons_self)
    | false => exact ih (fun n hn => hnames n (List.mem_cons_of_mem _ hn)) h

/-- What a created context is made of. -/
theorem Context.create_eq_ok {disk : Disk} {root : Option Path} {maxDepth : Int}
    {exclude : List String} {context : Context}
    (h : Context.create disk root maxDepth exclude = .ok context) :
    context.projectRoot = disk.absolute (root.getD disk.workingPath) ∧
      sourceRootOf disk.view context.projectRoot = .ok context.sourceRoot ∧
      context.maxDepth = maxDepth ∧ context.exclude = cleanPatterns exclude := by
  obtain ⟨sourceRoot, hsource, hcontext⟩ := Except.bind_eq_ok h
  cases hcontext
  exact ⟨rfl, hsource, rfl, rfl⟩

/-- The roots of a project given as a text, or of the working folder, are normalized. -/
theorem isNormal_of_create {disk : Disk} {root : Option String} {maxDepth : Int}
    {exclude : List String} {context : Context} (hdisk : disk.workingPath.IsNormal)
    (h : Context.create disk (root.map Path.ofString) maxDepth exclude = .ok context) :
    context.IsNormal := by
  have hspelled : ((root.map Path.ofString).getD disk.workingPath).IsSpelled := by
    cases root with
    | none => exact hdisk.isSpelled
    | some text => exact Path.isSpelled_ofString text
  have hroot : (disk.absolute ((root.map Path.ofString).getD disk.workingPath)).IsNormal :=
    hdisk.normalize_append hspelled
  obtain ⟨hprojectRoot, hsource, -⟩ := Context.create_eq_ok h
  rw [← hprojectRoot] at hroot
  exact ⟨hroot, isNormal_of_firstFolder hroot isName_of_sourceFolder hsource⟩

end Project

end ImportAtlas
