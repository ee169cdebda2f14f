import ImportAtlas.Proofs.Analysis.Outcomes
import ImportAtlas.Proofs.Project.Boundary

set_option autoImplicit false

/-!
# Validated entries and the boundary

Entries are validated by the test on texts, and the walk ignores paths by the
test on parts.  The two agree on every file and root whose normalized paths start
with one slash; so of the entries that exist, validation accepts exactly those
that the walk does not take to be outside.
-/

namespace ImportAtlas

open Project

namespace Validation

/-- The path that an entry names, seen from a root. -/
def pathOf (root : Path) (entry : String) : Path :=
  (root ++ Path.ofString entry).normalize

/-- The entry names a path that exists and is the root or lies under it. -/
def Accepts (disk : Disk) (root : Path) (entry : String) : Prop :=
  disk.contains (pathOf root entry) = .ok true ∧
    contains disk.workingPath root (pathOf root entry) = true

instance (disk : Disk) (root : Path) : DecidablePred (Accepts disk root) :=
  fun _ => inferInstanceAs (Decidable (_ ∧ _))

variable {disk : Disk} {root : Path} {entry : String} {entries : List String} {v v' : Validation}

/-- An entry that is sorted is accepted or counts as invalid. -/
theorem add_cases (h : add disk root v entry = .ok v') :
    (Accepts disk root entry ∧ v' = { v with valid := v.valid ++ [(pathOf root entry).text] }) ∨
      (¬ Accepts disk root entry ∧ v' = { v with invalid := v.invalid ++ [entry] }) := by
  obtain ⟨there, hthere, h⟩ := Except.bind_eq_ok h
  have haccepts : Accepts disk root entry ↔
      (there && contains disk.workingPath root (pathOf root entry)) = true := by
    rw [Accepts, pathOf, hthere, Bool.and_eq_true, Except.ok.injEq]
  by_cases haccepted : Accepts disk root entry
  · have htest := haccepts.mp haccepted
    unfold pathOf at htest
    rw [if_pos htest] at h
    exact .inl ⟨haccepted, (Except.ok.inj h).symm⟩
  · have htest := fun htest => haccepted (haccepts.mpr htest)
    unfold pathOf at htest
    rw [if_neg htest] at h
    exact .inr ⟨haccepted, (Except.ok.inj h).symm⟩

/-- Sorting entries collects those accepted and the others, in order. -/
theorem foldlM_add_eq_ok (h : entries.foldlM (add disk root) v = .ok v') :
    v'.valid = v.valid ++
        (entries.filter fun e => Accepts disk root e).map (fun e => (pathOf root e).text) ∧
      v'.invalid = v.invalid ++ entries.filter fun e => ¬ Accepts disk root e := by
  induction entries generalizing v with
  | nil =>
    cases h
    simp
  | cons entry entries ih =>
    obtain ⟨u, hadd, hrest⟩ := Except.bind_eq_ok h
    obtain ⟨hvalid, hinvalid⟩ := ih hrest
    rcases add_cases hadd with ⟨haccepted, rfl⟩ | ⟨hrefused, rfl⟩
    · simp [hvalid, hinvalid, haccepted]
    · simp [hvalid, hinvalid, hrefused]

/-- An accepted entry names a normalized path that is the root's or continues its parts. -/
theorem accepts_iff (hroot : root.IsNormal) (hrootAnchor : root.anchor = .root)
    (hanchor : (pathOf root entry).anchor = .root) (exclude : List String) :
    Accepts disk root entry ↔ disk.contains (pathOf root entry) = .ok true ∧
      ¬ IgnoredFor (pathOf root entry) root exclude .outside := by
  have hpath : (pathOf root entry).IsNormal :=
    hroot.normalize_append (Path.isSpelled_ofString entry)
  have hseen : ∀ {p : Path}, p.IsNormal → Path.absolute disk.workingPath p = p :=
    fun hp => hp.append_normalize _
  have htest := @contains_iff_parts disk.workingPath root (pathOf root entry)
  rw [hseen hroot, hseen hpath] at htest
  rw [Accepts, htest hroot hpath hrootAnchor hanchor,
    ignoredFor_outside_iff (hanchor.trans hrootAnchor.symm), not_not]

/-- **The two tests for the boundary agree.**  Take a file and a root in any spelling whose
normalized absolute paths start with one slash.  By the texts the file is in the project exactly
when the root's parts begin the file's parts, which is when the test on parts does not find it
outside; without patterns that test finds nothing else but the folder of installed packages.  So
of the entries that exist, those accepted are exactly those that no context of the root ignores for
being outside. -/
theorem boundary_tests_agree (disk : Disk) (root file : String) (hdisk : disk.workingPath.IsNormal)
    (hroot : (disk.absolute (.ofString root)).anchor = .root)
    (hfile : (disk.absolute (.ofString file)).anchor = .root) :
    let inProject := contains disk.workingPath (.ofString root) (.ofString file)
    let rootPath := disk.absolute (.ofString root)
    let filePath := disk.absolute (.ofString file)
    (inProject = true ↔ rootPath.parts <+: filePath.parts) ∧
    (inProject = true ↔ ¬ IgnoredFor filePath rootPath [] .outside) ∧
    (isIgnored filePath rootPath [] = true ↔
      inProject = false ∨ IgnoredFor filePath rootPath [] .installed) ∧
    ∀ entries v maxDepth exclude context,
      Validation.ofEntries disk (some (.ofString root)) entries = .ok v →
      Context.create disk (some (.ofString root)) maxDepth exclude = .ok context →
      (∀ entry ∈ trimmedEntries entries, (pathOf rootPath entry).anchor = .root) →
      let outside := fun path => IgnoredFor path context.projectRoot context.exclude .outside
      (∀ text ∈ v.valid, ¬ outside (.ofString text)) ∧
      ∀ entry ∈ trimmedEntries entries,
        ((pathOf rootPath entry).text ∈ v.valid ↔
          disk.contains (pathOf rootPath entry) = .ok true ∧ ¬ outside (pathOf rootPath entry)) ∧
        (entry ∈ v.invalid ↔ ¬ (disk.contains (pathOf rootPath entry) = .ok true ∧
          ¬ outside (pathOf rootPath entry))) := by
  intro inProject rootPath filePath
  have hrootNormal : rootPath.IsNormal := hdisk.normalize_append (Path.isSpelled_ofString root)
  have hfileNormal : filePath.IsNormal := hdisk.normalize_append (Path.isSpelled_ofString file)
  have hparts : inProject = true ↔ rootPath.parts <+: filePath.parts :=
    contains_iff_parts hrootNormal hfileNormal hroot hfile
  have houtside : inProject = true ↔ ¬ IgnoredFor filePath rootPath [] .outside := by
    rw [hparts, ignoredFor_outside_iff (hfile.trans hroot.symm), not_not]
  refine ⟨hparts, houtside, ?_, ?_⟩
  · rw [isIgnored_nil_iff, ← Bool.not_eq_true, houtside, not_not]
  · intro entries v maxDepth exclude context h hcontext hanchors outside
    have hrootOf : context.projectRoot = rootPath := by
      rw [(Context.create_eq_ok hcontext).1, Option.getD_some]
    have hsorted : (trimmedEntries entries).foldlM (add disk rootPath) ⟨[], []⟩ = .ok v := h
    obtain ⟨hvalid, hinvalid⟩ := foldlM_add_eq_ok hsorted
    have haccepts : ∀ entry ∈ trimmedEntries entries, Accepts disk rootPath entry ↔
        disk.contains (pathOf rootPath entry) = .ok true ∧ ¬ outside (pathOf rootPath entry) := by
      intro entry hmem
      simp only [outside, hrootOf]
      exact accepts_iff hrootNormal hroot (hanchors entry hmem) context.exclude
    have hread : ∀ entry, Path.ofString (pathOf rootPath entry).text = pathOf rootPath entry :=
      fun entry => (hrootNormal.normalize_append (Path.isSpelled_ofString entry)).ofString_text
    have hmem : ∀ text, text ∈ v.valid ↔ ∃ entry ∈ trimmedEntries entries,
        Accepts disk rootPath entry ∧ (pathOf rootPath entry).text = text := by
      intro text
      rw [hvalid, List.nil_append]
      simp only [List.mem_map, List.mem_filter, decide_eq_true_eq, and_assoc]
    refine ⟨fun text htext => ?_, fun entry hentry => ⟨?_, ?_⟩⟩
    · obtain ⟨entry, hentry, haccepted, rfl⟩ := (hmem text).mp htext
      rw [hread]
      exact ((haccepts entry hentry).mp haccepted).2
    · rw [hmem, ← haccepts entry hentry]
      constructor
      · -- another entry with this text names this path
        rintro ⟨other, -, haccepted, htext⟩
        have hsame : pathOf rootPath other = pathOf rootPath entry := by
          rw [← hread other, htext, hread]
        unfold Accepts at haccepted ⊢
        rwa [← hsame]
      · exact fun haccepted => ⟨entry, hentry, haccepted, rfl⟩
    · rw [hinvalid, List.nil_append, ← haccepts entry hentry]
      simp [hentry]

/-- Two folders one of whose names begins the other's, with a file each. -/
def siblingDisk : Disk where
  entries := [(["p"], .folder), (["p", "a.js"], .file .empty), (["p2"], .folder),
    (["p2", "a.js"], .file .empty)]
  workingFolder := ["p"]

def siblingContext : Context :=
  ⟨.ofString "/p", .ofString "/p", 3, []⟩

/-- A file of the project and its namesake in the sibling folder, in spellings that climb. -/
theorem boundary_tests_agree_sibling :
    contains siblingDisk.workingPath (.ofString "..//p/") (.ofString "./x/../a.js") = true ∧
    contains siblingDisk.workingPath (.ofString "..//p/") (.ofString "../p2/a.js") = false ∧
    ¬ IgnoredFor (.ofString "/p/a.js") siblingContext.projectRoot [] .outside ∧
    IgnoredFor (.ofString "/p2/a.js") siblingContext.projectRoot [] .outside := by
  have hinside := boundary_tests_agree siblingDisk "..//p/" "./x/../a.js" (by decide)
    (by decide +kernel) (by decide +kernel)
  have houtside := boundary_tests_agree siblingDisk "..//p/" "../p2/a.js" (by decide)
    (by decide +kernel) (by decide +kernel)
  refine ⟨hinside.1.mpr (by decide +kernel), ?_, ?_⟩
  · exact Bool.eq_false_iff.mpr fun htrue => absurd (houtside.1.mp htrue) (by decide +kernel)
  · have hvalid : Validation.ofEntries siblingDisk (some (.ofString "..//p/"))
        [" a.js", "../p2/a.js"] = .ok ⟨["/p/a.js"], ["../p2/a.js"]⟩ := by decide +kernel
    have hentries := hinside.2.2.2 _ _ 3 [] siblingContext hvalid (by decide +kernel)
      (by decide +kernel)
    refine ⟨hentries.1 "/p/a.js" (by decide), ?_⟩
    have hrefused := (hentries.2 "../p2/a.js" (by decide +kernel)).2.mp (by decide)
    have hpath : pathOf (siblingDisk.absolute (.ofString "..//p/")) "../p2/a.js" =
        .ofString "/p2/a.js" := by decide +kernel
    have hthere : siblingDisk.contains (.ofString "/p2/a.js") = .ok true := by decide +kernel
    rw [hpath, hthere] at hrefused
    exact not_not.mp fun hno => hrefused ⟨rfl, hno⟩

end Validation

end ImportAtlas
