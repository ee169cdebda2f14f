import ImportAtlas.Proofs.Disk.Look
import ImportAtlas.Reference.Resolve

set_option autoImplicit false

/-!
# What is resolved and located

A reference in a file at a normalized path resolves to a normalized candidate,
and whatever is located behind a normalized candidate is a file at a normalized
path: the candidate itself, its text with a suffix, or an index file below it.
A file is located behind its own path.
-/

namespace ImportAtlas

theorem isSuffix_of_inferred : ∀ suffix ∈ inferredSuffixes, IsSuffix suffix := by
  decide +kernel

theorem isSuffix_of_style : ∀ suffix ∈ styleSuffixes, IsSuffix suffix := by
  decide +kernel

namespace Reference

variable {view : FileView} {suffixes : List String} {candidate found : Path}

theorem mem_of_firstFile {paths : List Path} (h : firstFile view paths = .ok (some found)) :
    found ∈ paths ∧ view.isFile found = .ok true := by
  induction paths with
  | nil => cases h
  | cons p rest ih =>
    obtain ⟨there, hp, h⟩ := Except.bind_eq_ok h
    cases there with
    | true =>
      cases h
      exact ⟨List.mem_cons_self, hp⟩
    | false =>
      obtain ⟨hmem, hfile⟩ := ih h
      exact ⟨List.mem_cons_of_mem _ hmem, hfile⟩

/-- A located file is a file, at one of the places that are looked at. -/
theorem mem_of_locate (h : locate view suffixes candidate = .ok (some found)) :
    view.isFile found = .ok true ∧
      (found = candidate ∨ found ∈ suffixed candidate suffixes ∨
        found ∈ indexes candidate suffixes) := by
  obtain ⟨first, hfirst, h⟩ := Except.bind_eq_ok h
  cases first with
  | some p =>
    cases h
    obtain ⟨hmem, hfile⟩ := mem_of_firstFile hfirst
    rcases List.mem_cons.mp hmem with hmem | hmem
    · exact ⟨hfile, .inl hmem⟩
    · exact ⟨hfile, .inr (.inl hmem)⟩
  | none =>
    obtain ⟨folder, -, h⟩ := Except.bind_eq_ok h
    cases folder with
    | false => cases h
    | true =>
      obtain ⟨hmem, hfile⟩ := mem_of_firstFile h
      exact ⟨hfile, .inr (.inr hmem)⟩

/-- A file is located behind its own path. -/
theorem locate_of_isFile (h : view.isFile candidate = .ok true) :
    locate view suffixes candidate = .ok (some candidate) := by
  simp only [locate, firstFile, h]
  rfl

/-- The places that are looked at beside a normalized candidate. -/
theorem mem_suffixed (hsuffixes : ∀ suffix ∈ suffixes, IsSuffix suffix)
    (hcandidate : candidate.IsNormal) (h : found ∈ suffixed candidate suffixes) :
    ∃ suffix ∈ suffixes, IsName (candidate.name ++ suffix) ∧
      Path.ofString (candidate.text ++ suffix) = found ∧
      found = candidate.parent.child (candidate.name ++ suffix) := by
  obtain ⟨suffix, hsuffix, rfl⟩ := List.mem_map.mp h
  have hs := hsuffixes suffix hsuffix
  exact ⟨suffix, hsuffix, hs.isName hcandidate.no_slash_name, rfl,
    hcandidate.ofString_text_append hs⟩

/-- The places that are looked at in a folder. -/
theorem mem_indexes (hsuffixes : ∀ suffix ∈ suffixes, IsSuffix suffix)
    (h : found ∈ indexes candidate suffixes) :
    ∃ name, IsName name ∧ found = candidate.child name := by
  obtain ⟨suffix, hsuffix, rfl⟩ := List.mem_map.mp h
  have hname : IsName ("index" ++ suffix) := (hsuffixes suffix hsuffix).isName (by decide)
  refine ⟨_, hname, ?_⟩
  rw [Path.ofString_name hname, Path.append_of_relative rfl]
  rfl

/-- What is located behind a normalized path has a normalized path. -/
theorem isNormal_of_locate (hsuffixes : ∀ suffix ∈ suffixes, IsSuffix suffix)
    (hcandidate : candidate.IsNormal) (h : locate view suffixes candidate = .ok (some found)) :
    found.IsNormal := by
  obtain ⟨-, rfl | hmem | hmem⟩ := mem_of_locate h
  · exact hcandidate
  · obtain ⟨suffix, -, hname, -, rfl⟩ := mem_suffixed hsuffixes hcandidate hmem
    exact hcandidate.parent.child hname
  · obtain ⟨name, hname, rfl⟩ := mem_indexes hsuffixes hmem
    exact hcandidate.child hname

/-- Going through a list of places depends on the probes there. -/
theorem firstFile_congr {other : FileView} {paths : List Path}
    (h : ∀ p ∈ paths, view.isFile p = other.isFile p) :
    firstFile view paths = firstFile other paths := by
  induction paths with
  | nil => rfl
  | cons p rest ih =>
    rw [firstFile, firstFile, h p List.mem_cons_self,
      ih fun q hq => h q (List.mem_cons_of_mem _ hq)]

/-- Locating depends on the probes it may make. -/
theorem locate_congr {other : FileView} (hfile : view.isFile candidate = other.isFile candidate)
    (hsuffixed : ∀ p ∈ suffixed candidate suffixes, view.isFile p = other.isFile p)
    (hfolder : view.isFolder candidate = other.isFolder candidate)
    (hindexes : ∀ p ∈ indexes candidate suffixes, view.isFile p = other.isFile p) :
    locate view suffixes candidate = locate other suffixes candidate := by
  have hfirst : ∀ p ∈ candidate :: suffixed candidate suffixes, view.isFile p = other.isFile p :=
    List.forall_mem_cons.mpr ⟨hfile, hsuffixed⟩
  rw [locate, locate, firstFile_congr hfirst, hfolder, firstFile_congr hindexes]

/-- A reference in a file at a normalized path resolves to a normalized path. -/
theorem isNormal_of_resolve {sourceRoot source : Path} {reference : String}
    (hroot : sourceRoot.IsNormal) (hsource : source.IsNormal)
    (h : resolve sourceRoot reference source = some candidate) : candidate.IsNormal := by
  unfold resolve at h
  split at h
  · cases h
    exact hroot.normalize_append (Path.isSpelled_ofString _)
  · split at h
    · cases h
      exact hsource.parent.normalize_append (Path.isSpelled_ofString _)
    · cases h

end Reference

end ImportAtlas
