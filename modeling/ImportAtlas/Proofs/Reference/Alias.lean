import ImportAtlas.Proofs.Path.Walk
import ImportAtlas.Proofs.Project.Naming
import ImportAtlas.Reference.Resolve

set_option autoImplicit false

/-!
# Identifiers are references

The identifier of a file under the source root is a reference to the file, from
wherever it is used.  A reference with the same mark may spell its target in
many ways: it is walked segment by segment, from the source root or, when what
stands behind the mark is itself absolute, from the root (`resolve_spelled`).
All ways to one target have the target's identifier in common
(`identifier_round_trip`).
-/

namespace ImportAtlas.Reference

open Project (identifier aliasMark)

variable {sourceRoot projectRoot path target source : Path}

theorem afterPrefix?_eq_some {beginning s rest : String} :
    Text.afterPrefix? beginning s = some rest ↔ s = beginning ++ rest := by
  rw [Text.afterPrefix?, Option.map_eq_some_iff, ← String.toList_inj, String.toList_append]
  constructor
  · rintro ⟨after, hafter, rfl⟩
    rw [String.toList_ofList, List.isPrefixOf?_eq_some_iff_append_eq.mp hafter]
  · intro hs
    exact ⟨rest.toList, List.isPrefixOf?_eq_some_iff_append_eq.mpr hs.symm, String.ofList_toList⟩

/-- A reference with the mark is seen from the source root. -/
theorem resolve_mark (text : String) (source : Path) :
    resolve sourceRoot (aliasMark ++ text) source =
      some (sourceRoot ++ Path.ofString text).normalize := by
  rw [resolve, afterPrefix?_eq_some.mpr rfl]

/-- A reference with the mark is walked segment by segment. -/
theorem resolve_spelled (hroot : sourceRoot.IsNormal) (slashes : Nat) {segments : List String}
    (hsegments : Path.AreSegments segments) (source : Path) :
    resolve sourceRoot (aliasMark ++ Path.spelled slashes segments) source =
      some ((sourceRoot ++ ⟨Path.anchorOfSlashes slashes, []⟩).walk segments) := by
  rw [resolve_mark, hsegments.ofString_spelled, hroot.normalize_segments]

/-- A file under the source root is found by its identifier. -/
theorem resolve_identifier (hpath : path.IsNormal)
    {below : List String} (hbelow : path.relativeTo? sourceRoot = some below) (source : Path) :
    resolve sourceRoot (identifier path sourceRoot projectRoot) source = some path := by
  obtain ⟨hanchor, hparts⟩ := Path.relativeTo?_eq_some.mp hbelow
  have hnames := hpath.names_of_relativeTo? hbelow
  have hjoined : sourceRoot ++ ⟨.relative, below⟩ = path := by
    rw [Path.append_of_relative rfl, ← hanchor, ← hparts]
  rw [identifier, hbelow, resolve_mark, Path.ofString_partsText hnames, hjoined,
    hpath.normalize_eq]

theorem startsWith_mark_iff {reference : String} :
    Text.startsWith aliasMark reference = true ↔ ∃ text, reference = aliasMark ++ text := by
  rw [Text.startsWith, List.isPrefixOf_iff_prefix]
  constructor
  · rintro ⟨after, hafter⟩
    refine ⟨String.ofList after, ?_⟩
    rw [← String.toList_inj, String.toList_append, String.toList_ofList, hafter]
  · rintro ⟨text, rfl⟩
    exact ⟨text.toList, by rw [String.toList_append]⟩

/-- A reference with the mark stands for a path at the source root or under it. -/
structure StandsFor (sourceRoot : Path) (reference : String) (target : Path) : Prop where
  mark : Text.startsWith aliasMark reference = true
  resolves : ∃ source, resolve sourceRoot reference source = some target
  under : (target.relativeTo? sourceRoot).isSome = true

theorem StandsFor.isNormal {reference : String} (h : StandsFor sourceRoot reference target)
    (hroot : sourceRoot.IsNormal) : target.IsNormal := by
  obtain ⟨text, rfl⟩ := startsWith_mark_iff.mp h.mark
  obtain ⟨source, hresolves⟩ := h.resolves
  rw [resolve_mark, Option.some.injEq] at hresolves
  rw [← hresolves]
  exact hroot.normalize_append (Path.isSpelled_ofString text)

/-- A path at the source root or under it is found by its identifier, from any file.  So all
references with the mark that stand for one path have its identifier in common, however they spell
the path by slashes and segments: a reference is walked along its segments, from the source root or
from the root that its slashes name. -/
theorem identifier_round_trip (hroot : sourceRoot.IsNormal) (projectRoot : Path) :
    (∀ path source : Path, path.IsNormal → (path.relativeTo? sourceRoot).isSome = true →
      resolve sourceRoot (identifier path sourceRoot projectRoot) source = some path) ∧
    (∀ reference target, StandsFor sourceRoot reference target →
      Text.startsWith aliasMark (identifier target sourceRoot projectRoot) = true ∧
      ∀ source, resolve sourceRoot (identifier target sourceRoot projectRoot) source =
        some target) ∧
    (∀ reference other target target', StandsFor sourceRoot reference target →
      StandsFor sourceRoot other target' →
      (identifier target sourceRoot projectRoot = identifier target' sourceRoot projectRoot ↔
        target = target')) ∧
    (∀ slashes segments source, Path.AreSegments segments →
      resolve sourceRoot (aliasMark ++ Path.spelled slashes segments) source =
        some ((sourceRoot ++ ⟨Path.anchorOfSlashes slashes, []⟩ : Path).walk segments)) ∧
    ∀ reference, Text.startsWith aliasMark reference = true → ∃ slashes segments,
      Path.AreSegments segments ∧ reference = aliasMark ++ Path.spelled slashes segments := by
  have hfound : ∀ path source : Path, path.IsNormal →
      (path.relativeTo? sourceRoot).isSome = true →
      resolve sourceRoot (identifier path sourceRoot projectRoot) source = some path := by
    intro path source hpath hunder
    obtain ⟨below, hbelow⟩ := Option.isSome_iff_exists.mp hunder
    exact resolve_identifier hpath hbelow source
  refine ⟨hfound, ?_, ?_, fun slashes segments source h => resolve_spelled hroot slashes h source,
    ?_⟩
  · intro reference target htarget
    obtain ⟨below, hbelow⟩ := Option.isSome_iff_exists.mp htarget.under
    refine ⟨startsWith_mark_iff.mpr ⟨Path.partsText below, ?_⟩, fun source => ?_⟩
    · rw [identifier, hbelow]
    · exact hfound target source (htarget.isNormal hroot) htarget.under
  · intro reference other target target' htarget htarget'
    refine ⟨fun heq => ?_, fun heq => heq ▸ rfl⟩
    have hback := hfound target sourceRoot (htarget.isNormal hroot) htarget.under
    rw [heq, hfound target' sourceRoot (htarget'.isNormal hroot) htarget'.under] at hback
    exact (Option.some.inj hback).symm
  · intro reference hmark
    obtain ⟨text, rfl⟩ := startsWith_mark_iff.mp hmark
    obtain ⟨slashes, segments, hsegments, rfl⟩ := Path.exists_spelled text
    exact ⟨slashes, segments, hsegments, rfl⟩

/-- A reference that is absolute behind its mark, climbs and returns. -/
theorem identifier_round_trip_detour :
    resolve ⟨.root, ["p", "src"]⟩ "@//p/src/x/../a//./b.js" ⟨.root, ["p", "c.js"]⟩ =
        some ⟨.root, ["p", "src", "a", "b.js"]⟩ ∧
      identifier ⟨.root, ["p", "src", "a", "b.js"]⟩ ⟨.root, ["p", "src"]⟩ ⟨.root, ["p"]⟩ =
        "@/a/b.js" ∧
      ∀ source, resolve ⟨.root, ["p", "src"]⟩ "@/a/b.js" source =
        some ⟨.root, ["p", "src", "a", "b.js"]⟩ := by
  have hroot : Path.IsNormal ⟨.root, ["p", "src"]⟩ := by decide +kernel
  have hpath : Path.IsNormal ⟨.root, ["p", "src", "a", "b.js"]⟩ := by decide +kernel
  have hsegments : Path.AreSegments ["p", "src", "x", "..", "a", "", ".", "b.js"] :=
    ⟨by decide +kernel, by decide +kernel⟩
  obtain ⟨hfound, -, -, hwalk, -⟩ := identifier_round_trip hroot ⟨.root, ["p"]⟩
  refine ⟨hwalk 1 _ ⟨.root, ["p", "c.js"]⟩ hsegments, rfl, fun source => ?_⟩
  exact hfound ⟨.root, ["p", "src", "a", "b.js"]⟩ source hpath rfl

end ImportAtlas.Reference
