import ImportAtlas.Proofs.Project.Inside

set_option autoImplicit false

/-!
# When identifiers identify

The identifier of a file under the source root is the mark `@/` and the file's
path below that root; the identifier of another file of the project is its path
below the project root.  A path is read back from its text, so two files share
an identifier only across the two forms: one lies under the source root, and the
other at the same place below a folder `@` of the project (`identifier_eq_iff`).
-/

namespace ImportAtlas

namespace Path

/-- Names are read back from the text of the relative path that they make. -/
theorem ofString_partsText {parts : List String} (h : ∀ part ∈ parts, IsName part) :
    ofString (partsText parts) = ⟨.relative, parts⟩ := by
  unfold partsText
  split
  · rename_i hnil
    rw [hnil]
    decide +kernel
  · simpa [Anchor.text] using ofString_spelled .relative h

theorem partsText_injective {parts others : List String} (h : ∀ part ∈ parts, IsName part)
    (hothers : ∀ part ∈ others, IsName part) (heq : partsText parts = partsText others) :
    parts = others := by
  have hread := congrArg ofString heq
  rw [ofString_partsText h, ofString_partsText hothers] at hread
  exact congrArg Path.parts hread

theorem IsNormal.names_of_relativeTo? {p base : Path} {below : List String} (hp : p.IsNormal)
    (h : p.relativeTo? base = some below) : ∀ part ∈ below, IsName part := by
  intro part hpart
  rw [relativeTo?_eq_some] at h
  exact hp.names part (h.2 ▸ List.mem_append_right _ hpart)

end Path

namespace Project

/-- The folder whose files have identifiers that look like those of files under the source root. -/
def markFolder : String := "@"

theorem isName_markFolder : IsName markFolder := by
  decide +kernel

theorem partsText_markFolder {below : List String} (h : below ≠ []) :
    Path.partsText (markFolder :: below) = aliasMark ++ Path.partsText below := by
  cases below with
  | nil => exact absurd rfl h
  | cons first rest => simp [Path.partsText, markFolder, aliasMark]

/-- `p` lies under the source root, and `q` beside it, at the same place below the folder `@` of the
project. -/
structure Clash (context : Context) (p q : Path) : Prop where
  place : ∃ below ≠ [], p.relativeTo? context.sourceRoot = some below ∧
    q.relativeTo? context.projectRoot = some (markFolder :: below)
  beside : q.relativeTo? context.sourceRoot = none

variable {context : Context} {p q : Path}

theorem identifier_under {below : List String}
    (h : p.relativeTo? context.sourceRoot = some below) :
    context.identifier p = aliasMark ++ Path.partsText below := by
  simp [Context.identifier, identifier, h]

theorem identifier_beside {below : List String} (h : p.relativeTo? context.sourceRoot = none)
    (hroot : p.relativeTo? context.projectRoot = some below) :
    context.identifier p = Path.partsText below := by
  simp [Context.identifier, identifier, h, hroot]

theorem Clash.identifier_eq (h : Clash context p q) :
    context.identifier p = context.identifier q := by
  obtain ⟨below, hne, hp, hq⟩ := h.place
  rw [identifier_under hp, identifier_beside h.beside hq, partsText_markFolder hne]

theorem Clash.ne (h : Clash context p q) : p ≠ q := by
  obtain ⟨below, -, hp, -⟩ := h.place
  rintro rfl
  rw [h.beside] at hp
  cases hp

/-- A file under the source root and one beside it have the same identifier only if they clash. -/
theorem clash_of_identifier_eq (hp : p.IsNormal) (hq : q.IsNormal) {below beside : List String}
    (hunder : p.relativeTo? context.sourceRoot = some below)
    (hbeside : q.relativeTo? context.sourceRoot = none)
    (hroot : q.relativeTo? context.projectRoot = some beside)
    (heq : context.identifier p = context.identifier q) : Clash context p q := by
  have hbelow := hp.names_of_relativeTo? hunder
  have hnames := hq.names_of_relativeTo? hroot
  rw [identifier_under hunder, identifier_beside hbeside hroot] at heq
  by_cases hne : below = []
  · -- `@/.` is the text of no path
    subst hne
    have hread := congrArg Path.ofString heq
    rw [Path.ofString_partsText hnames] at hread
    have hmark : Path.ofString (aliasMark ++ Path.partsText []) = ⟨.relative, [markFolder]⟩ := by
      decide +kernel
    obtain rfl : beside = [markFolder] := congrArg Path.parts (hread.symm.trans hmark)
    exact absurd heq (by decide +kernel)
  · rw [← partsText_markFolder hne] at heq
    have hplace := Path.partsText_injective (List.forall_mem_cons.mpr ⟨isName_markFolder, hbelow⟩)
      hnames heq
    exact ⟨⟨below, hne, hunder, hplace ▸ hroot⟩, hbeside⟩

/-- Two paths inside the project have the same identifier exactly when they are equal or clash. -/
theorem identifier_eq_iff (hp : Inside context p) (hq : Inside context q) :
    context.identifier p = context.identifier q ↔
      p = q ∨ Clash context p q ∨ Clash context q p := by
  constructor
  · intro heq
    obtain ⟨below, hpanchor, hpparts, -⟩ := hp.below
    obtain ⟨below', hqanchor, hqparts, -⟩ := hq.below
    have hproot := Path.relativeTo?_eq_some.mpr ⟨hpanchor, hpparts⟩
    have hqroot := Path.relativeTo?_eq_some.mpr ⟨hqanchor, hqparts⟩
    cases hpsource : p.relativeTo? context.sourceRoot with
    | some parts =>
      cases hqsource : q.relativeTo? context.sourceRoot with
      | some parts' =>
        rw [identifier_under hpsource, identifier_under hqsource] at heq
        have hparts := Path.partsText_injective (hp.normal.names_of_relativeTo? hpsource)
          (hq.normal.names_of_relativeTo? hqsource) ((String.append_right_inj _).mp heq)
        exact .inl (Path.eq_of_relativeTo? hpsource (hparts ▸ hqsource))
      | none =>
        exact .inr (.inl (clash_of_identifier_eq hp.normal hq.normal hpsource hqsource hqroot heq))
    | none =>
      cases hqsource : q.relativeTo? context.sourceRoot with
      | some parts' =>
        exact .inr (.inr (clash_of_identifier_eq hq.normal hp.normal hqsource hpsource hproot
          heq.symm))
      | none =>
        rw [identifier_beside hpsource hproot, identifier_beside hqsource hqroot] at heq
        have hparts := Path.partsText_injective (hp.normal.names_of_relativeTo? hproot)
          (hq.normal.names_of_relativeTo? hqroot) heq
        exact .inl (Path.eq_of_relativeTo? hproot (hparts ▸ hqroot))
  · rintro (rfl | h | h)
    · rfl
    · exact h.identifier_eq
    · exact h.identifier_eq.symm

end Project

end ImportAtlas
