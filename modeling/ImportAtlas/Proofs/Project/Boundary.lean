import ImportAtlas.Proofs.Project.Inside
import Mathlib.Data.List.DropRight

set_option autoImplicit false

/-!
# The boundary by texts and by parts

`contains` compares the texts of two normalized paths, `isIgnored` their parts.
The text of a path below the root is its parts, each behind a slash, and no part
holds a slash; so a text continues another one behind a slash exactly when the
parts continue the other's parts (`contains_iff_parts`).  A path is ignored for
one of three reasons, of which lying outside excludes the others.
-/

namespace ImportAtlas

namespace Path

/-- Parts as a text, each behind a slash. -/
def slashed (parts : List String) : List Char :=
  parts.flatMap fun part => '/' :: part.toList

variable {p q : Path} {parts others : List String}

theorem slashed_cons (part : String) (parts : List String) :
    slashed (part :: parts) = '/' :: part.toList ++ slashed parts :=
  List.flatMap_cons

theorem slashed_eq_nil_iff : slashed parts = [] ↔ parts = [] := by
  cases parts <;> simp [slashed]

theorem eq_slash_of_mem_head?_slashed : ∀ c ∈ (slashed parts).head?, c = '/' := by
  cases parts with
  | nil => nofun
  | cons part parts => simp [slashed_cons]

theorem slash_intercalate (hne : parts ≠ []) :
    '/' :: ("/".intercalate parts).toList = slashed parts := by
  induction parts with
  | nil => exact absurd rfl hne
  | cons part parts ih =>
    cases parts with
    | nil => simp [slashed]
    | cons next rest =>
      rw [slashed_cons, ← ih (List.cons_ne_nil _ _)]
      simp

/-- The text of a path below the root. -/
theorem toList_text (h : p.anchor = .root) (hne : p.parts ≠ []) :
    p.text.toList = slashed p.parts := by
  have habs : p.isAbsolute = true := by simp [isAbsolute, h]
  rw [text_of_absolute habs, h, ← slash_intercalate hne]
  simp [Anchor.text]

theorem toList_text_of_nil (h : p.anchor = .root) (hnil : p.parts = []) :
    p.text.toList = ['/'] := by
  rcases p with ⟨anchor, parts⟩
  subst h hnil
  decide

/-- Without slashes at its end the text is the parts alone, also for the root. -/
theorem IsNormal.dropEndWhile_text (hp : p.IsNormal) (h : p.anchor = .root) :
    Text.dropEndWhile (· == '/') p.text.toList = slashed p.parts := by
  rcases List.eq_nil_or_concat p.parts with hnil | ⟨front, last, hlast⟩
  · rw [toList_text_of_nil h hnil, hnil]
    rfl
  · rw [toList_text h (by simp [hlast])]
    -- the last part is not empty, and its last character is no slash
    have hname : IsName last := hp.names last (by simp [hlast])
    have hne : last.toList ≠ [] := fun hnil => hname.ne_empty (String.toList_eq_nil_iff.mp hnil)
    have hsplit : slashed p.parts = (slashed front ++ ['/']) ++ last.toList := by
      simp [slashed, hlast]
    refine List.rdropWhile_eq_self_iff.mpr fun hslashed => ?_
    have hmem : (slashed p.parts).getLast hslashed ∈ last.toList := by
      simp only [hsplit, List.getLast_append_of_ne_nil _ hne]
      exact List.getLast_mem hne
    intro hslash
    exact hname.no_slash (beq_iff_eq.mp hslash ▸ hmem)

/-- Texts that stop before their first slash are compared on their own. -/
theorem append_prefix_append_iff {a b rest more : List Char} (ha : '/' ∉ a) (hb : '/' ∉ b)
    (hrest : rest.head? = some '/') (hmore : ∀ c ∈ more.head?, c = '/') :
    a ++ rest <+: b ++ more ↔ a = b ∧ rest <+: more := by
  constructor
  · rintro ⟨tail, htail⟩
    rw [List.append_assoc] at htail
    rcases List.append_eq_append_iff.mp htail with ⟨c, rfl, hc⟩ | ⟨c, rfl, hc⟩
    · cases c with
      | nil => exact ⟨(List.append_nil a).symm, tail, hc⟩
      | cons first c =>
        obtain rfl : first = '/' := by
          have hhead := congrArg List.head? hc
          simpa [hrest, eq_comm] using hhead
        simp at hb
    · cases c with
      | nil => exact ⟨List.append_nil b, tail, hc.symm⟩
      | cons first c =>
        obtain rfl : first = '/' := hmore first (by simp [hc])
        simp at ha
  · rintro ⟨rfl, tail, rfl⟩
    exact ⟨tail, List.append_assoc ..⟩

/-- A text of parts continues another one behind a slash exactly when there are further parts. -/
theorem slashed_prefix_iff (h : ∀ part ∈ parts, '/' ∉ part.toList)
    (hothers : ∀ part ∈ others, '/' ∉ part.toList) :
    slashed parts ++ ['/'] <+: slashed others ↔ ∃ below, below ≠ [] ∧ others = parts ++ below := by
  induction parts generalizing others with
  | nil =>
    cases others with
    | nil => simp [slashed]
    | cons other others => simp [slashed]
  | cons part parts ih =>
    cases others with
    | nil => simp [slashed]
    | cons other others =>
      obtain ⟨hpart, hparts⟩ := List.forall_mem_cons.mp h
      obtain ⟨hother, hrest⟩ := List.forall_mem_cons.mp hothers
      have hhead : (slashed parts ++ ['/']).head? = some '/' := by
        cases parts <;> simp [slashed]
      rw [slashed_cons, slashed_cons, List.cons_append, List.cons_append, List.cons_append,
        List.cons_prefix_cons, List.append_assoc,
        append_prefix_append_iff hpart hother hhead eq_slash_of_mem_head?_slashed,
        ih hparts hrest, String.toList_inj]
      simp only [true_and, List.cons_append, List.cons.injEq, eq_comm (a := part)]
      constructor
      · rintro ⟨hsame, below, hne, hbelow⟩
        exact ⟨below, hne, hsame, hbelow⟩
      · rintro ⟨below, hne, hsame, hbelow⟩
        exact ⟨hsame, below, hne, hbelow⟩

/-- Normalized paths with one text are equal. -/
theorem IsNormal.text_injective (hp : p.IsNormal) (hq : q.IsNormal) (h : p.text = q.text) :
    p = q := by
  rw [← hp.ofString_text, h, hq.ofString_text]

end Path

namespace Project

variable {cwd root path : Path} {exclude : List String}

/-- The test on texts answers by the parts. -/
theorem contains_iff_parts (hroot : (Path.absolute cwd root).IsNormal)
    (hpath : (Path.absolute cwd path).IsNormal)
    (hrootAnchor : (Path.absolute cwd root).anchor = .root)
    (hpathAnchor : (Path.absolute cwd path).anchor = .root) :
    contains cwd root path = true ↔
      (Path.absolute cwd root).parts <+: (Path.absolute cwd path).parts := by
  unfold contains
  generalize Path.absolute cwd root = r at *
  generalize Path.absolute cwd path = f at *
  have hslash : ∀ {p : Path}, p.IsNormal → ∀ part ∈ p.parts, '/' ∉ part.toList :=
    fun hp part hpart => (hp.names part hpart).no_slash
  simp only [Bool.or_eq_true, beq_iff_eq, List.isPrefixOf_iff_prefix, String.toList_inj,
    hroot.dropEndWhile_text hrootAnchor]
  constructor
  · rintro (hsame | hprefix)
    · exact hpath.text_injective hroot hsame ▸ List.prefix_rfl
    · by_cases hnil : f.parts = []
      · rw [Path.toList_text_of_nil hpathAnchor hnil] at hprefix
        have hlength := hprefix.length_le
        have hempty : Path.slashed r.parts = [] := by simpa using hlength
        rw [Path.slashed_eq_nil_iff.mp hempty]
        exact List.nil_prefix
      · rw [Path.toList_text hpathAnchor hnil,
          Path.slashed_prefix_iff (hslash hroot) (hslash hpath)] at hprefix
        obtain ⟨below, -, hbelow⟩ := hprefix
        exact ⟨below, hbelow.symm⟩
  · rintro ⟨below, hbelow⟩
    by_cases hnil : below = []
    · refine .inl (congrArg Path.text ?_)
      rw [hnil, List.append_nil] at hbelow
      cases r
      cases f
      simp_all
    · have hne : f.parts ≠ [] := by simp [← hbelow, hnil]
      rw [Path.toList_text hpathAnchor hne,
        Path.slashed_prefix_iff (hslash hroot) (hslash hpath)]
      exact .inr ⟨below, hnil, hbelow.symm⟩

/-! ## Reasons to ignore a path -/

/-- A reason to leave a path alone. -/
inductive IgnoreReason where
  /-- the path does not lie under the root -/
  | outside
  /-- the path lies in the folder of installed packages -/
  | installed
  /-- an exclusion pattern covers the path -/
  | excluded (pattern : String)
  deriving DecidableEq, Repr

/-- The reason applies to the path. -/
inductive IgnoredFor (path root : Path) (exclude : List String) : IgnoreReason → Prop where
  | outside (houtside : path.relativeTo? root = none) : IgnoredFor path root exclude .outside
  | installed {below : List String} {folder : String} (hbelow : path.relativeTo? root = some below)
      (hfolder : folder ∈ dependencyFolders) (hmem : folder ∈ below) :
      IgnoredFor path root exclude .installed
  | excluded {below : List String} {pattern : String} (hbelow : path.relativeTo? root = some below)
      (hpattern : pattern ∈ exclude)
      (hcovers : patternCovers pattern.toList (Path.partsText below).toList = true) :
      IgnoredFor path root exclude (.excluded pattern)

/-- A path is ignored when there is a reason for it. -/
theorem isIgnored_iff_reason :
    isIgnored path root exclude = true ↔ ∃ reason, IgnoredFor path root exclude reason := by
  unfold isIgnored
  cases hbelow : path.relativeTo? root with
  | none => simpa using ⟨_, .outside hbelow⟩
  | some below =>
    simp only [Bool.or_eq_true, List.any_eq_true, List.contains_eq_mem, decide_eq_true_eq]
    constructor
    · rintro (⟨folder, hmem, hfolder⟩ | ⟨pattern, hpattern, hcovers⟩)
      · exact ⟨_, .installed hbelow hfolder hmem⟩
      · exact ⟨_, .excluded hbelow hpattern hcovers⟩
    · rintro ⟨reason, hreason⟩
      cases hreason with
      | outside houtside => simp [hbelow] at houtside
      | installed hsome hfolder hmem =>
        obtain rfl := Option.some.inj (hbelow.symm.trans hsome)
        exact .inl ⟨_, hmem, hfolder⟩
      | excluded hsome hpattern hcovers =>
        obtain rfl := Option.some.inj (hbelow.symm.trans hsome)
        exact .inr ⟨_, hpattern, hcovers⟩

theorem ignoredFor_outside_iff (h : path.anchor = root.anchor) :
    IgnoredFor path root exclude .outside ↔ ¬ root.parts <+: path.parts := by
  constructor
  · rintro ⟨houtside⟩ ⟨below, hbelow⟩
    rw [Path.relativeTo?_eq_some.mpr ⟨h, hbelow.symm⟩] at houtside
    cases houtside
  · intro hprefix
    refine .outside (Option.eq_none_iff_forall_ne_some.mpr fun below hbelow => hprefix ?_)
    exact ⟨below, (Path.relativeTo?_eq_some.mp hbelow).2.symm⟩

/-- Without patterns a path is ignored outside, and in the folder of installed packages. -/
theorem isIgnored_nil_iff : isIgnored path root [] = true ↔
    IgnoredFor path root [] .outside ∨ IgnoredFor path root [] .installed := by
  rw [isIgnored_iff_reason]
  constructor
  · rintro ⟨reason, hreason⟩
    cases hreason with
    | outside houtside => exact .inl (.outside houtside)
    | installed hbelow hfolder hmem => exact .inr (.installed hbelow hfolder hmem)
    | excluded _ hpattern _ => cases hpattern
  · rintro (h | h)
    · exact ⟨_, h⟩
    · exact ⟨_, h⟩

end Project

end ImportAtlas
