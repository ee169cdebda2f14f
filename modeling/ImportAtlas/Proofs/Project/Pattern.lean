import ImportAtlas.Proofs.Project.Inside
import ImportAtlas.Proofs.Text.Trim
import ImportAtlas.Watch.Event
import Mathlib.Data.List.Forall2

set_option autoImplicit false

/-!
# Exclusion patterns in canonical form

A pattern is canonical when it has no blank and no slash at either end, no
leading `./` and no backslash.  `cleanPattern` takes off blanks, then leading
`./`, then slashes, each once: so a text between them, in this order, is what is
left of it (`IsSpelling`).  What stands in another order is left where it is, and
the result may be no canonical form: of `/./dist` the pattern `./dist` is left.
-/

namespace ImportAtlas.Project

open Text

/-- A pattern that is compared as it stands. -/
structure IsCanonical (text : List Char) : Prop where
  tight : IsTight text
  no_here : ¬ ['.', '/'] <+: text
  first : text.head? ≠ some '/'
  last : text.getLast? ≠ some '/'
  no_backslash : '\\' ∉ text

/-! ## Backslashes -/

/-- A text with its backslashes read as slashes. -/
def withSlashes (text : List Char) : List Char :=
  text.map fun c => if c = '\\' then '/' else c

theorem length_withSlashes (text : List Char) : (withSlashes text).length = text.length :=
  List.length_map _

theorem backslash_notMem_withSlashes (text : List Char) : '\\' ∉ withSlashes text := by
  intro hmem
  obtain ⟨c, -, hc⟩ := List.mem_map.mp hmem
  split at hc
  · exact absurd hc (by decide)
  · contradiction

theorem withSlashes_eq_self {text : List Char} (h : '\\' ∉ text) : withSlashes text = text := by
  refine (List.map_congr_left fun c hc => ?_).trans (List.map_id text)
  have hne : c ≠ '\\' := fun heq => h (heq ▸ hc)
  exact if_neg hne

/-- A backslash is no more blank than a slash is. -/
theorem isTight_withSlashes {text : List Char} : IsTight (withSlashes text) ↔ IsTight text := by
  have hsame : ∀ c : Char, isBlank (if c = '\\' then '/' else c) = isBlank c := by
    intro c
    split
    · rename_i hc
      rw [hc]
      decide
    · rfl
  constructor
  · rintro ⟨hfirst, hlast⟩
    simp only [withSlashes, List.head?_map, List.getLast?_map, Option.mem_def,
      Option.map_eq_some_iff, forall_exists_index, and_imp, forall_apply_eq_imp_iff₂, hsame]
      at hfirst hlast
    exact ⟨hfirst, hlast⟩
  · rintro ⟨hfirst, hlast⟩
    constructor
    all_goals
      simp only [withSlashes, List.head?_map, List.getLast?_map, Option.mem_def,
        Option.map_eq_some_iff, forall_exists_index, and_imp, forall_apply_eq_imp_iff₂, hsame]
    · exact hfirst
    · exact hlast

/-! ## Leading `./` -/

/-- The text `./`, so many times. -/
def heres (n : Nat) : List Char :=
  (List.replicate n ['.', '/']).flatten

theorem heres_succ (n : Nat) : heres (n + 1) = '.' :: '/' :: heres n := by
  simp [heres, List.replicate_succ]

theorem length_heres (n : Nat) : (heres n).length = 2 * n := by
  simp [heres, Nat.mul_comm]

theorem isBlank_of_mem_heres {n : Nat} : ∀ c ∈ heres n, isBlank c = false := by
  induction n with
  | zero => nofun
  | succ n ih =>
    rw [heres_succ]
    exact List.forall_mem_cons.mpr ⟨by decide, List.forall_mem_cons.mpr ⟨by decide, ih⟩⟩

theorem dropHere_of_not {text : List Char} (h : ¬ ['.', '/'] <+: text) : dropHere text = text := by
  unfold dropHere
  split
  · exact absurd (by simp) h
  · rfl

theorem dropHere_heres (n : Nat) (text : List Char) :
    dropHere (heres n ++ text) = dropHere text := by
  induction n with
  | zero => rfl
  | succ n ih =>
    rw [heres_succ]
    exact ih

theorem exists_dropHere (text : List Char) :
    ∃ n, text = heres n ++ dropHere text ∧ ¬ ['.', '/'] <+: dropHere text := by
  fun_induction dropHere text with
  | case1 rest ih =>
    obtain ⟨n, hrest, hnone⟩ := ih
    refine ⟨n + 1, ?_, hnone⟩
    rw [heres_succ, List.cons_append, List.cons_append, ← hrest]
  | case2 text hno =>
    refine ⟨0, rfl, ?_⟩
    rintro ⟨rest, rfl⟩
    exact hno rest rfl

/-! ## Slashes at the ends -/

theorem exists_trimSlashes (text : List Char) :
    ∃ opening closing, text =
        List.replicate opening '/' ++ trimSlashes text ++ List.replicate closing '/' ∧
      (trimSlashes text).head? ≠ some '/' ∧ (trimSlashes text).getLast? ≠ some '/' := by
  have hcut : ∀ s : List Char, s.takeWhile (· == '/') =
      List.replicate (s.takeWhile (· == '/')).length '/' := fun s =>
    List.eq_replicate_iff.mpr ⟨rfl, fun c hc => by simpa using List.mem_takeWhile_imp hc⟩
  have hleft : ∀ s : List Char, (s.dropWhile (· == '/')).head? ≠ some '/' := by
    intro s hhead
    have hnot := List.head?_dropWhile_not (· == '/') s
    simp [hhead] at hnot
  let rest := text.dropWhile (· == '/')
  have htrim : trimSlashes text = (rest.reverse.dropWhile (· == '/')).reverse := rfl
  have hrest : rest = trimSlashes text ++
      List.replicate (rest.reverse.takeWhile (· == '/')).length '/' := by
    rw [htrim, ← List.reverse_replicate, ← hcut, ← List.reverse_append,
      List.takeWhile_append_dropWhile, List.reverse_reverse]
  refine ⟨(text.takeWhile (· == '/')).length, (rest.reverse.takeWhile (· == '/')).length,
    ?_, ?_, ?_⟩
  · rw [List.append_assoc, ← hrest, ← hcut, List.takeWhile_append_dropWhile]
  · intro hhead
    refine hleft text ?_
    change rest.head? = some '/'
    rw [hrest, List.head?_append, hhead]
    rfl
  · rw [htrim, List.getLast?_reverse]
    exact hleft rest.reverse

theorem trimSlashes_replicate {text : List Char} (hfirst : text.head? ≠ some '/')
    (hlast : text.getLast? ≠ some '/') (opening closing : Nat) :
    trimSlashes (List.replicate opening '/' ++ text ++ List.replicate closing '/') = text := by
  have hall : ∀ n : Nat, ∀ c ∈ List.replicate n '/', (c == '/') = true := fun n c hc => by
    simp [List.eq_of_mem_replicate hc]
  have hcut : ∀ (n : Nat) (s : List Char), s.head? ≠ some '/' →
      (List.replicate n '/' ++ s).dropWhile (· == '/') = s := by
    intro n s hs
    rw [List.dropWhile_append_of_pos (hall n)]
    cases s with
    | nil => rfl
    | cons c s => exact List.dropWhile_cons_of_neg (by simpa using hs)
  unfold trimSlashes dropEndWhile
  cases text with
  | nil =>
    have hslashes : List.replicate opening '/' ++ [] ++ List.replicate closing '/' =
        List.replicate (opening + closing) '/' ++ [] := by simp
    rw [hslashes, hcut _ [] (by simp)]
    rfl
  | cons c text =>
    have hhead : ((c :: text) ++ List.replicate closing '/').head? ≠ some '/' := hfirst
    rw [List.append_assoc, hcut opening _ hhead, List.reverse_append, List.reverse_replicate,
      hcut closing _ (by rwa [List.head?_reverse]), List.reverse_reverse]

/-! ## Spellings -/

/-- A text between leading `./` and slashes, in this order, and slashes behind it. -/
def decorated (here opening : Nat) (text : List Char) (closing : Nat) : List Char :=
  heres here ++ (List.replicate opening '/' ++ text ++ List.replicate closing '/')

/-- The pattern is made of blanks, leading `./`, slashes, the text, slashes and blanks, in this
order, where backslashes count as slashes. -/
def IsSpelling (text pattern : String) : Prop :=
  ∃ front body back here opening closing, pattern.toList = front ++ body ++ back ∧
    IsBlankText front ∧ IsBlankText back ∧
    withSlashes body = decorated here opening text.toList closing

theorem length_decorated (here opening : Nat) (text : List Char) (closing : Nat) :
    (decorated here opening text closing).length = 2 * here + opening + text.length + closing := by
  simp only [decorated, List.length_append, length_heres, List.length_replicate]
  omega

theorem isTight_decorated {text : List Char} (h : IsTight text) (here opening closing : Nat) :
    IsTight (decorated here opening text closing) := by
  have hslash : ∀ n : Nat, ∀ c ∈ List.replicate n '/', isBlank c = false := fun n c hc => by
    rw [List.eq_of_mem_replicate hc]
    decide
  have hfront : ∀ c ∈ heres here ++ List.replicate opening '/', isBlank c = false :=
    List.forall_mem_append.mpr ⟨isBlank_of_mem_heres, hslash opening⟩
  rw [decorated, ← List.append_assoc, ← List.append_assoc]
  exact h.within hfront (hslash closing)

/-- What is cleaned off a pattern stands around the rest, in the order in which it is cleaned
off. -/
theorem exists_cleanPattern (pattern : String) : ∃ front back here opening closing,
    pattern.toList = front ++ trim pattern.toList ++ back ∧ IsBlankText front ∧ IsBlankText back ∧
    withSlashes (trim pattern.toList) =
      decorated here opening (cleanPattern pattern).toList closing ∧
    ¬ ['.', '/'] <+:
      List.replicate opening '/' ++ (cleanPattern pattern).toList ++ List.replicate closing '/' ∧
    (cleanPattern pattern).toList.head? ≠ some '/' ∧
    (cleanPattern pattern).toList.getLast? ≠ some '/' := by
  have hclean : (cleanPattern pattern).toList =
      trimSlashes (dropHere (withSlashes (trim pattern.toList))) := String.toList_ofList
  obtain ⟨front, back, hpattern, hfront, hback⟩ := exists_trim pattern.toList
  obtain ⟨here, hhere, hnone⟩ := exists_dropHere (withSlashes (trim pattern.toList))
  obtain ⟨opening, closing, hslashes, hfirst, hlast⟩ :=
    exists_trimSlashes (dropHere (withSlashes (trim pattern.toList)))
  rw [← hclean] at hslashes hfirst hlast
  refine ⟨front, back, here, opening, closing, hpattern, hfront, hback, ?_, ?_, hfirst, hlast⟩
  · rw [decorated, ← hslashes, ← hhere]
  · rwa [← hslashes]

theorem backslash_notMem_cleanPattern (pattern : String) :
    '\\' ∉ (cleanPattern pattern).toList := by
  obtain ⟨_, _, _, _, _, -, -, -, hbody, -⟩ := exists_cleanPattern pattern
  refine fun hmem => backslash_notMem_withSlashes (trim pattern.toList) ?_
  rw [hbody, decorated]
  simp [hmem]

theorem isSpelling_cleanPattern (pattern : String) : IsSpelling (cleanPattern pattern) pattern := by
  obtain ⟨front, back, here, opening, closing, hpattern, hfront, hback, hbody, -⟩ :=
    exists_cleanPattern pattern
  exact ⟨front, _, back, here, opening, closing, hpattern, hfront, hback, hbody⟩

/-- Of a canonical text with blanks, leading `./` and slashes around it the text is left, unless it
is a dot that makes one more `./` with the slashes behind it. -/
theorem cleanPattern_of_decorated {text pattern : String} (h : IsCanonical text.toList)
    {front body back : List Char} {here opening closing : Nat}
    (hpattern : pattern.toList = front ++ body ++ back) (hfront : IsBlankText front)
    (hback : IsBlankText back)
    (hbody : withSlashes body = decorated here opening text.toList closing)
    (hnone : ¬ ['.', '/'] <+:
      List.replicate opening '/' ++ text.toList ++ List.replicate closing '/') :
    cleanPattern pattern = text := by
  have htight : IsTight body := by
    rw [← isTight_withSlashes, hbody]
    exact isTight_decorated h.tight here opening closing
  have htrim : trim pattern.toList = body := by
    rw [hpattern]
    exact trim_eq_of_tight hfront htight hback
  have hclean : cleanPattern pattern =
      String.ofList (trimSlashes (dropHere (withSlashes (trim pattern.toList)))) := rfl
  rw [hclean, htrim, hbody, decorated, dropHere_heres, dropHere_of_not hnone,
    trimSlashes_replicate h.first h.last, String.ofList_toList]

/-- Slashes around a canonical text other than the dot make no `./` at its front. -/
theorem IsCanonical.not_here {text : List Char} (h : IsCanonical text) (hdot : text ≠ ['.'])
    (opening closing : Nat) :
    ¬ ['.', '/'] <+: List.replicate opening '/' ++ text ++ List.replicate closing '/' := by
  cases opening with
  | succ opening => simp [List.replicate_succ]
  | zero =>
    rw [List.replicate_zero, List.nil_append]
    match text with
    | [] =>
      cases closing with
      | zero => simp
      | succ closing => simp [List.replicate_succ]
    | [c] =>
      have hc : '.' ≠ c := fun heq => hdot (by rw [heq])
      simp [hc]
    | c :: d :: rest =>
      have hno := h.no_here
      simp only [List.cons_append, List.cons_prefix_cons, List.nil_prefix] at hno ⊢
      exact hno

theorem cleanPattern_of_isSpelling {text pattern : String} (h : IsCanonical text.toList)
    (hdot : text ≠ ".") (hspelling : IsSpelling text pattern) : cleanPattern pattern = text := by
  obtain ⟨front, body, back, here, opening, closing, hpattern, hfront, hback, hbody⟩ := hspelling
  refine cleanPattern_of_decorated h hpattern hfront hback hbody (h.not_here ?_ opening closing)
  exact fun heq => hdot (String.toList_inj.mp heq)

theorem isCanonical_nil : IsCanonical [] :=
  ⟨isTight_nil, by simp, by simp, by simp, by simp⟩

/-- Of a dot the dot is left, or nothing when slashes make it one more `./`. -/
theorem cleanPattern_of_isSpelling_dot {pattern : String} (h : IsSpelling "." pattern) :
    cleanPattern pattern = "." ∨ cleanPattern pattern = "" := by
  obtain ⟨front, body, back, here, opening, closing, hpattern, hfront, hback, hbody⟩ := h
  have hdot : IsCanonical ".".toList := ⟨isTight_of_filled (by simpa using by decide), by decide,
    by decide, by decide, by decide⟩
  by_cases hnone : ¬ ['.', '/'] <+:
      List.replicate opening '/' ++ ".".toList ++ List.replicate closing '/'
  · exact .inl (cleanPattern_of_decorated hdot hpattern hfront hback hbody hnone)
  · obtain ⟨rest, hrest⟩ := not_not.mp hnone
    have hopening : opening = 0 := by
      cases opening with
      | zero => rfl
      | succ opening => simp [List.replicate_succ] at hrest
    obtain ⟨more, hmore⟩ : ∃ more, closing = more + 1 := by
      cases closing with
      | zero => simp [hopening] at hrest
      | succ closing => exact ⟨closing, rfl⟩
    subst hopening hmore
    refine .inr (cleanPattern_of_isSpelling isCanonical_nil (by decide)
      ⟨front, body, back, here + 1, 0, more, hpattern, hfront, hback, ?_⟩)
    rw [hbody]
    simp [decorated, heres, List.replicate_succ', ← List.replicate_succ]

/-! ## Canonical results -/

theorem cleanPattern_of_isCanonical {text : String} (h : IsCanonical text.toList) :
    cleanPattern text = text := by
  have hbody : withSlashes text.toList = decorated 0 0 text.toList 0 := by
    rw [withSlashes_eq_self h.no_backslash]
    simp [decorated, heres]
  have hpattern : text.toList = [] ++ text.toList ++ [] := by simp
  exact cleanPattern_of_decorated h hpattern isBlankText_nil isBlankText_nil hbody
    (by simpa using h.no_here)

/-- A pattern is left as it is exactly when it is canonical. -/
theorem cleanPattern_eq_self_iff {text : String} :
    cleanPattern text = text ↔ IsCanonical text.toList := by
  refine ⟨fun heq => ?_, cleanPattern_of_isCanonical⟩
  obtain ⟨front, back, here, opening, closing, hpattern, -, -, hbody, hnone, hfirst, hlast⟩ :=
    exists_cleanPattern text
  have hbackslash := backslash_notMem_cleanPattern text
  rw [heq] at hbody hnone hfirst hlast hbackslash
  -- nothing was cleaned off, by the lengths
  have houter := congrArg List.length hpattern
  have hinner := congrArg List.length hbody
  rw [length_withSlashes, length_decorated] at hinner
  simp only [List.length_append] at houter
  have hfront : front = [] := List.eq_nil_of_length_eq_zero (by omega)
  have hback : back = [] := List.eq_nil_of_length_eq_zero (by omega)
  obtain rfl : opening = 0 := by omega
  obtain rfl : closing = 0 := by omega
  rw [hfront, hback, List.nil_append, List.append_nil] at hpattern
  refine ⟨hpattern ▸ isTight_trim text.toList, ?_, hfirst, hlast, hbackslash⟩
  simpa using hnone

/-- The result is canonical exactly when the pattern spells a canonical text. -/
theorem isCanonical_cleanPattern_iff {pattern : String} :
    IsCanonical (cleanPattern pattern).toList ↔
      ∃ text : String, IsCanonical text.toList ∧ IsSpelling text pattern := by
  constructor
  · exact fun h => ⟨_, h, isSpelling_cleanPattern pattern⟩
  · rintro ⟨text, htext, hspelling⟩
    by_cases hdot : text = "."
    · subst hdot
      rcases cleanPattern_of_isSpelling_dot hspelling with hclean | hclean
      · rwa [hclean]
      · rw [hclean]
        exact isCanonical_nil
    · rwa [cleanPattern_of_isSpelling htext hdot hspelling]

/-- Both patterns spell one canonical text other than the dot. -/
def SpellAlike (pattern other : String) : Prop :=
  ∃ text : String, IsCanonical text.toList ∧ text ≠ "." ∧ IsSpelling text pattern ∧
    IsSpelling text other

theorem cleanPatterns_eq_of_spellAlike {patterns others : List String}
    (h : List.Forall₂ SpellAlike patterns others) :
    cleanPatterns patterns = cleanPatterns others := by
  have hmap : patterns.map cleanPattern = others.map cleanPattern := by
    induction h with
    | nil => rfl
    | cons halike _ ih =>
      obtain ⟨text, htext, hdot, hfirst, hother⟩ := halike
      rw [List.map_cons, List.map_cons, ih, cleanPattern_of_isSpelling htext hdot hfirst,
        cleanPattern_of_isSpelling htext hdot hother]
  rw [cleanPatterns, cleanPatterns, hmap]

/-- **When cleaning reaches the canonical form.**  What is left of any pattern has no slash at its
ends and no backslash, and the pattern spells it.  It is canonical exactly when the pattern spells
some canonical text, which is when cleaning it again changes nothing; and the patterns of which a
canonical text other than the dot is left are exactly those that spell it.  So patterns that spell
alike are the same to a context and to a filter of events. -/
theorem cleanPattern_canonical_iff (pattern : String) :
    ((cleanPattern pattern).toList.head? ≠ some '/' ∧
      (cleanPattern pattern).toList.getLast? ≠ some '/' ∧ '\\' ∉ (cleanPattern pattern).toList) ∧
    IsSpelling (cleanPattern pattern) pattern ∧
    (IsCanonical (cleanPattern pattern).toList ↔
      ∃ text : String, IsCanonical text.toList ∧ IsSpelling text pattern) ∧
    (IsCanonical (cleanPattern pattern).toList ↔
      cleanPattern (cleanPattern pattern) = cleanPattern pattern) ∧
    (∀ text : String, IsCanonical text.toList → text ≠ "." →
      (cleanPattern pattern = text ↔ IsSpelling text pattern)) ∧
    ∀ patterns others, List.Forall₂ SpellAlike patterns others →
      ∀ disk root maxDepth context workingFolder watched report,
        Context.create disk root maxDepth patterns = .ok context →
        context.exclude =
          (Watch.EventFilter.create workingFolder watched report others).exclude := by
  obtain ⟨_, _, _, _, _, -, -, -, -, -, hfirst, hlast⟩ := exists_cleanPattern pattern
  refine ⟨⟨hfirst, hlast, backslash_notMem_cleanPattern pattern⟩, isSpelling_cleanPattern pattern,
    isCanonical_cleanPattern_iff, cleanPattern_eq_self_iff.symm, ?_, ?_⟩
  · intro text htext hdot
    exact ⟨fun heq => heq ▸ isSpelling_cleanPattern pattern, cleanPattern_of_isSpelling htext hdot⟩
  · intro patterns others halike disk root maxDepth context workingFolder watched report hcontext
    obtain ⟨-, -, -, hexclude⟩ := Context.create_eq_ok hcontext
    rw [hexclude, cleanPatterns_eq_of_spellAlike halike]
    rfl

theorem isCanonical_dist : IsCanonical "dist".toList :=
  ⟨isTight_of_filled (by simpa using by decide), by decide, by decide, by decide, by decide⟩

/-- A folder's name between blanks, leading `./`, slashes and backslashes. -/
theorem isSpelling_dist : IsSpelling "dist" "\t.\\./\\dist/\\ " := by
  refine ⟨['\t'], ".\\./\\dist/\\".toList, [' '], 2, 1, 2, by decide, ?_, ?_, by decide⟩
  · simpa using by decide
  · simpa using by decide

theorem cleanPattern_canonical_iff_dist :
    cleanPattern "\t.\\./\\dist/\\ " = "dist" ∧
    ∀ disk root context, Context.create disk root 3 ["\t.\\./\\dist/\\ "] = .ok context →
      context.exclude =
        (Watch.EventFilter.create ⟨.root, []⟩ ⟨.root, []⟩ none ["dist"]).exclude := by
  have h := cleanPattern_canonical_iff "\t.\\./\\dist/\\ "
  have hself : IsSpelling "dist" "dist" := ⟨[], "dist".toList, [], 0, 0, 0, by decide,
    isBlankText_nil, isBlankText_nil, by decide⟩
  refine ⟨(h.2.2.2.2.1 "dist" isCanonical_dist (by decide)).mpr isSpelling_dist, ?_⟩
  intro disk root context hcontext
  exact h.2.2.2.2.2 _ ["dist"]
    (.cons ⟨"dist", isCanonical_dist, by decide, isSpelling_dist, hself⟩ .nil) disk root 3
      context _ _
    _ hcontext

/-- Behind a slash `./` is left, so the pattern covers no file of its folder; cleaning it once more
would do. -/
theorem cleanPattern_leaves_here :
    cleanPattern "/./dist" = "./dist" ∧ cleanPattern "./dist" = "dist" ∧
    isIgnored ⟨.root, ["p", "dist", "a.js"]⟩ ⟨.root, ["p"]⟩ (cleanPatterns ["/./dist"]) = false ∧
    isIgnored ⟨.root, ["p", "dist", "a.js"]⟩ ⟨.root, ["p"]⟩ (cleanPatterns ["dist"]) = true ∧
    ¬ ∀ pattern, IsCanonical (cleanPattern pattern).toList ∧
      cleanPattern (cleanPattern pattern) = cleanPattern pattern := by
  have hleft : cleanPattern "/./dist" = "./dist" := by decide +kernel
  have hagain : cleanPattern "./dist" = "dist" := by decide +kernel
  refine ⟨hleft, hagain, by decide +kernel, by decide +kernel, fun hall => ?_⟩
  have hidempotent := (hall "/./dist").2
  rw [hleft, hagain] at hidempotent
  exact absurd hidempotent (by decide)

end ImportAtlas.Project
