import ImportAtlas.Proofs.Path.Normal
import ImportAtlas.Proofs.Text.Trim
import ImportAtlas.Report.Section
import Mathlib.Data.List.ModifyLast

set_option autoImplicit false

/-!
# The lines of a trimmed text

Trimming a text drops its blank lines at both ends, the leading blanks of the
first line that is left and the trailing blanks of the last one.  All other
lines stay as they are, so the lines that are not blank survive in their order
(`filledLines_trim`).
-/

namespace ImportAtlas.Section

open Text

/-- Whether a line holds more than blanks. -/
def isFilled (line : List Char) : Bool :=
  line.any fun c => !isBlank c

/-- The lines of a text that are not blank. -/
def filledLines (text : List Char) : List (List Char) :=
  (linesOf text).filter isFilled

/-- Lines without the leading blanks of the first and the trailing blanks of the last. -/
def trimEnds (lines : List (List Char)) : List (List Char) :=
  (lines.modifyHead trimStart).modifyLast trimEnd

theorem isFilled_eq_true_iff {line : List Char} : isFilled line = true ↔ ¬ IsBlankText line := by
  simp [isFilled, IsBlankText]

theorem isFilled_eq_false_iff {line : List Char} : isFilled line = false ↔ IsBlankText line := by
  simp [isFilled, IsBlankText]

/-! ## Taking a text apart at a line end -/

theorem linesOf_append (a b : List Char) : linesOf (a ++ '\n' :: b) = linesOf a ++ linesOf b :=
  List.splitOn_append_cons_self a b

theorem linesOf_of_not_mem {line : List Char} (h : '\n' ∉ line) : linesOf line = [line] :=
  List.splitOn_eq_singleton h

@[simp] theorem linesOf_nil : linesOf [] = [[]] := rfl

@[simp] theorem joinLines_linesOf (text : List Char) : joinLines (linesOf text) = text :=
  List.intercalate_splitOn '\n'

theorem not_mem_of_mem_linesOf {text line : List Char} (h : line ∈ linesOf text) : '\n' ∉ line :=
  Path.not_mem_of_mem_splitOn h

/-- Lines are read back from the text that they make. -/
theorem linesOf_joinLines {lines : List (List Char)} (hne : lines ≠ [])
    (h : ∀ line ∈ lines, '\n' ∉ line) : linesOf (joinLines lines) = lines :=
  List.splitOn_intercalate '\n' h hne

theorem joinLines_cons_cons (first second : List Char) (rest : List (List Char)) :
    joinLines (first :: second :: rest) = first ++ '\n' :: joinLines (second :: rest) := by
  rw [joinLines, List.intercalate_cons_cons, List.append_assoc]
  rfl

/-- The lines of joined texts are the lines of each. -/
theorem linesOf_joinLines_eq_flatMap {texts : List (List Char)} (hne : texts ≠ []) :
    linesOf (joinLines texts) = texts.flatMap linesOf := by
  induction texts with
  | nil => exact absurd rfl hne
  | cons first rest ih =>
    cases rest with
    | nil => simp [joinLines]
    | cons second rest =>
      have ih := ih (List.cons_ne_nil _ _)
      rw [joinLines_cons_cons, linesOf_append, ih]
      rfl

/-- A text is one line, or a line with more behind its end. -/
theorem line_cases (text : List Char) :
    '\n' ∉ text ∨ ∃ line rest, text = line ++ '\n' :: rest ∧ '\n' ∉ line ∧
      linesOf text = line :: linesOf rest := by
  by_cases h : '\n' ∈ text
  · obtain ⟨line, rest, rfl, hline⟩ := List.eq_append_cons_of_mem h
    exact .inr ⟨line, rest, rfl, hline, by rw [linesOf_append, linesOf_of_not_mem hline]; rfl⟩
  · exact .inl h

/-- A line of a text has a line end in front of it, but for the first. -/
theorem infix_of_mem_linesOf {text line : List Char} (h : line ∈ linesOf text) :
    '\n' :: line <:+: '\n' :: text := by
  induction hlength : text.length using Nat.strong_induction_on generalizing text with
  | _ n ih =>
    subst hlength
    rcases line_cases text with hone | ⟨first, rest, rfl, -, hlines⟩
    · rw [linesOf_of_not_mem hone, List.mem_singleton] at h
      rw [h]
    · rw [hlines] at h
      rcases List.mem_cons.mp h with rfl | h
      · exact (List.prefix_append ('\n' :: line) ('\n' :: rest)).isInfix
      · have hrest := ih rest.length (by simp; omega) h rfl
        exact hrest.trans (List.suffix_append ('\n' :: first) ('\n' :: rest)).isInfix

/-! ## Lines that are not blank -/

@[simp] theorem filledLines_append (a b : List Char) :
    filledLines (a ++ '\n' :: b) = filledLines a ++ filledLines b := by
  rw [filledLines, linesOf_append, List.filter_append, ← filledLines, ← filledLines]

theorem filledLines_of_not_mem {line : List Char} (h : '\n' ∉ line) :
    filledLines line = if isFilled line then [line] else [] := by
  rw [filledLines, linesOf_of_not_mem h, List.filter_singleton]
  cases isFilled line <;> rfl

@[simp] theorem filledLines_nil : filledLines [] = [] := rfl

theorem exists_last_line {text : List Char} (h : '\n' ∈ text) :
    ∃ front line, text = front ++ '\n' :: line ∧ '\n' ∉ line := by
  obtain ⟨line, front, hsplit, hline⟩ := List.eq_append_cons_of_mem (List.mem_reverse.mpr h)
  refine ⟨front.reverse, line.reverse, ?_, by simpa using hline⟩
  rw [← List.reverse_reverse text, hsplit]
  simp

theorem isFilled_congr {line trimmed : List Char} (h : trim trimmed = trim line) :
    isFilled trimmed = isFilled line := by
  rw [Bool.eq_iff_iff, isFilled_eq_true_iff, isFilled_eq_true_iff, ← trim_eq_nil_iff,
    ← trim_eq_nil_iff, h]

theorem trimStart_of_not_mem {line : List Char} (h : '\n' ∉ line) :
    filledLines (trimStart line) = (filledLines line).modifyHead trimStart := by
  have hnot : '\n' ∉ trimStart line := fun hmem => h ((List.dropWhile_suffix _).subset hmem)
  rw [filledLines_of_not_mem hnot, filledLines_of_not_mem h, isFilled_congr (trim_trimStart line)]
  cases isFilled line <;> rfl

theorem filledLines_trimStart (text : List Char) :
    filledLines (trimStart text) = (filledLines text).modifyHead trimStart := by
  induction hlength : text.length using Nat.strong_induction_on generalizing text with
  | _ n ih =>
    subst hlength
    by_cases hmem : '\n' ∈ text
    · obtain ⟨line, rest, rfl, hline⟩ := List.eq_append_cons_of_mem hmem
      rw [filledLines_append]
      by_cases hblank : IsBlankText line
      · -- a blank line is dropped with its line end
        have hstart : trimStart (line ++ '\n' :: rest) = trimStart rest := by
          have hfront : IsBlankText (line ++ ['\n']) :=
            isBlankText_append.mpr ⟨hblank, isBlankText_cons.mpr ⟨by decide, isBlankText_nil⟩⟩
          simpa using trimStart_of_blank hfront rest
        rw [hstart, filledLines_of_not_mem hline, isFilled_eq_false_iff.mpr hblank,
          ih rest.length (by simp; omega) rest rfl]
        rfl
      · rw [trimStart_append hblank, filledLines_append, trimStart_of_not_mem hline,
          filledLines_of_not_mem hline, isFilled_eq_true_iff.mpr hblank]
        rfl
    · exact trimStart_of_not_mem hmem

theorem trimEnd_of_not_mem {line : List Char} (h : '\n' ∉ line) :
    filledLines (trimEnd line) = (filledLines line).modifyLast trimEnd := by
  have hnot : '\n' ∉ trimEnd line := fun hmem => h ((List.rdropWhile_prefix _ _).subset hmem)
  rw [filledLines_of_not_mem hnot, filledLines_of_not_mem h, isFilled_congr (trim_trimEnd line)]
  cases isFilled line <;> rfl

theorem filledLines_trimEnd (text : List Char) :
    filledLines (trimEnd text) = (filledLines text).modifyLast trimEnd := by
  induction hlength : text.length using Nat.strong_induction_on generalizing text with
  | _ n ih =>
    subst hlength
    by_cases hmem : '\n' ∈ text
    · obtain ⟨front, line, rfl, hline⟩ := exists_last_line hmem
      rw [filledLines_append]
      by_cases hblank : IsBlankText line
      · have hend : trimEnd (front ++ '\n' :: line) = trimEnd front := by
          have hback : IsBlankText ('\n' :: line) := isBlankText_cons.mpr ⟨by decide, hblank⟩
          exact trimEnd_of_blank hback front
        rw [hend, filledLines_of_not_mem hline, isFilled_eq_false_iff.mpr hblank,
          ih front.length (by simp) front rfl]
        simp
      · have hsplit : trimEnd (front ++ '\n' :: line) = front ++ '\n' :: trimEnd line := by
          simpa using trimEnd_append hblank (front ++ ['\n'])
        have hne : filledLines line ≠ [] := by
          rw [filledLines_of_not_mem hline, isFilled_eq_true_iff.mpr hblank]
          exact List.cons_ne_nil _ _
        rw [hsplit, filledLines_append, trimEnd_of_not_mem hline,
          List.modifyLast_append_of_right_ne_nil _ _ _ hne]
    · exact trimEnd_of_not_mem hmem

/-- Trimming keeps the lines that are not blank; the first loses its leading blanks and the last its
trailing ones. -/
theorem filledLines_trim (text : List Char) :
    filledLines (trim text) = trimEnds (filledLines text) := by
  rw [trim, filledLines_trimEnd, filledLines_trimStart, trimEnds]

/-- Each of the trimmed lines is one of the lines, but for blanks around it. -/
theorem exists_of_mem_trimEnds {lines : List (List Char)} {line : List Char}
    (h : line ∈ trimEnds lines) : ∃ line' ∈ lines, trim line = trim line' := by
  have hfirst : ∀ line ∈ lines.modifyHead trimStart, ∃ line' ∈ lines, trim line = trim line' := by
    cases lines with
    | nil => exact fun _ h => nomatch h
    | cons first rest =>
      refine List.forall_mem_cons.mpr ⟨⟨first, List.mem_cons_self, trim_trimStart first⟩, ?_⟩
      exact fun line hline => ⟨line, List.mem_cons_of_mem _ hline, rfl⟩
  rw [trimEnds] at h
  generalize lines.modifyHead trimStart = trimmed at h hfirst
  rcases List.eq_nil_or_concat trimmed with rfl | ⟨front, last, rfl⟩
  · cases h
  · rw [List.concat_eq_append] at h hfirst
    rw [List.modifyLast_concat] at h
    rcases List.mem_append.mp h with h | h
    · exact hfirst line (List.mem_append_left _ h)
    · obtain rfl : line = trimEnd last := List.mem_singleton.mp h
      rw [trim_trimEnd]
      exact hfirst last (List.mem_append_right _ (List.mem_singleton_self last))

end ImportAtlas.Section
