import ImportAtlas.Proofs.Report.Lines

set_option autoImplicit false

/-!
# The section that a marker starts

The lines of a document fall into those before the section of a marker, the
section itself and those behind it (`Splits`).  Replacing the section leaves the
trimmed parts around it and puts the new content behind them, a blank line
between any two (`replace_eq_spaced`); so every line outside the section that is
not blank stays, in its order.
-/

namespace ImportAtlas.Section

open Text

/-- The first line of a text. -/
def markerOf (content : List Char) : List Char :=
  content.takeWhile (· != '\n')

/-- A document with its report replaced by a text. -/
def replace (content text : List Char) : List Char :=
  kept (markerOf content) text ++ content

/-- In front of a text stays what is kept around the section that its first line starts. -/
theorem front_points (content : String) (text : List Char) :
    front content text = kept (markerOf content.toList) text := by
  have hline : (points content).takeWhile (· != .char '\n') =
      points (String.ofList (markerOf content.toList)) := by
    simp only [points, String.toList_ofList, markerOf, List.takeWhile_map]
    congr 1
    refine congrArg (List.takeWhile · content.toList) (funext fun c => ?_)
    simp [bne, BEq.beq]
  rw [front, hline, text?_points]
  simp only [String.toList_ofList]

/-- A text in a document makes a text. -/
theorem front_append_points (content : String) (text : List Char) :
    (front content text).map Point.char ++ points content =
      points (String.ofList (replace content.toList text)) := by
  rw [front_points, points, points, String.toList_ofList, replace, List.map_append]

/-! ## Lines that start and end a section -/

/-- The line is the marker, followed by nothing but spaces and tabs. -/
def IsMarkerLine (marker line : List Char) : Prop :=
  ∃ gap, line = marker ++ gap ∧ ∀ c ∈ gap, c = ' ' ∨ c = '\t'

/-- The line starts with a number sign and a space, and no second number sign follows them. -/
def IsHeadingLine (line : List Char) : Prop :=
  ∃ rest, line = '#' :: ' ' :: rest ∧ rest.head? ≠ some '#'

theorem isMarker_iff {marker line : List Char} :
    isMarker marker line = true ↔ IsMarkerLine marker line := by
  unfold isMarker IsMarkerLine
  constructor
  · intro h
    cases hgap : marker.isPrefixOf? line with
    | none => simp [hgap] at h
    | some gap =>
      refine ⟨gap, (List.isPrefixOf?_eq_some_iff_append_eq.mp hgap).symm, ?_⟩
      simpa [hgap] using h
  · rintro ⟨gap, rfl, hgap⟩
    rw [List.isPrefixOf?_eq_some_iff_append_eq.mpr rfl]
    simpa using hgap

theorem isHeading_iff {line : List Char} : isHeading line = true ↔ IsHeadingLine line := by
  unfold IsHeadingLine
  constructor
  · intro h
    unfold isHeading at h
    split at h
    · rename_i rest
      exact ⟨rest, rfl, by simpa using h⟩
    · cases h
  · rintro ⟨rest, rfl, hrest⟩
    simpa [isHeading] using hrest

instance (marker line : List Char) : Decidable (IsMarkerLine marker line) :=
  decidable_of_iff _ isMarker_iff

instance (line : List Char) : Decidable (IsHeadingLine line) :=
  decidable_of_iff _ isHeading_iff

/-- A marker line is the marker up to blanks around it. -/
theorem IsMarkerLine.trim_eq {marker line : List Char} (h : IsMarkerLine marker line) :
    trim line = trim marker := by
  obtain ⟨gap, rfl, hgap⟩ := h
  have hblank : IsBlankText gap := by
    intro c hc
    rcases hgap c hc with rfl | rfl <;> decide
  simpa using trim_around isBlankText_nil hblank (s := marker)

/-! ## The parts around a section -/

/-- The lines before the section that a marker starts and the lines behind it: all lines and none
when no line starts it; else the lines before the first such line, and the lines from the next
heading on. -/
inductive Splits (marker : List Char) :
    (lines before after : List (List Char)) → Prop
  | absent {lines : List (List Char)} (plain : ∀ line ∈ lines, ¬ IsMarkerLine marker line) :
      Splits marker lines lines []
  | present {before body after : List (List Char)} {title : List Char}
      (plain : ∀ line ∈ before, ¬ IsMarkerLine marker line)
      (starts : IsMarkerLine marker title)
      (runs : ∀ line ∈ body, ¬ IsHeadingLine line)
      (ends : ∀ line ∈ after.head?, IsHeadingLine line) :
      Splits marker (before ++ title :: (body ++ after)) before after

/-- Texts with a blank line between any two. -/
def spaced (texts : List (List Char)) : List Char :=
  ['\n', '\n'].intercalate texts

/-- What is left of the two parts around a section: each trimmed, if it is not blank. -/
def partsAround (before after : List (List Char)) : List (List Char) :=
  [trim (joinLines before), trim (joinLines after)].filter fun part => part != []

/-- Two texts trimmed at their join and then at their ends are the two trimmed ones. -/
theorem trim_join (a b : List Char) :
    trim (trimEnd a ++ ['\n', '\n'] ++ trimStart b) =
      spaced ([trim a, trim b].filter fun part => part != []) := by
  obtain ⟨front, hfront, hblank⟩ := exists_trimEnd_eq a
  obtain ⟨back, hback, hblank'⟩ := exists_trimStart_eq b
  have hgap : IsBlankText ['\n', '\n'] := by
    simp only [isBlankText_cons, isBlankText_nil, and_true]
    decide
  rw [hfront, hback]
  by_cases ha : trim a = []
  · have hlead : IsBlankText (front ++ trim a ++ ['\n', '\n']) := by
      rw [ha, List.append_nil]
      exact isBlankText_append.mpr ⟨hblank, hgap⟩
    rw [← List.append_assoc, trim_eq_of_tight hlead (isTight_trim b) hblank', ha]
    by_cases hb : trim b = []
    · simp [hb, spaced]
    · simp [hb, spaced]
  · by_cases hb : trim b = []
    · have htail : IsBlankText (['\n', '\n'] ++ (trim b ++ back)) := by
        rw [hb]
        exact isBlankText_append.mpr ⟨hgap, hblank'⟩
      rw [List.append_assoc, trim_eq_of_tight hblank (isTight_trim a) htail]
      simp [ha, hb, spaced]
    · have htight := (isTight_trim a).join (isTight_trim b) ['\n', '\n'] ha hb
      have hassoc : front ++ trim a ++ ['\n', '\n'] ++ (trim b ++ back) =
          front ++ (trim a ++ ['\n', '\n'] ++ trim b) ++ back := by
        simp only [List.append_assoc]
      rw [hassoc, trim_eq_of_tight hblank htight hblank']
      simp [ha, hb, spaced, List.intercalate_cons_cons]

/-- Every list of lines falls into its parts. -/
theorem exists_splits (marker : List Char) (lines : List (List Char)) :
    ∃ before after, Splits marker lines before after := by
  have hplain : ∀ line ∈ lines.takeWhile fun line => !isMarker marker line,
      ¬ IsMarkerLine marker line := by
    intro line hline
    rw [← isMarker_iff]
    simpa using List.mem_takeWhile_imp hline
  have hlines := List.takeWhile_append_dropWhile (p := fun line => !isMarker marker line)
    (l := lines)
  cases hfrom : lines.dropWhile fun line => !isMarker marker line with
  | nil =>
    rw [hfrom, List.append_nil] at hlines
    exact ⟨lines, [], .absent (hlines ▸ hplain)⟩
  | cons title rest =>
    have hstarts : IsMarkerLine marker title := by
      have h := List.head?_dropWhile_not (fun line => !isMarker marker line) lines
      rw [hfrom] at h
      rw [← isMarker_iff]
      simpa using h
    have hruns : ∀ line ∈ rest.takeWhile fun line => !isHeading line, ¬ IsHeadingLine line := by
      intro line hline
      rw [← isHeading_iff]
      simpa using List.mem_takeWhile_imp hline
    have hends : ∀ line ∈ (rest.dropWhile fun line => !isHeading line).head?,
        IsHeadingLine line := by
      intro line hline
      have h := List.head?_dropWhile_not (fun line => !isHeading line) rest
      rw [hline] at h
      rw [← isHeading_iff]
      simpa using h
    have hsplits := Splits.present hplain hstarts hruns hends
    rw [List.takeWhile_append_dropWhile, ← hfrom, hlines] at hsplits
    exact ⟨_, _, hsplits⟩

theorem dropWhile_eq_of_head {after : List (List Char)}
    (h : ∀ line ∈ after.head?, IsHeadingLine line) :
    (after.dropWhile fun line => !isHeading line) = after := by
  cases after with
  | nil => rfl
  | cons next after => exact List.dropWhile_cons_of_neg (by simp [isHeading_iff.mpr (h next rfl)])

/-- The section is cut out of the text, and what is left is trimmed at the ends and at the join. -/
theorem Splits.trim_cut {marker text : List Char} {before after : List (List Char)}
    (h : Splits marker (linesOf text) before after) :
    trim (cut marker text) = spaced (partsAround before after) := by
  have hone : ∀ part : List Char,
      trim part = spaced ([trim part, trim (joinLines [])].filter fun part => part != []) := by
    intro part
    have hnil : trim (joinLines []) = [] := rfl
    by_cases hpart : trim part = [] <;> simp [hpart, hnil, spaced]
  have hpass : ∀ {line}, ¬ IsMarkerLine marker line → (!isMarker marker line) = true := by
    intro line hline
    simpa [← isMarker_iff] using hline
  generalize hlines : linesOf text = lines at h
  unfold cut
  simp only [hlines]
  cases h with
  | absent plain =>
    rw [List.dropWhile_eq_nil_iff.mpr fun line hline => hpass (plain line hline), ← hlines,
      partsAround, joinLines_linesOf]
    exact hone text
  | @present _ body _ title plain starts runs ends =>
    have hbefore : ∀ line ∈ before, (!isMarker marker line) = true :=
      fun line hline => hpass (plain line hline)
    have hstop : ¬ (!isMarker marker title) = true := by simp [isMarker_iff.mpr starts]
    have hbody : ∀ line ∈ body, (!isHeading line) = true := by
      intro line hline
      simpa [← isHeading_iff] using runs line hline
    rw [List.dropWhile_append_of_pos hbefore, List.takeWhile_append_of_pos hbefore,
      List.dropWhile_cons, if_neg hstop, List.takeWhile_cons, if_neg hstop, List.append_nil]
    simp only [List.dropWhile_append_of_pos hbody, dropWhile_eq_of_head ends]
    cases after with
    | nil => exact hone (joinLines before)
    | cons next after => exact trim_join (joinLines before) (joinLines (next :: after))

/-! ## The replaced text -/

/-- The text that stays in front of a new report is the parts around the section, a blank line
behind each. -/
theorem Splits.kept_eq {marker text : List Char} {before after : List (List Char)}
    (h : Splits marker (linesOf text) before after) :
    kept marker text = (partsAround before after).flatMap (· ++ ['\n', '\n']) := by
  have hparts : ∀ part ∈ partsAround before after, part ≠ [] := by
    intro part hpart
    simpa using (List.mem_filter.mp hpart).2
  have hlength : (partsAround before after).length ≤ 2 := List.length_filter_le _ _
  unfold kept spacedOff
  rw [h.trim_cut]
  match partsAround before after, hparts, hlength with
  | [], _, _ => rfl
  | [a], hparts, _ => 
    obtain ⟨c, a, rfl⟩ := List.exists_cons_of_ne_nil (hparts a List.mem_cons_self)
    simp [spaced]
  | [a, b], hparts, _ =>
    obtain ⟨c, a, rfl⟩ := List.exists_cons_of_ne_nil (hparts a List.mem_cons_self)
    simp [spaced, List.intercalate_cons_cons]

theorem spaced_concat (parts : List (List Char)) (content : List Char) :
    spaced (parts ++ [content]) = parts.flatMap (· ++ ['\n', '\n']) ++ content := by
  induction parts with
  | nil => simp [spaced]
  | cons part parts ih =>
    obtain ⟨next, rest, hrest⟩ : ∃ next rest, parts ++ [content] = next :: rest := by
      cases parts with
      | nil => exact ⟨content, [], rfl⟩
      | cons p parts => exact ⟨p, parts ++ [content], rfl⟩
    rw [hrest] at ih
    rw [List.cons_append, hrest, spaced, List.intercalate_cons_cons, ← spaced, ih]
    simp

/-- The new text is what is left around the section, and the content behind it. -/
theorem Splits.replace_eq {content text : List Char} {before after : List (List Char)}
    (h : Splits (markerOf content) (linesOf text) before after) :
    replace content text = spaced (partsAround before after ++ [content]) := by
  rw [replace, h.kept_eq, spaced_concat]

/-- The lines of a part that is left are its lines, trimmed at both ends. -/
theorem filledLines_trim_joinLines {lines : List (List Char)} (h : ∀ line ∈ lines, '\n' ∉ line) :
    filledLines (trim (joinLines lines)) = trimEnds (lines.filter isFilled) := by
  rw [filledLines_trim]
  by_cases hne : lines = []
  · rw [hne]
    rfl
  · rw [filledLines, linesOf_joinLines hne h]

/-- Of the lines of a text that are not blank, those outside the section are the new text's, in
their order, and then those of the content. -/
theorem filledLines_spaced (before after : List (List Char)) (content : List Char)
    (hbefore : ∀ line ∈ before, '\n' ∉ line) (hafter : ∀ line ∈ after, '\n' ∉ line) :
    filledLines (spaced (partsAround before after ++ [content])) =
      trimEnds (before.filter isFilled) ++ trimEnds (after.filter isFilled) ++
        filledLines content := by
  have hgap : ∀ part rest : List Char, filledLines (part ++ ['\n', '\n'] ++ rest) =
      filledLines part ++ filledLines rest := by
    intro part rest
    have hassoc : part ++ ['\n', '\n'] ++ rest = part ++ '\n' :: ([] ++ '\n' :: rest) := by simp
    rw [hassoc, filledLines_append, filledLines_append, filledLines_nil, List.nil_append]
  have hflat : ∀ parts : List (List Char),
      filledLines ((parts.filter fun part => part != []).flatMap (· ++ ['\n', '\n']) ++ content) =
        parts.flatMap filledLines ++ filledLines content := by
    intro parts
    induction parts with
    | nil => rfl
    | cons part parts ih =>
      by_cases hpart : part = []
      · simpa [hpart] using ih
      · have hkeep : (part != []) = true := by simpa using hpart
        rw [List.filter_cons, if_pos hkeep, List.flatMap_cons, List.append_assoc, hgap, ih,
          List.flatMap_cons, List.append_assoc]
  rw [spaced_concat, partsAround, hflat, List.flatMap_cons, List.flatMap_cons, List.flatMap_nil,
    List.append_nil, filledLines_trim_joinLines hbefore, filledLines_trim_joinLines hafter]

theorem Splits.not_mem {marker text : List Char} {before after : List (List Char)}
    (h : Splits marker (linesOf text) before after) :
    (∀ line ∈ before, '\n' ∉ line) ∧ ∀ line ∈ after, '\n' ∉ line := by
  have hall : ∀ line ∈ linesOf text, '\n' ∉ line := fun line => not_mem_of_mem_linesOf
  generalize linesOf text = lines at h hall
  cases h with
  | absent => exact ⟨hall, fun _ h => nomatch h⟩
  | present =>
    constructor
    · exact fun line hline => hall line (List.mem_append_left _ hline)
    · intro line hline
      exact hall line (List.mem_append_right _ (.tail _ (List.mem_append_right _ hline)))

/-- Each line that stays in front of a new report is blank or a line outside the section, but for
blanks around it. -/
theorem Splits.exists_of_mem_kept {marker text line : List Char} {before after : List (List Char)}
    (h : Splits marker (linesOf text) before after) (hline : line ∈ linesOf (kept marker text)) :
    IsBlankText line ∨ ∃ line' ∈ before ++ after, trim line = trim line' := by
  by_cases hblank : IsBlankText line
  · exact .inl hblank
  · have hfilled : line ∈ filledLines (kept marker text) :=
      List.mem_filter.mpr ⟨hline, isFilled_eq_true_iff.mpr hblank⟩
    have hlines := filledLines_spaced before after [] h.not_mem.1 h.not_mem.2
    rw [spaced_concat, ← h.kept_eq, List.append_nil, filledLines_nil, List.append_nil] at hlines
    rw [hlines] at hfilled
    refine .inr ?_
    rcases List.mem_append.mp hfilled with hmem | hmem
    · obtain ⟨line', hline', htrim⟩ := exists_of_mem_trimEnds hmem
      exact ⟨line', List.mem_append_left _ (List.mem_of_mem_filter hline'), htrim⟩
    · obtain ⟨line', hline', htrim⟩ := exists_of_mem_trimEnds hmem
      exact ⟨line', List.mem_append_right _ (List.mem_of_mem_filter hline'), htrim⟩

end ImportAtlas.Section
