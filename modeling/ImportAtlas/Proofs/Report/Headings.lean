import ImportAtlas.Proofs.Report.LastUpdate

set_option autoImplicit false

/-!
# Headings inside a text

A text that is shown in a document may bring a heading into it: a line end of
either kind with a number sign and a space behind it (`HasInnerHeading`).  These
are the lines behind the first that begin so when the document is read
(`exists_tail_line_iff`).  Where two texts meet, no heading arises if the one
ends, or the other begins, with a character that a heading has not there
(`hasInnerHeading_append`).
-/

namespace ImportAtlas.Section

open Text

/-- A line end of the text has a number sign and a space behind it. -/
def HasInnerHeading (text : List Char) : Prop :=
  ['\n', '#', ' '] <:+: text ∨ ['\r', '#', ' '] <:+: text

instance (text : List Char) : Decidable (HasInnerHeading text) :=
  inferInstanceAs (Decidable (_ ∨ _))

variable {a b text : List Char} {c : Char}

@[simp] theorem hasInnerHeading_nil : ¬ HasInnerHeading [] := by
  decide

@[simp] theorem hasInnerHeading_cons : HasInnerHeading (c :: text) ↔
    ((c = '\n' ∨ c = '\r') ∧ ['#', ' '] <+: text) ∨ HasInnerHeading text := by
  simp only [HasInnerHeading, List.infix_cons_iff, List.cons_prefix_cons, eq_comm (b := c)]
  tauto

theorem not_hasInnerHeading_of_not_mem (hn : '\n' ∉ text) (hr : '\r' ∉ text) :
    ¬ HasInnerHeading text := by
  rintro (h | h)
  · exact hn (h.subset (by decide))
  · exact hr (h.subset (by decide))

/-- No heading lies across the place where the texts meet. -/
def IsJoint (a b : List Char) : Prop :=
  (∀ c ∈ a.getLast?, c ∉ ['\n', '\r', '#']) ∨ ∀ c ∈ b.head?, c ∉ ['#', ' ']

/-- What two texts bring into a document together each of them brings alone. -/
theorem hasInnerHeading_append (h : IsJoint a b) :
    HasInnerHeading (a ++ b) ↔ HasInnerHeading a ∨ HasInnerHeading b := by
  induction a with
  | nil => simp [hasInnerHeading_nil]
  | cons c a ih =>
    cases a with
    | nil =>
      have hstart : ¬ ((c = '\n' ∨ c = '\r') ∧ ['#', ' '] <+: b) := by
        rintro ⟨hc, rest, rfl⟩
        rcases h with h | h
        · simp at h; tauto
        · simp at h
      simp [hasInnerHeading_cons, hstart, hasInnerHeading_nil]
    | cons d a =>
      have hrest : IsJoint (d :: a) b := by simpa [IsJoint] using h
      have hstart : ['#', ' '] <+: d :: a ++ b ↔ ['#', ' '] <+: d :: a := by
        cases a with
        | nil =>
          -- the sign would end the one text and the space begin the other
          simp only [List.cons_append, List.nil_append, List.cons_prefix_cons, List.prefix_nil,
            List.cons_ne_nil, and_false, iff_false, not_and]
          rintro rfl ⟨rest, rfl⟩
          rcases hrest with hrest | hrest <;> simp at hrest
        | cons e a => simp [List.cons_prefix_cons]
      rw [List.cons_append, hasInnerHeading_cons, hasInnerHeading_cons, hstart, ih hrest, or_assoc]

/-- Behind a text without line ends nothing else has changed. -/
theorem hasInnerHeading_append_of_plain (ha : ∀ c ∈ a, c ∉ ['\n', '\r', '#']) (b : List Char) :
    HasInnerHeading (a ++ b) ↔ HasInnerHeading b := by
  have hplain : ¬ HasInnerHeading a :=
    not_hasInnerHeading_of_not_mem (fun h => ha _ h (by decide)) (fun h => ha _ h (by decide))
  rw [hasInnerHeading_append (.inl fun c hc => ha c (List.mem_of_getLast? hc))]
  exact or_iff_right hplain

/-- A heading does not go on with another character than its own. -/
@[simp] theorem hasInnerHeading_append_cons (hsign : c ≠ '#') (hspace : c ≠ ' ') (a b : List Char) :
    HasInnerHeading (a ++ c :: b) ↔ HasInnerHeading a ∨ HasInnerHeading (c :: b) :=
  hasInnerHeading_append (.inr (by simp [hsign, hspace]))

/-! ## Joined lines -/

/-- A line end stands between two lines, so what the text has was in one of them, or begins one. -/
theorem hasInnerHeading_joinLines (first : List Char) (rest : List (List Char)) :
    HasInnerHeading (joinLines (first :: rest)) ↔
      HasInnerHeading first ∨ ∃ line ∈ rest, HasInnerHeading ('\n' :: line) := by
  induction rest generalizing first with
  | nil => simp [joinLines]
  | cons second rest ih =>
    have hjoint : IsJoint first ('\n' :: joinLines (second :: rest)) := .inr (by simp)
    have hhead : '\n' :: joinLines (second :: rest) = joinLines (('\n' :: second) :: rest) := by
      cases rest <;> simp [joinLines, List.intercalate_cons_cons]
    rw [joinLines_cons_cons, hasInnerHeading_append hjoint, hhead, ih, List.exists_mem_cons_iff]

/-! ## The lines of the document -/

/-- A text begins as the part before a character does, for a start without the character. -/
theorem prefix_append_cons {stop : Char} {start : List Char} (h : stop ∉ start)
    (line rest : List Char) : start <+: line ++ stop :: rest ↔ start <+: line := by
  induction line generalizing start with
  | nil =>
    cases start with
    | nil => simp
    | cons c start =>
      have hc : c ≠ stop := fun heq => h (heq ▸ List.mem_cons_self)
      simp [List.cons_prefix_cons, hc]
  | cons d line ih =>
    cases start with
    | nil => simp
    | cons c start =>
      have hrest : stop ∉ start := fun hmem => h (List.mem_cons_of_mem _ hmem)
      simp only [List.cons_append, List.cons_prefix_cons, ih hrest]

/-- What stands behind a line end stands behind the first one or in the rest. -/
theorem infix_append_line_end {start line : List Char} (hline : '\n' ∉ line) (rest : List Char) :
    '\n' :: start <:+: line ++ '\n' :: rest ↔ '\n' :: start <:+: '\n' :: rest := by
  induction line with
  | nil => rfl
  | cons c line ih =>
    obtain ⟨hc, hline⟩ := not_or.mp (mt List.mem_cons.mpr hline)
    rw [List.cons_append, List.infix_cons_iff, List.cons_prefix_cons, ih hline]
    exact or_iff_right fun h => hc h.1

/-- A line begins so when the text does, or when a line end stands before it. -/
theorem exists_line_iff {start : List Char} (hstart : '\n' ∉ start) (text : List Char) :
    (∃ line ∈ linesOf text, start <+: line) ↔ '\n' :: start <:+: '\n' :: text := by
  induction hlength : text.length using Nat.strong_induction_on generalizing text with
  | _ n ih =>
    subst hlength
    rcases line_cases text with hone | ⟨first, rest, rfl, hfirst, hlines⟩
    · have hnone : ¬ '\n' :: start <:+: text := fun h => hone (h.subset List.mem_cons_self)
      rw [linesOf_of_not_mem hone, List.infix_cons_iff, List.cons_prefix_cons]
      simp [hnone]
    · have hrest : rest.length < (first ++ '\n' :: rest).length := by simp; omega
      have hsplit : '\n' :: start <:+: '\n' :: (first ++ '\n' :: rest) ↔
          start <+: first ∨ '\n' :: start <:+: '\n' :: rest := by
        rw [List.infix_cons_iff, List.cons_prefix_cons, prefix_append_cons hstart,
          infix_append_line_end hfirst]
        simp
      rw [hlines, List.exists_mem_cons_iff, ih rest.length hrest rest rfl, hsplit]

/-- Of the lines behind the first one begins so when a line end stands before it. -/
theorem exists_tail_line_iff {start : List Char} (hstart : '\n' ∉ start) (text : List Char) :
    (∃ line ∈ (linesOf text).tail, start <+: line) ↔ '\n' :: start <:+: text := by
  rcases line_cases text with hone | ⟨first, rest, rfl, hfirst, hlines⟩
  · have hnone : ¬ '\n' :: start <:+: text := fun h => hone (h.subset List.mem_cons_self)
    simp [linesOf_of_not_mem hone, hnone]
  · rw [hlines, List.tail_cons, exists_line_iff hstart, infix_append_line_end hfirst]

/-- Reading changes line ends only, so a text begins with other characters when it is read so. -/
theorem cons_prefix_unifyLineEnds (hn : c ≠ '\n') (hr : c ≠ '\r') (start text : List Char) :
    c :: start <+: unifyLineEnds text ↔
      ∃ rest, text = c :: rest ∧ start <+: unifyLineEnds rest := by
  fun_cases unifyLineEnds text with
  | case1 => simp
  | case2 rest => simp [List.cons_prefix_cons, hn, Ne.symm hr]
  | case3 d rest hother =>
    by_cases hd : d = '\r'
    · simp [List.cons_prefix_cons, hd, hn, Ne.symm hr]
    · simp only [hd, if_false, List.cons_prefix_cons, List.cons.injEq]
      constructor
      · rintro ⟨rfl, h⟩
        exact ⟨rest, ⟨rfl, rfl⟩, h⟩
      · rintro ⟨_, ⟨rfl, rfl⟩, h⟩
        exact ⟨rfl, h⟩

theorem heading_prefix_unifyLineEnds (text : List Char) :
    ['#', ' '] <+: unifyLineEnds text ↔ ['#', ' '] <+: text := by
  simp only [cons_prefix_unifyLineEnds (by decide : '#' ≠ '\n') (by decide),
    cons_prefix_unifyLineEnds (by decide : ' ' ≠ '\n') (by decide), List.nil_prefix, and_true]
  constructor
  · rintro ⟨_, rfl, rest, rfl⟩
    exact List.prefix_append ['#', ' '] rest
  · rintro ⟨rest, rfl⟩
    exact ⟨_, rfl, rest, rfl⟩

/-- Either line end is read as a line feed. -/
theorem infix_unifyLineEnds (text : List Char) :
    ['\n', '#', ' '] <:+: unifyLineEnds text ↔ HasInnerHeading text := by
  induction text using unifyLineEnds.induct with
  | case1 => simp [unifyLineEnds, HasInnerHeading]
  | case2 rest ih =>
    rw [unifyLineEnds, List.infix_cons_iff, List.cons_prefix_cons, ih,
      heading_prefix_unifyLineEnds, hasInnerHeading_cons, hasInnerHeading_cons]
    simp [List.cons_prefix_cons]
  | case3 d rest hother ih =>
    have hstep : unifyLineEnds (d :: rest) =
        (if d = '\r' then '\n' else d) :: unifyLineEnds rest := by
      rw [unifyLineEnds]
      exact hother
    rw [hstep, List.infix_cons_iff, List.cons_prefix_cons, ih, heading_prefix_unifyLineEnds,
      hasInnerHeading_cons]
    by_cases hd : d = '\r' <;> simp [hd, eq_comm]

/-- A document has a heading behind its first line when the text has one inside. -/
theorem exists_heading_iff (text : List Char) :
    (∃ line ∈ (linesOf (unifyLineEnds text)).tail, ['#', ' '] <+: line) ↔
      HasInnerHeading text := by
  rw [exists_tail_line_iff (by decide), infix_unifyLineEnds]

end ImportAtlas.Section
