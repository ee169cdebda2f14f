import ImportAtlas.Text.Blank
import Mathlib.Data.List.DropRight
import Mathlib.Data.List.Infix

set_option autoImplicit false

/-!
# What trimming leaves

A text is tight when it neither begins nor ends with a blank.  Trimming takes
away blanks at both ends and leaves a tight text, and of a tight text with blanks
around it nothing else is left (`trim_eq_of_tight`); so every law of trimming
follows from how a text is put together.
-/

namespace ImportAtlas.Text

/-- The text is made of blanks. -/
def IsBlankText (s : List Char) : Prop :=
  ∀ c ∈ s, isBlank c = true

/-- The text neither begins nor ends with a blank. -/
structure IsTight (s : List Char) : Prop where
  first : ∀ c ∈ s.head?, isBlank c = false
  last : ∀ c ∈ s.getLast?, isBlank c = false

@[simp] theorem isBlankText_nil : IsBlankText [] :=
  fun _ h => nomatch h

@[simp] theorem isBlankText_append {a b : List Char} :
    IsBlankText (a ++ b) ↔ IsBlankText a ∧ IsBlankText b :=
  List.forall_mem_append

@[simp] theorem isBlankText_cons {c : Char} {s : List Char} :
    IsBlankText (c :: s) ↔ isBlank c = true ∧ IsBlankText s :=
  List.forall_mem_cons

theorem isTight_nil : IsTight [] :=
  ⟨(fun _ h => nomatch h), (fun _ h => nomatch h)⟩

/-! ## Trimming one end -/

theorem trimStart_of_blank {a : List Char} (h : IsBlankText a) (s : List Char) :
    trimStart (a ++ s) = trimStart s :=
  List.dropWhile_append_of_pos h

theorem trimEnd_of_blank {b : List Char} (h : IsBlankText b) (s : List Char) :
    trimEnd (s ++ b) = trimEnd s := by
  have hreverse : ∀ c ∈ b.reverse, isBlank c = true := fun c hc => h c (List.mem_reverse.mp hc)
  simp only [trimEnd, dropEndWhile, List.reverse_append, List.dropWhile_append_of_pos hreverse]

theorem trimStart_eq_self {s : List Char} (h : ∀ c ∈ s.head?, isBlank c = false) :
    trimStart s = s := by
  cases s with
  | nil => rfl
  | cons c s => exact List.dropWhile_cons_of_neg (by simp [h c rfl])

theorem trimEnd_eq_self {s : List Char} (h : ∀ c ∈ s.getLast?, isBlank c = false) :
    trimEnd s = s := by
  have hreverse : trimStart s.reverse = s.reverse :=
    trimStart_eq_self fun c hc => h c (by simpa using hc)
  have hunfold : trimEnd s = (trimStart s.reverse).reverse := rfl
  rw [hunfold, hreverse, List.reverse_reverse]

/-- What is cut off at the front is blank, and no blank is left there. -/
theorem exists_trimStart (s : List Char) :
    ∃ a, s = a ++ trimStart s ∧ IsBlankText a ∧ ∀ c ∈ (trimStart s).head?, isBlank c = false := by
  refine ⟨s.takeWhile isBlank, List.takeWhile_append_dropWhile.symm, ?_, ?_⟩
  · exact fun c hc => List.mem_takeWhile_imp hc
  · intro c hc
    have := List.head?_dropWhile_not isBlank s
    rw [trimStart] at hc
    rw [hc] at this
    simpa using this

theorem exists_trimEnd (s : List Char) :
    ∃ b, s = trimEnd s ++ b ∧ IsBlankText b ∧ ∀ c ∈ (trimEnd s).getLast?, isBlank c = false := by
  obtain ⟨a, hs, ha, hfirst⟩ := exists_trimStart s.reverse
  have hunfold : trimEnd s = (trimStart s.reverse).reverse := rfl
  refine ⟨a.reverse, ?_, fun c hc => ha c (List.mem_reverse.mp hc), fun c hc => hfirst c ?_⟩
  · rw [hunfold, ← List.reverse_append, ← hs, List.reverse_reverse]
  · rw [hunfold] at hc
    simpa using hc

/-- Behind a character that is no blank the text stays as it is. -/
theorem trimStart_append {a : List Char} (h : ¬ IsBlankText a) (s : List Char) :
    trimStart (a ++ s) = trimStart a ++ s := by
  have hne : ¬ (a.dropWhile isBlank).isEmpty = true := fun hempty =>
    h (List.dropWhile_eq_nil_iff.mp (List.isEmpty_iff.mp hempty))
  rw [trimStart, List.dropWhile_append, if_neg hne, trimStart]

theorem trimEnd_append {b : List Char} (h : ¬ IsBlankText b) (s : List Char) :
    trimEnd (s ++ b) = s ++ trimEnd b := by
  have hreverse : ¬ IsBlankText b.reverse :=
    fun hall => h fun c hc => hall c (List.mem_reverse.mpr hc)
  have hunfold : ∀ t, trimEnd t = (trimStart t.reverse).reverse := fun _ => rfl
  rw [hunfold, hunfold, List.reverse_append, trimStart_append hreverse, List.reverse_append,
    List.reverse_reverse]

/-! ## Trimming both ends -/

/-- A tight text with blanks around it is what trimming leaves. -/
theorem trim_eq_of_tight {a s b : List Char} (ha : IsBlankText a) (hs : IsTight s)
    (hb : IsBlankText b) : trim (a ++ s ++ b) = s := by
  have hstart : trimStart (a ++ s ++ b) = trimStart (s ++ b) := by
    rw [List.append_assoc, trimStart_of_blank ha]
  cases s with
  | nil =>
    have hnil : trimStart b = [] := List.dropWhile_eq_nil_iff.mpr hb
    rw [trim, hstart, List.nil_append, hnil]
    rfl
  | cons c s =>
    have hfirst : trimStart ((c :: s) ++ b) = (c :: s) ++ b :=
      trimStart_eq_self fun d hd => hs.first d hd
    rw [trim, hstart, hfirst, trimEnd_of_blank hb, trimEnd_eq_self hs.last]

theorem isTight_trim (s : List Char) : IsTight (trim s) := by
  obtain ⟨a, -, -, hfirst⟩ := exists_trimStart s
  obtain ⟨b, hsplit, -, hlast⟩ := exists_trimEnd (trimStart s)
  refine ⟨fun c hc => hfirst c ?_, hlast⟩
  rw [hsplit]
  change c ∈ (trimEnd (trimStart s)).head? at hc
  cases hend : trimEnd (trimStart s) with
  | nil => rw [hend] at hc; cases hc
  | cons d rest => rw [hend] at hc; exact hc

/-- Trimming cuts blanks off at both ends. -/
theorem exists_trim (s : List Char) :
    ∃ a b, s = a ++ trim s ++ b ∧ IsBlankText a ∧ IsBlankText b := by
  obtain ⟨a, hs, ha, -⟩ := exists_trimStart s
  obtain ⟨b, hsplit, hb, -⟩ := exists_trimEnd (trimStart s)
  refine ⟨a, b, ?_, ha, hb⟩
  rw [List.append_assoc]
  exact hs.trans (congrArg (a ++ ·) hsplit)

theorem trim_of_tight {s : List Char} (h : IsTight s) : trim s = s := by
  simpa using trim_eq_of_tight isBlankText_nil h isBlankText_nil

@[simp] theorem trim_trim (s : List Char) : trim (trim s) = trim s :=
  trim_of_tight (isTight_trim s)

theorem trim_eq_nil_iff {s : List Char} : trim s = [] ↔ IsBlankText s := by
  constructor
  · intro h
    obtain ⟨a, b, hs, ha, hb⟩ := exists_trim s
    rw [h, List.append_nil] at hs
    rw [hs]
    exact isBlankText_append.mpr ⟨ha, hb⟩
  · intro h
    simpa using trim_eq_of_tight h isTight_nil isBlankText_nil

/-- Blanks around a text are cut off with its own. -/
theorem trim_around {a s b : List Char} (ha : IsBlankText a) (hb : IsBlankText b) :
    trim (a ++ s ++ b) = trim s := by
  obtain ⟨a', b', hs, ha', hb'⟩ := exists_trim s
  have hassoc : a ++ s ++ b = (a ++ a') ++ trim s ++ (b' ++ b) := by
    conv_lhs => rw [hs]
    simp only [List.append_assoc]
  rw [hassoc]
  exact trim_eq_of_tight (isBlankText_append.mpr ⟨ha, ha'⟩) (isTight_trim s)
    (isBlankText_append.mpr ⟨hb', hb⟩)

theorem trim_trimStart (s : List Char) : trim (trimStart s) = trim s := by
  obtain ⟨a, hs, ha, -⟩ := exists_trimStart s
  have h := trim_around ha isBlankText_nil (s := trimStart s)
  rw [List.append_nil, ← hs] at h
  exact h.symm

theorem trim_trimEnd (s : List Char) : trim (trimEnd s) = trim s := by
  obtain ⟨b, hs, hb, -⟩ := exists_trimEnd s
  have h := trim_around isBlankText_nil hb (s := trimEnd s)
  rw [List.nil_append, ← hs] at h
  exact h.symm

/-- A text cut at its end is what trimming leaves, behind blanks. -/
theorem exists_trimEnd_eq (s : List Char) : ∃ a, trimEnd s = a ++ trim s ∧ IsBlankText a := by
  obtain ⟨a, hend, ha, hfirst⟩ := exists_trimStart (trimEnd s)
  obtain ⟨b, hs, hb, hlast⟩ := exists_trimEnd s
  have htight : IsTight (trimStart (trimEnd s)) := by
    refine ⟨hfirst, fun c hc => hlast c ?_⟩
    rw [hend, List.getLast?_append, hc]
    rfl
  have htrim : trim s = trimStart (trimEnd s) := by
    have h := trim_eq_of_tight ha htight hb
    rwa [← hend, ← hs] at h
  exact ⟨a, htrim ▸ hend, ha⟩

theorem exists_trimStart_eq (s : List Char) : ∃ b, trimStart s = trim s ++ b ∧ IsBlankText b := by
  obtain ⟨b, hs, hb, -⟩ := exists_trimEnd (trimStart s)
  exact ⟨b, hs, hb⟩

/-- Two tight texts with a blank line between them are a tight text. -/
theorem IsTight.join {a b : List Char} (ha : IsTight a) (hb : IsTight b) (gap : List Char)
    (hane : a ≠ []) (hbne : b ≠ []) : IsTight (a ++ gap ++ b) where
  first := by
    obtain ⟨c, a, rfl⟩ := List.exists_cons_of_ne_nil hane
    exact fun d hd => ha.first d hd
  last := by
    intro c hc
    rw [List.getLast?_append_of_ne_nil _ hbne] at hc
    exact hb.last c hc

/-- A text without blanks is tight. -/
theorem isTight_of_filled {s : List Char} (h : ∀ c ∈ s, isBlank c = false) : IsTight s where
  first := fun c hc => h c (List.mem_of_mem_head? hc)
  last := fun c hc => h c (List.mem_of_getLast? hc)

/-- Characters that are no blanks around a tight text leave it tight. -/
theorem IsTight.within {a s b : List Char} (ha : ∀ c ∈ a, isBlank c = false) (hs : IsTight s)
    (hb : ∀ c ∈ b, isBlank c = false) : IsTight (a ++ s ++ b) where
  first := by
    intro c hc
    simp only [List.head?_append, Option.mem_def, Option.or_eq_some_iff] at hc
    rcases hc with (hc | ⟨-, hc⟩) | ⟨-, hc⟩
    · exact ha c (List.mem_of_mem_head? hc)
    · exact hs.first c hc
    · exact hb c (List.mem_of_mem_head? hc)
  last := by
    intro c hc
    simp only [List.getLast?_append, Option.mem_def, Option.or_eq_some_iff] at hc
    rcases hc with hc | ⟨-, hc | ⟨-, hc⟩⟩
    · exact hb c (List.mem_of_getLast? hc)
    · exact hs.last c hc
    · exact ha c (List.mem_of_getLast? hc)

end ImportAtlas.Text
