import ImportAtlas.Reference.Extract
import Mathlib.Data.List.Infix
import Mathlib.Data.List.TakeWhile

set_option autoImplicit false

/-!
# Where a form begins

Each form begins with a word of its own, and behind the word with an opening
parenthesis or, if it is no call, with a blank.  Where a text does not go on like
that the form cannot be read (`read?_eq_none_of_not_opens`), so a scan passes over
it: over text without the word, over text in which the form opens nowhere, and over
a filler in front of another form's word, even if a word lies across the seam.

Whatever a scan lists stands between two quotes of the text (`exists_of_mem_scan`).
-/

namespace ImportAtlas.Reference

open Text

/-! ## Plain and unquoted text -/

/-- The words that the forms of a code file start with. -/
def formWords : List String := ["import", "require", "lazy"]

/-- No such word stands in the text. -/
def IsPlain (text : List Char) : Prop :=
  ∀ word ∈ formWords, ¬ word.toList <:+: text

instance (text : List Char) : Decidable (IsPlain text) :=
  decidable_of_iff (formWords.all fun word => decide (¬ word.toList <:+: text))
    (by simp [IsPlain])

/-- A filler: text without the words of the forms. -/
abbrev Filler := { text : List Char // IsPlain text }

/-- No quote stands in the text. -/
def IsUnquoted (text : List Char) : Prop :=
  ∀ c ∈ text, isQuote c = false

instance (text : List Char) : Decidable (IsUnquoted text) :=
  decidable_of_iff (text.all fun c => !isQuote c) (by simp [IsUnquoted])

theorem isUnquoted_nil : IsUnquoted [] :=
  fun _ h => nomatch h

@[simp] theorem isUnquoted_append {a b : List Char} :
    IsUnquoted (a ++ b) ↔ IsUnquoted a ∧ IsUnquoted b :=
  List.forall_mem_append

theorem exists_first_quote {text : List Char} (h : ¬ IsUnquoted text) :
    ∃ before quote after, text = before ++ quote :: after ∧ IsUnquoted before ∧
      isQuote quote = true := by
  induction text with
  | nil => exact absurd isUnquoted_nil h
  | cons c text ih =>
    by_cases hc : isQuote c = true
    · exact ⟨[], c, text, rfl, isUnquoted_nil, hc⟩
    · have hrest : ¬ IsUnquoted text := fun hall =>
        h (List.forall_mem_cons.mpr ⟨by simpa using hc, hall⟩)
      obtain ⟨before, quote, after, rfl, hbefore, hquote⟩ := ih hrest
      exact ⟨c :: before, quote, after, rfl,
        List.forall_mem_cons.mpr ⟨by simpa using hc, hbefore⟩, hquote⟩

/-! ## Reading the pieces -/

theorem keyword?_eq_some_iff {word : String} {s r : List Char} :
    keyword? word s = some r ↔ word.toList ++ r = s :=
  List.isPrefixOf?_eq_some_iff_append_eq

theorem keyword?_append (word : String) (rest : List Char) :
    keyword? word (word.toList ++ rest) = some rest :=
  keyword?_eq_some_iff.mpr rfl

theorem keyword?_eq_none {word : String} {s : List Char} (h : ¬ word.toList <+: s) :
    keyword? word s = none := by
  cases hword : keyword? word s with
  | none => rfl
  | some rest => exact absurd ⟨rest, keyword?_eq_some_iff.mp hword⟩ h

theorem blanks_of_head {s : List Char} (h : ∀ c ∈ s.head?, isBlank c = false) : blanks s = s := by
  cases s with
  | nil => rfl
  | cons c cs => simp [blanks, h c rfl]

theorem blanks_append {gap rest : List Char} (hgap : ∀ c ∈ gap, isBlank c = true) :
    blanks (gap ++ rest) = blanks rest :=
  List.dropWhile_append_of_pos hgap

theorem blanks?_of_head {s : List Char} (h : ∀ c ∈ s.head?, isBlank c = false) :
    blanks? s = none := by
  cases s with
  | nil => rfl
  | cons c cs => simp [blanks?, h c rfl]

theorem blanks?_append {gap rest : List Char} (hgap : ∀ c ∈ gap, isBlank c = true)
    (hne : gap ≠ []) : blanks? (gap ++ rest) = some (blanks rest) := by
  obtain ⟨c, cs, rfl⟩ := List.exists_cons_of_ne_nil hne
  obtain ⟨hc, hcs⟩ := List.forall_mem_cons.mp hgap
  rw [List.cons_append, blanks?, if_pos hc, blanks_append hcs]

@[simp] theorem symbol?_cons (c : Char) (rest : List Char) : symbol? c (c :: rest) = some rest :=
  if_pos rfl

theorem symbol?_of_head {c : Char} {s : List Char} (h : ∀ d ∈ s.head?, d ≠ c) :
    symbol? c s = none := by
  cases s with
  | nil => rfl
  | cons d cs => exact if_neg (h d rfl)

theorem specifier?_of_closed {opening closing : Char} {body rest : List Char}
    (hopening : isQuote opening = true) (hbody : IsUnquoted body) (hne : body ≠ [])
    (hclosing : isQuote closing = true) :
    specifier? (opening :: (body ++ closing :: rest)) = some (body, rest) := by
  have hall : ∀ c ∈ body, (!isQuote c) = true := fun c hc => by rw [hbody c hc]; rfl
  obtain ⟨c, body, rfl⟩ := List.exists_cons_of_ne_nil hne
  rw [specifier?, if_pos hopening]
  simp only [List.takeWhile_append_of_pos hall, List.dropWhile_append_of_pos hall,
    List.takeWhile_cons, List.dropWhile_cons, hclosing, Bool.not_true, Bool.false_eq_true, if_false,
    List.append_nil]

theorem specifier?_of_unclosed {opening : Char} {text : List Char} (h : IsUnquoted text) :
    specifier? (opening :: text) = none := by
  have hall : ∀ c ∈ text, (!isQuote c) = true := fun c hc => by rw [h c hc]; rfl
  rw [specifier?]
  split
  · rw [List.dropWhile_eq_nil_iff.mpr hall]
    cases text.takeWhile fun c => !isQuote c <;> rfl
  · rfl

theorem specifier?_of_head {s : List Char} (h : ∀ c ∈ s.head?, isQuote c = false) :
    specifier? s = none := by
  cases s with
  | nil => rfl
  | cons c cs => simp [specifier?, h c rfl]

/-! ## The beginning of a form -/

namespace Form

/-- The word that a form begins with. -/
def word : Form → String
  | staticImport | dynamicImport => "import"
  | require => "require"
  | lazyImport => "lazy"
  | styleImport => "@import"
  | url => "url"

/-- Whether an opening parenthesis follows the word of the form; else a blank does. -/
def isCall : Form → Bool
  | require | dynamicImport | lazyImport | url => true
  | staticImport | styleImport => false

/-- Whether a form may begin at the front of a text: its word stands there and what follows the word
goes on as the form does. -/
def opens (form : Form) (s : List Char) : Bool :=
  match keyword? form.word s with
  | none => false
  | some s => if form.isCall then (symbol? '(' (blanks s)).isSome else (blanks? s).isSome

/-- The form begins nowhere in the text. -/
def IsSilent (form : Form) (text : List Char) : Prop :=
  ∀ back, back <:+ text → form.opens back = false

instance (form : Form) (text : List Char) : Decidable (form.IsSilent text) :=
  decidable_of_iff (text.tails.all fun back => !form.opens back) (by simp [IsSilent])

theorem read?_eq_none_of_not_opens {form : Form} {s : List Char} (h : form.opens s = false) :
    form.read? s = none := by
  unfold opens at h
  cases form with
  | staticImport | styleImport =>
    simp only [word, isCall, read?] at h ⊢
    cases hword : keyword? _ s with
    | none => rfl
    | some s =>
      simp only [hword, Bool.false_eq_true, if_false, Option.isSome_eq_false_iff,
        Option.isNone_iff_eq_none] at h
      simp [h]
  | require | dynamicImport | lazyImport | url =>
    simp only [word, isCall, read?, quotedCall?] at h ⊢
    cases hword : keyword? _ s with
    | none => rfl
    | some s =>
      simp only [hword, if_true, Option.isSome_eq_false_iff, Option.isNone_iff_eq_none] at h
      simp [h]

theorem opens_of_not_begun {form : Form} {s : List Char} (h : ¬ form.word.toList <+: s) :
    form.opens s = false := by
  rw [opens, keyword?_eq_none h]

theorem opens_word (form : Form) (rest : List Char) :
    form.opens (form.word.toList ++ rest) =
      if form.isCall then (symbol? '(' (blanks rest)).isSome else (blanks? rest).isSome := by
  rw [opens, keyword?_append]

/-- Behind the word of a form that opens there comes a blank or a parenthesis. -/
theorem opens_word_append {form : Form} {rest : List Char}
    (h : ∀ c ∈ rest.head?, isBlank c = false ∧ c ≠ '(') :
    form.opens (form.word.toList ++ rest) = false := by
  have hblanks : blanks rest = rest := blanks_of_head fun c hc => (h c hc).1
  rw [opens_word]
  cases form.isCall with
  | true => simp [hblanks, symbol?_of_head fun c hc => (h c hc).2]
  | false => simp [blanks?_of_head fun c hc => (h c hc).1]

/-! ## Passing over text -/

/-- The characters of a form's word are no blanks, quotes or marks. -/
theorem not_mem_word {form : Form} {c : Char}
    (h : isBlank c = true ∨ isQuote c = true ∨ c ∈ ['(', ')', '{', '}', '*', ',']) :
    c ∉ form.word.toList := by
  have hword : form.word.toList.all (fun d => !isBlank d && !isQuote d &&
      !(['(', ')', '{', '}', '*', ','].contains d)) = true := by
    cases form <;> decide +kernel
  intro hmem
  have hc := List.all_eq_true.mp hword c hmem
  simp only [Bool.and_eq_true, Bool.not_eq_true', List.contains_eq_mem,
    decide_eq_false_iff_not] at hc
  rcases h with h | h | h
  · rw [hc.1.1] at h; cases h
  · rw [hc.1.2] at h; cases h
  · exact hc.2 h

theorem exists_word_eq_cons (form : Form) : ∃ c cs, form.word.toList = c :: cs := by
  refine List.exists_cons_of_ne_nil ?_
  cases form <;> decide

/-- A word that the text does not begin with does not begin there and end behind: none of its
letters but the first may stand there. -/
theorem not_prefix_append {word plain rest : List Char} (hne : plain ≠ [])
    (hplain : ¬ word <+: plain) (hrest : ∀ c ∈ rest.head?, c ∉ word.tail) :
    ¬ word <+: plain ++ rest := by
  rintro ⟨more, hmore⟩
  rcases List.append_eq_append_iff.mp hmore with ⟨back, hback, -⟩ | ⟨front, hfront, hrest'⟩
  · exact hplain ⟨back, hback.symm⟩
  · cases front with
    | nil => exact hplain ⟨[], by rw [hfront, List.append_nil, List.append_nil]⟩
    | cons c front =>
      obtain ⟨first, plain, rfl⟩ := List.exists_cons_of_ne_nil hne
      refine hrest c (by rw [hrest']; exact rfl) ?_
      rw [hfront]
      exact List.mem_append_right _ List.mem_cons_self

/-- The scan passes over text at none of whose places the form can be read. -/
theorem scan_append_of_read {form : Form} {piece rest : List Char}
    (h : ∀ back, back <:+ piece → back ≠ [] → form.read? (back ++ rest) = none) :
    form.scan (piece ++ rest) = form.scan rest := by
  induction piece with
  | nil => rfl
  | cons c piece ih =>
    have hread := h (c :: piece) List.suffix_rfl (List.cons_ne_nil c piece)
    rw [List.cons_append] at hread ⊢
    rw [scan_cons_of_none hread]
    exact ih fun back hback => h back (hback.trans (List.suffix_cons c piece))

/-- The scan passes over text at none of whose places the form opens. -/
theorem scan_append_of_opens {form : Form} {piece rest : List Char}
    (h : ∀ back, back <:+ piece → back ≠ [] → form.opens (back ++ rest) = false) :
    form.scan (piece ++ rest) = form.scan rest :=
  scan_append_of_read fun back hback hne => read?_eq_none_of_not_opens (h back hback hne)

/-- The scan passes over text without the word. -/
theorem scan_append {form : Form} {plain rest : List Char}
    (hplain : ¬ form.word.toList <:+: plain)
    (hrest : ∀ c ∈ rest.head?, c ∉ form.word.toList.tail) :
    form.scan (plain ++ rest) = form.scan rest :=
  scan_append_of_opens fun _ hback hne => opens_of_not_begun
    (not_prefix_append hne (fun h => hplain (h.isInfix.trans hback.isInfix)) hrest)

/-- The scan finds nothing in a text without the word. -/
theorem scan_eq_nil {form : Form} {plain : List Char} (hplain : ¬ form.word.toList <:+: plain) :
    form.scan plain = [] := by
  have hscan : form.scan (plain ++ []) = form.scan [] := scan_append hplain (by simp)
  rwa [List.append_nil] at hscan

theorem scan_cons {form : Form} {c : Char} {text : List Char} (h : c ∉ form.word.toList) :
    form.scan (c :: text) = form.scan text := by
  refine scan_cons_of_none (read?_eq_none_of_not_opens (opens_of_not_begun ?_))
  obtain ⟨d, word, hword⟩ := form.exists_word_eq_cons
  rintro ⟨more, hmore⟩
  rw [hword, List.cons_append, List.cons.injEq] at hmore
  exact h (by rw [hword, hmore.1]; exact List.mem_cons_self)

theorem head_not_mem_tail {form : Form} {c : Char} (h : c ∉ form.word.toList) (rest : List Char) :
    ∀ d ∈ (c :: rest).head?, d ∉ form.word.toList.tail := by
  rintro d ⟨⟩ hd
  exact h (List.mem_of_mem_tail hd)

/-- The scan passes over characters that are not in the word. -/
theorem scan_append_of_not_mem {form : Form} {piece rest : List Char}
    (h : ∀ c ∈ piece, c ∉ form.word.toList) : form.scan (piece ++ rest) = form.scan rest := by
  induction piece with
  | nil => rfl
  | cons c piece ih =>
    obtain ⟨hc, hpiece⟩ := List.forall_mem_cons.mp h
    rw [List.cons_append, scan_cons hc, ih hpiece]

/-- The scan passes over the form's own word where the form cannot be read. -/
theorem scan_word_append {form : Form} {rest : List Char}
    (hread : form.read? (form.word.toList ++ rest) = none)
    (hrest : ∀ c ∈ rest.head?, c ∉ form.word.toList.tail) :
    form.scan (form.word.toList ++ rest) = form.scan rest := by
  obtain ⟨c, word, hword⟩ := form.exists_word_eq_cons
  have habsent : ¬ form.word.toList <:+: word := fun h => by
    have hlength := h.length_le
    rw [hword, List.length_cons] at hlength
    omega
  rw [hword, List.cons_append] at hread ⊢
  rw [scan_cons_of_none hread]
  exact scan_append habsent hrest

/-- A character that no form goes on with: neither a letter of the word nor a blank nor an opening
parenthesis. -/
def IsWall (form : Form) (c : Char) : Prop :=
  c ∉ form.word.toList ∧ isBlank c = false ∧ c ≠ '('

theorem isWall_of_isQuote {c : Char} (h : isQuote c = true) (form : Form) : form.IsWall c := by
  refine ⟨not_mem_word (.inr (.inl h)), ?_, ?_⟩
  · simp only [isQuote, Bool.or_eq_true, beq_iff_eq] at h
    rcases h with rfl | rfl <;> decide
  · rintro rfl
    exact absurd h (by decide)

/-- What stands behind a wall does not matter for what opens before it. -/
theorem opens_append_wall {form : Form} {c : Char} (hc : form.IsWall c) (s rest : List Char) :
    form.opens (s ++ c :: rest) = form.opens s := by
  obtain ⟨hword, hblank, hparenthesis⟩ := hc
  by_cases hbegun : form.word.toList <+: s
  · obtain ⟨r, rfl⟩ := hbegun
    have hblanks : blanks (r ++ c :: rest) = blanks r ++ c :: rest := by
      simp only [blanks, List.dropWhile_append, List.dropWhile_cons, hblank]
      split <;> simp_all
    rw [List.append_assoc, opens_word, opens_word]
    cases form.isCall with
    | true => cases hr : blanks r <;> simp [hblanks, hr, symbol?, hparenthesis, apply_ite]
    | false => cases r <;> simp [blanks?, hblank, apply_ite]
  · have hlonger : ¬ form.word.toList <+: s ++ c :: rest := by
      rintro ⟨more, hmore⟩
      rcases List.append_eq_append_iff.mp hmore with ⟨back, hback, -⟩ | ⟨front, hfront, hrest⟩
      · exact hbegun ⟨back, hback.symm⟩
      · cases front with
        | nil => exact hbegun ⟨[], by rw [hfront, List.append_nil, List.append_nil]⟩
        | cons d front =>
          have hcd : c = d := (List.cons.inj hrest).1
          exact hword (by rw [hfront, hcd]; simp)
    rw [opens_of_not_begun hbegun, opens_of_not_begun hlonger]

/-- The scan passes over text in which the form opens nowhere, up to a wall. -/
theorem scan_append_of_isSilent {form : Form} {piece : List Char} {c : Char} (rest : List Char)
    (hpiece : form.IsSilent piece) (hc : form.IsWall c) :
    form.scan (piece ++ c :: rest) = form.scan (c :: rest) :=
  scan_append_of_opens fun back hback _ => (opens_append_wall hc back rest).trans
    (hpiece back hback)

/-- A form opens nowhere in text without its word. -/
theorem isSilent_of_absent {form : Form} {text : List Char} (h : ¬ form.word.toList <:+: text) :
    form.IsSilent text :=
  fun _ hback => opens_of_not_begun fun hbegun => h (hbegun.isInfix.trans hback.isInfix)

/-- A call opens nowhere in text without an opening parenthesis. -/
theorem isSilent_of_no_parenthesis {form : Form} {text : List Char} (hcall : form.isCall = true)
    (h : '(' ∉ text) : form.IsSilent text := by
  intro back hback
  rw [opens]
  cases hword : keyword? form.word back with
  | none => rfl
  | some r =>
    have hopen : '(' ∉ blanks r := fun hmem => h (hback.mem (by
      rw [← keyword?_eq_some_iff.mp hword]
      exact List.mem_append_right _ (List.dropWhile_sublist _ |>.mem hmem)))
    have hsymbol : symbol? '(' (blanks r) = none := symbol?_of_head fun c hc hparenthesis =>
      hopen (hparenthesis ▸ List.mem_of_mem_head? hc)
    simp [hcall, hsymbol]

/-! ## Fillers -/

/-- A filler in front of the word of a form is passed over.  A word of the same kind of file may
begin in the filler and end in that word, but then a letter follows it. -/
theorem scan_filler_append {kind : SourceKind} {form other : Form} (hform : form ∈ forms kind)
    (hother : other ∈ forms kind) {filler : List Char} (hfiller : ¬ form.word.toList <:+: filler)
    (rest : List Char) :
    form.scan (filler ++ (other.word.toList ++ rest)) = form.scan (other.word.toList ++ rest) := by
  have hinner : ¬ other.word.toList <:+: form.word.toList.tail := by
    have hkinds : ∀ kind, ∀ form ∈ forms kind, ∀ other ∈ forms kind,
        ¬ other.word.toList <:+: form.word.toList.tail := by
      intro kind
      cases kind <;> decide +kernel
    exact hkinds kind form hform other hother
  refine scan_append_of_opens fun back hback hne => ?_
  have habsent : ¬ form.word.toList <:+: back := fun h => hfiller (h.trans hback.isInfix)
  cases hword : keyword? form.word (back ++ (other.word.toList ++ rest)) with
  | none => rw [opens, hword]
  | some r =>
    have hsplit := keyword?_eq_some_iff.mp hword
    rcases List.append_eq_append_iff.mp hsplit with ⟨more, hmore, -⟩ | ⟨front, hfront, hseam⟩
    · exact absurd ⟨[], more, by simp [hmore]⟩ habsent
    · -- the word ends inside the other word, for that does not fit into its tail
      obtain ⟨first, back, rfl⟩ := List.exists_cons_of_ne_nil hne
      have htail : form.word.toList.tail = back ++ front := by rw [hfront]; rfl
      rcases List.append_eq_append_iff.mp hseam with ⟨more, hmore, -⟩ | ⟨letters, hletters, hr⟩
      · exact absurd ⟨back, more, by rw [htail, hmore, List.append_assoc]⟩ hinner
      · cases letters with
        | nil =>
          rw [List.append_nil] at hletters
          exact absurd ⟨back, [], by rw [htail, hletters, List.append_nil]⟩ hinner
        | cons d letters =>
          have hd : d ∈ other.word.toList := by rw [hletters]; simp
          rw [← hsplit]
          refine opens_word_append ?_
          rw [hr]
          rintro c ⟨⟩
          exact ⟨by by_contra hblank; exact not_mem_word (.inl (by simpa using hblank)) hd,
            fun hparenthesis => not_mem_word (.inr (.inr (by simp [hparenthesis]))) hd⟩

end Form

/-! ## What a scan lists

Each reader leaves the end of what it was given, and every form ends with a specifier. -/

theorem keyword?_suffix {word : String} {s r : List Char} (h : keyword? word s = some r) :
    r <:+ s :=
  ⟨word.toList, keyword?_eq_some_iff.mp h⟩

theorem blanks_suffix (s : List Char) : blanks s <:+ s :=
  List.dropWhile_suffix _

theorem blanks?_suffix {s r : List Char} (h : blanks? s = some r) : r <:+ s := by
  cases s with
  | nil => cases h
  | cons c cs =>
    obtain ⟨-, hr⟩ := Option.ite_none_right_eq_some.mp h
    cases hr
    exact (blanks_suffix cs).trans (List.suffix_cons c cs)

theorem symbol?_suffix {c : Char} {s r : List Char} (h : symbol? c s = some r) : r <:+ s := by
  cases s with
  | nil => cases h
  | cons d cs =>
    obtain ⟨-, hr⟩ := Option.ite_none_right_eq_some.mp h
    cases hr
    exact List.suffix_cons d r

theorem name?_suffix {s r : List Char} (h : name? s = some r) : r <:+ s := by
  cases s with
  | nil => cases h
  | cons c cs =>
    obtain ⟨-, hr⟩ := Option.ite_none_right_eq_some.mp h
    cases hr
    exact (List.dropWhile_suffix _).trans (List.suffix_cons c cs)

theorem binding?_suffix {s r : List Char} (h : binding? s = some r) : r <:+ s := by
  unfold binding? at h
  split at h
  · cases h
  · exact (symbol?_suffix h).trans ((List.dropWhile_suffix _).trans (List.suffix_cons _ _))
  · simp only [Option.bind_eq_bind, Option.bind_eq_some_iff] at h
    obtain ⟨a, ha, b, hb, c, hc, hr⟩ := h
    exact (name?_suffix hr).trans ((blanks?_suffix hc).trans ((keyword?_suffix hb).trans
      ((blanks?_suffix ha).trans (List.suffix_cons _ _))))
  · exact name?_suffix h

theorem moreBindings?_suffix {s r : List Char} (h : moreBindings? s = some r) : r <:+ s := by
  fun_induction moreBindings? s with
  | case1 s hs =>
    cases h
    exact List.suffix_rfl
  | case2 s a hs hr => cases h
  | case3 s a hs t ht ih =>
    exact (ih h).trans ((binding?_suffix ht).trans ((blanks_suffix a).trans
      ((symbol?_suffix hs).trans (blanks_suffix s))))

theorem clause?_suffix {s r : List Char} (h : clause? s = some r) : r <:+ s := by
  simp only [clause?, Option.bind_eq_bind, Option.bind_eq_some_iff] at h
  obtain ⟨a, ha, b, hb, c, hc, d, hd, hr⟩ := h
  exact (blanks?_suffix hr).trans ((keyword?_suffix hd).trans ((blanks?_suffix hc).trans
    ((moreBindings?_suffix hb).trans (binding?_suffix ha))))

theorem afterComment?_suffix {s r : List Char} (h : afterComment? s = some r) : r <:+ s := by
  fun_induction afterComment? s with
  | case1 => cases h
  | case2 rest =>
    cases h
    exact ⟨['*', '/'], rfl⟩
  | case3 c rest _ ih => exact (ih h).trans (List.suffix_cons c rest)

theorem skipComment?_suffix {s r : List Char} (h : skipComment? s = some r) : r <:+ s := by
  unfold skipComment? at h
  split at h
  · cases h
    exact List.suffix_rfl
  · rename_i t ht
    obtain ⟨u, hu, rfl⟩ := Option.map_eq_some_iff.mp h
    exact (blanks_suffix u).trans ((afterComment?_suffix hu).trans (keyword?_suffix ht))

theorem exists_of_lastSpecifier? {s : List Char} {found : List Char × List Char}
    (h : lastSpecifier? s = some found) : ∃ back, back <:+ s ∧ specifier? back = some found := by
  induction s with
  | nil => cases h
  | cons c cs ih =>
    obtain ⟨-, h⟩ := Option.ite_none_left_eq_some.mp h
    cases hlater : lastSpecifier? cs with
    | none =>
      rw [hlater] at h
      exact ⟨c :: cs, List.suffix_rfl, h⟩
    | some later =>
      rw [hlater] at h
      obtain ⟨back, hback, hspecifier⟩ := ih (hlater.trans h)
      exact ⟨back, hback.trans (List.suffix_cons c cs), hspecifier⟩

theorem exists_of_quotedCall? {s body rest : List Char} (h : quotedCall? s = some (body, rest)) :
    ∃ back behind, back <:+ s ∧ specifier? back = some (body, behind) := by
  simp only [quotedCall?, Option.bind_eq_bind, Option.bind_eq_some_iff] at h
  obtain ⟨a, ha, ⟨found, behind⟩, hfound, b, -, hbody⟩ := h
  cases hbody
  exact ⟨a, behind, (symbol?_suffix ha).trans (blanks_suffix s), hfound⟩

/-- What a form reads is a specifier of the text. -/
theorem Form.exists_of_read? {form : Form} {s body rest : List Char}
    (h : form.read? s = some (body, rest)) :
    ∃ back behind, back <:+ s ∧ specifier? back = some (body, behind) := by
  cases form with
  | staticImport =>
    simp only [read?, Option.bind_eq_bind, Option.bind_eq_some_iff] at h
    obtain ⟨a, ha, b, hb, h⟩ := h
    have hb := (blanks?_suffix hb).trans (keyword?_suffix ha)
    split at h
    · rename_i c hc
      exact ⟨c, rest, (clause?_suffix hc).trans hb, h⟩
    · exact ⟨b, rest, hb, h⟩
  | require | url =>
    simp only [read?, Option.bind_eq_bind, Option.bind_eq_some_iff] at h
    obtain ⟨a, ha, h⟩ := h
    obtain ⟨back, behind, hback, hspecifier⟩ := exists_of_quotedCall? h
    exact ⟨back, behind, hback.trans (keyword?_suffix ha), hspecifier⟩
  | dynamicImport =>
    simp only [read?, Option.bind_eq_bind, Option.bind_eq_some_iff] at h
    obtain ⟨a, ha, b, hb, h⟩ := h
    obtain ⟨back, hback, hspecifier⟩ := exists_of_lastSpecifier? h
    exact ⟨back, rest, hback.trans ((symbol?_suffix hb).trans ((blanks_suffix a).trans
      (keyword?_suffix ha))), hspecifier⟩
  | lazyImport =>
    simp only [read?, Option.bind_eq_bind, Option.bind_eq_some_iff] at h
    obtain ⟨a, ha, b, hb, c, hc, d, hd, e, he, f, hf, g, hg, h⟩ := h
    refine ⟨g, rest, ?_, h⟩
    exact (skipComment?_suffix hg).trans ((symbol?_suffix hf).trans ((blanks_suffix e).trans
      ((keyword?_suffix he).trans ((blanks_suffix d).trans ((keyword?_suffix hd).trans
      ((blanks_suffix c).trans ((keyword?_suffix hc).trans ((blanks_suffix b).trans
      ((symbol?_suffix hb).trans ((blanks_suffix a).trans (keyword?_suffix ha)))))))))))
  | styleImport =>
    simp only [read?, Option.bind_eq_bind, Option.bind_eq_some_iff] at h
    obtain ⟨a, ha, b, hb, h⟩ := h
    exact ⟨b, rest, (blanks?_suffix hb).trans (keyword?_suffix ha), h⟩

theorem exists_of_specifier? {s body rest : List Char} (h : specifier? s = some (body, rest)) :
    ∃ opening behind, s = opening :: behind ∧ isQuote opening = true ∧ body <+: behind := by
  cases s with
  | nil => cases h
  | cons q cs =>
    rw [specifier?] at h
    obtain ⟨hquote, h⟩ := Option.ite_none_right_eq_some.mp h
    refine ⟨q, cs, rfl, hquote, ?_⟩
    simp only at h
    split at h
    · cases h
      exact List.takeWhile_prefix _
    · cases h

theorem exists_of_mem_scanFrom {read? : List Char → Option (List Char × List Char)} {skip : Nat}
    {text : List Char} {reference : String} (h : reference ∈ scanFrom read? skip text) :
    ∃ back body rest, back <:+ text ∧ read? back = some (body, rest) ∧
      reference = String.ofList body := by
  induction text generalizing skip with
  | nil => cases skip <;> simp [scanFrom] at h
  | cons c cs ih =>
    have hlater : ∀ skip, reference ∈ scanFrom read? skip cs →
        ∃ back body rest, back <:+ c :: cs ∧ read? back = some (body, rest) ∧
          reference = String.ofList body := fun skip h => by
      obtain ⟨back, body, rest, hback, hfound⟩ := ih h
      exact ⟨back, body, rest, hback.trans (List.suffix_cons c cs), hfound⟩
    cases skip with
    | succ skip => exact hlater skip h
    | zero =>
      rw [scanFrom] at h
      split at h
      · rename_i body rest hread
        rcases List.mem_cons.mp h with h | h
        · exact ⟨c :: cs, body, rest, List.suffix_rfl, hread, h⟩
        · exact hlater _ h
      · exact hlater 0 h

/-- Whatever a scan lists stands behind a quote. -/
theorem Form.exists_of_mem_scan {form : Form} {text : List Char} {reference : String}
    (h : reference ∈ form.scan text) :
    ∃ before quote behind, text = before ++ quote :: behind ∧ isQuote quote = true ∧
      reference.toList <+: behind := by
  obtain ⟨back, body, rest, ⟨before, hbefore⟩, hread, rfl⟩ := exists_of_mem_scanFrom h
  obtain ⟨inner, behind, ⟨between, hbetween⟩, hspecifier⟩ := form.exists_of_read? hread
  obtain ⟨quote, behind, rfl, hquote, hbody⟩ := exists_of_specifier? hspecifier
  refine ⟨before ++ between, quote, behind, ?_, hquote, ?_⟩
  · rw [List.append_assoc, hbetween, hbefore]
  · rwa [String.toList_ofList]

end ImportAtlas.Reference
