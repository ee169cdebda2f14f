import ImportAtlas.Proofs.Reference.Scanning

set_option autoImplicit false

/-!
# Dynamic imports in a script

A script is filler text with complete dynamic import calls in it.  The reader of
the dynamic form looks for the last specifier that starts before the closing
parenthesis of a call, and the closing quote of the call's own specifier starts
one as soon as any quote stands behind the call.  So a call yields its specifier
exactly when no quote follows it, and of all calls of a script at most the last
one is found.
-/

namespace ImportAtlas.Reference

open Text

/-! ## Scripts -/

/-- A comment before a specifier, with the blanks behind it. -/
structure Comment where
  body : List Char
  gap : List Char
  body_unquoted : IsUnquoted body
  body_open : ')' ∉ body
  gap_blank : ∀ c ∈ gap, isBlank c = true

def Comment.text (comment : Comment) : List Char :=
  "/*".toList ++ comment.body ++ "*/".toList ++ comment.gap

/-- A complete dynamic import call. -/
structure DynamicCall where
  comment : Option Comment
  quote : Char
  specifier : List Char
  isQuote_quote : isQuote quote = true
  specifier_ne_nil : specifier ≠ []
  specifier_unquoted : IsUnquoted specifier
  specifier_bare : '(' ∉ specifier ∧ ')' ∉ specifier
  specifier_plain : IsPlain specifier

namespace DynamicCall

/-- The text between the opening parenthesis and the specifier. -/
def lead (call : DynamicCall) : List Char :=
  match call.comment with
  | none => []
  | some comment => comment.text

/-- The call up to its closing quote. -/
def quoted (call : DynamicCall) : List Char :=
  "import".toList ++ '(' :: (call.lead ++ call.quote :: (call.specifier ++ [call.quote]))

def text (call : DynamicCall) : List Char :=
  call.quoted ++ [')']

end DynamicCall

/-- The text of calls, each with the filler behind it. -/
def callsText : List (DynamicCall × Filler) → List Char
  | [] => []
  | (call, filler) :: rest => call.text ++ (filler.val ++ callsText rest)

/-- Fillers and calls in turn.  Neighbouring fillers count as one, since a word may lie across
them. -/
structure Script where
  lead : Filler
  calls : List (DynamicCall × Filler)

namespace Script

def text (script : Script) : List Char :=
  script.lead.val ++ callsText script.calls

/-- The specifiers of the calls, in source order. -/
def specifiers (script : Script) : List String :=
  script.calls.map fun block => String.ofList block.1.specifier

end Script

/-- No quote stands anywhere behind a call. -/
def Undisturbed : List (DynamicCall × Filler) → Prop
  | [] => True
  | (_, filler) :: rest => IsUnquoted (filler.val ++ callsText rest) ∧ Undisturbed rest

/-! ## Reading a call -/

/-- No specifier starts in text without quotes, so the last one starts behind it. -/
theorem lastSpecifier?_append {before text : List Char} (hunquoted : IsUnquoted before)
    (hopen : ')' ∉ before) : lastSpecifier? (before ++ text) = lastSpecifier? text := by
  induction before with
  | nil => rfl
  | cons c before ih =>
    have hc : c ≠ ')' := fun h => hopen (h ▸ List.mem_cons_self)
    obtain ⟨hquote, hunquoted⟩ := List.forall_mem_cons.mp hunquoted
    rw [List.cons_append, lastSpecifier?, if_neg hc, specifier?_of_head (by simpa using hquote),
      ih hunquoted (fun h => hopen (List.mem_cons_of_mem _ h))]
    cases lastSpecifier? text <;> rfl

/-- Behind the word and the parenthesis, the last specifier is looked for. -/
theorem read?_import (text : List Char) :
    Form.dynamicImport.read? ("import".toList ++ '(' :: text) = lastSpecifier? text := by
  have hblanks : blanks ('(' :: text) = '(' :: text := blanks_of_head (by rintro c ⟨⟩; decide)
  rw [Form.read?, keyword?_append, Option.bind_eq_bind, Option.bind_some, hblanks]
  rfl

theorem ne_parenthesis_of_isQuote {c : Char} (h : isQuote c = true) : c ≠ ')' := by
  rintro rfl
  exact absurd h (by decide)

namespace DynamicCall

theorem lead_unquoted (call : DynamicCall) : IsUnquoted call.lead := by
  unfold lead
  cases call.comment with
  | none => exact isUnquoted_nil
  | some comment =>
    have hgap : IsUnquoted comment.gap := by
      intro c hc
      by_contra hquote
      simp only [isQuote, Bool.or_eq_false_iff, beq_eq_false_iff_ne, not_and, not_not] at hquote
      have hblank := comment.gap_blank c hc
      by_cases h : c = '\''
      · exact absurd (h ▸ hblank) (by decide)
      · exact absurd (hquote h ▸ hblank) (by decide)
    simp only [Comment.text, isUnquoted_append]
    exact ⟨⟨⟨by decide +kernel, comment.body_unquoted⟩, by decide +kernel⟩, hgap⟩

theorem lead_open (call : DynamicCall) : ')' ∉ call.lead := by
  unfold lead
  cases call.comment with
  | none => exact List.not_mem_nil
  | some comment =>
    have hgap : ')' ∉ comment.gap := fun h => absurd (comment.gap_blank _ h) (by decide)
    simp only [Comment.text, List.mem_append, not_or]
    exact ⟨⟨⟨by decide +kernel, comment.body_open⟩, by decide +kernel⟩, hgap⟩

theorem text_append (call : DynamicCall) (rest : List Char) :
    call.text ++ rest = "import".toList ++
      '(' :: (call.lead ++ call.quote :: (call.specifier ++ call.quote :: ')' :: rest)) := by
  unfold text quoted
  generalize "import".toList = word
  simp

/-- What is read at a call: the specifier that its closing quote starts, if some quote behind the
call closes it, else the call's own. -/
theorem read?_text (call : DynamicCall) (rest : List Char) :
    Form.dynamicImport.read? (call.text ++ rest) =
      (specifier? (call.quote :: ')' :: rest) <|> some (call.specifier, ')' :: rest)) := by
  have hquote := ne_parenthesis_of_isQuote call.isQuote_quote
  have hclosing : lastSpecifier? (call.quote :: ')' :: rest) =
      specifier? (call.quote :: ')' :: rest) := by
    rw [lastSpecifier?, if_neg hquote, lastSpecifier?, if_pos rfl]
    rfl
  rw [text_append, read?_import, lastSpecifier?_append call.lead_unquoted call.lead_open,
    lastSpecifier?, if_neg hquote,
    lastSpecifier?_append call.specifier_unquoted call.specifier_bare.2, hclosing,
    specifier?_of_closed call.isQuote_quote call.specifier_unquoted call.specifier_ne_nil
      call.isQuote_quote]

theorem read?_text_of_unquoted (call : DynamicCall) {rest : List Char} (h : IsUnquoted rest) :
    Form.dynamicImport.read? (call.text ++ rest) = some (call.specifier, ')' :: rest) := by
  have hunclosed : specifier? (call.quote :: ')' :: rest) = none :=
    specifier?_of_unclosed (List.forall_mem_cons.mpr ⟨by decide, h⟩)
  rw [read?_text, hunclosed]
  rfl

theorem read?_text_of_quoted (call : DynamicCall) {before after : List Char} {quote : Char}
    (hbefore : IsUnquoted before) (hquote : isQuote quote = true) :
    Form.dynamicImport.read? (call.text ++ (before ++ quote :: after)) =
      some (')' :: before, after) := by
  have hclosed : specifier? (call.quote :: (')' :: before ++ quote :: after)) =
      some (')' :: before, after) :=
    specifier?_of_closed call.isQuote_quote (List.forall_mem_cons.mpr ⟨by decide, hbefore⟩)
      (List.cons_ne_nil _ _) hquote
  rw [read?_text, ← List.cons_append, hclosed]
  rfl

end DynamicCall

/-! ## Scanning between calls -/

theorem IsPlain.not_import {text : List Char} (h : IsPlain text) :
    ¬ Form.dynamicImport.word.toList <:+: text :=
  h "import" (by decide)

theorem head_callsText (calls : List (DynamicCall × Filler)) :
    ∀ c ∈ (callsText calls).head?, c ∉ Form.dynamicImport.word.toList.tail := by
  cases calls with
  | nil => exact fun _ h => (nomatch h)
  | cons block calls =>
    intro c hc
    cases hc
    decide

/-- A scan that goes on behind a quote in a filler finds the next call. -/
theorem scan_filler {back : List Char} {filler : Filler} (h : back <:+ filler.val)
    (calls : List (DynamicCall × Filler)) :
    Form.dynamicImport.scan (back ++ callsText calls) =
      Form.dynamicImport.scan (callsText calls) :=
  Form.scan_append (fun hword => filler.property.not_import (hword.trans h.isInfix))
    (head_callsText calls)

/-- A scan that goes on behind the opening quote of a call misses the call. -/
theorem scan_specifier (call : DynamicCall) (filler : Filler)
    (calls : List (DynamicCall × Filler)) :
    Form.dynamicImport.scan
        (call.specifier ++ call.quote :: ')' :: (filler.val ++ callsText calls)) =
      Form.dynamicImport.scan (callsText calls) := by
  have hquote : call.quote ∉ Form.dynamicImport.word.toList :=
    Form.not_mem_word (.inr (.inl call.isQuote_quote))
  rw [Form.scan_append call.specifier_plain.not_import (Form.head_not_mem_tail hquote _),
    Form.scan_cons hquote, Form.scan_cons (by decide), scan_filler List.suffix_rfl]

/-! ## Scanning calls -/

/-- A call that no quote follows yields its specifier. -/
theorem scan_text_of_unquoted (call : DynamicCall) {rest : List Char} (h : IsUnquoted rest) :
    Form.dynamicImport.scan (call.text ++ rest) =
      String.ofList call.specifier :: Form.dynamicImport.scan rest := by
  have hread := call.read?_text_of_unquoted h
  rw [DynamicCall.text, List.append_assoc] at hread ⊢
  rw [List.singleton_append] at hread ⊢
  have hne : call.quoted ≠ [] := fun h => absurd (List.append_eq_nil_iff.mp h).1 (by decide)
  rw [Form.scan_of_some hne hread, Form.scan_cons (by decide)]

/-- A call with a quote behind it yields the text from its parenthesis to that quote. -/
theorem scan_text_of_quoted (call : DynamicCall) {before after : List Char} {quote : Char}
    (hbefore : IsUnquoted before) (hquote : isQuote quote = true) :
    Form.dynamicImport.scan (call.text ++ (before ++ quote :: after)) =
      String.ofList (')' :: before) :: Form.dynamicImport.scan after := by
  have hread : Form.dynamicImport.read? (call.text ++ (before ++ quote :: after)) =
      some (')' :: before, after) := call.read?_text_of_quoted hbefore hquote
  have hsplit : call.text ++ (before ++ quote :: after) =
      (call.text ++ (before ++ [quote])) ++ after := by simp
  rw [hsplit] at hread ⊢
  exact Form.scan_of_some (List.append_ne_nil_of_right_ne_nil _ (by simp)) hread

/-- A reference without a closing parenthesis. -/
def isBare (reference : String) : Bool :=
  ')' ∉ reference.toList

theorem isBare_specifier (call : DynamicCall) : isBare (String.ofList call.specifier) = true := by
  simpa [isBare] using call.specifier_bare.2

theorem filter_isBare_cons (before : List Char) (references : List String) :
    (String.ofList (')' :: before) :: references).filter isBare = references.filter isBare :=
  List.filter_cons_of_neg (by simp [isBare])

/-- A call with a quote in the filler behind it is lost; the scan goes on in that filler. -/
theorem filter_scan_of_quoted (call : DynamicCall) {filler : Filler}
    (rest : List (DynamicCall × Filler)) (h : ¬ IsUnquoted filler.val) :
    (Form.dynamicImport.scan (callsText ((call, filler) :: rest))).filter isBare =
      (Form.dynamicImport.scan (callsText rest)).filter isBare := by
  obtain ⟨before, quote, after, hfiller, hbefore, hquote⟩ := exists_first_quote h
  have hafter : after <:+ filler.val := ⟨before ++ [quote], by rw [hfiller]; simp⟩
  have htext : callsText ((call, filler) :: rest) =
      call.text ++ (before ++ quote :: (after ++ callsText rest)) := by
    rw [callsText, hfiller, List.append_assoc, List.cons_append]
  rw [htext, scan_text_of_quoted call hbefore hquote, filter_isBare_cons, scan_filler hafter]

/-- A call with another one behind it is lost, and the other one with it: the scan goes on behind
the opening quote of the other one. -/
theorem filter_scan_of_next (call next : DynamicCall) {filler : Filler} (behind : Filler)
    (rest : List (DynamicCall × Filler)) (h : IsUnquoted filler.val) :
    (Form.dynamicImport.scan (callsText ((call, filler) :: (next, behind) :: rest))).filter isBare =
      (Form.dynamicImport.scan (callsText rest)).filter isBare := by
  have hbefore : IsUnquoted (filler.val ++ ("import".toList ++ '(' :: next.lead)) := by
    refine isUnquoted_append.mpr ⟨h, isUnquoted_append.mpr ⟨by decide +kernel, ?_⟩⟩
    exact List.forall_mem_cons.mpr ⟨by decide, next.lead_unquoted⟩
  have htext : callsText ((call, filler) :: (next, behind) :: rest) =
      call.text ++ ((filler.val ++ ("import".toList ++ '(' :: next.lead)) ++ next.quote ::
        (next.specifier ++ next.quote :: ')' :: (behind.val ++ callsText rest))) := by
    simp only [callsText, next.text_append, List.append_assoc, List.cons_append]
  rw [htext, scan_text_of_quoted call hbefore next.isQuote_quote, filter_isBare_cons,
    scan_specifier]

theorem scan_of_last (call : DynamicCall) {filler : Filler} (h : IsUnquoted filler.val) :
    Form.dynamicImport.scan (callsText [(call, filler)]) = [String.ofList call.specifier] := by
  have hrest : IsUnquoted (filler.val ++ callsText []) := isUnquoted_append.mpr ⟨h, isUnquoted_nil⟩
  rw [callsText, scan_text_of_unquoted call hrest, scan_filler List.suffix_rfl]
  rfl

/-- Of all calls at most the last one yields a reference without a parenthesis, and only when no
quote follows it. -/
theorem filter_isBare_scan : ∀ calls : List (DynamicCall × Filler),
    (Form.dynamicImport.scan (callsText calls)).filter isBare = [] ∨
      ∃ before call filler, calls = before ++ [(call, filler)] ∧ IsUnquoted filler.val ∧
        (Form.dynamicImport.scan (callsText calls)).filter isBare = [String.ofList call.specifier]
  | [] => .inl rfl
  | (call, filler) :: rest => by
    by_cases hfiller : IsUnquoted filler.val
    · match rest with
      | [] =>
        refine .inr ⟨[], call, filler, rfl, hfiller, ?_⟩
        rw [scan_of_last call hfiller]
        exact List.filter_cons_of_pos (isBare_specifier call)
      | (next, behind) :: rest =>
        rw [filter_scan_of_next call next behind rest hfiller]
        refine (filter_isBare_scan rest).imp_right ?_
        rintro ⟨before, last, lastFiller, rfl, hlast⟩
        exact ⟨(call, filler) :: (next, behind) :: before, last, lastFiller, rfl, hlast⟩
    · rw [filter_scan_of_quoted call rest hfiller]
      refine (filter_isBare_scan rest).imp_right ?_
      rintro ⟨before, last, lastFiller, rfl, hlast⟩
      exact ⟨(call, filler) :: before, last, lastFiller, rfl, hlast⟩

/-! ## What a script yields -/

theorem not_undisturbed_of_next {call next : DynamicCall} {filler behind : Filler}
    {rest : List (DynamicCall × Filler)} :
    ¬ Undisturbed ((call, filler) :: (next, behind) :: rest) := by
  intro h
  have hquote : next.quote ∈ filler.val ++ callsText ((next, behind) :: rest) := by
    simp [callsText, next.text_append]
  exact absurd (h.1 next.quote hquote) (by rw [next.isQuote_quote]; decide)

/-- All specifiers are found exactly when no quote follows a call. -/
theorem sublist_scan_iff (calls : List (DynamicCall × Filler)) :
    (calls.map fun block => String.ofList block.1.specifier).Sublist
      (Form.dynamicImport.scan (callsText calls)) ↔ Undisturbed calls := by
  constructor
  · intro h
    have hbare := h.filter isBare
    rw [List.filter_eq_self.mpr (List.forall_mem_map.mpr fun block _ => isBare_specifier block.1)]
      at hbare
    rcases filter_isBare_scan calls with hnone | ⟨before, call, filler, rfl, hfiller, hone⟩
    · rw [hnone, List.sublist_nil, List.map_eq_nil_iff] at hbare
      rw [hbare]
      trivial
    · -- one reference at most, so this is the only call
      rw [hone] at hbare
      have hlength := hbare.length_le
      simp only [List.length_map, List.length_append, List.length_singleton] at hlength
      obtain rfl := List.length_eq_zero_iff.mp (by omega : before.length = 0)
      exact ⟨isUnquoted_append.mpr ⟨hfiller, isUnquoted_nil⟩, trivial⟩
  · intro h
    match calls with
    | [] => exact List.nil_sublist _
    | [(call, filler)] =>
      rw [scan_of_last call (isUnquoted_append.mp h.1).1]
      exact List.Sublist.refl _
    | (_, _) :: (_, _) :: _ => exact absurd h not_undisturbed_of_next

/-- The first reference of a text that begins with a call is the call's specifier exactly when no
quote follows the call. -/
theorem head_scan_iff (filler : Filler) (call : DynamicCall) (more : List Char) :
    (Form.dynamicImport.scan (filler.val ++ (call.text ++ more))).head? =
      some (String.ofList call.specifier) ↔ IsUnquoted more := by
  have hhead : ∀ c ∈ (call.text ++ more).head?, c ∉ Form.dynamicImport.word.toList.tail := by
    rw [call.text_append]
    rintro c ⟨⟩
    decide
  rw [Form.scan_append filler.property.not_import hhead]
  constructor
  · intro h
    by_contra hquoted
    obtain ⟨before, quote, after, rfl, hbefore, hquote⟩ := exists_first_quote hquoted
    rw [scan_text_of_quoted call hbefore hquote, List.head?_cons, Option.some.injEq] at h
    have hbody : ')' :: before = call.specifier := by simpa using congrArg String.toList h
    exact call.specifier_bare.2 (hbody ▸ List.mem_cons_self)
  · intro h
    rw [scan_text_of_unquoted call h, List.head?_cons]

/-- **A dynamic import is found exactly when no quote follows it.**  The references of a code file
hold those of the dynamic form together; these hold the specifiers of all calls of a script, in
their order, exactly when no quote stands behind a call; and text that is added behind a call leaves
the call's reference as it is exactly when no quote is added. -/
theorem dynamic_specifiers_found_iff (script : Script) :
    (Form.dynamicImport.scan script.text <:+:
      extract .code (String.ofList script.text)) ∧
    (script.specifiers.Sublist (Form.dynamicImport.scan script.text) ↔ Undisturbed script.calls) ∧
    (∀ (filler : Filler) (call : DynamicCall) (more : List Char),
      (Form.dynamicImport.scan (filler.val ++ (call.text ++ more))).head? =
        (Form.dynamicImport.scan (filler.val ++ (call.text ++ []))).head? ↔ IsUnquoted more) := by
  refine ⟨?_, ?_, fun filler call more => ?_⟩
  · refine ⟨Form.staticImport.scan script.text ++ Form.require.scan script.text,
      Form.lazyImport.scan script.text, ?_⟩
    simp [extract, forms]
  · rw [Script.text, scan_filler List.suffix_rfl]
    exact sublist_scan_iff script.calls
  · rw [(head_scan_iff filler call []).mpr isUnquoted_nil]
    exact head_scan_iff filler call more

/-- A call with a quoted text behind it, in a file of its own. -/
def lostCall : Script where
  lead := ⟨[], by decide +kernel⟩
  calls := [(⟨none, '\'', "./a".toList, rfl, by decide +kernel, by decide +kernel,
    by decide +kernel, by decide +kernel⟩, ⟨"; f('b')".toList, by decide +kernel⟩)]

/-- The call is not found: its closing quote is taken for an opening one. -/
theorem lostCall_not_found :
    lostCall.text = "import('./a'); f('b')".toList ∧ lostCall.specifiers = ["./a"] ∧
      extract .code (String.ofList lostCall.text) = ["); f("] ∧
      ¬ lostCall.specifiers.Sublist (extract .code (String.ofList lostCall.text)) := by
  have hfound : extract .code (String.ofList lostCall.text) = ["); f("] := by decide +kernel
  refine ⟨by decide +kernel, by decide +kernel, hfound, ?_⟩
  rw [hfound]
  decide

end ImportAtlas.Reference
