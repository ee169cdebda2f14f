import ImportAtlas.Proofs.Reference.Clauses
import ImportAtlas.Proofs.Reference.Extraction

set_option autoImplicit false

/-!
# Declarations

A declaration that the static form does not recognize is not read from any later place
either: a name of its clause may be the word `import` once more or end with it, but
neither a clause nor a quote follows there, and from inside braces nothing is read at
all.  So a declaration is listed once, or not at all, and which it is can be read off
its clause (`declaration_found_iff`).
-/

namespace ImportAtlas.Reference

open Text

section Names

variable {G : Type} {lay : G → Gap}

/-! ## Passing over a written clause -/

/-- The word that ends a name in front of the text begins no import. -/
structure EndsImport (rest : List Char) : Prop where
  head : ∀ c ∈ rest.head?, c ∉ Form.staticImport.word.toList.tail
  unread : Form.staticImport.read? (Form.staticImport.word.toList ++ rest) = none

theorem scan_name {name rest : List Char} (hname : ∀ c ∈ name, isIdentifierChar c = true)
    (hrest : EndsImport rest) :
    Form.staticImport.scan (name ++ rest) = Form.staticImport.scan rest := by
  refine Form.scan_append_of_read fun back hback hne => ?_
  by_cases hbegun : Form.staticImport.word.toList <+: back
  · obtain ⟨more, rfl⟩ := hbegun
    rw [List.append_assoc]
    cases more with
    | nil => exact hrest.unread
    | cons c more =>
      have hc := plain_of_isIdentifierChar (hname c (hback.mem (by simp)))
      refine Form.read?_eq_none_of_not_opens (Form.opens_word_append ?_)
      rintro d ⟨⟩
      exact ⟨hc.1, by rintro rfl; simp at hc⟩
  · exact Form.read?_eq_none_of_not_opens
      (Form.opens_of_not_begun (Form.not_prefix_append hne hbegun hrest.head))

/-- A name before a comma is passed over. -/
theorem endsImport_comma (gap : Gap) (rest : List Char) : EndsImport (gap.val ++ ',' :: rest) where
  head := gap.head_cons_not_mem_tail (Form.not_mem_word (by simp)) rest
  unread := by
    have hclause : clause? (',' :: rest) = none := by
      have hcomma : isWord ',' = false := by decide
      simp [clause?, binding?, name?, hcomma]
    exact read?_of_no_clause (by rintro c ⟨⟩; decide) fun _ => hclause

theorem endsName_quoted (gap : Gap) (quoted : Quoted) (rest : List Char) :
    EndsName (gap.val ++ (quoted.text ++ rest)) := by
  by_cases hgap : gap.val = []
  · rw [hgap]
    exact fun c hc => (plain_of_isQuote (quoted.head_text rest c hc)).2.1
  · exact endsName_gap hgap _

/-- Between an import and its specifier, `from` is no clause. -/
theorem clause?_from (gap : Gap) (quoted : Quoted) (rest : List Char) :
    clause? ("from".toList ++ (gap.val ++ (quoted.text ++ rest))) = none := by
  have hquote := quoted.head_text rest
  have hname : binding? ("from".toList ++ (gap.val ++ (quoted.text ++ rest))) =
      some (gap.val ++ (quoted.text ++ rest)) := by
    rw [binding?_eq_name? (by rintro c ⟨⟩; decide)]
    exact name?_append (by decide) (endsName_quoted gap quoted rest)
  have hmore : moreBindings? (gap.val ++ (quoted.text ++ rest)) =
      some (gap.val ++ (quoted.text ++ rest)) := by
    refine moreBindings?_of_no_comma (symbol?_of_head fun c hc => ?_)
    rw [blanks_append gap.property, quoted.blanks_text] at hc
    rintro rfl
    exact absurd (hquote _ hc) (by decide)
  have hword : keyword? "from" (quoted.text ++ rest) = none := by
    refine keyword?_eq_none ?_
    rintro ⟨more, hmore⟩
    rw [← hmore] at hquote
    exact absurd (hquote 'f' rfl) (by decide)
  rw [clause?_eq, hname, Option.bind_some, hmore, Option.bind_some]
  by_cases hgap : gap.val = []
  · have hblanks : blanks? (quoted.text ++ rest) = none :=
      blanks?_of_head fun c hc => (plain_of_isQuote (hquote c hc)).1
    rw [hgap, List.nil_append, hblanks, Option.bind_none]
  · rw [blanks?_append gap.property hgap, Option.bind_some, quoted.blanks_text, hword,
      Option.bind_none]

/-- A name before `from` is passed over. -/
theorem endsImport_from {clause : Clause G} (h : (lay clause.beforeFrom).val ≠ []) (quoted : Quoted)
    (rest : List Char) : EndsImport (clause.fromText lay ++ (quoted.text ++ rest)) := by
  rw [clause.fromText_append]
  exact ⟨Gap.head_not_mem_tail h _ _, read?_of_no_clause (by rintro c ⟨⟩; decide)
    fun _ => clause?_from _ quoted rest⟩

end Names

/-! ### Inside braces

Every reader but that of a braced list leaves the first quote or brace where it is.  Where this is a
closing brace, no specifier is reached. -/

def isStop (c : Char) : Bool :=
  isQuote c || c == '{' || c == '}'

/-- The first quote or brace of the text is a closing brace. -/
def Closes (s : List Char) : Prop :=
  s.find? isStop = some '}'

/-- No quote or brace is among characters that hold none of the four. -/
theorem isStop_eq_false_of {p : Char → Bool}
    (hp : (['\'', '"', '{', '}'].all fun d => !p d) = true) {c : Char} (h : p c = true) :
    isStop c = false := by
  by_contra hstop
  simp only [isStop, isQuote, Bool.not_eq_false, Bool.or_eq_true, beq_iff_eq] at hstop
  have hc := List.all_eq_true.mp hp c (by simpa [or_assoc] using hstop)
  rw [h] at hc
  cases hc

theorem isStop_of_isWord {c : Char} (h : isWord c = true) : isStop c = false :=
  isStop_eq_false_of (by decide) h

theorem isStop_of_isBlank {c : Char} (h : isBlank c = true) : isStop c = false :=
  isStop_eq_false_of (by decide) h

theorem isStop_of_isIdentifierChar {c : Char} (h : isIdentifierChar c = true) : isStop c = false :=
  isStop_eq_false_of (by decide) h

namespace Closes

variable {s r : List Char}

theorem append_iff {front : List Char} (hfront : ∀ c ∈ front, isStop c = false) :
    Closes (front ++ s) ↔ Closes s := by
  have hnone : front.find? isStop = none :=
    List.find?_eq_none.mpr fun c hc => by simp [hfront c hc]
  rw [Closes, List.find?_append, hnone, Option.none_or, Closes]

theorem of_cons {c : Char} (h : Closes (c :: s)) (hc : isStop c = false) : Closes s := by
  rwa [Closes, List.find?_cons_of_neg (by simp [hc])] at h

theorem dropWhile {p : Char → Bool} (h : Closes s) (hp : ∀ c, p c = true → isStop c = false) :
    Closes (s.dropWhile p) := by
  rw [← List.takeWhile_append_dropWhile (p := p) (l := s)] at h
  exact (append_iff fun c hc => hp c (List.mem_takeWhile_imp hc)).mp h

theorem blanks (h : Closes s) : Closes (blanks s) :=
  h.dropWhile fun _ => isStop_of_isBlank

theorem blanks? (h : Closes s) (hr : blanks? s = some r) : Closes r := by
  cases s with
  | nil => cases hr
  | cons c cs =>
    obtain ⟨hc, hr⟩ := Option.ite_none_right_eq_some.mp hr
    cases hr
    exact (h.of_cons (isStop_of_isBlank hc)).blanks

theorem keyword? {word : String} (h : Closes s) (hword : word.toList.all isWord = true)
    (hr : keyword? word s = some r) : Closes r := by
  rw [← keyword?_eq_some_iff.mp hr] at h
  exact (append_iff fun c hc => isStop_of_isWord (List.all_eq_true.mp hword c hc)).mp h

theorem comma (h : Closes s) (hr : symbol? ',' s = some r) : Closes r := by
  cases s with
  | nil => cases hr
  | cons c cs =>
    obtain ⟨rfl, hr⟩ := Option.ite_none_right_eq_some.mp hr
    cases hr
    exact h.of_cons (by decide)

theorem name? (h : Closes s) (hr : name? s = some r) : Closes r := by
  cases s with
  | nil => cases hr
  | cons c cs =>
    obtain ⟨hc, hr⟩ := Option.ite_none_right_eq_some.mp hr
    cases hr
    exact (h.of_cons (isStop_of_isWord hc)).dropWhile fun _ => isStop_of_isWord

theorem binding? (h : Closes s) (hr : binding? s = some r) : Closes r := by
  unfold Reference.binding? at hr
  split at hr
  · cases hr
  · cases h
  · rename_i cs
    have hcs : Closes cs := h.of_cons (by decide)
    simp only [Option.bind_eq_bind, Option.bind_eq_some_iff] at hr
    obtain ⟨a, ha, b, hb, c, hc, hr⟩ := hr
    exact (((hcs.blanks? ha).keyword? (by decide) hb).blanks? hc).name? hr
  · exact h.name? hr

theorem moreBindings? (h : Closes s) (hr : moreBindings? s = some r) : Closes r := by
  fun_induction Reference.moreBindings? s with
  | case1 s hs =>
    cases hr
    exact h
  | case2 s a hs hnone => cases hr
  | case3 s a hs t ht ih => exact ih ((h.blanks.comma hs).blanks.binding? ht) hr

theorem clause? (h : Closes s) (hr : clause? s = some r) : Closes r := by
  simp only [Reference.clause?, Option.bind_eq_bind, Option.bind_eq_some_iff] at hr
  obtain ⟨a, ha, b, hb, c, hc, d, hd, hr⟩ := hr
  exact ((((h.binding? ha).moreBindings? hb).blanks? hc).keyword? (by decide) hd).blanks? hr

theorem specifier?_eq_none (h : Closes s) : specifier? s = none := by
  refine specifier?_of_head fun c hc => ?_
  by_contra hquote
  rw [Bool.not_eq_false] at hquote
  obtain ⟨cs, rfl⟩ := List.head?_eq_some_iff.mp hc
  have hstop : isStop c = true := by simp [isStop, hquote]
  rw [Closes, List.find?_cons_of_pos hstop] at h
  cases h
  exact absurd hquote (by decide)

/-- No import is read before a closing brace. -/
theorem read?_eq_none (h : Closes s) : Form.staticImport.read? s = none := by
  rw [Form.read?]
  cases hword : Reference.keyword? "import" s with
  | none => rfl
  | some a =>
    have ha := h.keyword? (by decide) hword
    cases hblanks : Reference.blanks? a with
    | none => simp [hblanks]
    | some b =>
      have hb := ha.blanks? hblanks
      cases hclause : Reference.clause? b with
      | none => simp [hblanks, hclause, hb.specifier?_eq_none]
      | some c => simp [hblanks, hclause, (hb.clause? hclause).specifier?_eq_none]

end Closes

section Passing

variable {G : Type} {lay : G → Gap}

/-! ### The pieces of a clause -/

/-- A written list holds blanks, commas and identifiers. -/
theorem mem_tokensText {tokens : List (List Char × G)}
    (h : ∀ token ∈ tokens, token.1 = [','] ∨ IsIdentifier token.1) :
    ∀ c ∈ tokensText lay tokens, isBlank c = true ∨ c = ',' ∨ isIdentifierChar c = true := by
  induction tokens with
  | nil => exact fun _ hc => nomatch hc
  | cons token rest ih =>
    obtain ⟨htoken, hrest⟩ := List.forall_mem_cons.mp h
    intro c hc
    simp only [tokensText, List.mem_append] at hc
    rcases hc with hc | hc | hc
    · rcases htoken with hcomma | hname
      · rw [hcomma] at hc
        exact .inr (.inl (List.mem_singleton.mp hc))
      · exact .inr (.inr (hname.chars c hc))
    · exact .inl ((lay token.2).property c hc)
    · exact ih hrest c hc

theorem scan_braced {lead : G} {tokens : List (List Char × G)}
    (h : ∀ token ∈ tokens, token.1 = [','] ∨ IsIdentifier token.1) (rest : List Char) :
    Form.staticImport.scan ((Binding.braced lead tokens).text lay ++ rest) =
      Form.staticImport.scan rest := by
  have htext : (Binding.braced lead tokens).text lay ++ rest =
      '{' :: (((lay lead).val ++ tokensText lay tokens) ++ '}' :: rest) := by
    simp [Binding.text]
  have hinner : ∀ c ∈ (lay lead).val ++ tokensText lay tokens, isStop c = false := by
    intro c hc
    rcases List.mem_append.mp hc with hc | hc
    · exact isStop_of_isBlank ((lay lead).property c hc)
    · rcases mem_tokensText h c hc with hblank | rfl | hname
      · exact isStop_of_isBlank hblank
      · decide
      · exact isStop_of_isIdentifierChar hname
  have hcloses : ∀ back, back <:+ (lay lead).val ++ tokensText lay tokens →
      Closes (back ++ '}' :: rest) := fun back hback =>
    (Closes.append_iff fun c hc => hinner c (hback.mem hc)).mpr
      (List.find?_cons_of_pos (by decide))
  rw [htext, Form.scan_cons (Form.not_mem_word (by simp)),
    Form.scan_append_of_read fun back hback _ => (hcloses back hback).read?_eq_none,
    Form.scan_cons (Form.not_mem_word (by simp))]

theorem scan_binding {binding : Binding G} (h : binding.IsWritten lay) {rest : List Char}
    (hrest : binding.endsInName = true → EndsImport rest) :
    Form.staticImport.scan (binding.text lay ++ rest) = Form.staticImport.scan rest := by
  cases binding with
  | braced lead tokens => exact scan_braced h rest
  | all beforeAs afterAs name =>
    obtain ⟨-, hname⟩ := h
    have has : ("as".toList.all fun c => !Form.staticImport.word.toList.contains c) = true := by
      decide +kernel
    have hletters : ∀ c ∈ "as".toList, c ∉ Form.staticImport.word.toList := fun c hc => by
      simpa using List.all_eq_true.mp has c hc
    rw [Binding.text, List.cons_append, Form.scan_cons (Form.not_mem_word (by simp))]
    simp only [List.append_assoc]
    rw [Form.scan_append_of_not_mem ((lay beforeAs).not_mem_word _),
      Form.scan_append_of_not_mem hletters,
      Form.scan_append_of_not_mem ((lay afterAs).not_mem_word _), scan_name hname.chars (hrest rfl)]
  | named name =>
    have hname : IsIdentifier name := h
    exact scan_name hname.chars (hrest rfl)

theorem scan_furtherText {first : Binding G} {further : List (FurtherBinding G)}
    (h : ∀ next ∈ further, next.binding.IsWritten lay) {rest : List Char}
    (hbounded : Bounded EndsImport first further rest) :
    Form.staticImport.scan (furtherText lay further ++ rest) = Form.staticImport.scan rest := by
  induction further generalizing first with
  | nil => rfl
  | cons next further ih =>
    obtain ⟨hnext, hfurther⟩ := List.forall_mem_cons.mp h
    rw [furtherText, List.append_assoc,
      Form.scan_append_of_not_mem ((lay next.beforeComma).not_mem_word _), List.cons_append,
      Form.scan_cons (Form.not_mem_word (by simp)), List.append_assoc,
      Form.scan_append_of_not_mem ((lay next.afterComma).not_mem_word _), List.append_assoc,
      scan_binding hnext (hbounded.tail.first endsImport_comma), ih hfurther hbounded.tail]

/-- No import begins in a written clause. -/
theorem Clause.IsWritten.scan_text {afterWord : G} {clause : Clause G}
    (h : clause.IsWritten lay afterWord) (quoted : Quoted) (rest : List Char) :
    Form.staticImport.scan (clause.text lay ++ (quoted.text ++ rest)) =
      Form.staticImport.scan (quoted.text ++ rest) := by
  have hbounded : Bounded EndsImport clause.first clause.further
      (clause.fromText lay ++ (quoted.text ++ rest)) := fun hname =>
    endsImport_from (h.beforeFrom hname) quoted rest
  have hfrom : ¬ Form.staticImport.word.toList <:+: "from".toList := by decide +kernel
  rw [clause.text_append, scan_binding (h.bindings _ List.mem_cons_self)
      (hbounded.first endsImport_comma), scan_furtherText h.further hbounded,
    clause.fromText_append,
    Form.scan_append_of_not_mem ((lay clause.beforeFrom).not_mem_word _),
    Form.scan_append hfrom ?_, Form.scan_append_of_not_mem ((lay clause.afterFrom).not_mem_word _)]
  rw [quoted.text_append]
  exact (lay clause.afterFrom).head_cons_not_mem_tail
    (Form.not_mem_word (.inr (.inl quoted.isQuote_opening))) _

theorem Gap.no_parenthesis (gap : Gap) : '(' ∉ gap.val :=
  fun hmem => absurd (gap.property _ hmem) (by decide)

theorem IsIdentifier.no_parenthesis {name : List Char} (h : IsIdentifier name) : '(' ∉ name :=
  fun hmem => absurd (h.chars _ hmem) (by decide)

theorem Binding.IsWritten.no_parenthesis {binding : Binding G} (h : binding.IsWritten lay) :
    '(' ∉ binding.text lay := by
  cases binding with
  | braced lead tokens =>
    have htokens : '(' ∉ tokensText lay tokens := fun hmem => by
      rcases mem_tokensText h _ hmem with hblank | hcomma | hname
      · exact absurd hblank (by decide)
      · exact absurd hcomma (by decide)
      · exact absurd hname (by decide)
    simp [text, (lay lead).no_parenthesis, htokens]
  | all beforeAs afterAs name =>
    simp [text, (lay beforeAs).no_parenthesis, (lay afterAs).no_parenthesis, h.2.no_parenthesis]
  | named name => exact IsIdentifier.no_parenthesis h

theorem furtherText_no_parenthesis {further : List (FurtherBinding G)}
    (h : ∀ next ∈ further, next.binding.IsWritten lay) : '(' ∉ furtherText lay further := by
  induction further with
  | nil => exact List.not_mem_nil
  | cons next further ih =>
    obtain ⟨hnext, hfurther⟩ := List.forall_mem_cons.mp h
    simp [furtherText, (lay next.beforeComma).no_parenthesis, (lay next.afterComma).no_parenthesis,
      hnext.no_parenthesis, ih hfurther]

theorem Clause.IsWritten.no_parenthesis {afterWord : G} {clause : Clause G}
    (h : clause.IsWritten lay afterWord) : '(' ∉ clause.text lay := by
  simp [text, fromText, (h.bindings _ List.mem_cons_self).no_parenthesis,
    furtherText_no_parenthesis h.further, (lay clause.beforeFrom).no_parenthesis,
    (lay clause.afterFrom).no_parenthesis]

/-- No word goes on with what follows the word of a declaration. -/
theorem Clause.IsWritten.head_not_mem_tail {afterWord : G} {clause : Clause G}
    (h : clause.IsWritten lay afterWord) (form : Form) (rest : List Char) :
    ∀ c ∈ ((lay afterWord).val ++ (clause.text lay ++ rest)).head?, c ∉ form.word.toList.tail := by
  by_cases hword : (lay afterWord).val = []
  · rw [hword, List.nil_append, clause.text_append]
    cases hfirst : clause.first with
    | braced => exact Form.head_not_mem_tail (Form.not_mem_word (by simp)) _
    | all => exact Form.head_not_mem_tail (Form.not_mem_word (by simp)) _
    | named name => exact absurd hword (h.afterWord (by rw [hfirst]; rfl))
  · exact Gap.head_not_mem_tail hword form _

end Passing

/-! ## Declarations -/

section Declarations

variable {G : Type} {lay : G → Gap} {form : Form}

/-- In a filler that the form's word is not in, the form finds no specifier that stands before it.
-/
theorem not_mem_scan_quoted {quoted : Quoted} {rest : List Char}
    (h : ¬ form.word.toList <:+: rest) :
    String.ofList quoted.specifier ∉ form.scan (quoted.text ++ rest) := by
  intro hmem
  rw [quoted.text_append,
    Form.scan_cons (Form.not_mem_word (.inr (.inl quoted.isQuote_opening)))] at hmem
  obtain ⟨before, quote, behind, htext, hquote, hbegun⟩ := Form.exists_of_mem_scan hmem
  rw [String.toList_ofList] at hbegun
  -- the specifier has no quote, so what the form found stands behind its end
  have hbehind : behind <:+ rest := by
    rcases List.append_eq_append_iff.mp htext with ⟨more, -, hmore⟩ | ⟨more, hspecifier, hmore⟩
    · cases more with
      | nil =>
        obtain ⟨-, rfl⟩ := List.cons.inj hmore
        exact List.suffix_rfl
      | cons c more =>
        rw [(List.cons.inj hmore).2]
        exact (List.suffix_cons quote behind).trans (List.suffix_append more _)
    · cases more with
      | nil =>
        obtain ⟨-, rfl⟩ := List.cons.inj hmore
        exact List.suffix_rfl
      | cons c more =>
        obtain ⟨rfl, -⟩ := List.cons.inj hmore
        rw [quoted.specifier_unquoted quote (by rw [hspecifier]; simp)] at hquote
        cases hquote
  have habsent : ¬ form.word.toList <:+: quoted.specifier := fun hword =>
    h (hword.trans (hbegun.isInfix.trans hbehind.isInfix))
  have hclosing : quoted.closing ∉ form.word.toList :=
    Form.not_mem_word (.inr (.inl quoted.isQuote_closing))
  rw [Form.scan_append habsent (Form.head_not_mem_tail hclosing rest), Form.scan_cons hclosing,
    Form.scan_eq_nil h] at hmem
  cases hmem

theorem Filler.absent (filler : Filler) (hform : form ∈ forms .code) :
    ¬ form.word.toList <:+: filler.val := by
  have hwords : ∀ form ∈ forms .code, form.word ∈ formWords := by decide
  exact filler.property form.word (hwords form hform)

/-- The references of a text that holds one item between fillers. -/
def Item.references (lay : G → Gap) (before after : Filler) (item : Item G) : List String :=
  extract .code (String.ofList (Source.text lay .code ⟨before.val, [(item, after.val)]⟩))

theorem Item.references_eq (before after : Filler) (item : Item G) :
    item.references lay before after =
      (forms .code).flatMap fun form => form.scan (item.text lay .code ++ after.val) := by
  rw [references, extract, String.toList_ofList]
  refine List.flatMap_congr fun form hform => ?_
  rw [Source.text, scan_filler_items hform (before.absent hform), itemsText, itemsText,
    List.append_nil]

/-- The forms of a code file that are calls. -/
def calls : List Form :=
  [.require, .dynamicImport, .lazyImport]

theorem forms_code : forms .code = loadForm .code :: calls :=
  rfl

theorem mem_calls (h : form ∈ calls) : form ∈ forms .code ∧ form.isCall = true := by
  revert form
  decide

/-- What some forms find from the specifier of a load on. -/
def behindLoad (searched : List Form) (quoted : Quoted) (after : Filler) : List String :=
  searched.flatMap fun form => form.scan (quoted.text ++ after.val)

theorem not_mem_behindLoad {searched : List Form} (h : searched ⊆ forms .code) (quoted : Quoted)
    (after : Filler) : String.ofList quoted.specifier ∉ behindLoad searched quoted after := by
  intro hmem
  obtain ⟨form, hform, hfound⟩ := List.mem_flatMap.mp hmem
  exact not_mem_scan_quoted (after.absent (h hform)) hfound

/-- A load that is read is listed, and nothing else is found before its specifier. -/
theorem references_of_readable (before : Filler) {after : Filler} {afterWord : G}
    {clause : Option (Clause G)} {quoted : Quoted}
    (h : (Item.load afterWord clause quoted).IsReadable lay .code)
    (hopen : '(' ∉ clauseText lay clause) :
    (Item.load afterWord clause quoted).references lay before after =
      String.ofList quoted.specifier :: behindLoad calls quoted after := by
  obtain ⟨hgap, hclause, -⟩ := h.load_parts
  have hload : (loadForm .code).scan
      ((Item.load afterWord clause quoted).text lay .code ++ after.val) =
        [String.ofList quoted.specifier] := by
    rw [scan_readable_load h after.val, Form.scan_eq_nil (after.absent (loadForm_mem_forms .code))]
  have hcalls : ∀ form ∈ calls,
      form.scan ((Item.load afterWord clause quoted).text lay .code ++ after.val) =
        form.scan (quoted.text ++ after.val) := fun form hform => by
    obtain ⟨hcode, hcall⟩ := mem_calls hform
    exact scan_load_head hcode hcall (Form.isSilent_of_no_parenthesis hcall hopen)
      (head_clauseText hclause quoted after.val) (Gap.head_not_mem_tail hgap form _)
  rw [Item.references_eq, forms_code, List.flatMap_cons, hload, List.singleton_append,
    List.flatMap_congr hcalls, behindLoad]

/-- Of a declaration that is not recognized nothing is found before its specifier. -/
theorem references_of_not (before : Filler) {after : Filler} {afterWord : G} {clause : Clause G}
    (h : clause.IsWritten lay afterWord) (hnot : ¬ clause.IsRecognized lay afterWord)
    (quoted : Quoted) :
    (Item.load afterWord (some clause) quoted).references lay before after =
      behindLoad (forms .code) quoted after := by
  have hhead : ∀ c ∈ (clause.text lay ++ (quoted.text ++ after.val)).head?,
      isBlank c = false ∧ c ≠ '(' := fun c hc => by
    obtain ⟨hblank, -, hopen⟩ := h.head _ c hc
    exact ⟨hblank, hopen⟩
  rw [Item.references_eq, behindLoad]
  refine List.flatMap_congr fun form hform => ?_
  by_cases hload : form = loadForm .code
  · subst hload
    have hread : (loadForm .code).read? ((loadForm .code).word.toList ++ ((lay afterWord).val ++
        (clause.text lay ++ (quoted.text ++ after.val)))) = none :=
      h.read?_of_not hnot quoted after.val
    rw [Item.load_text_append, clauseText, Form.scan_word_append hread (h.head_not_mem_tail _ _),
      Form.scan_append_of_not_mem ((lay afterWord).not_mem_word _)]
    exact h.scan_text quoted after.val
  · have hcall := isCall_of_ne_loadForm hform hload
    exact scan_load_head hform hcall (Form.isSilent_of_no_parenthesis hcall h.no_parenthesis) hhead
      (h.head_not_mem_tail form _)

/-- **A declaration is listed when the static form recognizes its clause, and only then.**  Between
any fillers, a static import with any bindings is listed exactly once, just like the import for
effects alone in its place, when no name outside braces holds a `$` and blanks stand where the form
wants them; otherwise its specifier is not listed at all. -/
theorem declaration_found_iff (lay : G → Gap) (before after : Filler) {afterWord plainGap : G}
    {clause : Clause G} (quoted : Quoted) (h : clause.IsWritten lay afterWord)
    (hplain : (lay plainGap).val ≠ []) :
    (((Item.load afterWord (some clause) quoted).references lay before after).count
        (String.ofList quoted.specifier) = 1 ↔ clause.IsRecognized lay afterWord) ∧
    (String.ofList quoted.specifier ∈
        (Item.load afterWord (some clause) quoted).references lay before after ↔
      clause.IsRecognized lay afterWord) ∧
    ((Item.load afterWord (some clause) quoted).references lay before after =
        (Item.load plainGap none quoted).references lay before after ↔
      clause.IsRecognized lay afterWord) := by
  have heffect := @references_of_readable G lay before after plainGap none quoted hplain
    List.not_mem_nil
  have hcalls := not_mem_behindLoad (fun _ hform => (mem_calls hform).1) quoted after
  by_cases hrecognized : clause.IsRecognized lay afterWord
  · rw [heffect, references_of_readable before ((h.isReadable_iff quoted).mpr hrecognized)
      h.no_parenthesis]
    simp [hrecognized, List.count_eq_zero_of_not_mem hcalls]
  · have hall := not_mem_behindLoad (List.Subset.refl _) quoted after
    rw [heffect, references_of_not before h hrecognized quoted]
    refine ⟨iff_of_false ?_ hrecognized, iff_of_false hall hrecognized,
      iff_of_false (fun heq => ?_) hrecognized⟩
    · rw [List.count_eq_zero_of_not_mem hall]
      decide
    · exact hall (heq ▸ List.mem_cons_self)

/-- A `$` inside braces does no harm. -/
def bracedDollar : Clause Gap where
  first := .named "import1".toList
  further := [⟨noGap, noGap, .braced blank [("$b".toList, blank), ("as".toList, blank),
    ("c".toList, noGap)]⟩]
  beforeFrom := blank
  afterFrom := lineBreak

theorem declaration_found_iff_braced :
    bracedDollar.text id = "import1,\x7b $b as c\x7d from\n".toList ∧
    ((Item.load blank (some bracedDollar) localFile).references id
      ⟨"impor".toList, by decide +kernel⟩
      ⟨"\n".toList, by decide +kernel⟩).count "./a" = 1 := by
  have hwritten : bracedDollar.IsWritten id blank := by decide +kernel
  refine ⟨by decide +kernel, ?_⟩
  exact (declaration_found_iff id _ _ localFile hwritten
    (show (id blank : Gap).val ≠ [] by decide)).1.mpr (by decide +kernel)

/-- A default binding called `$`. -/
def dollarDefault : Clause Gap where
  first := .named ['$']
  further := []
  beforeFrom := blank
  afterFrom := blank

/-- The declaration is lost, while the import for effects alone is listed. -/
theorem dollarDefault_lost :
    dollarDefault.IsWritten id blank ∧
    "import ".toList ++ (dollarDefault.text id ++ localFile.text) = "import $ from './a'".toList ∧
    extract .code "import $ from './a'" = [] ∧
    extract .code "import './a'" = ["./a"] := by
  decide +kernel

end Declarations

end ImportAtlas.Reference
