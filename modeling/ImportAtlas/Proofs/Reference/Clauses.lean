import ImportAtlas.Proofs.Reference.Items

set_option autoImplicit false

/-!
# Written clauses

A script binds names of letters, digits, `_` and `$`, and it needs blanks only where two
words would run together.  The static form reads names of word characters, among which
`$` is none, and wants blanks around every word outside braces.  Where a written clause
is not as the form wants it, the form reads none of it: it gets to the first `$` of a
name, or to a missing blank, and has no other way to go on.
-/

namespace ImportAtlas.Reference

open Text

/-! ## Identifiers -/

def isIdentifierChar (c : Char) : Bool :=
  c.isAlphanum || c == '_' || c == '$'

/-- A name that a script may bind. -/
structure IsIdentifier (name : List Char) : Prop where
  ne_nil : name ≠ []
  chars : ∀ c ∈ name, isIdentifierChar c = true
  head : ∀ c ∈ name.head?, c.isDigit = false

instance (name : List Char) : Decidable (IsIdentifier name) :=
  decidable_of_iff (name ≠ [] ∧ name.all isIdentifierChar = true ∧
      name.head?.all (fun c => !c.isDigit) = true)
    ⟨fun ⟨hne, hchars, hhead⟩ => ⟨hne, List.all_eq_true.mp hchars, fun c hc => by
        simpa using (Option.all_eq_true _ _).mp hhead c hc⟩,
      fun h => ⟨h.ne_nil, List.all_eq_true.mpr h.chars, (Option.all_eq_true _ _).mpr fun c hc => by
        simpa using h.head c hc⟩⟩

theorem toNat_lt_of_isAlphanum {c : Char} (h : c.isAlphanum = true) : c.toNat < 128 := by
  have hranges : ((decide ('A'.val ≤ c.val ∧ c.val ≤ 'Z'.val) ||
      (decide ('a'.val ≤ c.val) && decide (c.val ≤ 'z'.val))) ||
      (decide ('0'.val ≤ c.val) && decide (c.val ≤ '9'.val))) = true := h
  simp only [Bool.or_eq_true, Bool.and_eq_true, decide_eq_true_eq] at hranges
  rcases hranges with ((⟨-, hc⟩ | ⟨-, hc⟩) | ⟨-, hc⟩) <;>
    exact Nat.lt_of_le_of_lt (UInt32.le_iff_toNat_le.mp hc) (by decide)

/-- Of the characters of an identifier, `$` alone is no word character. -/
theorem isWord_of_isIdentifierChar {c : Char} (h : isIdentifierChar c = true) :
    isWord c = (c != '$') := by
  by_cases hdollar : c = '$'
  · subst hdollar
    decide
  · have hsmall : c.toNat < 128 := by
      simp only [isIdentifierChar, Bool.or_eq_true, beq_iff_eq] at h
      rcases h with ((h | rfl) | rfl)
      · exact toNat_lt_of_isAlphanum h
      · decide
      · decide
    have hother : (c.isAlphanum || c == '_') = true := by simpa [isIdentifierChar, hdollar] using h
    rw [isWord_ascii hsmall, hother, bne_iff_ne.mpr hdollar]

/-- They are no blanks, quotes or marks. -/
theorem plain_of_isIdentifierChar {c : Char} (h : isIdentifierChar c = true) :
    isBlank c = false ∧ isQuote c = false ∧ c ∉ ['(', ')', '{', '}', '*', ','] := by
  by_cases hdollar : c = '$'
  · subst hdollar
    decide
  · have hword : isWord c = true := by
      rw [isWord_of_isIdentifierChar h]
      simpa using hdollar
    refine ⟨isBlank_eq_false_of_isWord hword, ?_, ?_⟩
    · by_contra hquote
      rw [Bool.not_eq_false] at hquote
      rw [(plain_of_isQuote hquote).2.1] at hword
      cases hword
    · have hmarks : (['(', ')', '{', '}', '*', ','].all fun d => !isWord d) = true := by decide
      intro hmem
      have hc := List.all_eq_true.mp hmarks c hmem
      rw [hword] at hc
      cases hc

theorem IsIdentifier.head_plain {name : List Char} (h : IsIdentifier name) (rest : List Char) :
    ∀ c ∈ (name ++ rest).head?,
      isBlank c = false ∧ isQuote c = false ∧ c ∉ ['(', ')', '{', '}', '*', ','] := by
  obtain ⟨c, cs, rfl⟩ := List.exists_cons_of_ne_nil h.ne_nil
  rintro d ⟨⟩
  exact plain_of_isIdentifierChar (h.chars c List.mem_cons_self)

/-- A name is read up to its first `$`, if it has one. -/
theorem name?_of_dollar {name : List Char} (hchars : ∀ c ∈ name, isIdentifierChar c = true)
    (hdollar : '$' ∈ name) (rest : List Char) :
    ∀ r ∈ name? (name ++ rest), r.head? = some '$' := by
  obtain ⟨front, back, rfl, hfront⟩ := List.eq_append_cons_of_mem hdollar
  rw [List.append_assoc, List.cons_append]
  by_cases hne : front = []
  · rw [hne]
    have hword : isWord '$' = false := by decide
    simp [name?, hword]
  · have hword : IsWordName front := by
      refine ⟨hne, fun c hc => ?_⟩
      rw [isWord_of_isIdentifierChar (hchars c (List.mem_append_left _ hc)), bne_iff_ne]
      rintro rfl
      exact hfront hc
    rw [name?_append hword (by rintro c ⟨⟩; decide)]
    rintro r ⟨⟩
    rfl

/-! ## Written clauses -/

section Written

variable {G : Type} (lay : G → Gap)

/-- The names of a binding are identifiers, and so are the words of a braced list; blanks keep words
apart. -/
def Binding.IsWritten : Binding G → Prop
  | braced _ tokens => ∀ token ∈ tokens, token.1 = [','] ∨ IsIdentifier token.1
  | all _ afterAs name => (lay afterAs).val ≠ [] ∧ IsIdentifier name
  | named name => IsIdentifier name

instance : (binding : Binding G) → Decidable (binding.IsWritten lay)
  | .braced _ tokens =>
    inferInstanceAs (Decidable (∀ token ∈ tokens, token.1 = [','] ∨ IsIdentifier token.1))
  | .all _ _ name => inferInstanceAs (Decidable (_ ∧ IsIdentifier name))
  | .named name => inferInstanceAs (Decidable (IsIdentifier name))

def Binding.isNamed : Binding G → Bool
  | named _ => true
  | braced .. | all .. => false

/-- The bindings of a clause, in source order. -/
def Clause.bindings (clause : Clause G) : List (Binding G) :=
  clause.first :: clause.further.map FurtherBinding.binding

/-- A clause as a script may hold it behind the word and a gap. -/
structure Clause.IsWritten (afterWord : G) (clause : Clause G) : Prop where
  bindings : ∀ binding ∈ clause.bindings, binding.IsWritten lay
  afterWord : clause.first.isNamed = true → (lay afterWord).val ≠ []
  beforeFrom : (lastBinding clause.first clause.further).endsInName = true →
    (lay clause.beforeFrom).val ≠ []

instance (afterWord : G) (clause : Clause G) : Decidable (clause.IsWritten lay afterWord) :=
  decidable_of_iff ((∀ binding ∈ clause.bindings, binding.IsWritten lay) ∧
      (clause.first.isNamed = true → (lay afterWord).val ≠ []) ∧
      ((lastBinding clause.first clause.further).endsInName = true →
        (lay clause.beforeFrom).val ≠ []))
    ⟨fun ⟨hbindings, hafter, hbefore⟩ => ⟨hbindings, hafter, hbefore⟩,
      fun h => ⟨h.bindings, h.afterWord, h.beforeFrom⟩⟩

/-- What the static form demands of a written binding besides: no `$` in a name outside braces, and
blanks behind a star. -/
def Binding.IsRecognized : Binding G → Prop
  | braced .. => True
  | all beforeAs _ name => (lay beforeAs).val ≠ [] ∧ '$' ∉ name
  | named name => '$' ∉ name

instance : (binding : Binding G) → Decidable (binding.IsRecognized lay)
  | .braced .. => inferInstanceAs (Decidable True)
  | .all _ _ name => inferInstanceAs (Decidable (_ ∧ '$' ∉ name))
  | .named name => inferInstanceAs (Decidable ('$' ∉ name))

/-- What the static form demands of a written clause besides: this of its bindings, and blanks
behind the word and on both sides of `from`. -/
structure Clause.IsRecognized (afterWord : G) (clause : Clause G) : Prop where
  bindings : ∀ binding ∈ clause.bindings, binding.IsRecognized lay
  afterWord : (lay afterWord).val ≠ []
  beforeFrom : (lay clause.beforeFrom).val ≠ []
  afterFrom : (lay clause.afterFrom).val ≠ []

instance (afterWord : G) (clause : Clause G) : Decidable (clause.IsRecognized lay afterWord) :=
  decidable_of_iff ((∀ binding ∈ clause.bindings, binding.IsRecognized lay) ∧
      (lay afterWord).val ≠ [] ∧ (lay clause.beforeFrom).val ≠ [] ∧ (lay clause.afterFrom).val ≠ [])
    ⟨fun ⟨hbindings, hword, hbefore, hafter⟩ => ⟨hbindings, hword, hbefore, hafter⟩,
      fun h => ⟨h.bindings, h.afterWord, h.beforeFrom, h.afterFrom⟩⟩

end Written

section Reading

variable {G : Type} {lay : G → Gap}

theorem IsIdentifier.isWordName_iff {name : List Char} (h : IsIdentifier name) :
    IsWordName name ↔ '$' ∉ name := by
  have hword : ∀ c ∈ name, (isWord c = true ↔ c ≠ '$') := fun c hc => by
    rw [isWord_of_isIdentifierChar (h.chars c hc), bne_iff_ne]
  constructor
  · exact fun hname hdollar => (hword '$' hdollar).mp (hname.2 '$' hdollar) rfl
  · exact fun hdollar => ⟨h.ne_nil, fun c hc =>
      (hword c hc).mpr fun heq => hdollar (heq ▸ hc)⟩

theorem Binding.IsWritten.isReadable_iff {binding : Binding G} (h : binding.IsWritten lay) :
    binding.IsReadable lay ↔ binding.IsRecognized lay := by
  cases binding with
  | braced lead tokens =>
    refine iff_of_true (fun token htoken hbrace => ?_) trivial
    rcases h token htoken with hcomma | hname
    · rw [hcomma] at hbrace
      exact absurd hbrace (by decide)
    · exact (plain_of_isIdentifierChar (hname.chars _ hbrace)).2.2 (by simp)
  | all beforeAs afterAs name =>
    obtain ⟨hafter, hname⟩ := h
    simp [IsReadable, IsRecognized, hafter, hname.isWordName_iff]
  | named name =>
    have hname : IsIdentifier name := h
    exact hname.isWordName_iff

theorem Clause.IsWritten.further {afterWord : G} {clause : Clause G}
    (h : clause.IsWritten lay afterWord) :
    ∀ next ∈ clause.further, next.binding.IsWritten lay := fun _ hnext =>
  h.bindings _ (List.mem_cons_of_mem _ (List.mem_map_of_mem hnext))

/-- The recognized ones are the readable ones among the written clauses. -/
theorem Clause.IsWritten.isReadable_iff {afterWord : G} {clause : Clause G}
    (h : clause.IsWritten lay afterWord) (quoted : Quoted) :
    (Item.load afterWord (some clause) quoted).IsReadable lay .code ↔
      clause.IsRecognized lay afterWord := by
  have hall : (∀ binding ∈ clause.bindings, binding.IsRecognized lay) ↔
      clause.first.IsReadable lay ∧ ∀ next ∈ clause.further, next.binding.IsReadable lay := by
    refine (forall₂_congr fun binding hbinding =>
      (h.bindings binding hbinding).isReadable_iff.symm).trans ?_
    simp [Clause.bindings]
  constructor
  · rintro ⟨-, hword, hclause⟩
    exact ⟨hall.mpr ⟨hclause.first, hclause.further⟩, hword, hclause.beforeFrom, hclause.afterFrom⟩
  · intro hrecognized
    obtain ⟨hfirst, hfurther⟩ := hall.mp hrecognized.bindings
    exact ⟨rfl, hrecognized.afterWord, hfirst, hfurther, hrecognized.beforeFrom,
      hrecognized.afterFrom⟩

/-! ## Reading a written clause -/

/-- A written binding begins with no blank, quote or parenthesis. -/
theorem Binding.IsWritten.head {binding : Binding G} (h : binding.IsWritten lay)
    (rest : List Char) :
    ∀ c ∈ (binding.text lay ++ rest).head?, isBlank c = false ∧ isQuote c = false ∧ c ≠ '(' := by
  cases binding with
  | braced => rintro c ⟨⟩; decide
  | all => rintro c ⟨⟩; decide
  | named name =>
    have hname : IsIdentifier name := h
    intro c hc
    obtain ⟨hblank, hquote, hmark⟩ := hname.head_plain rest c hc
    exact ⟨hblank, hquote, by rintro rfl; simp at hmark⟩

/-- Of a written binding that is not recognized nothing is read, or it is read up to a `$`. -/
theorem Binding.IsWritten.binding?_of_not {binding : Binding G} (h : binding.IsWritten lay)
    (hnot : ¬ binding.IsRecognized lay) (rest : List Char) :
    ∀ r ∈ binding? (binding.text lay ++ rest), r.head? = some '$' := by
  cases binding with
  | braced => exact absurd trivial hnot
  | all beforeAs afterAs name =>
    obtain ⟨hafter, hname⟩ := h
    by_cases hbefore : (lay beforeAs).val = []
    · have hletter : isBlank 'a' = false := by decide
      simp [text, hbefore, binding?, blanks?, hletter]
    · have hdollar : '$' ∈ name := by
        by_contra habsent
        exact hnot ⟨hbefore, habsent⟩
      rw [binding?_all hbefore hafter fun c hc => (hname.head_plain rest c hc).1]
      exact name?_of_dollar hname.chars hdollar rest
  | named name =>
    have hname : IsIdentifier name := h
    have hdollar : '$' ∈ name := by
      by_contra habsent
      exact hnot habsent
    have hhead : ∀ c ∈ (name ++ rest).head?, c ≠ '{' ∧ c ≠ '*' := fun c hc => by
      have hmark := (hname.head_plain rest c hc).2.2
      constructor <;> rintro rfl <;> simp at hmark
    rw [text, binding?_eq_name? hhead]
    exact name?_of_dollar hname.chars hdollar rest

/-- Behind a `$` no binding goes on. -/
theorem moreBindings?_of_dollar {s : List Char} (h : s.head? = some '$') :
    moreBindings? s = some s := by
  have hblanks : blanks s = s := blanks_of_head (by rw [h]; rintro c ⟨⟩; decide)
  refine moreBindings?_of_no_comma (symbol?_of_head ?_)
  rw [hblanks, h]
  rintro c ⟨⟩
  decide

theorem bind_moreBindings?_of_dollar {s : List Char}
    (h : ∀ r ∈ binding? s, r.head? = some '$') :
    ∀ r ∈ (binding? s).bind moreBindings?, r.head? = some '$' := by
  intro r hr
  obtain ⟨t, ht, hmore⟩ := Option.bind_eq_some_iff.mp hr
  rw [moreBindings?_of_dollar (h t ht)] at hmore
  cases hmore
  exact h r ht

/-- Some written bindings that are not all recognized are read up to a `$` or not at all. -/
theorem bind_moreBindings?_of_not {first : Binding G} {further : List (FurtherBinding G)}
    (hfirst : first.IsWritten lay) (hfurther : ∀ next ∈ further, next.binding.IsWritten lay)
    (hnot : ¬ (first.IsRecognized lay ∧ ∀ next ∈ further, next.binding.IsRecognized lay))
    {rest : List Char} (hbounded : Bounded EndsName first further rest) :
    ∀ r ∈ (binding? (first.text lay ++ (furtherText lay further ++ rest))).bind moreBindings?,
      r.head? = some '$' := by
  induction further generalizing first with
  | nil =>
    exact bind_moreBindings?_of_dollar (hfirst.binding?_of_not (fun h => hnot ⟨h, by simp⟩) _)
  | cons next further ih =>
    by_cases hrecognized : first.IsRecognized lay
    · obtain ⟨hnext, hfurther⟩ := List.forall_mem_cons.mp hfurther
      have hstart : blanks (next.binding.text lay ++ (furtherText lay further ++ rest)) =
          next.binding.text lay ++ (furtherText lay further ++ rest) :=
        blanks_of_head fun c hc => (hnext.head _ c hc).1
      rw [binding?_text (hfirst.isReadable_iff.mpr hrecognized) (hbounded.first endsName_comma),
        Option.bind_some, moreBindings?_of_comma (symbol?_furtherText next further rest),
        blanks_append (lay next.afterComma).property, hstart]
      exact ih hnext hfurther
        (fun hall => hnot ⟨hrecognized, List.forall_mem_cons.mpr hall⟩) hbounded.tail
    · exact bind_moreBindings?_of_dollar (hfirst.binding?_of_not hrecognized _)

/-- Behind a `$` no clause goes on. -/
theorem clause?_of_dollar {s : List Char}
    (h : ∀ r ∈ (binding? s).bind moreBindings?, r.head? = some '$') : clause? s = none := by
  rw [clause?_eq]
  cases hread : (binding? s).bind moreBindings? with
  | none => rfl
  | some r =>
    have hblanks : blanks? r = none :=
      blanks?_of_head (by rw [h r hread]; rintro c ⟨⟩; decide)
    rw [Option.bind_some, hblanks, Option.bind_none]

/-- Behind its bindings no clause goes on where a blank is missing beside `from`. -/
theorem clause?_of_no_blanks {clause : Clause G} (hfirst : clause.first.IsReadable lay)
    (hfurther : ∀ next ∈ clause.further, next.binding.IsReadable lay)
    (hlast : (lastBinding clause.first clause.further).endsInName = true →
      (lay clause.beforeFrom).val ≠ [])
    (hnot : ¬ ((lay clause.beforeFrom).val ≠ [] ∧ (lay clause.afterFrom).val ≠ []))
    (quoted : Quoted) (rest : List Char) :
    clause? (clause.text lay ++ (quoted.text ++ rest)) = none := by
  rw [clause?_eq, Clause.bindings_text hfirst hfurther hlast, Option.bind_some,
    clause.fromText_append]
  by_cases hbefore : (lay clause.beforeFrom).val = []
  · have hblanks : blanks? ("from".toList ++ ((lay clause.afterFrom).val ++
        (quoted.text ++ rest))) = none := blanks?_of_head (by rintro c ⟨⟩; decide)
    rw [hbefore, List.nil_append, hblanks, Option.bind_none]
  · have hafter : (lay clause.afterFrom).val = [] := by
      by_contra hafter
      exact hnot ⟨hbefore, hafter⟩
    rw [blanks?_append (lay clause.beforeFrom).property hbefore, Option.bind_some, blanks_from,
      keyword?_append, Option.bind_some, hafter, List.nil_append]
    exact blanks?_of_head fun c hc => (plain_of_isQuote (quoted.head_text rest c hc)).1

/-- Where the static form demands more of a written clause, it reads none. -/
theorem Clause.IsWritten.clause?_of_not {afterWord : G} {clause : Clause G}
    (h : clause.IsWritten lay afterWord)
    (hnot : ¬ ((clause.first.IsRecognized lay ∧
        ∀ next ∈ clause.further, next.binding.IsRecognized lay) ∧
      (lay clause.beforeFrom).val ≠ [] ∧ (lay clause.afterFrom).val ≠ []))
    (quoted : Quoted) (rest : List Char) :
    clause? (clause.text lay ++ (quoted.text ++ rest)) = none := by
  have hfirst : clause.first.IsWritten lay := h.bindings _ List.mem_cons_self
  by_cases hall : clause.first.IsRecognized lay ∧
      ∀ next ∈ clause.further, next.binding.IsRecognized lay
  · exact clause?_of_no_blanks (hfirst.isReadable_iff.mpr hall.1)
      (fun next hnext => (h.further next hnext).isReadable_iff.mpr (hall.2 next hnext))
      h.beforeFrom (fun hblanks => hnot ⟨hall, hblanks⟩) quoted rest
  · have hbounded : Bounded EndsName clause.first clause.further
        (clause.fromText lay ++ (quoted.text ++ rest)) := fun hname => by
      rw [clause.fromText_append]
      exact endsName_gap (h.beforeFrom hname) _
    rw [clause.text_append]
    exact clause?_of_dollar (bind_moreBindings?_of_not hfirst h.further hall hbounded)

/-- A written clause begins as its first binding does. -/
theorem Clause.IsWritten.head {afterWord : G} {clause : Clause G}
    (h : clause.IsWritten lay afterWord) (rest : List Char) :
    ∀ c ∈ (clause.text lay ++ rest).head?, isBlank c = false ∧ isQuote c = false ∧ c ≠ '(' := by
  rw [clause.text_append]
  exact (h.bindings _ List.mem_cons_self).head _

/-- No import is read behind whose blanks neither a clause nor a quote stands. -/
theorem read?_of_no_clause {gap : Gap} {s : List Char}
    (hhead : ∀ c ∈ s.head?, isBlank c = false ∧ isQuote c = false)
    (hclause : gap.val ≠ [] → clause? s = none) :
    Form.staticImport.read? ("import".toList ++ (gap.val ++ s)) = none := by
  have hstart : ∀ c ∈ s.head?, isBlank c = false := fun c hc => (hhead c hc).1
  rw [Form.read?, keyword?_append]
  simp only [Option.bind_eq_bind, Option.bind_some]
  by_cases hgap : gap.val = []
  · rw [hgap, List.nil_append, blanks?_of_head hstart, Option.bind_none]
  · rw [blanks?_append gap.property hgap, Option.bind_some, blanks_of_head hstart, hclause hgap]
    exact specifier?_of_head fun c hc => (hhead c hc).2

/-- A written clause that is not recognized keeps its load from being read. -/
theorem Clause.IsWritten.read?_of_not {afterWord : G} {clause : Clause G}
    (h : clause.IsWritten lay afterWord) (hnot : ¬ clause.IsRecognized lay afterWord)
    (quoted : Quoted) (rest : List Char) :
    Form.staticImport.read? ("import".toList ++ ((lay afterWord).val ++
      (clause.text lay ++ (quoted.text ++ rest)))) = none := by
  refine read?_of_no_clause (fun c hc => ?_) fun hword => h.clause?_of_not ?_ quoted rest
  · obtain ⟨hblank, hquote, -⟩ := h.head _ c hc
    exact ⟨hblank, hquote⟩
  · rintro ⟨⟨hfirst, hfurther⟩, hbefore, hafter⟩
    exact hnot ⟨by simpa [Clause.bindings] using ⟨hfirst, hfurther⟩, hword, hbefore, hafter⟩

end Reading

end ImportAtlas.Reference
