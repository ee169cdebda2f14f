import ImportAtlas.Proofs.Reference.Scanning

set_option autoImplicit false

/-!
# Written references

The references of a file as they are written.  An item is a load (a static import or
an `@import`) or a call of one quoted specifier; a source is made of items with filler
around them.

The blanks between the tokens of an item are not part of the tokens.  An item holds
places for gaps, and `lay` says what stands there; two layouts of one item are two
such functions.

A load whose clause is spaced as the form wants it is read back, and so is a call
with no blanks inside its parentheses (`read?_load`, `read?_call`).
-/

namespace ImportAtlas.Reference

open Text

/-! ## Items -/

/-- Blanks between two tokens; there may be none. -/
abbrev Gap := { gap : List Char // ∀ c ∈ gap, isBlank c = true }

def Gap.of (text : String) (h : text.toList.all isBlank = true) : Gap :=
  ⟨text.toList, List.all_eq_true.mp h⟩

/-- A quoted specifier.  The quotes need not be the same. -/
structure Quoted where
  opening : Char
  specifier : List Char
  closing : Char
  isQuote_opening : isQuote opening = true
  specifier_ne_nil : specifier ≠ []
  specifier_unquoted : IsUnquoted specifier
  isQuote_closing : isQuote closing = true

def Quoted.text (quoted : Quoted) : List Char :=
  quoted.opening :: (quoted.specifier ++ [quoted.closing])

def Quoted.of (opening : Char) (specifier : String) (closing : Char)
    (h : (isQuote opening && !specifier.toList.isEmpty &&
      specifier.toList.all (fun c => !isQuote c) && isQuote closing) = true) : Quoted :=
  have hparts : ((isQuote opening = true ∧ specifier.toList ≠ []) ∧ IsUnquoted specifier.toList) ∧
      isQuote closing = true := by
    simpa [IsUnquoted] using h
  ⟨opening, specifier.toList, closing, hparts.1.1.1, hparts.1.1.2, hparts.1.2, hparts.2⟩

/-- A binding of a static import.  The tokens of a braced list may be any texts. -/
inductive Binding (G : Type) where
  /-- a braced list: the gap behind the brace, and tokens, each with the gap behind it -/
  | braced (lead : G) (tokens : List (List Char × G))
  /-- `* as` and a name -/
  | all (beforeAs afterAs : G) (name : List Char)
  | named (name : List Char)

/-- Whether a binding ends with a name; else it ends with a brace. -/
def Binding.endsInName {G : Type} : Binding G → Bool
  | braced .. => false
  | all .. | named _ => true

/-- A binding behind a comma. -/
structure FurtherBinding (G : Type) where
  beforeComma : G
  afterComma : G
  binding : Binding G

/-- The bindings of a static import with the word `from`. -/
structure Clause (G : Type) where
  first : Binding G
  further : List (FurtherBinding G)
  beforeFrom : G
  afterFrom : G

inductive Item (G : Type) where
  | load (afterWord : G) (clause : Option (Clause G)) (quoted : Quoted)
  | call (afterWord afterOpen : G) (quoted : Quoted) (beforeClose : G)

/-- Items, each with the filler behind it, and the filler before them. -/
structure Source (G : Type) where
  lead : List Char
  items : List (Item G × List Char)

/-! ## Texts -/

section Texts

variable {G : Type} (lay : G → Gap)

/-- The inside of a braced list. -/
def tokensText : List (List Char × G) → List Char
  | [] => []
  | (token, gap) :: rest => token ++ ((lay gap).val ++ tokensText rest)

def Binding.text : Binding G → List Char
  | braced lead tokens => '{' :: ((lay lead).val ++ (tokensText lay tokens ++ ['}']))
  | all beforeAs afterAs name =>
    '*' :: ((lay beforeAs).val ++ ("as".toList ++ ((lay afterAs).val ++ name)))
  | named name => name

def furtherText : List (FurtherBinding G) → List Char
  | [] => []
  | next :: rest =>
    (lay next.beforeComma).val ++
      ',' :: ((lay next.afterComma).val ++ (next.binding.text lay ++ furtherText rest))

/-- The word `from` with the gaps around it. -/
def Clause.fromText (clause : Clause G) : List Char :=
  (lay clause.beforeFrom).val ++ ("from".toList ++ (lay clause.afterFrom).val)

def Clause.text (clause : Clause G) : List Char :=
  clause.first.text lay ++ (furtherText lay clause.further ++ clause.fromText lay)

/-- The text of the clause, if there is one. -/
def clauseText : Option (Clause G) → List Char
  | none => []
  | some clause => clause.text lay

/-- What stands behind the word of an item. -/
def Item.behindWord : Item G → List Char
  | load afterWord clause quoted => (lay afterWord).val ++ (clauseText lay clause ++ quoted.text)
  | call afterWord afterOpen quoted beforeClose =>
    (lay afterWord).val ++
      '(' :: ((lay afterOpen).val ++ (quoted.text ++ ((lay beforeClose).val ++ [')'])))

/-- The form of the loads in a kind of file. -/
def loadForm : SourceKind → Form
  | .code => .staticImport
  | .style => .styleImport

/-- The form of the calls in a kind of file. -/
def callForm : SourceKind → Form
  | .code => .require
  | .style => .url

def Item.form (kind : SourceKind) : Item G → Form
  | load .. => loadForm kind
  | call .. => callForm kind

def Item.text (kind : SourceKind) (item : Item G) : List Char :=
  (item.form kind).word.toList ++ item.behindWord lay

def itemsText (kind : SourceKind) : List (Item G × List Char) → List Char
  | [] => []
  | (item, filler) :: rest => item.text lay kind ++ (filler ++ itemsText kind rest)

def Source.text (kind : SourceKind) (source : Source G) : List Char :=
  source.lead ++ itemsText lay kind source.items

end Texts

def Item.quoted {G : Type} : Item G → Quoted
  | load _ _ quoted => quoted
  | call _ _ quoted _ => quoted

def Item.specifier {G : Type} (item : Item G) : String :=
  String.ofList item.quoted.specifier

def Item.clause? {G : Type} : Item G → Option (Clause G)
  | load _ clause _ => clause
  | call .. => none

/-! ## Spacing -/

section Spacing

variable {G : Type} (lay : G → Gap)

/-- A name of word characters. -/
def IsWordName (name : List Char) : Prop :=
  name ≠ [] ∧ ∀ c ∈ name, isWord c = true

instance (name : List Char) : Decidable (IsWordName name) :=
  decidable_of_iff (name ≠ [] ∧ name.all isWord = true) (by simp [IsWordName])

/-- Where blanks must stand they do, names are of word characters, and no token of a braced list
closes it. -/
def Binding.IsReadable : Binding G → Prop
  | braced _ tokens => ∀ token ∈ tokens, '}' ∉ token.1
  | all beforeAs afterAs name => (lay beforeAs).val ≠ [] ∧ (lay afterAs).val ≠ [] ∧ IsWordName name
  | named name => IsWordName name

instance : (binding : Binding G) → Decidable (binding.IsReadable lay)
  | .braced _ tokens => inferInstanceAs (Decidable (∀ token ∈ tokens, '}' ∉ token.1))
  | .all _ _ name => inferInstanceAs (Decidable (_ ∧ _ ∧ IsWordName name))
  | .named name => inferInstanceAs (Decidable (IsWordName name))

structure Clause.IsReadable (clause : Clause G) : Prop where
  first : clause.first.IsReadable lay
  further : ∀ next ∈ clause.further, next.binding.IsReadable lay
  beforeFrom : (lay clause.beforeFrom).val ≠ []
  afterFrom : (lay clause.afterFrom).val ≠ []

instance (clause : Clause G) : Decidable (clause.IsReadable lay) :=
  decidable_of_iff (clause.first.IsReadable lay ∧
      (∀ next ∈ clause.further, next.binding.IsReadable lay) ∧
      (lay clause.beforeFrom).val ≠ [] ∧ (lay clause.afterFrom).val ≠ [])
    ⟨fun ⟨hfirst, hfurther, hbefore, hafter⟩ => ⟨hfirst, hfurther, hbefore, hafter⟩,
      fun h => ⟨h.first, h.further, h.beforeFrom, h.afterFrom⟩⟩

/-- A load that its form reads.  In a stylesheet it has no clause. -/
def Item.IsReadable (kind : SourceKind) : Item G → Prop
  | load afterWord none _ => (lay afterWord).val ≠ []
  | load afterWord (some clause) _ =>
    kind = .code ∧ (lay afterWord).val ≠ [] ∧ clause.IsReadable lay
  | call .. => True

instance (kind : SourceKind) : (item : Item G) → Decidable (item.IsReadable lay kind)
  | .load _ none _ => inferInstanceAs (Decidable (_ ≠ _))
  | .load _ (some clause) _ => inferInstanceAs (Decidable (_ ∧ _ ∧ clause.IsReadable lay))
  | .call .. => inferInstanceAs (Decidable True)

/-- No blanks stand inside the parentheses of a call. -/
def Item.isTight : Item G → Bool
  | load .. => true
  | call _ afterOpen _ beforeClose => (lay afterOpen).val.isEmpty && (lay beforeClose).val.isEmpty

end Spacing

/-! ## Reading bindings -/

/-- A blank is no word character. -/
theorem isWord_eq_false_of_isBlank {c : Char} (h : isBlank c = true) : isWord c = false := by
  have hcodes : ([9, 10, 11, 12, 13, 28, 29, 30, 31, 32, 0x85, 0xA0, 0x1680, 0x2000, 0x2001, 0x2002,
      0x2003, 0x2004, 0x2005, 0x2006, 0x2007, 0x2008, 0x2009, 0x200A, 0x2028, 0x2029, 0x202F,
      0x205F, 0x3000].all fun n => !isWord (Char.ofNat n)) = true := by
    decide +kernel
  have hc := List.all_eq_true.mp hcodes c.toNat (by
    simp only [isBlank, Bool.or_eq_true, Bool.and_eq_true, decide_eq_true_eq, beq_iff_eq] at h
    simp only [List.mem_cons, List.not_mem_nil, or_false]
    omega)
  rw [Char.ofNat_toNat, Bool.not_eq_true'] at hc
  exact hc

theorem isBlank_eq_false_of_isWord {c : Char} (h : isWord c = true) : isBlank c = false := by
  by_contra hblank
  rw [isWord_eq_false_of_isBlank (by simpa using hblank)] at h
  cases h

/-- A name in front of the text ends there. -/
def EndsName (rest : List Char) : Prop :=
  ∀ c ∈ rest.head?, isWord c = false

theorem name?_append {name rest : List Char} (hname : IsWordName name)
    (hrest : EndsName rest) : name? (name ++ rest) = some rest := by
  obtain ⟨hne, hall⟩ := hname
  obtain ⟨c, name, rfl⟩ := List.exists_cons_of_ne_nil hne
  obtain ⟨hc, hall⟩ := List.forall_mem_cons.mp hall
  rw [List.cons_append, name?, if_pos hc, List.dropWhile_append_of_pos hall]
  cases rest with
  | nil => rfl
  | cons d rest => rw [List.dropWhile_cons_of_neg (by simp [hrest d rfl])]

/-- Before anything but a brace and a star, a binding is a name. -/
theorem binding?_eq_name? {s : List Char} (h : ∀ c ∈ s.head?, c ≠ '{' ∧ c ≠ '*') :
    binding? s = name? s := by
  cases s with
  | nil => rfl
  | cons c cs =>
    obtain ⟨hbrace, hstar⟩ := h c rfl
    unfold binding?
    split <;> simp_all

section Reading

variable {G : Type} {lay : G → Gap}

theorem closing_not_mem_tokensText {tokens : List (List Char × G)}
    (h : ∀ token ∈ tokens, '}' ∉ token.1) : '}' ∉ tokensText lay tokens := by
  induction tokens with
  | nil => exact List.not_mem_nil
  | cons token rest ih =>
    obtain ⟨htoken, hrest⟩ := List.forall_mem_cons.mp h
    have hgap : '}' ∉ (lay token.2).val := fun hmem =>
      absurd ((lay token.2).property _ hmem) (by decide)
    simp only [tokensText, List.mem_append, not_or]
    exact ⟨htoken, hgap, ih hrest⟩

/-- A namespace binding is as readable as its name. -/
theorem binding?_all {beforeAs afterAs : G} (hbefore : (lay beforeAs).val ≠ [])
    (hafter : (lay afterAs).val ≠ []) {name rest : List Char}
    (hname : ∀ c ∈ (name ++ rest).head?, isBlank c = false) :
    binding? ((Binding.all beforeAs afterAs name).text lay ++ rest) = name? (name ++ rest) := by
  have hblanks : blanks ("as".toList ++ ((lay afterAs).val ++ (name ++ rest))) =
      "as".toList ++ ((lay afterAs).val ++ (name ++ rest)) :=
    blanks_of_head (by rintro c ⟨⟩; decide)
  have htext : (Binding.all beforeAs afterAs name).text lay ++ rest =
      '*' :: ((lay beforeAs).val ++ ("as".toList ++ ((lay afterAs).val ++ (name ++ rest)))) := by
    simp only [Binding.text, List.cons_append, List.append_assoc]
  rw [htext, binding?, blanks?_append (lay beforeAs).property hbefore, hblanks]
  simp only [Option.bind_eq_bind, Option.bind_some, keyword?_append,
    blanks?_append (lay afterAs).property hafter, blanks_of_head hname]

/-- A readable binding is read up to its brace, or to what no name goes on with. -/
theorem binding?_text {binding : Binding G} (h : binding.IsReadable lay) {rest : List Char}
    (hrest : binding.endsInName = true → EndsName rest) :
    binding? (binding.text lay ++ rest) = some rest := by
  cases binding with
  | braced lead tokens =>
    have hinner : ∀ c ∈ (lay lead).val ++ tokensText lay tokens, (c != '}') = true := by
      intro c hmem
      rw [bne_iff_ne]
      rintro rfl
      rcases List.mem_append.mp hmem with hmem | hmem
      · exact absurd ((lay lead).property _ hmem) (by decide)
      · exact closing_not_mem_tokensText h hmem
    have htext : (Binding.braced lead tokens).text lay ++ rest =
        '{' :: (((lay lead).val ++ tokensText lay tokens) ++ '}' :: rest) := by
      simp [Binding.text]
    rw [htext, binding?, List.dropWhile_append_of_pos hinner,
      List.dropWhile_cons_of_neg (by decide), symbol?_cons]
  | all beforeAs afterAs name =>
    obtain ⟨hbefore, hafter, hname⟩ := h
    have hstart : ∀ c ∈ (name ++ rest).head?, isBlank c = false := by
      obtain ⟨c, cs, rfl⟩ := List.exists_cons_of_ne_nil hname.1
      rintro d ⟨⟩
      exact isBlank_eq_false_of_isWord (hname.2 c List.mem_cons_self)
    rw [binding?_all hbefore hafter hstart]
    exact name?_append hname (hrest rfl)
  | named name =>
    have hhead : ∀ c ∈ (name ++ rest).head?, c ≠ '{' ∧ c ≠ '*' := by
      obtain ⟨c, cs, rfl⟩ := List.exists_cons_of_ne_nil h.1
      rintro d ⟨⟩
      have hc := h.2 c List.mem_cons_self
      constructor <;> rintro rfl <;> exact absurd hc (by decide)
    rw [Binding.text, binding?_eq_name? hhead]
    exact name?_append h (hrest rfl)

theorem moreBindings?_of_no_comma {s : List Char} (h : symbol? ',' (blanks s) = none) :
    moreBindings? s = some s := by
  rw [moreBindings?]
  split <;> simp_all

theorem moreBindings?_of_comma {s r : List Char} (h : symbol? ',' (blanks s) = some r) :
    moreBindings? s = (binding? (blanks r)).bind moreBindings? := by
  rw [moreBindings?]
  split
  · simp_all
  · rename_i r' hr'
    obtain rfl : r = r' := Option.some.inj (h.symm.trans hr')
    split <;> simp_all

/-- A readable binding begins with a brace, a star or a word character. -/
theorem head_binding {binding : Binding G} (h : binding.IsReadable lay) (rest : List Char) :
    ∀ c ∈ (binding.text lay ++ rest).head?, c = '{' ∨ c = '*' ∨ isWord c = true := by
  cases binding with
  | braced => rintro c ⟨⟩; exact .inl rfl
  | all => rintro c ⟨⟩; exact .inr (.inl rfl)
  | named name =>
    obtain ⟨c, cs, rfl⟩ := List.exists_cons_of_ne_nil h.1
    rintro d ⟨⟩
    exact .inr (.inr (h.2 c List.mem_cons_self))

theorem blanks_binding {binding : Binding G} (h : binding.IsReadable lay) (rest : List Char) :
    blanks (binding.text lay ++ rest) = binding.text lay ++ rest :=
  blanks_of_head fun c hc => by
    rcases head_binding h rest c hc with rfl | rfl | hword
    · decide
    · decide
    · exact isBlank_eq_false_of_isWord hword

theorem head_gap (gap : Gap) (hne : gap.val ≠ []) (rest : List Char) :
    ∀ c ∈ (gap.val ++ rest).head?, isBlank c = true := by
  obtain ⟨c, cs, hgap⟩ := List.exists_cons_of_ne_nil hne
  rw [hgap]
  rintro d ⟨⟩
  exact gap.property c (by rw [hgap]; exact List.mem_cons_self)

theorem endsName_gap {gap : Gap} (hne : gap.val ≠ []) (rest : List Char) :
    EndsName (gap.val ++ rest) :=
  fun c hc => isWord_eq_false_of_isBlank (head_gap gap hne rest c hc)

theorem endsName_comma (gap : Gap) (rest : List Char) : EndsName (gap.val ++ ',' :: rest) := by
  by_cases hgap : gap.val = []
  · rw [hgap]
    rintro c ⟨⟩
    decide
  · exact endsName_gap hgap _

def lastBinding (first : Binding G) (further : List (FurtherBinding G)) : Binding G :=
  (further.map FurtherBinding.binding).getLastD first

/-- Behind the last of some bindings stands what is demanded of the text behind a name, if the
binding ends with one. -/
def Bounded (P : List Char → Prop) (first : Binding G) (further : List (FurtherBinding G))
    (rest : List Char) : Prop :=
  (lastBinding first further).endsInName = true → P rest

/-- Then it also stands behind the first of them, if a comma will do. -/
theorem Bounded.first {P : List Char → Prop} {first : Binding G}
    {further : List (FurtherBinding G)} {rest : List Char} (h : Bounded P first further rest)
    (hcomma : ∀ (gap : Gap) more, P (gap.val ++ ',' :: more)) (hname : first.endsInName = true) :
    P (furtherText lay further ++ rest) := by
  cases further with
  | nil => exact h hname
  | cons next further =>
    rw [furtherText, List.append_assoc]
    exact hcomma (lay next.beforeComma) _

theorem Bounded.tail {P : List Char → Prop} {first : Binding G} {next : FurtherBinding G}
    {further : List (FurtherBinding G)} {rest : List Char}
    (h : Bounded P first (next :: further) rest) : Bounded P next.binding further rest := by
  rwa [Bounded, lastBinding, List.map_cons, List.getLastD_cons] at h

theorem symbol?_furtherText (next : FurtherBinding G) (further : List (FurtherBinding G))
    (rest : List Char) :
    symbol? ',' (blanks (furtherText lay (next :: further) ++ rest)) =
      some ((lay next.afterComma).val ++
        (next.binding.text lay ++ (furtherText lay further ++ rest))) := by
  rw [furtherText, List.append_assoc, blanks_append (lay next.beforeComma).property,
    List.cons_append, blanks_of_head (by rintro c ⟨⟩; decide), symbol?_cons]
  simp only [List.append_assoc]

theorem moreBindings?_text {first : Binding G} {further : List (FurtherBinding G)}
    (h : ∀ next ∈ further, next.binding.IsReadable lay) {rest : List Char}
    (hbounded : Bounded EndsName first further rest) (hcomma : ∀ c ∈ (blanks rest).head?, c ≠ ',') :
    moreBindings? (furtherText lay further ++ rest) = some rest := by
  induction further generalizing first with
  | nil => exact moreBindings?_of_no_comma (symbol?_of_head hcomma)
  | cons next further ih =>
    obtain ⟨hnext, hfurther⟩ := List.forall_mem_cons.mp h
    rw [moreBindings?_of_comma (symbol?_furtherText next further rest),
      blanks_append (lay next.afterComma).property, blanks_binding hnext,
      binding?_text hnext (hbounded.tail.first endsName_comma), Option.bind_some,
        ih hfurther hbounded.tail]

theorem Clause.text_append (clause : Clause G) (rest : List Char) :
    clause.text lay ++ rest =
      clause.first.text lay ++ (furtherText lay clause.further ++
        (clause.fromText lay ++ rest)) := by
  simp only [text, List.append_assoc]

theorem Clause.fromText_append (clause : Clause G) (rest : List Char) :
    clause.fromText lay ++ rest = (lay clause.beforeFrom).val ++
      ("from".toList ++ ((lay clause.afterFrom).val ++ rest)) := by
  simp only [fromText, List.append_assoc]

theorem blanks_from (rest : List Char) : blanks ("from".toList ++ rest) = "from".toList ++ rest :=
  blanks_of_head (by rintro c ⟨⟩; decide)

theorem Clause.blanks_fromText (clause : Clause G) (rest : List Char) :
    blanks (clause.fromText lay ++ rest) = "from".toList ++
      ((lay clause.afterFrom).val ++ rest) := by
  rw [clause.fromText_append, blanks_append (lay clause.beforeFrom).property, blanks_from]

/-- What a clause holds besides its bindings is read behind them. -/
theorem clause?_eq (s : List Char) :
    clause? s = ((binding? s).bind moreBindings?).bind fun s =>
      (blanks? s).bind fun s => (keyword? "from" s).bind blanks? := by
  rw [Option.bind_assoc]
  rfl

/-- Readable bindings are read up to the gap in front of `from`. -/
theorem Clause.bindings_text {clause : Clause G} (hfirst : clause.first.IsReadable lay)
    (hfurther : ∀ next ∈ clause.further, next.binding.IsReadable lay)
    (hbefore : (lastBinding clause.first clause.further).endsInName = true →
      (lay clause.beforeFrom).val ≠ []) (rest : List Char) :
    (binding? (clause.text lay ++ rest)).bind moreBindings? =
      some (clause.fromText lay ++ rest) := by
  have hbounded : Bounded EndsName clause.first clause.further (clause.fromText lay ++ rest) :=
    fun hname => by
      rw [clause.fromText_append]
      exact endsName_gap (hbefore hname) _
  have hcomma : ∀ c ∈ (blanks (clause.fromText lay ++ rest)).head?, c ≠ ',' := by
    rw [clause.blanks_fromText]
    rintro c ⟨⟩
    decide
  rw [clause.text_append, binding?_text hfirst (hbounded.first endsName_comma), Option.bind_some,
    moreBindings?_text hfurther hbounded hcomma]

/-- A readable clause is read up to what is no blank. -/
theorem clause?_text {clause : Clause G} (h : clause.IsReadable lay) {rest : List Char}
    (hrest : ∀ c ∈ rest.head?, isBlank c = false) :
    clause? (clause.text lay ++ rest) = some rest := by
  rw [clause?_eq, Clause.bindings_text h.first h.further fun _ => h.beforeFrom, Option.bind_some,
    clause.fromText_append, blanks?_append (lay clause.beforeFrom).property h.beforeFrom,
    Option.bind_some, blanks_from, keyword?_append, Option.bind_some,
    blanks?_append (lay clause.afterFrom).property h.afterFrom, blanks_of_head hrest]

end Reading

/-! ## Reading items -/

theorem Quoted.text_append (quoted : Quoted) (rest : List Char) :
    quoted.text ++ rest = quoted.opening :: (quoted.specifier ++ quoted.closing :: rest) := by
  simp [text]

theorem Quoted.specifier?_text (quoted : Quoted) (rest : List Char) :
    specifier? (quoted.text ++ rest) = some (quoted.specifier, rest) := by
  rw [quoted.text_append]
  exact specifier?_of_closed quoted.isQuote_opening quoted.specifier_unquoted
    quoted.specifier_ne_nil quoted.isQuote_closing

theorem plain_of_isQuote {c : Char} (h : isQuote c = true) :
    isBlank c = false ∧ isWord c = false ∧ c ∉ ['(', ')', '{', '}', '*', ','] := by
  simp only [isQuote, Bool.or_eq_true, beq_iff_eq] at h
  rcases h with rfl | rfl <;> decide

theorem Quoted.head_text (quoted : Quoted) (rest : List Char) :
    ∀ c ∈ (quoted.text ++ rest).head?, isQuote c = true := by
  rintro c ⟨⟩
  exact quoted.isQuote_opening

theorem Quoted.blanks_text (quoted : Quoted) (rest : List Char) :
    blanks (quoted.text ++ rest) = quoted.text ++ rest :=
  blanks_of_head fun c hc => (plain_of_isQuote (quoted.head_text rest c hc)).1

/-- A quote begins no clause. -/
theorem Quoted.clause?_text (quoted : Quoted) (rest : List Char) :
    clause? (quoted.text ++ rest) = none := by
  have hquote := plain_of_isQuote quoted.isQuote_opening
  have hbinding : binding? (quoted.text ++ rest) = none := by
    have hhead : ∀ c ∈ (quoted.text ++ rest).head?, c ≠ '{' ∧ c ≠ '*' := by
      rintro c ⟨⟩
      constructor <;> intro h <;> simp [h] at hquote
    rw [binding?_eq_name? hhead]
    simp [Quoted.text, name?, hquote.2.1]
  rw [clause?, hbinding]
  rfl

section Reading

variable {G : Type} {lay : G → Gap} {kind : SourceKind}

theorem Item.load_text_append (afterWord : G) (clause : Option (Clause G)) (quoted : Quoted)
    (rest : List Char) :
    (load afterWord clause quoted).text lay kind ++ rest = (loadForm kind).word.toList ++
      ((lay afterWord).val ++ (clauseText lay clause ++ (quoted.text ++ rest))) := by
  simp only [text, form, behindWord, List.append_assoc]

theorem Item.call_text_append (afterWord afterOpen : G) (quoted : Quoted) (beforeClose : G)
    (rest : List Char) :
    (call afterWord afterOpen quoted beforeClose).text lay kind ++ rest =
      (callForm kind).word.toList ++ ((lay afterWord).val ++ '(' :: ((lay afterOpen).val ++
        (quoted.text ++ ((lay beforeClose).val ++ ')' :: rest)))) := by
  simp only [text, form, behindWord, List.append_assoc, List.cons_append, List.nil_append]

/-- The parts of a readable load. -/
theorem Item.IsReadable.load_parts {afterWord : G} {clause : Option (Clause G)} {quoted : Quoted}
    (h : (Item.load afterWord clause quoted).IsReadable lay kind) :
    (lay afterWord).val ≠ [] ∧ (∀ c ∈ clause, c.IsReadable lay) ∧
      (kind = .style → clause = none) := by
  cases clause with
  | none => exact ⟨h, by simp, fun _ => rfl⟩
  | some clause =>
    obtain ⟨hkind, hgap, hclause⟩ := h
    exact ⟨hgap, by rintro c ⟨⟩; exact hclause, by rintro rfl; cases hkind⟩

/-- What follows the word and the blanks of a load begins with no blank and no parenthesis. -/
theorem head_clauseText {clause : Option (Clause G)} (h : ∀ c ∈ clause, c.IsReadable lay)
    (quoted : Quoted) (rest : List Char) :
    ∀ c ∈ (clauseText lay clause ++ (quoted.text ++ rest)).head?, isBlank c = false ∧ c ≠ '(' := by
  cases clause with
  | none =>
    intro c hc
    obtain ⟨hblank, -, hmark⟩ := plain_of_isQuote (quoted.head_text rest c hc)
    exact ⟨hblank, by rintro rfl; simp at hmark⟩
  | some clause =>
    intro c hc
    rw [clauseText, Clause.text, List.append_assoc] at hc
    rcases head_binding (h clause rfl).first _ c hc with rfl | rfl | hword
    · decide
    · decide
    · exact ⟨isBlank_eq_false_of_isWord hword, by rintro rfl; exact absurd hword (by decide)⟩

/-- A readable load is read: its specifier, up to its end. -/
theorem read?_load {afterWord : G} {clause : Option (Clause G)} {quoted : Quoted}
    (h : (Item.load afterWord clause quoted).IsReadable lay kind) (rest : List Char) :
    (loadForm kind).read? ((Item.load afterWord clause quoted).text lay kind ++ rest) =
      some (quoted.specifier, rest) := by
  obtain ⟨hgap, hclause, hstyle⟩ := h.load_parts
  have hblanks : blanks? ((lay afterWord).val ++ (clauseText lay clause ++ (quoted.text ++ rest))) =
      some (clauseText lay clause ++ (quoted.text ++ rest)) := by
    rw [blanks?_append (lay afterWord).property hgap,
      blanks_of_head fun c hc => (head_clauseText hclause quoted rest c hc).1]
  rw [Item.load_text_append]
  cases kind with
  | code =>
    rw [loadForm, Form.word, Form.read?, keyword?_append]
    simp only [Option.bind_eq_bind, Option.bind_some, hblanks]
    cases clause with
    | none =>
      rw [clauseText, List.nil_append, quoted.clause?_text]
      exact quoted.specifier?_text rest
    | some clause =>
      rw [clauseText, clause?_text (hclause clause rfl) fun c hc =>
        (plain_of_isQuote (quoted.head_text rest c hc)).1]
      exact quoted.specifier?_text rest
  | style =>
    obtain rfl := hstyle rfl
    rw [loadForm, Form.word, Form.read?, keyword?_append]
    simp only [Option.bind_eq_bind, Option.bind_some, hblanks]
    exact quoted.specifier?_text rest

/-- A call is read as far as its parentheses are tight. -/
theorem quotedCall?_behindWord (afterWord afterOpen : G) (quoted : Quoted) (beforeClose : G)
    (rest : List Char) :
    quotedCall? ((lay afterWord).val ++ '(' :: ((lay afterOpen).val ++
        (quoted.text ++ ((lay beforeClose).val ++ ')' :: rest)))) =
      if (Item.call afterWord afterOpen quoted beforeClose).isTight lay then
        some (quoted.specifier, rest)
      else none := by
  rw [quotedCall?, blanks_append (lay afterWord).property, blanks_of_head (by rintro c ⟨⟩; decide),
    symbol?_cons]
  simp only [Option.bind_eq_bind, Option.bind_some, Item.isTight, Bool.and_eq_true]
  by_cases hopen : (lay afterOpen).val = []
  · rw [hopen, List.nil_append, quoted.specifier?_text, Option.bind_some]
    by_cases hclose : (lay beforeClose).val = []
    · simp [hclose]
    · have hsymbol : symbol? ')' ((lay beforeClose).val ++ ')' :: rest) = none :=
        symbol?_of_head fun c hc => by
          rintro rfl
          exact absurd (head_gap _ hclose _ _ hc) (by decide)
      simp [hclose, hsymbol]
  · have hspecifier : specifier? ((lay afterOpen).val ++
        (quoted.text ++ ((lay beforeClose).val ++ ')' :: rest))) = none :=
      specifier?_of_head fun c hc => by
        by_contra hquote
        rw [Bool.not_eq_false] at hquote
        have hblank := head_gap _ hopen _ c hc
        rw [(plain_of_isQuote hquote).1] at hblank
        cases hblank
    simp [hopen, hspecifier]

theorem read?_call (afterWord afterOpen : G) (quoted : Quoted) (beforeClose : G)
    (rest : List Char) :
    (callForm kind).read?
        ((Item.call afterWord afterOpen quoted beforeClose).text lay kind ++ rest) =
      if (Item.call afterWord afterOpen quoted beforeClose).isTight lay then
        some (quoted.specifier, rest)
      else none := by
  rw [Item.call_text_append, ← quotedCall?_behindWord]
  cases kind <;> rw [callForm, Form.word, Form.read?, keyword?_append] <;> rfl

end Reading

end ImportAtlas.Reference
