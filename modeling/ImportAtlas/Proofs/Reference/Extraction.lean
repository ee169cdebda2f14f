import ImportAtlas.Proofs.Reference.Items

set_option autoImplicit false

/-!
# What is extracted from a source

A scan goes through a source item by item (`scan_item`): it lists the specifier of
each item of its own form that can be read, and passes over the others and over the
fillers.  So the references of a source are the specifiers of its loads followed by
those of its calls (`extract_exact`).
-/

namespace ImportAtlas.Reference

open Text

variable {G : Type} {lay : G → Gap} {kind : SourceKind} {form : Form}

/-! ## Forms of one kind of file -/

theorem loadForm_mem_forms (kind : SourceKind) : loadForm kind ∈ forms kind := by
  cases kind <;> decide

theorem callForm_mem_forms (kind : SourceKind) : callForm kind ∈ forms kind := by
  cases kind <;> decide

theorem Item.form_mem_forms (kind : SourceKind) (item : Item G) : item.form kind ∈ forms kind := by
  cases item with
  | load => exact loadForm_mem_forms kind
  | call => exact callForm_mem_forms kind

/-- Of the forms of a kind of file all but the loads are calls. -/
theorem isCall_of_ne_loadForm (hform : form ∈ forms kind) (h : form ≠ loadForm kind) :
    form.isCall = true := by
  revert form
  cases kind <;> decide

/-- The word of a call stands in no other form's word. -/
theorem absent_of_ne_callForm (hform : form ∈ forms kind) (h : form ≠ callForm kind) :
    ¬ form.word.toList <:+: (callForm kind).word.toList := by
  revert form
  cases kind <;> decide +kernel

/-- The word of a load stands in no form's word but its own. -/
theorem absent_of_word_ne (hform : form ∈ forms kind) (h : form.word ≠ (loadForm kind).word) :
    ¬ form.word.toList <:+: (loadForm kind).word.toList := by
  revert form
  cases kind <;> decide +kernel

/-! ## Items -/

/-- The form begins nowhere inside the item: not in its specifier and, if it is a call, not in its
clause. -/
structure Item.IsSilent (form : Form) (lay : G → Gap) (item : Item G) : Prop where
  specifier : form.IsSilent item.quoted.specifier
  clause : form.isCall = true → form.IsSilent (clauseText lay item.clause?)

instance (form : Form) (lay : G → Gap) (item : Item G) : Decidable (item.IsSilent form lay) :=
  decidable_of_iff (form.IsSilent item.quoted.specifier ∧
      (form.isCall = true → form.IsSilent (clauseText lay item.clause?)))
    ⟨fun ⟨hspecifier, hclause⟩ => ⟨hspecifier, hclause⟩, fun h => ⟨h.specifier, h.clause⟩⟩

theorem Gap.not_mem_word (gap : Gap) (form : Form) : ∀ c ∈ gap.val, c ∉ form.word.toList :=
  fun c hc => Form.not_mem_word (.inl (gap.property c hc))

/-- No word goes on in a gap. -/
theorem Gap.head_not_mem_tail {gap : Gap} (hne : gap.val ≠ []) (form : Form) (rest : List Char) :
    ∀ c ∈ (gap.val ++ rest).head?, c ∉ form.word.toList.tail := by
  intro c hc hmem
  exact Form.not_mem_word (.inl (head_gap gap hne rest c hc)) (List.mem_of_mem_tail hmem)

/-- No word goes on in a gap before a mark. -/
theorem Gap.head_cons_not_mem_tail (gap : Gap) {c : Char} (hc : c ∉ form.word.toList)
    (rest : List Char) : ∀ d ∈ (gap.val ++ c :: rest).head?, d ∉ form.word.toList.tail := by
  by_cases hne : gap.val = []
  · rw [hne]
    exact Form.head_not_mem_tail hc rest
  · exact Gap.head_not_mem_tail hne form _

/-- A readable load is listed by its own form. -/
theorem scan_readable_load {afterWord : G} {clause : Option (Clause G)} {quoted : Quoted}
    (h : (Item.load afterWord clause quoted).IsReadable lay kind) (rest : List Char) :
    (loadForm kind).scan ((Item.load afterWord clause quoted).text lay kind ++ rest) =
      String.ofList quoted.specifier :: (loadForm kind).scan rest := by
  have hne : (Item.load afterWord clause quoted).text lay kind ≠ [] := by
    obtain ⟨c, word, hword⟩ := (loadForm kind).exists_word_eq_cons
    simp [Item.text, Item.form, hword]
  exact Form.scan_of_some hne (read?_load h rest)

theorem scan_quoted {quoted : Quoted} (h : form.IsSilent quoted.specifier) (rest : List Char) :
    form.scan (quoted.text ++ rest) = form.scan rest := by
  rw [quoted.text_append, Form.scan_cons (Form.not_mem_word (.inr (.inl quoted.isQuote_opening))),
    Form.scan_append_of_isSilent rest h (Form.isWall_of_isQuote quoted.isQuote_closing form),
    Form.scan_cons (Form.not_mem_word (.inr (.inl quoted.isQuote_closing)))]

/-- A call is not found in a load before its specifier: the word of the load is not the call's, or
it does not go on as the call would. -/
theorem scan_load_head (hform : form ∈ forms kind) (hcall : form.isCall = true) {afterWord : G}
    {clause : Option (Clause G)} {quoted : Quoted} {rest : List Char}
    (hclause : form.IsSilent (clauseText lay clause))
    (hhead : ∀ c ∈ (clauseText lay clause ++ (quoted.text ++ rest)).head?,
      isBlank c = false ∧ c ≠ '(')
    (hgap : ∀ c ∈ ((lay afterWord).val ++ (clauseText lay clause ++ (quoted.text ++ rest))).head?,
      c ∉ form.word.toList.tail) :
    form.scan ((Item.load afterWord clause quoted).text lay kind ++ rest) =
      form.scan (quoted.text ++ rest) := by
  have hbehind : form.scan
      ((lay afterWord).val ++ (clauseText lay clause ++ (quoted.text ++ rest))) =
      form.scan (quoted.text ++ rest) := by
    rw [Form.scan_append_of_not_mem ((lay afterWord).not_mem_word form), quoted.text_append]
    exact Form.scan_append_of_isSilent _ hclause
      (Form.isWall_of_isQuote quoted.isQuote_opening form)
  rw [Item.load_text_append]
  by_cases hword : form.word = (loadForm kind).word
  · have hopens : form.opens (form.word.toList ++ ((lay afterWord).val ++
        (clauseText lay clause ++ (quoted.text ++ rest)))) = false := by
      rw [Form.opens_word, hcall, blanks_append (lay afterWord).property,
        blanks_of_head fun c hc => (hhead c hc).1, symbol?_of_head fun c hc => (hhead c hc).2]
      rfl
    rw [← hword, Form.scan_word_append (Form.read?_eq_none_of_not_opens hopens) hgap, hbehind]
  · rw [Form.scan_append (absent_of_word_ne hform hword) hgap, hbehind]

/-- A scan lists a load of its form and passes over it otherwise. -/
theorem scan_load (hform : form ∈ forms kind) {afterWord : G} {clause : Option (Clause G)}
    {quoted : Quoted} (h : (Item.load afterWord clause quoted).IsReadable lay kind)
    (hsilent : (Item.load afterWord clause quoted).IsSilent form lay) (rest : List Char) :
    form.scan ((Item.load afterWord clause quoted).text lay kind ++ rest) =
      (if loadForm kind = form then [String.ofList quoted.specifier] else []) ++
        form.scan rest := by
  by_cases hload : loadForm kind = form
  · subst hload
    rw [if_pos rfl, scan_readable_load h, List.singleton_append]
  · have hcall := isCall_of_ne_loadForm hform (Ne.symm hload)
    have hspecifier : form.IsSilent quoted.specifier := hsilent.specifier
    have hinside : form.IsSilent (clauseText lay clause) := hsilent.clause hcall
    obtain ⟨hgap, hclause, -⟩ := h.load_parts
    rw [if_neg hload, List.nil_append, scan_load_head hform hcall hinside
      (head_clauseText hclause quoted rest) (Gap.head_not_mem_tail hgap form _),
      scan_quoted hspecifier]

/-- Behind the word of a call nothing is found. -/
theorem scan_call_behind {afterWord afterOpen beforeClose : G} {quoted : Quoted}
    (h : form.IsSilent quoted.specifier) (rest : List Char) :
    form.scan ((lay afterWord).val ++ '(' :: ((lay afterOpen).val ++
      (quoted.text ++ ((lay beforeClose).val ++ ')' :: rest)))) = form.scan rest := by
  rw [Form.scan_append_of_not_mem ((lay afterWord).not_mem_word form),
    Form.scan_cons (Form.not_mem_word (by simp)),
    Form.scan_append_of_not_mem ((lay afterOpen).not_mem_word form), scan_quoted h,
    Form.scan_append_of_not_mem ((lay beforeClose).not_mem_word form),
    Form.scan_cons (Form.not_mem_word (by simp))]

/-- A scan lists a tight call of its form and passes over any other call. -/
theorem scan_call (hform : form ∈ forms kind) {afterWord afterOpen beforeClose : G}
    {quoted : Quoted}
    (h : form.IsSilent quoted.specifier) (rest : List Char) :
    form.scan ((Item.call afterWord afterOpen quoted beforeClose).text lay kind ++ rest) =
      (if callForm kind = form ∧
          (Item.call afterWord afterOpen quoted beforeClose).isTight lay = true then
        [String.ofList quoted.specifier] else []) ++ form.scan rest := by
  have hread := @read?_call G lay kind afterWord afterOpen quoted beforeClose rest
  have hgap : ∀ c ∈ ((lay afterWord).val ++ '(' :: ((lay afterOpen).val ++
      (quoted.text ++ ((lay beforeClose).val ++ ')' :: rest)))).head?,
      c ∉ form.word.toList.tail :=
    (lay afterWord).head_cons_not_mem_tail (Form.not_mem_word (by simp)) _
  by_cases hcall : callForm kind = form
  · subst hcall
    cases htight : (Item.call afterWord afterOpen quoted beforeClose).isTight lay with
    | true =>
      have hne : (Item.call afterWord afterOpen quoted beforeClose).text lay kind ≠ [] := by
        obtain ⟨c, word, hword⟩ := (callForm kind).exists_word_eq_cons
        simp [Item.text, Item.form, hword]
      rw [htight, if_pos rfl] at hread
      rw [if_pos ⟨rfl, rfl⟩, Form.scan_of_some hne hread, List.singleton_append]
    | false =>
      rw [htight, if_neg (by decide), Item.call_text_append] at hread
      rw [if_neg (by simp), List.nil_append, Item.call_text_append,
        Form.scan_word_append hread hgap, scan_call_behind h]
  · rw [if_neg fun h => hcall h.1, List.nil_append, Item.call_text_append,
      Form.scan_append (absent_of_ne_callForm hform (Ne.symm hcall)) hgap, scan_call_behind h]

/-- A scan goes through an item: it lists the specifier if the item is of its form and can be read,
and passes over the item otherwise. -/
theorem scan_item (hform : form ∈ forms kind) {item : Item G} (h : item.IsReadable lay kind)
    (hsilent : item.IsSilent form lay) (rest : List Char) :
    form.scan (item.text lay kind ++ rest) =
      (if item.form kind = form ∧ item.isTight lay = true then [item.specifier] else []) ++
        form.scan rest := by
  cases item with
  | load afterWord clause quoted =>
    rw [scan_load hform h hsilent rest]
    simp [Item.form, Item.isTight, Item.specifier, Item.quoted]
  | call afterWord afterOpen quoted beforeClose => exact scan_call hform hsilent.specifier rest

/-! ## Sources -/

/-- Fillers and items in which the form begins only with an item. -/
structure Source.IsSilent (form : Form) (lay : G → Gap) (source : Source G) : Prop where
  lead : ¬ form.word.toList <:+: source.lead
  fillers : ∀ block ∈ source.items, ¬ form.word.toList <:+: block.2
  items : ∀ block ∈ source.items, block.1.IsSilent form lay

instance (form : Form) (lay : G → Gap) (source : Source G) : Decidable (source.IsSilent form lay) :=
  decidable_of_iff (¬ form.word.toList <:+: source.lead ∧
      (∀ block ∈ source.items, ¬ form.word.toList <:+: block.2) ∧
      ∀ block ∈ source.items, block.1.IsSilent form lay)
    ⟨fun ⟨hlead, hfillers, hitems⟩ => ⟨hlead, hfillers, hitems⟩,
      fun h => ⟨h.lead, h.fillers, h.items⟩⟩

/-- The items of a form that its scan can read. -/
def Source.found (form : Form) (lay : G → Gap) (kind : SourceKind) (source : Source G) :
    List (Item G) :=
  (source.items.map (·.1)).filter fun item => item.form kind = form ∧ item.isTight lay = true

/-- A filler in front of items, or at the end of the text, is passed over. -/
theorem scan_filler_items (hform : form ∈ forms kind) {filler : List Char}
    (hfiller : ¬ form.word.toList <:+: filler) (items : List (Item G × List Char)) :
    form.scan (filler ++ itemsText lay kind items) = form.scan (itemsText lay kind items) := by
  cases items with
  | nil =>
    rw [itemsText, List.append_nil, Form.scan_eq_nil hfiller]
    rfl
  | cons block items =>
    rw [itemsText, Item.text, List.append_assoc]
    exact Form.scan_filler_append hform (block.1.form_mem_forms kind) hfiller _

theorem scan_itemsText (hform : form ∈ forms kind) {items : List (Item G × List Char)}
    (hread : ∀ block ∈ items, block.1.IsReadable lay kind)
    (hfillers : ∀ block ∈ items, ¬ form.word.toList <:+: block.2)
    (hsilent : ∀ block ∈ items, block.1.IsSilent form lay) :
    form.scan (itemsText lay kind items) =
      ((items.map (·.1)).filter fun item => item.form kind = form ∧ item.isTight lay = true).map
        Item.specifier := by
  induction items with
  | nil => rfl
  | cons block items ih =>
    obtain ⟨hitem, hread⟩ := List.forall_mem_cons.mp hread
    obtain ⟨hfiller, hfillers⟩ := List.forall_mem_cons.mp hfillers
    obtain ⟨hblock, hsilent⟩ := List.forall_mem_cons.mp hsilent
    rw [itemsText, scan_item hform hitem hblock, scan_filler_items hform hfiller,
      ih hread hfillers hsilent, List.map_cons, List.filter_cons]
    by_cases hfound : block.1.form kind = form ∧ block.1.isTight lay = true
    · rw [if_pos hfound, if_pos (by simpa using hfound)]
      rfl
    · rw [if_neg hfound, if_neg (by simpa using hfound)]
      rfl

/-- The scan of a form lists the specifiers of its items, in source order. -/
theorem Source.scan_text (hform : form ∈ forms kind) {source : Source G}
    (hread : ∀ block ∈ source.items, block.1.IsReadable lay kind)
    (hsilent : source.IsSilent form lay) :
    form.scan (source.text lay kind) = (source.found form lay kind).map Item.specifier := by
  rw [text, scan_filler_items hform hsilent.lead]
  exact scan_itemsText hform hread hsilent.fillers hsilent.items

/-! ## References -/

def Item.isLoad : Item G → Bool
  | load .. => true
  | call .. => false

namespace Source

/-- The loads of a source, in source order. -/
def loads (source : Source G) : List (Item G) :=
  (source.items.map (·.1)).filter fun item => item.isLoad

/-- The calls of a source, in source order. -/
def calls (source : Source G) : List (Item G) :=
  (source.items.map (·.1)).filter fun item => !item.isLoad

theorem found_loadForm (lay : G → Gap) (kind : SourceKind) (source : Source G) :
    source.found (loadForm kind) lay kind = source.loads := by
  refine List.filter_congr fun item _ => ?_
  cases item with
  | load => simp [Item.form, Item.isTight, Item.isLoad]
  | call => cases kind <;> simp [Item.form, callForm, loadForm, Item.isLoad]

theorem found_callForm (lay : G → Gap) (kind : SourceKind) (source : Source G) :
    source.found (callForm kind) lay kind = source.calls.filter fun item => item.isTight lay := by
  rw [calls, List.filter_filter]
  refine List.filter_congr fun item _ => ?_
  cases item with
  | load => cases kind <;> simp [Item.form, callForm, loadForm, Item.isLoad]
  | call => simp [Item.form, Item.isLoad]

theorem found_eq_nil (lay : G → Gap) (source : Source G) (hload : form ≠ loadForm kind)
    (hcall : form ≠ callForm kind) : source.found form lay kind = [] := by
  refine List.filter_eq_nil_iff.mpr fun item _ => ?_
  cases item with
  | load => simp [Item.form, Ne.symm hload]
  | call => simp [Item.form, Ne.symm hcall]

/-- The references of a source are the specifiers of its loads, and behind them those of its tight
calls. -/
theorem extract_text {source : Source G}
    (hread : ∀ block ∈ source.items, block.1.IsReadable lay kind)
    (hsilent : ∀ form ∈ forms kind, source.IsSilent form lay) :
    extract kind (String.ofList (source.text lay kind)) =
      (source.loads ++ source.calls.filter fun item => item.isTight lay).map Item.specifier := by
  have hscan : ∀ form ∈ forms kind, form.scan (source.text lay kind) =
      (source.found form lay kind).map Item.specifier :=
    fun form hform => source.scan_text hform hread (hsilent form hform)
  have hextract : extract kind (String.ofList (source.text lay kind)) =
      (forms kind).flatMap fun form => (source.found form lay kind).map Item.specifier := by
    rw [extract, String.toList_ofList]
    exact List.flatMap_congr hscan
  rw [hextract, List.map_append, ← found_loadForm lay kind, ← found_callForm lay kind]
  cases kind with
  | code =>
    have hdynamic : source.found .dynamicImport lay .code = [] :=
      source.found_eq_nil lay (by decide) (by decide)
    have hlazy : source.found .lazyImport lay .code = [] :=
      source.found_eq_nil lay (by decide) (by decide)
    simp [forms, loadForm, callForm, hdynamic, hlazy]
  | style => simp [forms, loadForm, callForm]

end Source

/-! ## Regular sources -/

/-- No word of the items of this kind of file stands in the text. -/
def Avoids (kind : SourceKind) (text : List Char) : Prop :=
  ∀ form ∈ [loadForm kind, callForm kind], ¬ form.word.toList <:+: text

instance (kind : SourceKind) (text : List Char) : Decidable (Avoids kind text) :=
  inferInstanceAs (Decidable (∀ form ∈ [loadForm kind, callForm kind],
    ¬ form.word.toList <:+: text))

/-- Fillers around readable loads and tight calls, with none of their words inside them, and in a
code file no `lazy` anywhere. -/
structure Source.IsRegular (lay : G → Gap) (kind : SourceKind) (source : Source G) : Prop where
  lead : Avoids kind source.lead
  fillers : ∀ block ∈ source.items, Avoids kind block.2
  readable : ∀ block ∈ source.items, block.1.IsReadable lay kind
  tight : ∀ block ∈ source.items, block.1.isTight lay = true
  specifiers : ∀ block ∈ source.items, Avoids kind block.1.quoted.specifier
  clauses : ∀ block ∈ source.items, Avoids kind (clauseText lay block.1.clause?)
  lazy : kind = .code → ¬ "lazy".toList <:+: source.text lay kind

theorem Item.specifier_infix_text (item : Item G) :
    item.quoted.specifier <:+: item.text lay kind := by
  cases item with
  | load afterWord clause quoted =>
    exact ⟨(loadForm kind).word.toList ++ ((lay afterWord).val ++
      (clauseText lay clause ++ [quoted.opening])), [quoted.closing],
      by simp [text, form, behindWord, Item.quoted, Quoted.text]⟩
  | call afterWord afterOpen quoted beforeClose =>
    exact ⟨(callForm kind).word.toList ++ ((lay afterWord).val ++
      '(' :: ((lay afterOpen).val ++ [quoted.opening])),
      quoted.closing :: ((lay beforeClose).val ++ [')']),
      by simp [text, form, behindWord, Item.quoted, Quoted.text]⟩

theorem Item.clause_infix_text (item : Item G) :
    clauseText lay item.clause? <:+: item.text lay kind := by
  cases item with
  | load afterWord clause quoted =>
    exact ⟨(loadForm kind).word.toList ++ (lay afterWord).val, quoted.text,
      by simp [text, form, behindWord, clause?]⟩
  | call => exact List.nil_infix

theorem infix_itemsText {block : Item G × List Char} {items : List (Item G × List Char)}
    (h : block ∈ items) : block.1.text lay kind ++ block.2 <:+: itemsText lay kind items := by
  induction items with
  | nil => cases h
  | cons head items ih =>
    rw [itemsText, ← List.append_assoc]
    rcases List.mem_cons.mp h with rfl | h
    · exact (List.prefix_append _ _).isInfix
    · exact (ih h).trans (List.suffix_append _ _).isInfix

namespace Source

variable {source : Source G}

/-- A form whose word stands nowhere in the text begins nowhere. -/
theorem isSilent_of_absent (h : ¬ form.word.toList <:+: source.text lay kind) :
    source.IsSilent form lay := by
  have habsent : ∀ {piece}, piece <:+: source.text lay kind → ¬ form.word.toList <:+: piece :=
    fun hpiece hword => h (hword.trans hpiece)
  have hblock : ∀ block ∈ source.items,
      block.1.text lay kind ++ block.2 <:+: source.text lay kind := fun block hblock =>
    (infix_itemsText hblock).trans (List.suffix_append _ _).isInfix
  have hitem : ∀ block ∈ source.items, block.1.text lay kind <:+: source.text lay kind :=
    fun block hmem => (List.prefix_append _ _).isInfix.trans (hblock block hmem)
  refine ⟨habsent (List.prefix_append _ _).isInfix, fun block hmem => ?_, fun block hmem => ?_⟩
  · exact habsent ((List.suffix_append _ _).isInfix.trans (hblock block hmem))
  · exact ⟨Form.isSilent_of_absent (habsent (block.1.specifier_infix_text.trans
      (hitem block hmem))),
      fun _ => Form.isSilent_of_absent (habsent
        (block.1.clause_infix_text.trans (hitem block hmem)))⟩

/-- A form whose word is one of the items' words begins in a regular source with an item only. -/
theorem IsRegular.isSilent_of_word_eq (h : source.IsRegular lay kind) {other : Form}
    (hother : other ∈ [loadForm kind, callForm kind]) (hword : form.word = other.word) :
    source.IsSilent form lay where
  lead := hword ▸ h.lead other hother
  fillers block hmem := hword ▸ h.fillers block hmem other hother
  items block hmem :=
    ⟨Form.isSilent_of_absent (hword ▸ h.specifiers block hmem other hother),
      fun _ => Form.isSilent_of_absent (hword ▸ h.clauses block hmem other hother)⟩

theorem IsRegular.isSilent (h : source.IsRegular lay kind) (hform : form ∈ forms kind) :
    source.IsSilent form lay := by
  have hwords : ∀ kind, ∀ form ∈ forms kind, form.word = (loadForm kind).word ∨
      form.word = (callForm kind).word ∨ kind = .code ∧ form = .lazyImport := by
    intro kind
    cases kind <;> decide
  rcases hwords kind form hform with hword | hword | ⟨hkind, rfl⟩
  · exact h.isSilent_of_word_eq List.mem_cons_self hword
  · exact h.isSilent_of_word_eq (by simp) hword
  · exact isSilent_of_absent (h.lazy hkind)

end Source

/-- **Loads and calls are extracted exactly.**  The references of a regular source, be it a code
file or a stylesheet, are the specifiers of its loads in source order, followed by those of its
calls in source order. -/
theorem extract_exact (lay : G → Gap) (kind : SourceKind) (source : Source G)
    (h : source.IsRegular lay kind) :
    extract kind (String.ofList (source.text lay kind)) =
      source.loads.map Item.specifier ++ source.calls.map Item.specifier := by
  have htight : (source.calls.filter fun item => item.isTight lay) = source.calls := by
    refine List.filter_eq_self.mpr fun item hitem => ?_
    obtain ⟨block, hblock, rfl⟩ := List.mem_map.mp (List.mem_filter.mp hitem).1
    exact h.tight block hblock
  rw [source.extract_text h.readable fun form hform => h.isSilent hform, htight, List.map_append]

def blank : Gap :=
  .of " " (by decide)

def noGap : Gap :=
  .of "" (by decide)

def lineBreak : Gap :=
  .of "\n" (by decide)

def localFile : Quoted :=
  .of '\'' "./a" '\'' (by decide)

/-- A script with `requi` before a `require` call and a binding called `from`. -/
def mixedScript : Source Gap where
  lead := "requi".toList
  items := [
    (.call blank noGap (.of '"' "a" '"' (by decide)) noGap, ";\n".toList),
    (.load blank (some ⟨.named "from".toList,
        [⟨noGap, lineBreak, .braced blank [("b,".toList, noGap), ("c".toList, blank)]⟩,
          ⟨blank, noGap, .all blank blank "d".toList⟩], blank, .of "\n\t" (by decide)⟩)
      (.of '\'' "./e" '"' (by decide)), "\n".toList)]

/-- A stylesheet whose fillers begin a word that the next item does not end. -/
def mixedSheet : Source Gap where
  lead := "ur".toList
  items := [
    (.call noGap noGap (.of '\'' "a" '\'' (by decide)) noGap, "@imp".toList),
    (.load blank none (.of '"' "./b" '"' (by decide)), ";".toList)]

theorem extract_exact_mixed :
    mixedScript.text id .code =
      "requirequire (\"a\");\nimport from,\n\x7b b,c \x7d ,* as d from\n\t'./e\"\n".toList ∧
    extract .code (String.ofList (mixedScript.text id .code)) = ["./e", "a"] ∧
    mixedSheet.text id .style = "ururl('a')@imp@import \"./b\";".toList ∧
    extract .style (String.ofList (mixedSheet.text id .style)) = ["./b", "a"] := by
  have hscript : mixedScript.IsRegular id .code :=
    ⟨by decide +kernel, by decide +kernel, by decide +kernel, by decide +kernel, by decide +kernel,
      by decide +kernel, fun _ => by decide +kernel⟩
  have hsheet : mixedSheet.IsRegular id .style :=
    ⟨by decide +kernel, by decide +kernel, by decide +kernel, by decide +kernel, by decide +kernel,
      by decide +kernel, fun h => absurd h (by decide)⟩
  refine ⟨by decide +kernel, ?_, by decide +kernel, ?_⟩
  · rw [extract_exact id .code mixedScript hscript]
    decide +kernel
  · rw [extract_exact id .style mixedSheet hsheet]
    decide +kernel

end ImportAtlas.Reference
