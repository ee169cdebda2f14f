import ImportAtlas.Proofs.Reference.Extraction

set_option autoImplicit false

/-!
# Layout of references

A source is laid out anew by inserting blanks into its gaps.  Where a form begins
only with the items in the old layout, the same holds in the new one: a word keeps
its letters together only if no blank came between them, and the blanks behind it
only grow (`opens_of_spread`).  So all that a new layout can lose is the calls that
get blanks inside their parentheses (`extract_relaid_iff`).
-/

namespace ImportAtlas.Reference

open Text

/-! ## Inserting blanks -/

/-- The second text is the first with blanks inserted. -/
inductive Spread : List Char → List Char → Prop where
  | nil : Spread [] []
  | keep (c : Char) {s t : List Char} : Spread s t → Spread (c :: s) (c :: t)
  | insert (c : Char) {s t : List Char} : isBlank c = true → Spread s t → Spread s (c :: t)

namespace Spread

theorem refl (s : List Char) : Spread s s := by
  induction s with
  | nil => exact .nil
  | cons c s ih => exact .keep c ih

theorem append {s s' t t' : List Char} (hs : Spread s s') (ht : Spread t t') :
    Spread (s ++ t) (s' ++ t') := by
  induction hs with
  | nil => exact ht
  | keep c _ ih => exact .keep c ih
  | insert c hc _ ih => exact .insert c hc ih

/-- Where only blanks stand, a longer text is one with blanks inserted. -/
theorem of_sublist {s t : List Char} (h : s.Sublist t) (ht : ∀ c ∈ t, isBlank c = true) :
    Spread s t := by
  induction h with
  | slnil => exact .nil
  | cons c _ ih =>
    obtain ⟨hc, ht⟩ := List.forall_mem_cons.mp ht
    exact .insert c hc (ih ht)
  | cons_cons c _ ih => exact .keep c (ih (List.forall_mem_cons.mp ht).2)

/-- The end of the new text comes from an end of the old one. -/
theorem exists_suffix {s t back : List Char} (h : Spread s t) (hback : back <:+ t) :
    ∃ old, old <:+ s ∧ Spread old back := by
  induction h with
  | nil =>
    obtain rfl := List.suffix_nil.mp hback
    exact ⟨[], List.suffix_rfl, .nil⟩
  | @keep c s t h ih =>
    rcases List.suffix_cons_iff.mp hback with rfl | hback
    · exact ⟨c :: s, List.suffix_rfl, .keep c h⟩
    · obtain ⟨old, hold, hspread⟩ := ih hback
      exact ⟨old, hold.trans (List.suffix_cons c s), hspread⟩
  | @insert c s t hc h ih =>
    rcases List.suffix_cons_iff.mp hback with rfl | hback
    · exact ⟨s, List.suffix_rfl, .insert c hc h⟩
    · exact ih hback

/-- A word without blanks at the front of the new text stands at the front of the old one. -/
theorem exists_of_word {word s rest : List Char} (hword : ∀ c ∈ word, isBlank c = false)
    (h : Spread s (word ++ rest)) : ∃ old, s = word ++ old ∧ Spread old rest := by
  induction word generalizing s with
  | nil => exact ⟨s, rfl, h⟩
  | cons c word ih =>
    obtain ⟨hc, hword⟩ := List.forall_mem_cons.mp hword
    rw [List.cons_append] at h
    cases h with
    | keep _ h =>
      obtain ⟨old, rfl, hold⟩ := ih hword h
      exact ⟨old, rfl, hold⟩
    | insert _ hblank _ =>
      rw [hc] at hblank
      cases hblank

/-- Behind the blanks both texts go on alike. -/
theorem head_blanks {s t : List Char} (h : Spread s t) : (blanks s).head? = (blanks t).head? := by
  induction h with
  | nil => rfl
  | keep c _ ih =>
    cases hc : isBlank c with
    | true => simpa [blanks, hc] using ih
    | false => simp [blanks, hc]
  | insert c hc _ ih => simpa [blanks, hc] using ih

end Spread

theorem isSome_symbol? (c : Char) (s : List Char) :
    (symbol? c s).isSome = true ↔ s.head? = some c := by
  cases s with
  | nil => simp [symbol?]
  | cons d cs => by_cases h : d = c <;> simp [symbol?, h]

/-- A call that opens where blanks were inserted opened there before. -/
theorem opens_of_spread {form : Form} (hcall : form.isCall = true) {s t : List Char}
    (h : Spread s t) (hopens : form.opens t = true) : form.opens s = true := by
  by_cases hbegun : form.word.toList <+: t
  · obtain ⟨rest, rfl⟩ := hbegun
    have hword : ∀ c ∈ form.word.toList, isBlank c = false := fun c hc => by
      by_contra hblank
      exact Form.not_mem_word (.inl (by simpa using hblank)) hc
    obtain ⟨old, rfl, hold⟩ := h.exists_of_word hword
    rw [Form.opens_word, hcall, if_pos rfl, isSome_symbol?] at hopens ⊢
    exact hold.head_blanks.trans hopens
  · rw [Form.opens_of_not_begun hbegun] at hopens
    cases hopens

theorem isSilent_of_spread {form : Form} (hcall : form.isCall = true) {s t : List Char}
    (h : Spread s t) (hsilent : form.IsSilent s) : form.IsSilent t := by
  intro back hback
  obtain ⟨old, hold, hspread⟩ := h.exists_suffix hback
  by_contra hopens
  have hbefore := opens_of_spread hcall hspread (by simpa using hopens)
  rw [hsilent old hold] at hbefore
  cases hbefore

/-! ## A new layout -/

/-- A gap and the same gap with blanks inserted. -/
structure Insertion where
  before : Gap
  after : Gap
  inserted : before.val.Sublist after.val

theorem Insertion.spread (gap : Insertion) : Spread gap.before.val gap.after.val :=
  .of_sublist gap.inserted gap.after.property

theorem Insertion.after_ne_nil {gap : Insertion} (h : gap.before.val ≠ []) :
    gap.after.val ≠ [] := by
  intro hnil
  have hinserted := gap.inserted
  rw [hnil] at hinserted
  exact h (List.sublist_nil.mp hinserted)

theorem spread_tokensText (tokens : List (List Char × Insertion)) :
    Spread (tokensText Insertion.before tokens) (tokensText Insertion.after tokens) := by
  induction tokens with
  | nil => exact .nil
  | cons token rest ih => exact (Spread.refl token.1).append (token.2.spread.append ih)

theorem spread_binding (binding : Binding Insertion) :
    Spread (binding.text Insertion.before) (binding.text Insertion.after) := by
  cases binding with
  | braced lead tokens =>
    exact .keep '{' (lead.spread.append ((spread_tokensText tokens).append (.refl ['}'])))
  | all beforeAs afterAs name =>
    exact .keep '*' (beforeAs.spread.append ((Spread.refl _).append
      (afterAs.spread.append (.refl name))))
  | named name => exact .refl name

theorem spread_furtherText (further : List (FurtherBinding Insertion)) :
    Spread (furtherText Insertion.before further) (furtherText Insertion.after further) := by
  induction further with
  | nil => exact .nil
  | cons next rest ih =>
    exact next.beforeComma.spread.append (.keep ',' (next.afterComma.spread.append
      ((spread_binding next.binding).append ih)))

theorem spread_clauseText (clause : Option (Clause Insertion)) :
    Spread (clauseText Insertion.before clause) (clauseText Insertion.after clause) := by
  cases clause with
  | none => exact .nil
  | some clause =>
    exact (spread_binding clause.first).append ((spread_furtherText clause.further).append
      (clause.beforeFrom.spread.append ((Spread.refl _).append clause.afterFrom.spread)))

variable {kind : SourceKind}

theorem Binding.IsReadable.relaid {binding : Binding Insertion}
    (h : binding.IsReadable Insertion.before) : binding.IsReadable Insertion.after := by
  cases binding with
  | braced => exact h
  | all => exact ⟨Insertion.after_ne_nil h.1, Insertion.after_ne_nil h.2.1, h.2.2⟩
  | named => exact h

theorem Clause.IsReadable.relaid {clause : Clause Insertion}
    (h : clause.IsReadable Insertion.before) : clause.IsReadable Insertion.after where
  first := h.first.relaid
  further next hnext := (h.further next hnext).relaid
  beforeFrom := Insertion.after_ne_nil h.beforeFrom
  afterFrom := Insertion.after_ne_nil h.afterFrom

/-- A load stays readable. -/
theorem Item.IsReadable.relaid {item : Item Insertion}
    (h : item.IsReadable Insertion.before kind) : item.IsReadable Insertion.after kind := by
  cases item with
  | load afterWord clause quoted =>
    cases clause with
    | none => exact Insertion.after_ne_nil h
    | some clause => exact ⟨h.1, Insertion.after_ne_nil h.2.1, h.2.2.relaid⟩
  | call => trivial

/-- A form still begins with the items only. -/
theorem Source.IsSilent.relaid {source : Source Insertion} {form : Form}
    (h : source.IsSilent form Insertion.before) : source.IsSilent form Insertion.after where
  lead := h.lead
  fillers := h.fillers
  items block hblock := ⟨(h.items block hblock).specifier, fun hcall =>
    isSilent_of_spread hcall (spread_clauseText block.1.clause?)
      ((h.items block hblock).clause hcall)⟩

/-- **A new layout loses the calls that get blanks inside their parentheses, and nothing else.**
For every source whose items are read and in which the forms begin only with the items: inserting
blanks between the tokens of its items leaves the specifiers of the loads and of the calls whose
parentheses stay tight, each in source order; so the references are the same exactly when no call
gets a blank inside its parentheses. -/
theorem extract_relaid_iff (kind : SourceKind) (source : Source Insertion)
    (hread : ∀ block ∈ source.items, block.1.IsReadable Insertion.before kind ∧
      block.1.isTight Insertion.before = true)
    (hsilent : ∀ form ∈ forms kind, source.IsSilent form Insertion.before) :
    extract kind (String.ofList (source.text Insertion.after kind)) =
      (source.loads ++ source.calls.filter fun item => item.isTight Insertion.after).map
        Item.specifier ∧
    (extract kind (String.ofList (source.text Insertion.after kind)) =
      extract kind (String.ofList (source.text Insertion.before kind)) ↔
        ∀ block ∈ source.items, block.1.isTight Insertion.after = true) := by
  have hafter := source.extract_text (fun block hblock => (hread block hblock).1.relaid)
    fun form hform => (hsilent form hform).relaid
  have hbefore := source.extract_text (fun block hblock => (hread block hblock).1) hsilent
  refine ⟨hafter, ?_⟩
  rw [hafter, hbefore]
  have hcalls : ∀ item ∈ source.calls, ∃ block ∈ source.items, block.1 = item := fun item hitem =>
    List.mem_map.mp (List.mem_filter.mp hitem).1
  have htight : (source.calls.filter fun item => item.isTight Insertion.before) = source.calls :=
    List.filter_eq_self.mpr fun item hitem => by
      obtain ⟨block, hblock, rfl⟩ := hcalls item hitem
      exact (hread block hblock).2
  rw [htight]
  constructor
  · intro h block hblock
    -- no specifier is missing, so no call was filtered out
    have hlength := congrArg List.length h
    simp only [List.length_map, List.length_append, Nat.add_left_cancel_iff] at hlength
    have hall := List.length_filter_eq_length_iff.mp hlength
    cases hload : block.1.isLoad with
    | true =>
      obtain ⟨item, filler⟩ := block
      cases item with
      | load => rfl
      | call => cases hload
    | false =>
      refine hall block.1 (List.mem_filter.mpr ⟨List.mem_map_of_mem hblock, ?_⟩)
      simp [hload]
  · intro h
    have hall : (source.calls.filter fun item => item.isTight Insertion.after) = source.calls :=
      List.filter_eq_self.mpr fun item hitem => by
        obtain ⟨block, hblock, rfl⟩ := hcalls item hitem
        exact h block hblock
    rw [hall]

def Insertion.of (before after : Gap) (h : before.val.isSublist after.val = true) : Insertion :=
  ⟨before, after, List.isSublist_iff_sublist.mp h⟩

def stays : Insertion :=
  .of noGap noGap (by decide)

/-- A script on one line that a formatter spreads over several. -/
def formattedScript : Source Insertion where
  lead := []
  items := [
    (.load (.of blank blank (by decide))
      (some ⟨.named "a".toList,
        [⟨.of noGap blank (by decide), .of noGap lineBreak (by decide),
          .braced (.of noGap (.of "\n  " (by decide)) (by decide))
            [("lazy".toList, .of noGap lineBreak (by decide))]⟩],
        .of blank blank (by decide), .of blank (.of " \t" (by decide)) (by decide)⟩)
      (.of '\'' "./import-a" '\'' (by decide)), ";".toList),
    (.call (.of noGap blank (by decide)) stays (.of '"' "b" '"' (by decide)) stays, [])]

/-- The formatted script has the same references. -/
theorem extract_relaid_iff_formatted :
    formattedScript.text Insertion.before .code =
      "import a,\x7blazy\x7d from './import-a';require(\"b\")".toList ∧
    formattedScript.text Insertion.after .code =
      "import a ,\n\x7b\n  lazy\n\x7d from \t'./import-a';require (\"b\")".toList ∧
    extract .code (String.ofList (formattedScript.text Insertion.after .code)) =
      extract .code (String.ofList (formattedScript.text Insertion.before .code)) := by
  have hread : ∀ block ∈ formattedScript.items, block.1.IsReadable Insertion.before .code ∧
      block.1.isTight Insertion.before = true := by decide +kernel
  have hsilent : ∀ form ∈ forms .code, formattedScript.IsSilent form Insertion.before := by
    decide +kernel
  refine ⟨by decide +kernel, by decide +kernel, ?_⟩
  exact (extract_relaid_iff .code formattedScript hread hsilent).2.mpr (by decide +kernel)

/-- A call, and the same call with blanks inside its parentheses. -/
def loosenedCall : Source Insertion where
  lead := []
  items := [(.call stays (.of noGap blank (by decide)) localFile (.of noGap blank (by decide)), [])]

/-- The loosened call is lost. -/
theorem loosenedCall_lost :
    loosenedCall.text Insertion.before .code = "require('./a')".toList ∧
    loosenedCall.text Insertion.after .code = "require( './a' )".toList ∧
    extract .code (String.ofList (loosenedCall.text Insertion.before .code)) = ["./a"] ∧
    extract .code (String.ofList (loosenedCall.text Insertion.after .code)) = [] := by
  decide +kernel

end ImportAtlas.Reference
