import ImportAtlas.Json.Reader
import ImportAtlas.Json.Writer
import Mathlib.Algebra.Group.Nat.Defs
import Mathlib.Data.List.Infix
import Mathlib.Data.List.TakeWhile

set_option autoImplicit false

/-!
# Numbers are read back

A number or a word is read up to the first character that can belong to none, so
what stands behind it does not matter (`value?_append`).  An integer of not too
many digits is read back; of a float it is assumed that its text, read alone,
gives it back (`ReadsBack`), and then it is read back in front of any other
text.
-/

namespace ImportAtlas.Json

/-- Whether a character may stand in a number or in a word. -/
def isNumberChar (c : Char) : Bool :=
  c.isAlphanum || c == '.' || c == '+' || c == '-'

/-- The text begins with no character of a number or a word. -/
def Stops (s : List Char) : Prop :=
  ∀ c ∈ s.head?, isNumberChar c = false

theorem stops_nil : Stops [] := nofun

theorem stops_cons {c : Char} {s : List Char} : Stops (c :: s) ↔ isNumberChar c = false := by
  simp [Stops]

theorem not_isDigit_of_stops {c : Char} (h : isNumberChar c = false) : c.isDigit = false := by
  simp only [isNumberChar, Char.isAlphanum, Bool.or_eq_false_iff] at h
  exact h.1.1.1.2

theorem isNumberChar_of_isDigit {c : Char} (h : c.isDigit = true) : isNumberChar c = true := by
  simp [isNumberChar, Char.isAlphanum, h]

variable {s rest : List Char}

/-! ## Reading in front of a text -/

theorem digits_append (h : Stops rest) :
    Decimal.digits (s ++ rest) = ((Decimal.digits s).1, (Decimal.digits s).2 ++ rest) := by
  unfold Decimal.digits
  induction s with
  | nil =>
    cases rest with
    | nil => rfl
    | cons c rest =>
      have hc := not_isDigit_of_stops (stops_cons.mp h)
      simp [hc]
  | cons c s ih =>
    by_cases hc : c.isDigit
    · simpa [hc] using ih
    · simp [hc]

theorem decimalFraction_of_ne (h : s.head? ≠ some '.') : Decimal.fraction s = ([], s) := by
  unfold Decimal.fraction
  split
  · exact absurd rfl h
  · rfl

theorem fraction_append (h : Stops rest) :
    fraction (s ++ rest) = ((fraction s).1, (fraction s).2 ++ rest) := by
  have hdecimal : Decimal.fraction (s ++ rest) =
      ((Decimal.fraction s).1, (Decimal.fraction s).2 ++ rest) := by
    cases s with
    | nil =>
      exact decimalFraction_of_ne fun hhead => absurd (h _ hhead) (by decide)
    | cons c s =>
      by_cases hc : c = '.'
      · subst hc
        exact digits_append h
      · rw [decimalFraction_of_ne (by simpa using hc), decimalFraction_of_ne (by simpa using hc)]
  unfold fraction
  rw [hdecimal]
  rcases Decimal.fraction s with ⟨_ | ⟨d, ds⟩, after⟩ <;> rfl

theorem splitSign_of_ne (hminus : s.head? ≠ some '-') (hplus : s.head? ≠ some '+') :
    Decimal.splitSign s = (false, s) := by
  unfold Decimal.splitSign
  split
  · exact absurd rfl hminus
  · exact absurd rfl hplus
  · rfl

theorem splitSign_append (h : Stops rest) :
    Decimal.splitSign (s ++ rest) =
      ((Decimal.splitSign s).1, (Decimal.splitSign s).2 ++ rest) := by
  have hrest : Decimal.splitSign rest = (false, rest) := by
    apply splitSign_of_ne
    · intro hhead
      exact absurd (h _ hhead) (by decide)
    · intro hhead
      exact absurd (h _ hhead) (by decide)
  cases s with
  | nil => exact hrest
  | cons c s =>
    by_cases hminus : c = '-'
    · subst hminus
      rfl
    by_cases hplus : c = '+'
    · subst hplus
      rfl
    rw [splitSign_of_ne (by simpa using hminus) (by simpa using hplus),
      splitSign_of_ne (by simpa using hminus) (by simpa using hplus)]

theorem exponent_append (h : Stops rest) :
    Decimal.exponent (s ++ rest) = ((Decimal.exponent s).1, (Decimal.exponent s).2 ++ rest) := by
  cases s with
  | nil =>
    cases rest with
    | nil => rfl
    | cons c rest =>
      have hc : ¬ (c = 'e' ∨ c = 'E') := by
        rintro (rfl | rfl) <;> exact absurd (stops_cons.mp h) (by decide)
      simp [Decimal.exponent, hc]
  | cons c s =>
    rw [List.cons_append]
    unfold Decimal.exponent
    by_cases hc : c = 'e' ∨ c = 'E'
    · simp only [if_pos hc, splitSign_append h, digits_append h]
      rcases Decimal.digits (Decimal.splitSign s).2 with ⟨_ | ⟨d, ds⟩, after⟩ <;> rfl
    · simp only [if_neg hc]
      rfl

/-- The digits in front of the point: a zero alone, or digits. -/
def whole? (s : List Char) : Option (List Char × List Char) :=
  match s with
  | '0' :: rest => some (['0'], rest)
  | _ =>
    match Decimal.digits s with
    | ([], _) => none
    | found => some found

/-- The number whose digits in front of the point are read. -/
def numberFrom? (negative : Bool) (whole rest : List Char) : Option (Json × List Char) :=
  let (part, rest) := fraction rest
  let (power, rest) := Decimal.exponent rest
  if part = [] ∧ power = none then
    if maxDigits < whole.length then none
    else
      let n : Int := Decimal.natOfDigits whole
      some (.int (if negative then -n else n), rest)
  else
    let mantissa := Decimal.natOfDigits (whole ++ part)
    some (.float (Decimal.ofDecimal negative mantissa (power.getD 0 - part.length)), rest)

theorem whole?_of_ne (h : s.head? ≠ some '0') :
    whole? s = if (Decimal.digits s).1 = [] then none else some (Decimal.digits s) := by
  unfold whole?
  split
  · exact absurd rfl h
  · rcases Decimal.digits s with ⟨_ | ⟨d, ds⟩, after⟩ <;> rfl

theorem unsigned?_eq (negative : Bool) (s : List Char) :
    unsigned? negative s = (whole? s).bind fun read => numberFrom? negative read.1 read.2 := by
  have hfrom : ∀ whole rest, numberFrom? negative whole rest = (do
      let (part, rest) := fraction rest
      let (power, rest) := Decimal.exponent rest
      if part = [] ∧ power = none then
        if maxDigits < whole.length then none
        let n : Int := Decimal.natOfDigits whole
        return (.int (if negative then -n else n), rest)
      else
        let mantissa := Decimal.natOfDigits (whole ++ part)
        return (.float (Decimal.ofDecimal negative mantissa (power.getD 0 - part.length)),
          rest)) := by
    intro whole rest
    unfold numberFrom?
    simp only
    split
    · split <;> rfl
    · rfl
  simp only [hfrom]
  unfold unsigned? whole?
  cases s with
  | nil => rfl
  | cons c s =>
    by_cases hc : c = '0'
    · subst hc
      rfl
    · rcases Decimal.digits (c :: s) with ⟨_ | ⟨d, ds⟩, after⟩ <;> simp [hc]

theorem whole?_append (h : Stops rest) :
    whole? (s ++ rest) = (whole? s).map fun read => (read.1, read.2 ++ rest) := by
  by_cases hzero : s.head? = some '0'
  · obtain ⟨s, rfl⟩ : ∃ t, s = '0' :: t := by
      cases s with
      | nil => cases hzero
      | cons c s => exact ⟨s, by simpa using hzero⟩
    rfl
  · have hzero' : (s ++ rest).head? ≠ some '0' := by
      cases s with
      | nil => exact fun hhead => absurd (h _ hhead) (by decide)
      | cons c s => exact hzero
    rw [whole?_of_ne hzero, whole?_of_ne hzero', digits_append h]
    split <;> rfl

theorem numberFrom?_append (h : Stops rest) (negative : Bool) (whole : List Char) :
    numberFrom? negative whole (s ++ rest) =
      (numberFrom? negative whole s).map fun read => (read.1, read.2 ++ rest) := by
  unfold numberFrom?
  simp only [fraction_append h, exponent_append h]
  split
  · split <;> rfl
  · rfl

/-- A number is read up to the first character that belongs to none. -/
theorem unsigned?_append (h : Stops rest) (negative : Bool) :
    unsigned? negative (s ++ rest) =
      (unsigned? negative s).map fun read => (read.1, read.2 ++ rest) := by
  rw [unsigned?_eq, unsigned?_eq, whole?_append h]
  cases whole? s with
  | none => rfl
  | some read => exact numberFrom?_append h negative read.1

/-- What follows a word does not depend on what stands behind the text. -/
theorem isPrefixOf?_append {word : List Char} (hword : ∀ c ∈ word, isNumberChar c = true)
    (h : Stops rest) :
    word.isPrefixOf? (s ++ rest) = (word.isPrefixOf? s).map (· ++ rest) := by
  induction word generalizing s with
  | nil => simp [List.isPrefixOf?]
  | cons d word ih =>
    have ih := fun s => ih (s := s) fun c hc => hword c (List.mem_cons_of_mem _ hc)
    cases s with
    | nil =>
      cases rest with
      | nil => rfl
      | cons c rest =>
        have hne : d ≠ c := by
          rintro rfl
          have hd := hword d List.mem_cons_self
          rw [stops_cons.mp h] at hd
          cases hd
        simp [List.isPrefixOf?, hne]
    | cons c s =>
      by_cases hc : d = c <;> simp [List.isPrefixOf?, hc, ih]

theorem word?_append (h : Stops rest) :
    word? (s ++ rest) = (word? s).map fun read => (read.1, read.2 ++ rest) := by
  have hwords : ∀ word ∈ words, ∀ c ∈ word.1.toList, isNumberChar c = true := by
    have hall : ∀ word ∈ words, word.1.toList.all isNumberChar = true := by decide
    exact fun word hword => List.all_eq_true.mp (hall word hword)
  unfold word?
  generalize words = list at hwords ⊢
  induction list with
  | nil => rfl
  | cons word list ih =>
    have hprefix := isPrefixOf?_append (s := s) (hwords word List.mem_cons_self) h
    simp only [List.findSome?_cons, hprefix]
    cases word.1.toList.isPrefixOf? s with
    | some after => rfl
    | none => exact ih fun other hother => hwords other (List.mem_cons_of_mem _ hother)

theorem ne_of_isNumberChar {c : Char} (h : isNumberChar c = true) :
    c ≠ '"' ∧ c ≠ '[' ∧ c ≠ '\x7b' := by
  refine ⟨?_, ?_, ?_⟩ <;> (rintro rfl; exact absurd h (by decide))

/-- A number or a word is read up to the first character that can belong to none. -/
theorem value?_append (hs : ∀ c ∈ s, isNumberChar c = true) (hne : s ≠ []) (h : Stops rest)
    (bound bound' : Nat) :
    value? (bound + 1) (s ++ rest) =
      (value? (bound' + 1) s).map fun read => (read.1, read.2 ++ rest) := by
  cases s with
  | nil => exact absurd rfl hne
  | cons c s =>
    obtain ⟨hquote, hbracket, hbrace⟩ := ne_of_isNumberChar (hs c List.mem_cons_self)
    rw [List.cons_append, value?, value?, if_neg hquote, if_neg hquote, if_neg hbracket,
      if_neg hbracket, if_neg hbrace, if_neg hbrace, ← List.cons_append, word?_append h]
    cases word? (c :: s) with
    | some read => rfl
    | none =>
      simp only [Option.map_none, unsigned?_append h]
      split <;> rfl

/-! ## Integers -/

theorem natOfDigits_toDigits (n : Nat) : Decimal.natOfDigits (Nat.toDigits 10 n) = n := by
  have hfold : ∀ (ds : List Char) (init : Nat),
      ds.foldl (fun n d => n * 10 + (d.toNat - 48)) init = Nat.ofDigitChars 10 ds init := by
    intro ds init
    unfold Nat.ofDigitChars
    congr
    funext n d
    rw [Nat.mul_comm]
    rfl
  rw [Decimal.natOfDigits, hfold, Nat.ofDigitChars_ten_toDigits]

/-- Only zero is spelled with a zero in front. -/
theorem head_toDigits {n : Nat} (h : n ≠ 0) : (Nat.toDigits 10 n).head? ≠ some '0' := by
  induction n using Nat.strongRecOn with
  | ind n ih =>
    by_cases hlt : n < 10
    · rw [Nat.toDigits_of_lt_base hlt]
      have hdigit : ∀ m < 10, m ≠ 0 → [Nat.digitChar m].head? ≠ some '0' := by decide
      exact hdigit n hlt h
    · have hne := Nat.toDigits_ne_nil (n := n / 10) (b := 10)
      rw [Nat.toDigits_of_base_le (by omega) (by omega), List.head?_append_of_ne_nil _ hne]
      exact ih (n / 10) (by omega) (by omega)

theorem isDigit_of_mem_toDigits {n : Nat} : ∀ c ∈ Nat.toDigits 10 n, c.isDigit = true :=
  fun _ hc => Nat.isDigit_of_mem_toDigits (by omega) (by omega) hc

/-- A power of ten in the spelling of the modules that run. -/
theorem ten_pow (m : Nat) : Nat.pow 10 m = 10 ^ m := rfl

/-- The digits of a number are read as the number. -/
theorem unsigned?_toDigits {n : Nat} (h : n < 10 ^ maxDigits) (negative : Bool) :
    unsigned? negative (Nat.toDigits 10 n) =
      some (.int (if negative then -(n : Int) else n), []) := by
  have hwhole : whole? (Nat.toDigits 10 n) = some (Nat.toDigits 10 n, []) := by
    by_cases hzero : n = 0
    · subst hzero
      rfl
    · have hdigits : Decimal.digits (Nat.toDigits 10 n) = (Nat.toDigits 10 n, []) := by
        rw [Decimal.digits, List.takeWhile_eq_self_iff.mpr isDigit_of_mem_toDigits,
          List.dropWhile_eq_nil_iff.mpr isDigit_of_mem_toDigits]
      rw [whole?_of_ne (head_toDigits hzero), hdigits, if_neg Nat.toDigits_ne_nil]
  have hlength : ¬ maxDigits < (Nat.toDigits 10 n).length := by
    rw [Nat.not_lt, Nat.length_toDigits_le_iff (by omega) (by decide)]
    exact h
  rw [unsigned?_eq, hwhole]
  simp [numberFrom?, fraction, Decimal.fraction, Decimal.exponent, hlength, natOfDigits_toDigits]

theorem word?_of_isDigit {c : Char} (hc : c.isDigit = true) (s : List Char) :
    word? (c :: s) = none := by
  have hne : ∀ d : Char, d.isDigit = false → d ≠ c := by
    rintro d hd rfl
    rw [hc] at hd
    cases hd
  simp [word?, words, List.isPrefixOf?, hne 'n' (by decide), hne 't' (by decide),
    hne 'f' (by decide), hne 'N' (by decide), hne 'I' (by decide), hne '-' (by decide)]

theorem word?_minus {c : Char} (hc : c.isDigit = true) (s : List Char) :
    word? ('-' :: c :: s) = none := by
  have hne : 'I' ≠ c := by
    rintro rfl
    exact absurd hc (by decide)
  simp [word?, words, List.isPrefixOf?, hne]

/-- The text of an integer: a minus if it is negative, and its digits. -/
theorem toList_toString (n : Int) :
    (toString n).toList =
      if 0 ≤ n then Nat.toDigits 10 n.natAbs else '-' :: Nat.toDigits 10 n.natAbs := by
  rw [Int.toString_eq_repr, Int.repr_eq_if]
  split
  · have habs : n.toNat = n.natAbs := by omega
    rw [habs, Nat.repr_eq_ofList_toDigits, String.toList_ofList]
  · have habs : (-n).toNat = n.natAbs := by omega
    rw [habs, Nat.repr_eq_ofList_toDigits, String.toList_append]
    simp only [String.toList_ofList]
    rfl

theorem isNumberChar_of_mem_toDigits (n : Nat) : ∀ c ∈ Nat.toDigits 10 n, isNumberChar c = true :=
  fun c hc => isNumberChar_of_isDigit (isDigit_of_mem_toDigits c hc)

theorem isNumberChar_of_mem_toString (n : Int) :
    ∀ c ∈ (toString n).toList, isNumberChar c = true := by
  rw [toList_toString]
  split
  · exact isNumberChar_of_mem_toDigits _
  · exact List.forall_mem_cons.mpr ⟨by decide, isNumberChar_of_mem_toDigits _⟩

/-- An integer of not too many digits is read in front of any other text. -/
theorem value?_int {n : Int} (h : n.natAbs < 10 ^ maxDigits) (hrest : Stops rest) (bound : Nat) :
    value? (bound + 1) ((toString n).toList ++ rest) = some (.int n, rest) := by
  obtain ⟨d, ds, hds⟩ := List.exists_cons_of_ne_nil (Nat.toDigits_ne_nil (n := n.natAbs) (b := 10))
  have hd : d.isDigit = true := isDigit_of_mem_toDigits d (by rw [hds]; exact List.mem_cons_self)
  have hne : ∀ e : Char, e.isDigit = false → d ≠ e := by
    rintro e he rfl
    rw [hd] at he
    cases he
  have hread : value? 1 (toString n).toList = some (.int n, []) := by
    rw [toList_toString]
    split
    · have hdigits := unsigned?_toDigits h false
      have habs : (n.natAbs : Int) = n := by omega
      rw [hds] at hdigits ⊢
      rw [value?, if_neg (hne _ (by decide)), if_neg (hne _ (by decide)),
        if_neg (hne _ (by decide)), word?_of_isDigit hd]
      simp only [if_neg (hne '-' (by decide)), hdigits, habs, Bool.false_eq_true, if_false]
    · have hdigits := unsigned?_toDigits h true
      have habs : -(n.natAbs : Int) = n := by omega
      rw [hds] at hdigits ⊢
      rw [value?, if_neg (by decide), if_neg (by decide), if_neg (by decide), word?_minus hd]
      simp only [if_true, hdigits, habs]
  have htext : (toString n).toList ≠ [] := by
    intro hempty
    rw [hempty] at hread
    cases hread
  rw [value?_append (isNumberChar_of_mem_toString n) htext hrest bound 0, hread]
  rfl

/-! ## Floats -/

/-- The text of a float is a document that holds the float. -/
def ReadsBack (x : Float) : Prop :=
  parse? (writeFloat x) = some (.float x)

/-! ## Readers leave an end of the text -/

theorem whole?_suffix {read : List Char × List Char} (h : whole? s = some read) :
    read.2 <:+ s := by
  unfold whole? at h
  split at h
  · cases h
    exact List.suffix_cons _ _
  · split at h
    · cases h
    · cases h
      exact List.dropWhile_suffix _

theorem fraction_suffix (s : List Char) : (fraction s).2 <:+ s := by
  have hdecimal : (Decimal.fraction s).2 <:+ s := by
    unfold Decimal.fraction
    split
    · exact (List.dropWhile_suffix _).trans (List.suffix_cons _ _)
    · exact List.suffix_refl s
  unfold fraction
  split
  · exact List.suffix_refl s
  · exact hdecimal

theorem splitSign_suffix (s : List Char) : (Decimal.splitSign s).2 <:+ s := by
  unfold Decimal.splitSign
  split
  · exact List.suffix_cons _ _
  · exact List.suffix_cons _ _
  · exact List.suffix_refl s

theorem exponent_suffix (s : List Char) : (Decimal.exponent s).2 <:+ s := by
  unfold Decimal.exponent
  split
  · rename_i c s
    split
    · simp only
      split
      · exact List.suffix_refl _
      · rename_i hdigits
        have hafter : (Decimal.digits (Decimal.splitSign s).2).2 <:+ c :: s :=
          ((List.dropWhile_suffix _).trans (splitSign_suffix s)).trans (List.suffix_cons c s)
        rwa [hdigits] at hafter
    · exact List.suffix_refl _
  · exact List.suffix_refl _

theorem unsigned?_suffix {negative : Bool} {v : Json} (h : unsigned? negative s = some (v, rest)) :
    rest <:+ s := by
  rw [unsigned?_eq] at h
  obtain ⟨read, hread, hfrom⟩ := Option.bind_eq_some_iff.mp h
  unfold numberFrom? at hfrom
  have hrest : rest = (Decimal.exponent (fraction read.2).2).2 := by
    simp only at hfrom
    split at hfrom
    · split at hfrom
      · cases hfrom
      · exact (congrArg Prod.snd (Option.some.inj hfrom)).symm
    · exact (congrArg Prod.snd (Option.some.inj hfrom)).symm
  rw [hrest]
  exact ((exponent_suffix _).trans (fraction_suffix _)).trans (whole?_suffix hread)

theorem value?_suffix {bound : Nat} {v : Json} (hs : ∀ c ∈ s, isNumberChar c = true)
    (h : value? (bound + 1) s = some (v, rest)) : rest <:+ s := by
  cases s with
  | nil => cases h
  | cons c s =>
    obtain ⟨hquote, hbracket, hbrace⟩ := ne_of_isNumberChar (hs c List.mem_cons_self)
    rw [value?, if_neg hquote, if_neg hbracket, if_neg hbrace] at h
    cases hword : word? (c :: s) with
    | some read =>
      rw [hword] at h
      cases h
      obtain ⟨word, -, hfound⟩ := List.exists_of_findSome?_eq_some hword
      obtain ⟨after, hprefix, heq⟩ := Option.map_eq_some_iff.mp hfound
      cases heq
      exact ⟨_, List.isPrefixOf?_eq_some_iff_append_eq.mp hprefix⟩
    | none =>
      rw [hword] at h
      simp only at h
      split at h
      · exact (unsigned?_suffix h).trans (List.suffix_cons c s)
      · exact unsigned?_suffix h

/-! ### The text of a float -/

theorem isNumberChar_of_mem_replicate (n : Nat) :
    ∀ c ∈ List.replicate n '0', isNumberChar c = true := by
  intro c hc
  rw [List.eq_of_mem_replicate hc]
  decide

theorem isNumberChar_of_mem_exponentText (e : Int) :
    ∀ c ∈ Decimal.exponentText e, isNumberChar c = true := by
  unfold Decimal.exponentText
  simp only [List.forall_mem_cons, List.forall_mem_append]
  refine ⟨?_, isNumberChar_of_mem_replicate _, isNumberChar_of_mem_toDigits _⟩
  split <;> decide

theorem isNumberChar_of_mem_layout {digits : List Char}
    (h : ∀ c ∈ digits, isNumberChar c = true) (point : Int) :
    ∀ c ∈ Decimal.layout digits point, isNumberChar c = true := by
  have hdot : isNumberChar '.' = true := by decide
  have htake : ∀ n, ∀ c ∈ digits.take n, isNumberChar c = true :=
    fun n c hc => h c (List.mem_of_mem_take hc)
  have hdrop : ∀ n, ∀ c ∈ digits.drop n, isNumberChar c = true :=
    fun n c hc => h c (List.mem_of_mem_drop hc)
  unfold Decimal.layout
  split
  · split
    · simp only [List.forall_mem_append]
      exact ⟨⟨List.all_eq_true.mp (by decide), isNumberChar_of_mem_replicate _⟩, h⟩
    · simp only [List.forall_mem_append, List.forall_mem_cons]
      refine ⟨⟨htake _, isNumberChar_of_mem_replicate _⟩, hdot, ?_⟩
      split
      · exact List.all_eq_true.mp (by decide)
      · exact hdrop _
  · simp only [List.forall_mem_append, List.forall_mem_cons]
    refine ⟨⟨htake 1, ?_⟩, by decide, isNumberChar_of_mem_exponentText _⟩
    split
    · rename_i first d more
      simp only [List.forall_mem_cons]
      exact ⟨hdot, h d (by simp), fun c hc => h c (by simp [hc])⟩
    · nofun

theorem isNumberChar_of_mem_writeFloat (x : Float) :
    ∀ c ∈ (writeFloat x).toList, isNumberChar c = true := by
  unfold writeFloat Decimal.text
  split
  · exact List.all_eq_true.mp (by decide)
  · have hsign : ∀ c ∈ (if Decimal.isNegative x then "-" else "").toList,
        isNumberChar c = true := by
      split
      · exact List.all_eq_true.mp (by decide)
      · exact List.all_eq_true.mp (by decide)
    simp only
    split
    · rw [String.toList_append, List.forall_mem_append]
      exact ⟨hsign, List.all_eq_true.mp (by decide)⟩
    · split
      · rw [String.toList_append, List.forall_mem_append]
        exact ⟨hsign, List.all_eq_true.mp (by decide)⟩
      · rw [String.toList_append, List.forall_mem_append, String.toList_ofList]
        refine ⟨hsign, isNumberChar_of_mem_layout ?_ _⟩
        intro c hc
        simp only [Decimal.Digits.normal, List.mem_reverse] at hc
        have hmem := (List.dropWhile_suffix _).subset hc
        exact isNumberChar_of_mem_toDigits _ c (List.mem_reverse.mp hmem)

/-- The text of a float that reads back is read in front of any other text. -/
theorem ReadsBack.value? {x : Float} (h : ReadsBack x) (hrest : Stops rest) (bound : Nat) :
    Json.value? (bound + 1) ((writeFloat x).toList ++ rest) = some (.float x, rest) := by
  have hchars := isNumberChar_of_mem_writeFloat x
  have hspace : ∀ s : List Char, (∀ c ∈ s, isNumberChar c = true) → skipSpace s = s := by
    intro s hs
    cases s with
    | nil => rfl
    | cons c s =>
      refine List.dropWhile_cons_of_neg ?_
      have hc := hs c List.mem_cons_self
      have hne : ∀ d : Char, isNumberChar d = false → c ≠ d := by
        rintro d hd rfl
        rw [hc] at hd
        cases hd
      simp [hne ' ' (by decide), hne '\t' (by decide), hne '\n' (by decide),
        hne '\r' (by decide)]
  -- nothing is left behind the float, since what is left would be part of its text
  obtain ⟨after, hread, hafter⟩ : ∃ after, Json.value? ((writeFloat x).toList.length + 1)
      (writeFloat x).toList = some (.float x, after) ∧ skipSpace after = [] := by
    unfold ReadsBack parse? at h
    simp only [hspace _ hchars] at h
    obtain ⟨read, hread, h⟩ := Option.bind_eq_some_iff.mp h
    split at h
    · rename_i hafter
      exact ⟨read.2, by rw [hread, ← Option.some.inj h], hafter⟩
    · cases h
  have hsuffix := value?_suffix hchars hread
  rw [hspace after fun c hc => hchars c (hsuffix.subset hc)] at hafter
  have hne : (writeFloat x).toList ≠ [] := by
    intro hempty
    rw [hempty] at hread
    cases hread
  rw [value?_append hchars hne hrest bound (writeFloat x).toList.length, hread, hafter]
  rfl

end ImportAtlas.Json
