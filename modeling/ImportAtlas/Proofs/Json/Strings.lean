import ImportAtlas.Json.Reader
import ImportAtlas.Json.Writer
import Mathlib.Data.List.Chain

set_option autoImplicit false

/-!
# Strings are read back

Every code point of a string is written as itself or as an escape, in either
charset, and the reader takes back exactly that code point (`IsWritten.stringBody?`).
Only a surrogate that begins a pair may not stand before one that ends it, which
would be read as one character (`Sealed`); and no string that is read has the two
side by side (`sealed_of_stringBody?`).
-/

namespace ImportAtlas.Json

open Text (Point)

/-- The last hexadecimal digit stands behind those of the sixteenth. -/
theorem hexDigits_succ (width n : Nat) :
    Text.hexDigits (width + 2) n =
      Text.hexDigits (width + 1) (n / 16) ++ [Nat.digitChar (n % 16)] := by
  simp only [Text.hexDigits]
  by_cases h : n < 16
  · rw [Nat.toDigits_of_lt_base h, Nat.div_eq_of_lt h, Nat.mod_eq_of_lt h,
      Nat.toDigits_of_lt_base (by omega)]
    change List.replicate (width + 1) '0' ++ _ = List.replicate width '0' ++ ['0'] ++ _
    rw [List.replicate_succ']
  · rw [Nat.toDigits_of_base_le (by omega) (by omega), List.length_append, List.length_singleton,
      Nat.succ_sub_succ, List.append_assoc]

/-- A sixteen-bit unit has four hexadecimal digits. -/
theorem hexDigits_four {n : Nat} (h : n < 0x10000) :
    Text.hexDigits 4 n = [Nat.digitChar (n / 16 / 16 / 16), Nat.digitChar (n / 16 / 16 % 16),
      Nat.digitChar (n / 16 % 16), Nat.digitChar (n % 16)] := by
  have hone : Text.hexDigits 1 (n / 16 / 16 / 16) = [Nat.digitChar (n / 16 / 16 / 16)] := by
    rw [Text.hexDigits, Nat.toDigits_of_lt_base (by omega)]
    rfl
  rw [hexDigits_succ 2, hexDigits_succ 1, hexDigits_succ 0, hone]
  rfl

theorem hexValue?_digitChar : ∀ d < 16, hexValue? (Nat.digitChar d) = some d := by
  decide

/-- A unit is read back. -/
theorem unit?_hexDigits {n : Nat} (h : n < 0x10000) (rest : List Char) :
    unit? (Text.hexDigits 4 n ++ rest) = some (n, rest) := by
  rw [hexDigits_four h]
  have hfirst := hexValue?_digitChar (n / 16 / 16 / 16) (by omega)
  have hsecond := hexValue?_digitChar (n / 16 / 16 % 16) (by omega)
  have hthird := hexValue?_digitChar (n / 16 % 16) (by omega)
  have hfourth := hexValue?_digitChar (n % 16) (by omega)
  simp only [List.cons_append, List.nil_append, unit?, hfirst, hsecond, hthird, hfourth]
  simp only [Option.bind_eq_bind, Option.bind_some, Option.pure_def, Option.some.injEq,
    Prod.mk.injEq, and_true]
  omega

variable {charset : Charset} {c : Char} {point : Point} {bound : Nat} {rest : List Char}

/-! ## Pairs of surrogates -/

/-- The code point begins a pair of surrogates. -/
def IsHigh : Point → Prop
  | .char _ => False
  | .surrogate offset => offset.val < 0x400

/-- The code point ends a pair of surrogates. -/
def IsLow : Point → Prop
  | .char _ => False
  | .surrogate offset => 0x400 ≤ offset.val

/-- No two code points in a row are a pair of surrogates. -/
def Sealed (s : List Point) : Prop :=
  s.IsChain fun first second => ¬ (IsHigh first ∧ IsLow second)

theorem sealed_nil : Sealed [] :=
  .nil

/-- A text has no surrogates. -/
theorem sealed_points (s : String) : Sealed s := by
  rw [Text.points, Sealed, List.isChain_map]
  induction s.toList with
  | nil => exact .nil
  | cons c chars ih => exact List.isChain_cons.mpr ⟨fun _ _ h => h.1, ih⟩

theorem ofNat_toNat (c : Char) : Point.ofNat c.toNat = .char c := by
  have hvalid : c.toNat < 0xD800 ∨ 0xDFFF < c.toNat ∧ c.toNat < 0x110000 := c.valid
  rw [Point.ofNat, dif_neg (by omega), Char.ofNat_toNat]

theorem ofNat_surrogate (offset : Fin 0x800) :
    Point.ofNat (0xD800 + offset) = .surrogate offset := by
  have hrange : 0xD800 ≤ 0xD800 + offset.val ∧ 0xD800 + offset.val < 0xE000 := by omega
  rw [Point.ofNat, dif_pos hrange]
  simp only [Nat.add_sub_cancel_left, Fin.eta]

/-! ## Units -/

/-- What a unit and the text behind it are read as is taken into the string. -/
theorem stringBody?_unitEscape {n : Nat} {after : List Char} (hn : n < 0x10000)
    (h : pointOfUnit n after = (point, rest)) :
    stringBody? (bound + 1) (unitEscape n ++ after) =
      (stringBody? bound rest).map fun read => (point :: read.1, read.2) := by
  simp only [unitEscape, List.cons_append, stringBody?, unit?_hexDigits hn, h,
    Option.bind_eq_bind, Option.bind_some, Option.pure_def]
  cases stringBody? bound rest <;> rfl

/-- An escape shows the second unit of a pair if its number is one. -/
theorem lowUnit?_unitEscape {n : Nat} (h : n < 0x10000) (rest : List Char) :
    lowUnit? (unitEscape n ++ rest) =
      if 0xDC00 ≤ n ∧ n < 0xE000 then some (n, rest) else none := by
  simp only [lowUnit?, unitEscape, List.cons_append, unit?_hexDigits h, Option.filter_some,
    Bool.and_eq_true, decide_eq_true_eq]

theorem pointOfUnit_of_small (h : c.toNat < 0x10000) :
    pointOfUnit c.toNat rest = (.char c, rest) := by
  have hvalid : c.toNat < 0xD800 ∨ 0xDFFF < c.toNat ∧ c.toNat < 0x110000 := c.valid
  rw [pointOfUnit, if_neg (by omega), ofNat_toNat]

/-- Two units stand for a character above U+FFFF. -/
theorem pointOfUnit_pair {high low : Nat} (hhigh : high < 0x400) (hlow : low < 0x400)
    (h : 0x10000 + high * 0x400 + low = c.toNat) :
    pointOfUnit (0xD800 + high) (unitEscape (0xDC00 + low) ++ rest) = (.char c, rest) := by
  have hsecond := lowUnit?_unitEscape (n := 0xDC00 + low) (by omega) rest
  rw [if_pos (by omega)] at hsecond
  rw [pointOfUnit, if_pos (by omega), hsecond]
  simp only [Nat.add_sub_cancel_left, h, Char.ofNat_toNat]

/-- A surrogate stands for itself where its partner does not follow. -/
theorem pointOfUnit_surrogate {offset : Fin 0x800}
    (h : IsHigh (.surrogate offset) → lowUnit? rest = none) :
    pointOfUnit (0xD800 + offset) rest = (.surrogate offset, rest) := by
  unfold pointOfUnit
  by_cases hhigh : offset.val < 0x400
  · rw [if_pos (by omega), h hhigh, ofNat_surrogate]
  · rw [if_neg (by omega), ofNat_surrogate]

/-- A character is read back from the escapes of its units. -/
theorem stringBody?_numberEscape :
    stringBody? (bound + 1) (numberEscape c ++ rest) =
      (stringBody? bound rest).map fun read => (.char c :: read.1, read.2) := by
  have hvalid : c.toNat < 0xD800 ∨ 0xDFFF < c.toNat ∧ c.toNat < 0x110000 := c.valid
  unfold numberEscape
  by_cases hsmall : c.toNat < 0x10000
  · rw [if_pos hsmall]
    exact stringBody?_unitEscape hsmall (pointOfUnit_of_small hsmall)
  · have hpair := @pointOfUnit_pair c rest ((c.toNat - 0x10000) / 0x400)
      ((c.toNat - 0x10000) % 0x400) (by omega) (by omega) (by omega)
    have hfirst : 0xD800 + (c.toNat - 0x10000) / 0x400 < 0x10000 := by omega
    simp only [if_neg hsmall, List.append_assoc]
    exact stringBody?_unitEscape hfirst hpair

/-! ## Code points -/

/-- How a code point may be written: by the letter of its escape, by the numbers of its units, or
as itself. -/
inductive IsWritten : Point → List Char → Prop where
  | letter {c letter : Char} (h : letterEscape? letter = some c) :
      IsWritten (.char c) ['\\', letter]
  | number (c : Char) : IsWritten (.char c) (numberEscape c)
  | surrogate (offset : Fin 0x800) : IsWritten (.surrogate offset) (unitEscape (0xD800 + offset))
  | plain {c : Char} (quote : c ≠ '"') (slash : c ≠ '\\') (control : ¬ c.toNat < 32) :
      IsWritten (.char c) [c]

theorem isWritten_escapeChar (charset : Charset) (c : Char) :
    IsWritten (.char c) (escapeChar charset c) := by
  unfold escapeChar
  by_cases hquote : c = '"'
  · rw [if_pos hquote, hquote]
    exact .letter rfl
  rw [if_neg hquote]
  by_cases hslash : c = '\\'
  · rw [if_pos hslash, hslash]
    exact .letter rfl
  rw [if_neg hslash]
  split
  · subst_vars; exact .letter rfl
  split
  · subst_vars; exact .letter rfl
  split
  · subst_vars; exact .letter rfl
  split
  · subst_vars; exact .letter rfl
  split
  · subst_vars; exact .letter rfl
  split
  · exact .number c
  split
  · exact .number c
  · rename_i hcontrol _
    exact .plain hquote hslash hcontrol

theorem isWritten_escapePoint (charset : Charset) (point : Point) :
    IsWritten point (escapePoint charset point) := by
  cases point with
  | char c => exact isWritten_escapeChar charset c
  | surrogate offset => exact .surrogate offset

theorem letter_ne_of_letterEscape? {letter : Char} (h : letterEscape? letter = some c) :
    letter ≠ 'u' := by
  rintro rfl
  cases h

/-- Only what ends a pair is written as the second unit of one. -/
theorem IsWritten.lowUnit? {text : List Char} (h : IsWritten point text) (hlow : ¬ IsLow point)
    (rest : List Char) : Json.lowUnit? (text ++ rest) = none := by
  cases h with
  | @letter c letter hmeaning =>
    have hletter := letter_ne_of_letterEscape? hmeaning
    unfold Json.lowUnit?
    split
    · rename_i heq
      simp only [List.cons_append, List.cons.injEq] at heq
      exact absurd heq.2.1 hletter
    · rfl
  | number c =>
    have hvalid : c.toNat < 0xD800 ∨ 0xDFFF < c.toNat ∧ c.toNat < 0x110000 := c.valid
    unfold numberEscape
    by_cases hsmall : c.toNat < 0x10000
    · rw [if_pos hsmall, lowUnit?_unitEscape hsmall, if_neg (by omega)]
    · simp only [if_neg hsmall, List.append_assoc]
      rw [lowUnit?_unitEscape (by omega), if_neg (by omega)]
  | surrogate offset =>
    have hhigh : offset.val < 0x400 := Nat.not_le.mp hlow
    rw [lowUnit?_unitEscape (by omega), if_neg (by omega)]
  | plain _ hslash _ =>
    unfold Json.lowUnit?
    split
    · rename_i heq
      exact absurd (List.cons.inj heq).1 hslash
    · rfl

/-- A code point is read back from what is written for it, if no pair comes about. -/
theorem IsWritten.stringBody? {text : List Char} (h : IsWritten point text)
    (hrest : IsHigh point → Json.lowUnit? rest = none) :
    Json.stringBody? (bound + 1) (text ++ rest) =
      (Json.stringBody? bound rest).map fun read => (point :: read.1, read.2) := by
  cases h with
  | @letter c letter hmeaning =>
    simp only [List.cons_append, List.nil_append]
    rw [Json.stringBody?]
    · simp only [hmeaning, Option.bind_eq_bind, Option.bind_some, Option.pure_def]
      cases Json.stringBody? bound rest <;> rfl
    · exact letter_ne_of_letterEscape? hmeaning
  | number => exact stringBody?_numberEscape
  | surrogate offset =>
    exact stringBody?_unitEscape (by omega) (pointOfUnit_surrogate hrest)
  | plain hquote hslash hcontrol =>
    rw [List.singleton_append, Json.stringBody?, if_neg]
    · simp only [Option.bind_eq_bind, Option.pure_def]
      cases Json.stringBody? bound rest <;> rfl
    · exact not_or.mpr ⟨hcontrol, hslash⟩
    · exact hquote
    · exact fun _ h => absurd h hslash
    · exact fun _ _ h => absurd h hslash

/-- A string is read back up to its closing quote. -/
theorem stringBody?_flatMap {s : List Point} (hsealed : Sealed s) (h : s.length < bound) :
    stringBody? bound (s.flatMap (escapePoint charset) ++ '"' :: rest) = some (s, rest) := by
  induction s generalizing bound with
  | nil =>
    obtain _ | bound := bound
    · cases h
    rfl
  | cons point s ih =>
    obtain _ | bound := bound
    · cases h
    have hrest : IsHigh point →
        lowUnit? (s.flatMap (escapePoint charset) ++ '"' :: rest) = none := by
      intro hhigh
      cases s with
      | nil => rfl
      | cons next s =>
        have hnext : ¬ IsLow next := fun hlow => (List.isChain_cons_cons.mp hsealed).1 ⟨hhigh, hlow⟩
        rw [List.flatMap_cons, List.append_assoc]
        exact (isWritten_escapePoint charset next).lowUnit? hnext _
    rw [List.flatMap_cons, List.append_assoc,
      (isWritten_escapePoint charset point).stringBody? hrest,
      ih (List.IsChain.tail hsealed) (Nat.lt_of_succ_lt_succ h)]
    rfl

/-! ## What is read is sealed -/

theorem lowUnit?_eq_none_of_isHigh {n : Nat} {after : List Char}
    (h : pointOfUnit n after = (point, rest)) (hhigh : IsHigh point) : lowUnit? rest = none := by
  unfold pointOfUnit at h
  split at h
  · split at h
    · cases h
      cases hhigh
    · rename_i hnone
      cases h
      exact hnone
  · rename_i hn
    cases h
    unfold Point.ofNat at hhigh
    split at hhigh
    · have hlt : n - 0xD800 < 0x400 := hhigh
      omega
    · cases hhigh

theorem isLow_of_pointOfUnit {n : Nat} {after : List Char}
    (h : pointOfUnit n after = (point, rest)) (hlow : IsLow point) : 0xDC00 ≤ n ∧ n < 0xE000 := by
  have hofNat : ∀ {n}, IsLow (Point.ofNat n) → 0xDC00 ≤ n ∧ n < 0xE000 := by
    intro n hlow
    unfold Point.ofNat at hlow
    split at hlow
    · have hle : 0x400 ≤ n - 0xD800 := hlow
      omega
    · cases hlow
  unfold pointOfUnit at h
  split at h
  · split at h
    · cases h
      cases hlow
    · cases h
      exact hofNat hlow
  · cases h
    exact hofNat hlow

/-- A string that is read holds no pair of surrogates, nor does one come about with what stood
before it. -/
theorem sealed_of_stringBody? {s : List Char} {body : List Point}
    (h : stringBody? bound s = some (body, rest)) :
    Sealed body ∧ ∀ point ∈ body.head?, IsLow point → lowUnit? s ≠ none := by
  have hchar : ∀ {c : Char} {body : List Point}, Sealed body → ∀ s : List Char,
      Sealed (.char c :: body) ∧
        ∀ point ∈ (Point.char c :: body).head?, IsLow point → lowUnit? s ≠ none := by
    intro c body hbody s
    refine ⟨List.isChain_cons.mpr ⟨fun _ _ h => h.1, hbody⟩, fun point hpoint hlow => ?_⟩
    cases hpoint
    cases hlow
  fun_induction stringBody? bound s generalizing body rest with
  | case1 => cases h
  | case2 => cases h
  | case3 =>
    cases h
    exact ⟨sealed_nil, nofun⟩
  | case4 bound s ih =>
    obtain ⟨⟨unit, after⟩, hunit, h⟩ := Option.bind_eq_some_iff.mp h
    rcases hpoint : pointOfUnit unit after with ⟨point, behind⟩
    simp only [hpoint] at h
    obtain ⟨⟨more, last⟩, hmore, h⟩ := Option.bind_eq_some_iff.mp h
    cases h
    obtain ⟨hsealed, hfirst⟩ := ih _ hmore
    refine ⟨List.isChain_cons.mpr ⟨fun next hnext hpair => ?_, hsealed⟩, fun _ hhead hlow => ?_⟩
    · exact hfirst next hnext hpair.2 (lowUnit?_eq_none_of_isHigh hpoint hpair.1)
    · cases hhead
      have hrange := isLow_of_pointOfUnit hpoint hlow
      simp [lowUnit?, hunit, hrange]
  | case5 bound c s _ ih =>
    obtain ⟨letter, -, h⟩ := Option.bind_eq_some_iff.mp h
    obtain ⟨⟨more, last⟩, hmore, h⟩ := Option.bind_eq_some_iff.mp h
    cases h
    exact hchar (ih hmore).1 _
  | case6 => cases h
  | case7 bound c s =>
    rename_i ih
    obtain ⟨⟨more, last⟩, hmore, h⟩ := Option.bind_eq_some_iff.mp h
    cases h
    exact hchar (ih hmore).1 _

/-! ## The written text -/

theorem IsWritten.ne_nil {text : List Char} (h : IsWritten point text) : text ≠ [] := by
  have hunit : ∀ n, unitEscape n ≠ [] := fun n => List.cons_ne_nil _ _
  cases h with
  | letter => exact List.cons_ne_nil _ _
  | number c =>
    unfold numberEscape
    split
    · exact hunit _
    · exact List.append_ne_nil_of_left_ne_nil (hunit _) _
  | surrogate => exact hunit _
  | plain => exact List.cons_ne_nil _ _

/-- Every code point takes at least one character in the text. -/
theorem length_le_flatMap_escapePoint (s : List Point) :
    s.length ≤ (s.flatMap (escapePoint charset)).length := by
  induction s with
  | nil => exact Nat.le_refl 0
  | cons point s ih =>
    have hone := List.length_pos_iff.mpr (isWritten_escapePoint charset point).ne_nil
    rw [List.flatMap_cons, List.length_append, List.length_cons]
    omega

/-- No line end is written inside a string. -/
theorem IsWritten.line_end_not_mem {text : List Char} (h : IsWritten point text) {b : Char}
    (hb : b = '\n' ∨ b = '\r') : b ∉ text := by
  have hfixed : b ≠ '\\' ∧ b ≠ 'u' ∧ letterEscape? b = none ∧ b.toNat < 32 ∧
      ∀ d < 16, b ≠ Nat.digitChar d := by
    rcases hb with rfl | rfl <;> decide
  obtain ⟨hslash, hletter, hescape, hcontrol, hdigit⟩ := hfixed
  have hunit : ∀ n < 0x10000, b ∉ unitEscape n := by
    intro n hn
    rw [unitEscape, hexDigits_four hn]
    simp [hslash, hletter, hdigit (n / 16 / 16 / 16) (by omega),
      hdigit (n / 16 / 16 % 16) (by omega), hdigit (n / 16 % 16) (by omega),
      hdigit (n % 16) (by omega)]
  cases h with
  | @letter c letter hmeaning =>
    have hne : b ≠ letter := by
      rintro rfl
      simp [hescape] at hmeaning
    simp [hslash, hne]
  | number c =>
    have hvalid : c.toNat < 0xD800 ∨ 0xDFFF < c.toNat ∧ c.toNat < 0x110000 := c.valid
    unfold numberEscape
    split
    · rename_i hsmall
      exact hunit _ hsmall
    · simp only [List.mem_append, not_or]
      exact ⟨hunit _ (by omega), hunit _ (by omega)⟩
  | surrogate offset => exact hunit _ (by omega)
  | plain quote slash control =>
    rw [List.mem_singleton]
    rintro rfl
    exact control hcontrol

end ImportAtlas.Json
