import ImportAtlas.Text.Quoted

set_option autoImplicit false

/-!
# Code points that are no characters

The numbers U+D800 to U+DFFF, the surrogates, are no characters.  A JSON string
that spells one without its partner holds it all the same, so the value of a JSON
string is a list of code points; it is a text if no surrogate is among them, and
no file takes it otherwise.
-/

namespace ImportAtlas.Text

/-- A code point. -/
inductive Point where
  | char (c : Char)
  /-- the surrogate at a distance from U+D800 -/
  | surrogate (offset : Fin 0x800)
  deriving DecidableEq, Repr

namespace Point

/-- The code point of a number; a number above U+10FFFF counts as zero. -/
def ofNat (n : Nat) : Point :=
  if h : 0xD800 ≤ n ∧ n < 0xE000 then .surrogate ⟨n - 0xD800, by omega⟩ else .char (Char.ofNat n)

/-- The character that a code point is, if it is one. -/
def char? : Point → Option Char
  | char c => some c
  | surrogate _ => none

end Point

/-- The code points of a text. -/
def points (s : String) : List Point :=
  s.toList.map .char

instance : Coe String (List Point) := ⟨points⟩

/-- The text of code points, if they are all characters. -/
def text? (s : List Point) : Option String :=
  (s.mapM Point.char?).map String.ofList

/-- Surrogates that no file takes: the position of the first one, and how far they are from
U+D800. -/
structure EncodeFault where
  position : Nat
  surrogates : List (Fin 0x800)
  deriving DecidableEq, Repr

/-- The wording of a fault names a single surrogate and tells the positions of several. -/
def EncodeFault.message (f : EncodeFault) : String :=
  let refused (what : String) := "'utf-8' codec can't encode " ++ what ++ ": surrogates not allowed"
  match f.surrogates with
  | [offset] =>
    refused ("character '\\u" ++ String.ofList (hexDigits 4 (0xD800 + offset)) ++
      "' in position " ++
      toString f.position)
  | surrogates =>
    refused ("characters in position " ++ toString f.position ++ "-" ++
      toString (f.position + surrogates.length - 1))

/-- The first surrogates among code points, with those right behind them. -/
def firstSurrogates (s : List Point) : EncodeFault where
  position := (s.takeWhile fun point => point.char?.isSome).length
  surrogates := ((s.dropWhile fun point => point.char?.isSome).takeWhile fun point =>
    point.char?.isNone).filterMap fun point =>
      match point with
      | .surrogate offset => some offset
      | .char _ => none

/-- The bytes of code points. -/
def encode (s : List Point) : Except EncodeFault ByteArray :=
  match text? s with
  | some text => .ok text.toUTF8
  | none => .error (firstSurrogates s)

/-! ## Texts among code points -/

@[simp] theorem text?_points (s : String) : text? (points s) = some s := by
  have hchars : (s.toList.map Point.char).mapM Point.char? = some s.toList := by
    induction s.toList with
    | nil => rfl
    | cons c chars ih => simp [Point.char?, ih]
  rw [text?, points, hchars, Option.map_some, String.ofList_toList]

theorem points_injective : Function.Injective points := by
  intro s t h
  have htext := congrArg text? h
  rwa [text?_points, text?_points, Option.some.injEq] at htext

/-- Code points that are a text are those of the text. -/
theorem points_of_text? {s : List Point} {text : String} (h : text? s = some text) :
    s = points text := by
  obtain ⟨chars, hchars, rfl⟩ := Option.map_eq_some_iff.mp h
  rw [points, String.toList_ofList]
  clear h
  induction s generalizing chars with
  | nil =>
    cases hchars
    rfl
  | cons point s ih =>
    rw [List.mapM_cons] at hchars
    obtain ⟨c, hc, hrest⟩ := Option.bind_eq_some_iff.mp hchars
    obtain ⟨rest, hs, hcons⟩ := Option.bind_eq_some_iff.mp hrest
    cases hcons
    cases point with
    | surrogate offset => cases hc
    | char c' =>
      cases hc
      rw [List.map_cons, ← ih rest hs]

@[simp] theorem encode_points (s : String) : encode (points s) = .ok s.toUTF8 := by
  rw [encode, text?_points]

/-- Only a text is encoded. -/
theorem encode_eq_ok_iff {s : List Point} {bytes : ByteArray} :
    encode s = .ok bytes ↔ ∃ text : String, s = text ∧ bytes = text.toUTF8 := by
  constructor
  · intro h
    unfold encode at h
    cases htext : text? s with
    | none =>
      rw [htext] at h
      cases h
    | some text =>
      rw [htext] at h
      exact ⟨text, points_of_text? htext, (Except.ok.inj h).symm⟩
  · rintro ⟨text, rfl, rfl⟩
    exact encode_points text

end ImportAtlas.Text
