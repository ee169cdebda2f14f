set_option autoImplicit false

/-!
# Reading UTF-8

Sources are read tolerantly: a maximal run of bytes that begins a well-formed
sequence without completing it, or a byte that begins none, becomes one
replacement character.  An existing report and the settings files are read
strictly: the first such run is a fault that names its bytes and position.

Both readings share `scan`, which looks at the front of the input and returns
either a character or the cause and the length of a fault.  Line ends are
unified afterwards: a carriage return, with or without a line feed, becomes a
line feed.
-/

namespace ImportAtlas.Text

/-- Why the bytes at a position encode no character. -/
inductive Utf8Cause where
  /-- the byte begins no sequence -/
  | invalidStart
  /-- a sequence began, and a byte that cannot continue it follows -/
  | invalidContinuation
  /-- a sequence began, and the input ends inside it -/
  | unexpectedEnd
  deriving DecidableEq, Repr

/-- The wording of a cause. -/
def Utf8Cause.message : Utf8Cause → String
  | .invalidStart => "invalid start byte"
  | .invalidContinuation => "invalid continuation byte"
  | .unexpectedEnd => "unexpected end of data"

/-- The front of the input: a character, or a fault; with the number of bytes after the first
that belong to it. -/
inductive Utf8Front where
  | char (c : Char) (more : Nat)
  | fault (cause : Utf8Cause) (more : Nat)
  deriving DecidableEq, Repr

/-- What a lead byte announces: the number of continuation bytes, the least and greatest
admissible first one, and the bits of the code point that the lead byte carries. -/
structure Utf8Lead where
  count : Nat
  least : Nat
  greatest : Nat
  bits : Nat
  deriving DecidableEq, Repr

/-- The lead bytes of sequences of two, three and four bytes.  The bounds on the first
continuation byte exclude overlong forms, surrogates and numbers above U+10FFFF. -/
def utf8Lead? (b : Nat) : Option Utf8Lead :=
  if 0xC2 ≤ b ∧ b ≤ 0xDF then some ⟨1, 0x80, 0xBF, b - 0xC0⟩
  else if b = 0xE0 then some ⟨2, 0xA0, 0xBF, 0⟩
  else if b = 0xED then some ⟨2, 0x80, 0x9F, 0xD⟩
  else if 0xE1 ≤ b ∧ b ≤ 0xEF then some ⟨2, 0x80, 0xBF, b - 0xE0⟩
  else if b = 0xF0 then some ⟨3, 0x90, 0xBF, 0⟩
  else if 0xF1 ≤ b ∧ b ≤ 0xF3 then some ⟨3, 0x80, 0xBF, b - 0xF0⟩
  else if b = 0xF4 then some ⟨3, 0x80, 0x8F, 4⟩
  else none

/-- Reads `count` continuation bytes, the first between `least` and `greatest`, onto the bits
read so far; `taken` counts the bytes accepted already. -/
def utf8Continue : (count least greatest bits taken : Nat) → List UInt8 → Utf8Front
  | 0, _, _, bits, taken, _ => .char (Char.ofNat bits) taken
  | _ + 1, _, _, _, taken, [] => .fault .unexpectedEnd taken
  | n + 1, least, greatest, bits, taken, b :: rest =>
    if least ≤ b.toNat ∧ b.toNat ≤ greatest then
      utf8Continue n 0x80 0xBF (bits * 64 + (b.toNat - 0x80)) (taken + 1) rest
    else .fault .invalidContinuation taken

/-- What the input `b :: rest` begins with. -/
def utf8Front (b : UInt8) (rest : List UInt8) : Utf8Front :=
  if b.toNat < 0x80 then .char (Char.ofNat b.toNat) 0
  else match utf8Lead? b.toNat with
    | none => .fault .invalidStart 0
    | some lead => utf8Continue lead.count lead.least lead.greatest lead.bits 0 rest

/-- The characters of a byte sequence, a fault read as one U+FFFD. -/
def decodeTolerant : List UInt8 → List Char
  | [] => []
  | b :: rest =>
    match utf8Front b rest with
    | .char c more => c :: decodeTolerant (rest.drop more)
    | .fault _ more => Char.ofNat 0xFFFD :: decodeTolerant (rest.drop more)
termination_by bytes => bytes.length
decreasing_by all_goals (simp only [List.length_cons, List.length_drop]; omega)

/-- A fault of a byte sequence: its cause, the position of its first byte, and its bytes. -/
structure Utf8Fault where
  cause : Utf8Cause
  position : Nat
  bytes : List UInt8
  deriving DecidableEq, Repr

/-- The first fault at or after the front of the input, which lies at `position`. -/
def firstFault? (position : Nat) : List UInt8 → Option Utf8Fault
  | [] => none
  | b :: rest =>
    match utf8Front b rest with
    | .char _ more => firstFault? (position + more + 1) (rest.drop more)
    | .fault cause more => some ⟨cause, position, b :: rest.take more⟩
termination_by bytes => bytes.length
decreasing_by all_goals (simp only [List.length_cons, List.length_drop]; omega)

/-- Two lower-case hexadecimal digits. -/
def hexByte (b : UInt8) : String :=
  let digits := Nat.toDigits 16 b.toNat
  String.ofList (List.replicate (2 - digits.length) '0' ++ digits)

/-- The wording of a fault names a single byte by value and a longer run by its positions. -/
def Utf8Fault.message (f : Utf8Fault) : String :=
  match f.bytes with
  | [b] =>
    "'utf-8' codec can't decode byte 0x" ++ hexByte b ++ " in position " ++ toString f.position ++
      ": " ++ f.cause.message
  | bytes =>
    "'utf-8' codec can't decode bytes in position " ++ toString f.position ++ "-" ++
      toString (f.position + bytes.length - 1) ++ ": " ++ f.cause.message

/-- The string that the bytes encode, or their first fault. -/
def decodeStrict (bytes : ByteArray) : Except Utf8Fault String :=
  match String.fromUTF8? bytes with
  | some s => .ok s
  | none => .error ((firstFault? 0 bytes.toList).getD ⟨.invalidStart, 0, []⟩)

/-- A carriage return, alone or before a line feed, is read as a line feed. -/
def unifyLineEnds : List Char → List Char
  | [] => []
  | '\r' :: '\n' :: rest => '\n' :: unifyLineEnds rest
  | c :: rest => (if c = '\r' then '\n' else c) :: unifyLineEnds rest

/-- The text of a source file. -/
def readSource (bytes : ByteArray) : String :=
  String.ofList (unifyLineEnds (decodeTolerant bytes.toList))

/-- The text of a file that must be well-formed. -/
def readStrict (bytes : ByteArray) : Except Utf8Fault String :=
  (decodeStrict bytes).map fun s => String.ofList (unifyLineEnds s.toList)

/-- The text read has no carriage return. -/
theorem unifyLineEnds_no_return (s : List Char) : '\r' ∉ unifyLineEnds s := by
  fun_induction unifyLineEnds s with
  | case1 => simp
  | case2 rest ih => simp [ih]
  | case3 c rest _ ih =>
    simp only [List.mem_cons, not_or]
    refine ⟨?_, ih⟩
    split <;> simp_all [eq_comm]

end ImportAtlas.Text
