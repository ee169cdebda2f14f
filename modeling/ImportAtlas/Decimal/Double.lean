set_option autoImplicit false

/-!
# Doubles as exact numbers

A finite double is a sign and a number `m * 2 ^ q`, with `m` below `2 ^ 53` and
`q` at least `-1074`.  `parts` takes a double apart, and `nearest` finds the
double closest to a positive fraction, a tie going to the one with even `m`.
Everything is exact arithmetic on natural numbers; only the last step forms the
bit pattern.
-/

namespace ImportAtlas.Decimal

/-- The least exponent of a double. -/
def minExponent : Int := -1074

/-- The greatest exponent of a finite double. -/
def maxExponent : Int := 971

/-- The least `m` of a double above the smallest ones, `2 ^ 52`. -/
def leadingUnit : Nat := 0x10000000000000

/-- The weight of the sign bit, `2 ^ 63`. -/
def signWeight : Nat := 0x8000000000000000

/-- Whether the sign bit of a double is set. -/
def isNegative (x : Float) : Bool :=
  signWeight ≤ x.toBits.toNat

/-- The magnitude of a finite double as `m * 2 ^ q`. -/
def parts (x : Float) : Nat × Int :=
  let bits := x.toBits.toNat
  let field : Nat := bits / leadingUnit % 2048
  let fraction : Nat := bits % leadingUnit
  if field = 0 then (fraction, minExponent) else (leadingUnit + fraction, (field : Int) - 1075)

/-- The double with a sign and the magnitude `m * 2 ^ q`, for `m` at most `2 ^ 53`; a magnitude
beyond the finite doubles is infinity. -/
def compose (negative : Bool) (m : Nat) (q : Int) : Float :=
  let (m, q) := if m = 2 * leadingUnit then (leadingUnit, q + 1) else (m, q)
  let magnitude :=
    if maxExponent < q then 2047 * leadingUnit
    else if m < leadingUnit then m
    else (q + 1075).toNat * leadingUnit + (m - leadingUnit)
  Float.ofBits (UInt64.ofNat (magnitude + if negative then signWeight else 0))

/-- The quotient rounded to the nearest natural number, a tie to the even one. -/
def roundHalfEven (num den : Nat) : Nat :=
  let quotient := num / den
  let rest := num % den
  if 2 * rest < den then quotient
  else if den < 2 * rest then quotient + 1
  else if quotient % 2 = 0 then quotient else quotient + 1

/-- The fraction `num / (den * 2 ^ q)` as numerator and denominator. -/
def scaled (num den : Nat) (q : Int) : Nat × Nat :=
  if 0 ≤ q then (num, den * Nat.pow 2 q.toNat) else (num * Nat.pow 2 (-q).toNat, den)

/-- The double nearest to `num / den`. -/
def nearest (negative : Bool) (num den : Nat) : Float :=
  let guess := (num.log2 : Int) - den.log2 - 52
  let (n, d) := scaled num den guess
  let exponent := if n < leadingUnit * d then guess - 1 else guess
  let q := max exponent minExponent
  let (n, d) := scaled num den q
  compose negative (roundHalfEven n d) q

/-- The double nearest to `mantissa * 10 ^ exponent`.  Numbers far beyond the doubles on either
side are decided by their number of digits, without forming the power. -/
def ofDecimal (negative : Bool) (mantissa : Nat) (exponent : Int) : Float :=
  let magnitude := (Nat.toDigits 10 mantissa).length + exponent
  if mantissa = 0 ∨ magnitude < -330 then compose negative 0 minExponent
  else if 310 < magnitude then compose negative leadingUnit (maxExponent + 1)
  else if 0 ≤ exponent then nearest negative (mantissa * Nat.pow 10 exponent.toNat) 1
  else nearest negative mantissa (Nat.pow 10 (-exponent).toNat)

/-- The double nearest to an integer. -/
def ofInt (n : Int) : Float :=
  if n = 0 then compose false 0 minExponent else nearest (n < 0) n.natAbs 1

/-- The integer that a finite double without a fraction equals. -/
def toInt? (x : Float) : Option Int :=
  if x.isNaN || x.isInf then none
  else
    let (m, q) := parts x
    let signed (n : Nat) : Int := if isNegative x then -n else n
    if 0 ≤ q then some (signed (m * Nat.pow 2 q.toNat))
    else if m % Nat.pow 2 (-q).toNat = 0 then some (signed (m / Nat.pow 2 (-q).toNat))
    else none

end ImportAtlas.Decimal
