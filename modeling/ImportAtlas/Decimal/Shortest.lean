import ImportAtlas.Decimal.Double

set_option autoImplicit false

/-!
# The shortest decimal of a double

A double is written with the fewest digits that read back as the same double.
The numbers that round to `m * 2 ^ q` form an interval around it, with the ends
included when `m` is even.  For one digit, two digits, and so on, the two
neighbours of the value on that decimal grid are tried in exact arithmetic; the
first grid with a hit wins, and of two hits the nearer one, the even one on a
tie.

The layout is positional when the decimal exponent lies between -4 and 15, and
has an exponent of at least two digits otherwise; a positional text always holds
a point.
-/

namespace ImportAtlas.Decimal

/-- The interval of numbers that round to a double, in quarters of its last place: its least
number, the double itself, its greatest number, and whether the ends belong to it. -/
structure Rounding where
  low : Nat
  value : Nat
  high : Nat
  closed : Bool
  deriving DecidableEq, Repr

/-- The interval around `m * 2 ^ q`.  Below a power of two the next double is only half as far. -/
def rounding (m : Nat) (q : Int) : Rounding where
  low := if m = leadingUnit ∧ minExponent < q then 4 * m - 1 else 4 * m - 2
  value := 4 * m
  high := 4 * m + 2
  closed := m % 2 = 0

/-- A decimal: `digits * 10 ^ exponent`. -/
structure Digits where
  digits : Nat
  exponent : Int
  deriving DecidableEq, Repr

/-- A decimal and a count of quarters of `2 ^ q`, brought to one scale as natural numbers. -/
def commonScale (d : Digits) (quarters : Nat) (q : Int) : Nat × Nat :=
  let left := d.digits * (if 0 ≤ d.exponent then Nat.pow 10 d.exponent.toNat else 1) *
    (if 0 ≤ q - 2 then 1 else Nat.pow 2 (2 - q).toNat)
  let right := quarters * (if 0 ≤ q - 2 then Nat.pow 2 (q - 2).toNat else 1) *
    (if 0 ≤ d.exponent then 1 else Nat.pow 10 (-d.exponent).toNat)
  (left, right)

/-- Whether a decimal lies in the interval. -/
def Rounding.holds (r : Rounding) (q : Int) (d : Digits) : Bool :=
  let (x, low) := commonScale d r.low q
  let (_, high) := commonScale d r.high q
  if r.closed then low ≤ x && x ≤ high else low < x && x < high

/-- The distance of a decimal from the value, on the scale of decimals of its exponent. -/
def Rounding.distance (r : Rounding) (q : Int) (d : Digits) : Nat :=
  let (x, value) := commonScale d r.value q
  if x ≤ value then value - x else x - value

/-- The neighbour below the value on the grid of multiples of `10 ^ exponent`. -/
def Rounding.floorAt (r : Rounding) (q exponent : Int) : Nat :=
  let (one, value) := commonScale ⟨1, exponent⟩ r.value q
  value / one

/-- The decimal of a grid that reads back, if one of the two neighbours does. -/
def Rounding.pick? (r : Rounding) (q exponent : Int) : Option Digits :=
  let n := r.floorAt q exponent
  let below : Digits := ⟨n, exponent⟩
  let above : Digits := ⟨n + 1, exponent⟩
  match r.holds q below && n != 0, r.holds q above with
  | false, false => none
  | true, false => some below
  | false, true => some above
  | true, true =>
    let a := r.distance q below
    let b := r.distance q above
    if a < b then some below
    else if b < a then some above
    else if n % 2 = 0 then some below else some above

/-- The coarsest grid from `exponent` down on which a decimal reads back, trying `grids` of them. -/
def Rounding.search (r : Rounding) (q : Int) : (grids : Nat) → (exponent : Int) → Digits
  | 0, exponent => ⟨r.floorAt q exponent, exponent⟩
  | grids + 1, exponent =>
    match r.pick? q exponent with
    | some d => d
    | none => r.search q grids (exponent - 1)

/-- The shortest decimal of the positive number `m * 2 ^ q`: the search starts above the greatest
power of ten that any double reaches and ends below the least. -/
def shortest (m : Nat) (q : Int) : Digits :=
  let r := rounding m q
  let size := (Nat.toDigits 10 (r.floorAt q 0)).length
  if r.floorAt q 0 = 0 then r.search q 400 0 else r.search q 400 size

/-- The digits without trailing zeros and the place of the point before them: the number is
`0.digits * 10 ^ point`. -/
def Digits.normal (d : Digits) : List Char × Int :=
  let text := Nat.toDigits 10 d.digits
  let kept := (text.reverse.dropWhile (· == '0')).reverse
  (kept, (text.length : Int) + d.exponent)

/-- The exponent of a decimal with its sign and at least two digits. -/
def exponentText (e : Int) : List Char :=
  let digits := Nat.toDigits 10 e.natAbs
  (if e < 0 then '-' else '+') :: (List.replicate (2 - digits.length) '0' ++ digits)

/-- The layout of a positive decimal. -/
def layout (digits : List Char) (point : Int) : List Char :=
  if -4 < point ∧ point ≤ 16 then
    if point ≤ 0 then ['0', '.'] ++ List.replicate (-point).toNat '0' ++ digits
    else
      let whole := point.toNat
      let front := digits.take whole ++ List.replicate (whole - digits.length) '0'
      let back := digits.drop whole
      front ++ '.' :: (if back = [] then ['0'] else back)
  else
    let tail := match digits with
      | _ :: d :: rest => '.' :: d :: rest
      | _ => []
    digits.take 1 ++ tail ++ 'e' :: exponentText (point - 1)

/-- The text of a double; `infinite` and `undefined` are the words for infinity and for the value
that is no number. -/
def text (infinite undefined : String) (x : Float) : String :=
  if x.isNaN then undefined
  else
    let sign := if isNegative x then "-" else ""
    if x.isInf then sign ++ infinite
    else
      let (m, q) := parts x
      if m = 0 then sign ++ "0.0"
      else
        let (digits, point) := (shortest m q).normal
        sign ++ String.ofList (layout digits point)

end ImportAtlas.Decimal
