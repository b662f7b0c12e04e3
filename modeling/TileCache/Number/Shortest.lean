import TileCache.Number.Binary

/-!
# The fewest digits that identify a number

A binary number stands for all reals that round to it.  It is written with the fewest decimal
digits of any of these, and among those with the digits nearest to it; a tie goes to the even
digit.  To have digits on a grid it is enough to look at the two points of the grid next to the
number itself.
-/

set_option autoImplicit false

namespace TileCache.Number

/-- The number `digits * 10 ^ exponent`. -/
structure Decimal where
  digits : Nat
  exponent : Int
deriving DecidableEq

namespace Decimal

def fraction (d : Decimal) : Nat × Nat :=
  if 0 ≤ d.exponent then (d.digits * Nat.pow 10 d.exponent.toNat, 1)
  else (d.digits, Nat.pow 10 (-d.exponent).toNat)

end Decimal

namespace Binary

/-- Does the decimal number round to `b`?  The halves between neighbours belong to the number with
the even mantissa, and below a power of two neighbours are half as far apart. -/
def identifiedBy (b : Binary) (d : Decimal) : Bool :=
  let quarter : Binary := ⟨1, b.exponent - 2⟩
  let (unit, unitDen) := quarter.fraction
  let (num, den) := d.fraction
  let low := 4 * b.mantissa - if b.mantissa = leastMantissa then 1 else 2
  let high := 4 * b.mantissa + 2
  let atLeast := low * unit * den
  let here := num * unitDen
  let atMost := high * unit * den
  if b.mantissa % 2 = 0 then atLeast ≤ here && here ≤ atMost
  else atLeast < here && here < atMost

/-- The least `k` with `b < 10 ^ k`, looked for upwards from `k`. -/
def magnitudeFrom (b : Binary) : (fuel : Nat) → (k : Int) → Int
  | 0, k => k
  | fuel + 1, k =>
    let (num, den) := b.fraction
    let (power, powerDen) := (Decimal.mk 1 k).fraction
    if num * powerDen < power * den then k else magnitudeFrom b fuel (k + 1)

/-- The power of ten that is next above `b`.  Numbers of 53 digits that occur as shares lie between
`10 ^ (-330)` and `10 ^ 330`. -/
def magnitude (b : Binary) : Int := b.magnitudeFrom 660 (-330)

/-- Of the two points of the grid `10 ^ exponent` next to `b` those that identify it, the nearer
one first, and of two equally near ones that with the even digit. -/
def gridPoints (b : Binary) (exponent : Int) : List Decimal :=
  let (num, den) := b.fraction
  let (grid, gridDen) := (Decimal.mk 1 exponent).fraction
  let below := num * gridDen / (grid * den)
  let nearest := roundDiv (num * gridDen) (grid * den)
  let points := [nearest, if nearest = below then below + 1 else below]
  (points.map fun digits => Decimal.mk digits exponent).filter b.identifiedBy

/-- The decimal number with the fewest digits that identifies `b`.  A point of a grid that ends in
a zero is the power of ten just above the number, and is written with one digit. -/
def shortest (b : Binary) : Decimal :=
  if b.mantissa = 0 then ⟨0, 0⟩
  else
    let top := b.magnitude
    match (List.range 17).findSome? fun (n : Nat) => (b.gridPoints (top - 1 - n)).head? with
    | some d => if d.digits % 10 = 0 then ⟨1, top⟩ else d
    | none => ⟨b.mantissa, 0⟩

end Binary

/-! ## Writing the digits -/

namespace Decimal

/-- The text of a share: in places while at most sixteen stand before the point and at most four
zeros behind it, else with an exponent.  A whole number has a zero behind the point. -/
def toText (d : Decimal) : String :=
  if d.digits = 0 then "0.0"
  else
    let digits := (toString d.digits).toList
    let point : Int := digits.length + d.exponent
    if 0 ≤ d.exponent ∧ point ≤ 16 then
      String.ofList (digits ++ List.replicate d.exponent.toNat '0') ++ ".0"
    else if 0 < point ∧ point ≤ 16 then
      String.ofList (digits.take point.toNat) ++ "." ++ String.ofList (digits.drop point.toNat)
    else if -5 < point ∧ point ≤ 0 then
      "0." ++ String.ofList (List.replicate (-point).toNat '0' ++ digits)
    else
      match digits with
      | [digit] => s!"{digit}e{point - 1}"
      | first :: rest => s!"{first}." ++ String.ofList rest ++ s!"e{point - 1}"
      | [] => ""

end Decimal

end TileCache.Number
