/-!
# Binary numbers of 53 digits

Shares and percentages are reckoned with binary numbers of 53 digits.  Here they are pairs of a
mantissa and an exponent, and rounding is exact arithmetic on natural numbers: `roundDiv` rounds a
quotient to the nearest number, and to the even one where two are equally near.
-/

set_option autoImplicit false

namespace TileCache.Number

/-- The natural number nearest to `num / den`, the even one of two. -/
def roundDiv (num den : Nat) : Nat :=
  let quotient := num / den
  let rest := num % den
  if den < 2 * rest ∨ (2 * rest = den ∧ quotient % 2 = 1) then quotient + 1 else quotient

theorem roundDiv_of_dvd {num den : Nat} (h : den ∣ num) : roundDiv num den = num / den := by
  have hr : num % den = 0 := Nat.mod_eq_zero_of_dvd h
  unfold roundDiv
  simp only [hr, Nat.mul_zero, Nat.not_lt_zero, false_or]
  split
  · rename_i hc
    obtain ⟨hd, hq⟩ := hc
    subst hd
    simp at hq
  · rfl

/-- The number `mantissa * 2 ^ exponent`. -/
structure Binary where
  mantissa : Nat
  exponent : Int
deriving DecidableEq

namespace Binary

/-- A fraction that has the value of the number. -/
def fraction (b : Binary) : Nat × Nat :=
  if 0 ≤ b.exponent then (b.mantissa * Nat.pow 2 b.exponent.toNat, 1)
  else (b.mantissa, Nat.pow 2 (-b.exponent).toNat)

/-- `num / den` in units of `2 ^ exponent`, as a fraction. -/
def scaled (num den : Nat) (exponent : Int) : Nat × Nat :=
  if 0 ≤ exponent then (num, den * Nat.pow 2 exponent.toNat)
  else (num * Nat.pow 2 (-exponent).toNat, den)

/-- The least number of 53 binary digits, `2 ^ 52`. -/
def leastMantissa : Nat := 0x10000000000000

/-- The number of 53 binary digits nearest to `num / den`, for a `den` that is not zero. -/
def ofFraction (num den : Nat) : Binary :=
  if num = 0 then ⟨0, 0⟩
  else
    let guess : Int := num.log2 - den.log2 - 52
    let (n, d) := scaled num den guess
    let exponent := if n / d < leastMantissa then guess - 1 else guess
    let (n, d) := scaled num den exponent
    let mantissa := roundDiv n d
    if mantissa = 2 * leastMantissa then ⟨leastMantissa, exponent + 1⟩ else ⟨mantissa, exponent⟩

/-- The number times `n`, rounded. -/
def scale (b : Binary) (n : Nat) : Binary :=
  let (num, den) := b.fraction
  ofFraction (num * n) den

/-- The number with one place behind the point. -/
def toTenths (b : Binary) : String :=
  let (num, den) := b.fraction
  let tenths := roundDiv (num * 10) den
  s!"{tenths / 10}.{tenths % 10}"

end Binary

end TileCache.Number
