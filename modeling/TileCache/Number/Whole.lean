/-!
# Whole numbers as text

How a number on a command line is read: an optional sign, then one or more of the ten digits, and
nothing else.  A minus sign is not allowed at all for numbers that cannot be negative.
-/

set_option autoImplicit false

namespace TileCache.Number

def digitOf? (c : Char) : Option Nat :=
  if '0' ≤ c ∧ c ≤ '9' then some (c.toNat - '0'.toNat) else none

/-- The number that the digits stand for, after those that stand for `n`. -/
def readDigits : (n : Nat) → List Char → Option Nat
  | n, [] => some n
  | n, c :: cs => do
    let d ← digitOf? c
    readDigits (10 * n + d) cs

def readNat : List Char → Option Nat
  | [] => none
  | cs => readDigits 0 cs

/-- Reads a number with an optional sign, where a minus sign may stand only if `signed`. -/
def readInt (signed : Bool) : List Char → Option Int
  | '+' :: cs => (readNat cs).map Int.ofNat
  | '-' :: cs => if signed then (readNat cs).map fun n => -(Int.ofNat n) else none
  | cs => (readNat cs).map Int.ofNat

/-- Reads a number between `least` and `greatest`. -/
def readWithin (signed : Bool) (least greatest : Int) (text : String) : Option Int := do
  let n ← readInt signed text.toList
  if least ≤ n ∧ n ≤ greatest then some n else none

theorem readWithin_bounds {signed : Bool} {least greatest n : Int} {text : String}
    (h : readWithin signed least greatest text = some n) : least ≤ n ∧ n ≤ greatest := by
  unfold readWithin at h
  cases hr : readInt signed text.toList with
  | none => simp [hr] at h
  | some m =>
    simp only [hr, Option.bind_eq_bind, Option.bind_some] at h
    split at h
    · rename_i hm; cases h; exact hm
    · cases h

end TileCache.Number
