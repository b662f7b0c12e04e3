import TileCache.Text.Alphabetic
import TileCache.Text.Numeral

/-!
# Letters and numerals
-/

set_option autoImplicit false

namespace TileCache.Text

def isAlphanumeric (c : Char) : Bool := isAlphabetic c || isNumeral c

/-- The letters and digits of ASCII are among them. -/
theorem isAlphanumeric_of_ascii {c : Char}
    (h : ('0' ≤ c ∧ c ≤ '9') ∨ ('A' ≤ c ∧ c ≤ 'Z') ∨ ('a' ≤ c ∧ c ≤ 'z')) :
    isAlphanumeric c = true := by
  rcases h with h | h
  · simp [isAlphanumeric, isNumeral_of_digit h]
  · simp [isAlphanumeric, isAlphabetic_of_ascii h]

end TileCache.Text
