/-!
# Signs that steer a terminal

A message may hold characters at which a terminal would do something else than to show them.  They
are written by their numbers.
-/

set_option autoImplicit false

namespace TileCache.Log

/-- A lowercase hexadecimal digit. -/
def hexDigit (n : Nat) : Char := if n < 10 then Char.ofNat (0x30 + n) else Char.ofNat (0x57 + n)

/-- A character as it stands in a message. -/
def escapeChar (c : Char) : List Char :=
  let n := c.toNat
  let digits := [hexDigit (n / 16), hexDigit (n % 16)]
  if [0x07, 0x08, 0x0C, 0x1B, 0x7F].contains n then ['\\', 'x'] ++ digits
  else if 0x80 ≤ n ∧ n ≤ 0x9F then ['\\', 'u', '\x7b'] ++ digits ++ ['\x7d']
  else [c]

def escape (text : String) : String := String.ofList (text.toList.flatMap escapeChar)

/-- What a terminal shows anyway is not changed. -/
theorem escapeChar_of_visible {c : Char} (h : 0x20 ≤ c.toNat ∧ c.toNat < 0x7F) :
    escapeChar c = [c] := by
  obtain ⟨hl, hu⟩ := h
  have hn : ¬ (c.toNat = 0x07 ∨ c.toNat = 0x08 ∨ c.toNat = 0x0C ∨ c.toNat = 0x1B ∨
    c.toNat = 0x7F) := by omega
  have hb : ¬ (0x80 ≤ c.toNat ∧ c.toNat ≤ 0x9F) := by omega
  simp only [escapeChar, List.contains_iff_mem, List.mem_cons, List.not_mem_nil, or_false, if_neg hn,
    if_neg hb]

end TileCache.Log
