/-!
# How the program ends

A program that ends by itself has a code.
-/

set_option autoImplicit false

namespace TileCache.Program

inductive Exit
  /-- What was asked for has been done. -/
  | succeeded
  /-- It could not be done. -/
  | failed
  /-- The command line was not understood. -/
  | misused
  /-- The program broke off, for a reason that it does not talk about. -/
  | brokeOff
deriving DecidableEq

namespace Exit

def code : Exit → Nat
  | succeeded => 0
  | failed => 1
  | misused => 2
  | brokeOff => 101

/-- The way a program ended can be told by the code. -/
theorem code_injective {a b : Exit} (h : a.code = b.code) : a = b := by
  cases a <;> cases b <;> simp_all [code]

end Exit

/-- The most viewers or threads that the program can keep a list of.  The list has eight bytes for
each of them, and no list is as large as `2 ^ 63` bytes: the program breaks off if one should be. -/
def maxHandles : Nat := 0xfffffffffffffff

end TileCache.Program
