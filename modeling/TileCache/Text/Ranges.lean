/-!
# Sets of characters

A set of characters is given by the numbers of the first and of the last character of ranges.
-/

set_option autoImplicit false

namespace TileCache.Text

abbrev Ranges := List (Nat × Nat)

namespace Ranges

def contains (ranges : Ranges) (c : Char) : Bool :=
  ranges.any fun (first, last) => first ≤ c.toNat && c.toNat ≤ last

theorem contains_of_mem {ranges : Ranges} {c : Char} {first last : Nat}
    (h : (first, last) ∈ ranges) (hl : first ≤ c.toNat) (hu : c.toNat ≤ last) :
    ranges.contains c = true :=
  List.any_eq_true.2 ⟨(first, last), h, by simpa using ⟨hl, hu⟩⟩

end Ranges

end TileCache.Text
