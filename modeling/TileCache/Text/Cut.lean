/-!
# Cutting a text at bytes

The places in a text are counted in bytes.  At some of them no character begins, and there a text
cannot be cut: `splitAtByte?_eq_some_iff` says that it can be exactly where characters that take up
all the bytes ahead end.
-/

set_option autoImplicit false

namespace TileCache.Text

/-- The bytes that the characters take up. -/
def byteLength : List Char → Nat
  | [] => 0
  | c :: cs => c.utf8Size + byteLength cs

/-- The characters up to byte `n`, and those from there on. -/
def splitAtByte? : List Char → Nat → Option (List Char × List Char)
  | cs, 0 => some ([], cs)
  | [], _ + 1 => none
  | c :: cs, n + 1 =>
    if c.utf8Size ≤ n + 1 then
      (splitAtByte? cs (n + 1 - c.utf8Size)).map fun (ahead, behind) => (c :: ahead, behind)
    else none

/-- Nothing is lost by a cut, and it is where it was wanted. -/
theorem append_of_splitAtByte? {cs ahead behind : List Char} {n : Nat}
    (h : splitAtByte? cs n = some (ahead, behind)) :
    cs = ahead ++ behind ∧ byteLength ahead = n := by
  fun_induction splitAtByte? cs n generalizing ahead behind with
  | case1 => cases h; exact ⟨rfl, rfl⟩
  | case2 => cases h
  | case3 c cs n hc ih =>
    obtain ⟨⟨ahead', behind'⟩, hs, he⟩ := Option.map_eq_some_iff.1 h
    cases he
    obtain ⟨happ, hlen⟩ := ih hs
    refine ⟨congrArg (c :: ·) happ, ?_⟩
    simp only [byteLength, hlen]
    omega
  | case4 => cases h

/-- A text can be cut behind any of its characters. -/
theorem splitAtByte?_append (ahead behind : List Char) :
    splitAtByte? (ahead ++ behind) (byteLength ahead) = some (ahead, behind) := by
  induction ahead with
  | nil => cases behind <;> rfl
  | cons c ahead ih =>
    have hpos : 0 < c.utf8Size := c.utf8Size_pos
    obtain ⟨n, hn⟩ : ∃ n, c.utf8Size + byteLength ahead = n + 1 :=
      ⟨c.utf8Size + byteLength ahead - 1, by omega⟩
    have hrest : n + 1 - c.utf8Size = byteLength ahead := by omega
    have hfits : c.utf8Size ≤ n + 1 := by omega
    simp only [byteLength, hn, List.cons_append, splitAtByte?, if_pos hfits, hrest, ih,
      Option.map_some]

theorem splitAtByte?_eq_some_iff {cs ahead behind : List Char} {n : Nat} :
    splitAtByte? cs n = some (ahead, behind) ↔ cs = ahead ++ behind ∧ byteLength ahead = n := by
  constructor
  · exact append_of_splitAtByte?
  · rintro ⟨rfl, rfl⟩
    exact splitAtByte?_append ahead behind

/-- The characters from byte `start` up to byte `stop`. -/
def slice? (cs : List Char) (start stop : Nat) : Option (List Char) := do
  let (_, rest) ← splitAtByte? cs start
  let (inside, _) ← splitAtByte? rest (stop - start)
  return inside

/-- The characters from byte `start` on. -/
def sliceFrom? (cs : List Char) (start : Nat) : Option (List Char) :=
  (splitAtByte? cs start).map (·.2)

end TileCache.Text
