/-!
# Coordinates

A `Coord` is a whole number of 32 bits with sign: a position in the image plane, a length, a
count of pixels.  The range is part of the type, so a statement about every rectangle needs no
side condition, and every sum that could leave the range has to say what happens then: `clamp`
stops at the end of the range, `wrap` goes round.
-/

set_option autoImplicit false

namespace TileCache

/-- A whole number between `-2 ^ 31` and `2 ^ 31 - 1`. -/
structure Coord where
  val : Int
  lower : -2147483648 ≤ val
  upper : val ≤ 2147483647
deriving DecidableEq

namespace Coord

@[ext]
theorem ext {a b : Coord} (h : a.val = b.val) : a = b := by
  cases a; cases b; simp_all

/-- The largest coordinate, at which sums stop. -/
def greatest : Coord := ⟨2147483647, by decide, by decide⟩

/-- The coordinate nearest to `v`. -/
def clamp (v : Int) : Coord :=
  ⟨max (-2147483648) (min v 2147483647), by omega, by omega⟩

/-- The coordinate that agrees with `v` modulo `2 ^ 32`. -/
def wrap (v : Int) : Coord :=
  ⟨(v + 2147483648) % 4294967296 - 2147483648, by omega, by omega⟩

/-- `v` itself, if it is in range. -/
def ofInt? (v : Int) : Option Coord :=
  if h : -2147483648 ≤ v ∧ v ≤ 2147483647 then some ⟨v, h.1, h.2⟩ else none

theorem val_clamp (v : Int) : (clamp v).val = max (-2147483648) (min v 2147483647) := rfl

theorem val_clamp_of_mem {v : Int} (hl : -2147483648 ≤ v) (hu : v ≤ 2147483647) :
    (clamp v).val = v := by
  rw [val_clamp]; omega

theorem val_wrap_of_mem {v : Int} (hl : -2147483648 ≤ v) (hu : v ≤ 2147483647) :
    (wrap v).val = v := by
  simp only [wrap]; omega

@[simp]
theorem clamp_val (a : Coord) : clamp a.val = a :=
  Coord.ext (val_clamp_of_mem a.lower a.upper)

theorem ofInt?_eq_some_iff {v : Int} {a : Coord} : ofInt? v = some a ↔ a.val = v := by
  unfold ofInt?
  split
  · rw [Option.some.injEq]
    exact ⟨fun h => by rw [← h], fun h => Coord.ext h.symm⟩
  · rename_i h
    exact ⟨nofun, fun e => absurd ⟨e ▸ a.lower, e ▸ a.upper⟩ h⟩

instance (n : Nat) : OfNat Coord n := ⟨clamp n⟩

instance : Neg Coord := ⟨fun a => clamp (-a.val)⟩

instance : Inhabited Coord := ⟨0⟩

instance : ToString Coord := ⟨fun a => toString a.val⟩

instance : LE Coord := ⟨fun a b => a.val ≤ b.val⟩

instance : LT Coord := ⟨fun a b => a.val < b.val⟩

instance : DecidableLE Coord := fun a b => inferInstanceAs (Decidable (a.val ≤ b.val))

instance : DecidableLT Coord := fun a b => inferInstanceAs (Decidable (a.val < b.val))

instance : Max Coord := maxOfLe

instance : Min Coord := minOfLe

theorem le_iff {a b : Coord} : a ≤ b ↔ a.val ≤ b.val := Iff.rfl

theorem lt_iff {a b : Coord} : a < b ↔ a.val < b.val := Iff.rfl

@[simp]
theorem val_zero : (0 : Coord).val = 0 := rfl

theorem val_max (a b : Coord) : (max a b).val = max a.val b.val := by
  show (if a ≤ b then b else a).val = _
  split <;> rename_i h <;> rw [le_iff] at h <;> omega

theorem val_min (a b : Coord) : (min a b).val = min a.val b.val := by
  show (if a ≤ b then a else b).val = _
  split <;> rename_i h <;> rw [le_iff] at h <;> omega

end Coord

end TileCache
