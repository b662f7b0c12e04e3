import TileCache.Geometry.Grid

/-!
# Cells in order of use

The cache finds the tile of a cell, and the tile that was not used for longest, in one list: each
entry is a cell's origin with the number of its tile, and the entry used last stands first.
Looking a cell up does not move its entry.
-/

set_option autoImplicit false

namespace TileCache

/-- Tiles by cell, the most recently used first. -/
structure Recency where
  entries : List (Origin × Nat)
deriving DecidableEq

namespace Recency

def empty : Recency := ⟨[]⟩

instance : Inhabited Recency := ⟨empty⟩

def size (r : Recency) : Nat := r.entries.length

/-- The tile at `cell`. -/
def find? (r : Recency) (cell : Origin) : Option Nat := r.entries.lookup cell

/-- The tiles, the most recently used first. -/
def ids (r : Recency) : List Nat := r.entries.map (·.2)

def erase (r : Recency) (cell : Origin) : Recency := ⟨r.entries.eraseP (·.1 == cell)⟩

/-- Enters `id` at `cell`, as the most recently used. -/
def insert (r : Recency) (cell : Origin) (id : Nat) : Recency :=
  ⟨(cell, id) :: (r.erase cell).entries⟩

/-- Makes the entry of `cell`, if there is one, the most recently used. -/
def promote (r : Recency) (cell : Origin) : Recency :=
  match r.find? cell with
  | none => r
  | some id => r.insert cell id

/-- Enters the tile at `source` at `target` instead, as the most recently used.  Nothing changes
if both are the same cell or if `source` has no tile. -/
def move (r : Recency) (source target : Origin) : Recency :=
  if source = target then r
  else
    match r.find? source with
    | none => r
    | some id => (r.erase source).insert target id

/-- The tile used least recently among those that satisfy `p`. -/
def leastRecent? (r : Recency) (p : Nat → Bool) : Option Nat := r.ids.reverse.find? p

@[simp]
theorem find?_insert_self (r : Recency) (cell : Origin) (id : Nat) :
    (r.insert cell id).find? cell = some id := by
  simp [find?, insert]

theorem find?_insert_of_ne (r : Recency) {cell other : Origin} (id : Nat) (h : other ≠ cell) :
    (r.insert cell id).find? other = r.find? other := by
  have skip : ∀ {c : Origin} (i : Nat) (l : List (Origin × Nat)), other ≠ c →
      List.lookup other ((c, i) :: l) = List.lookup other l := by
    intro c i l hc
    rw [List.lookup_cons, beq_eq_false_iff_ne.2 hc]
  simp only [find?, insert, erase, skip id _ h]
  induction r.entries with
  | nil => rfl
  | cons e entries ih =>
    obtain ⟨c, i⟩ := e
    by_cases hc : c = cell
    · subst hc
      rw [List.eraseP_cons_of_pos (by simp), skip i _ h]
    · rw [List.eraseP_cons_of_neg (by simpa using hc)]
      by_cases ho : other = c
      · subst ho; simp
      · rw [skip i _ ho, skip i _ ho, ih]

theorem leastRecent?_some {r : Recency} {p : Nat → Bool} {id : Nat}
    (h : r.leastRecent? p = some id) : id ∈ r.ids ∧ p id = true :=
  ⟨List.mem_reverse.1 (List.mem_of_find?_eq_some h), List.find?_some h⟩

end Recency

end TileCache
