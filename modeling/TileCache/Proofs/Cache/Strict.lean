import TileCache.Proofs.Cache.Acquire

/-!
# Operations that insist

The operations of a cache are total: a tile number out of range, an index entry that is there
already or a buffer given back to a tile that has one are passed over in silence.  Here are the
same operations as they would be with an assertion at each such place.  They give `none` as soon
as an assertion fails:

* an access to tile `id` insists that there is a tile `id`;
* `Recency.insertStrict` and `Recency.moveStrict` insist that the new cell has no entry, and
  `Recency.removeStrict` and `Recency.moveStrict` that the old one has one;
* `Tile.relocateStrict` insists that nobody computes the tile, `Tile.checkinStrict` that somebody
  does.

In a well-formed cache no request fails (`WellFormed.acquireStrict`), and giving a buffer back to
a tile in computation does not either (`completeStrict_eq`, `abandonStrict_eq`): the strict
operations do what the total ones do.
-/

set_option autoImplicit false

namespace TileCache

namespace Recency

def insertStrict (r : Recency) (cell : Origin) (id : Nat) : Option Recency :=
  match r.find? cell with
  | some _ => none
  | none => some (r.insert cell id)

def removeStrict (r : Recency) (cell : Origin) : Option (Recency × Nat) :=
  match r.find? cell with
  | some id => some (r.erase cell, id)
  | none => none

def moveStrict (r : Recency) (source target : Origin) : Option Recency :=
  if source = target then some r
  else
    match r.find? target with
    | some _ => none
    | none => do
      let (r, id) ← r.removeStrict source
      some (r.insert target id)

theorem insertStrict_eq {r : Recency} {cell : Origin} (h : r.find? cell = none) (id : Nat) :
    r.insertStrict cell id = some (r.insert cell id) := by
  rw [insertStrict, h]

theorem moveStrict_eq {r : Recency} {source target : Origin} {id : Nat}
    (hs : r.find? source = some id) (ht : r.find? target = none) :
    r.moveStrict source target = some (r.move source target) := by
  rw [moveStrict, move]
  split
  · rfl
  · rw [ht, removeStrict, hs]
    rfl

end Recency

namespace Tile

def relocateStrict (t : Tile) (cell : Rect) : Option (Except Setback Tile) :=
  if t.isComputing then none else some (t.moveTo cell)

def checkinStrict (t : Tile) (region : Region) (painted : Bool) : Option Tile :=
  if t.isComputing then some (t.checkin region painted) else none

theorem relocateStrict_eq {t : Tile} (h : t.state ≠ .computing) (cell : Rect) :
    t.relocateStrict cell = some (t.moveTo cell) := by
  rw [relocateStrict, if_neg (by simpa [isComputing] using h)]

theorem checkinStrict_eq {t : Tile} (h : t.state = .computing) (region : Region)
    (painted : Bool) : t.checkinStrict region painted = some (t.checkin region painted) := by
  rw [checkinStrict, if_pos (by simpa [isComputing] using h)]

end Tile

namespace Cache

/-! ## The operations of a cache -/

def touchStrict (c : Cache) (id : Nat) : Option Cache :=
  match c.tiles[id]? with
  | none => none
  | some _ => some (c.touch id)

def startStrict (c : Cache) (id : Nat) : Option (Cache × Acquired) := do
  let c ← c.touchStrict id
  match c.tiles[id]? with
  | none => none
  | some tile =>
    match tile.checkout? with
    | none => some (c, .ready id)
    | some (region, emptied) =>
      some ((c.setTile id emptied).count fun k => { k with computes := k.computes + 1 },
        .compute ⟨id, tile.area, region⟩)

def acquireIndexedStrict (c : Cache) (generation id : Nat) : Option (Cache × Acquired) :=
  match c.tiles[id]? with
  | none => none
  | some tile =>
    match tile.state with
    | .computing => (c.touchStrict id).map (·, .ready id)
    | .blank => c.startStrict id
    | .painted =>
      if tile.isStale generation then c.startStrict id
      else ((c.count fun k => { k with hits := k.hits + 1 }).touchStrict id).map (·, .ready id)

def acquireNewStrict (c : Cache) (cell : Rect) : Option (Cache × Acquired) :=
  match Tile.create c.info cell with
  | .error setback => some (c.withoutBuffer setback)
  | .ok tile => do
    let index ← c.index.insertStrict cell.origin c.tiles.size
    { c with tiles := c.tiles.push tile, index }.startStrict c.tiles.size

/-- The first of the tiles `ids` that nobody computes. -/
def firstFreeStrict (c : Cache) : (ids : List Nat) → Option (Option Nat)
  | [] => some none
  | id :: ids =>
    match c.tiles[id]? with
    | none => none
    | some tile => if tile.isComputing then c.firstFreeStrict ids else some (some id)

def relocateStrict (c : Cache) (id : Nat) (cell : Rect) : Option (Cache × Acquired) :=
  match c.tiles[id]? with
  | none => none
  | some tile => do
    let relocated ← tile.relocateStrict cell
    match relocated with
    | .error setback => some (c.withoutBuffer setback)
    | .ok moved =>
      let index ← c.index.moveStrict tile.area.origin cell.origin
      { (c.setTile id moved).count fun k => { k with evictions := k.evictions + 1 } with
        index }.startStrict id

def acquireReusedStrict (c : Cache) (cell : Rect) : Option (Cache × Acquired) := do
  let free? ← c.firstFreeStrict c.index.ids.reverse
  match free? with
  | none => some (c.noteExhausted, .unavailable)
  | some id => c.relocateStrict id cell

def acquireStrict (c : Cache) (generation : Nat) (cell : Rect) : Option (Cache × Acquired) :=
  if !c.isOpen then some (c, .unavailable)
  else
    match c.index.find? cell.origin with
    | some id => c.acquireIndexedStrict generation id
    | none =>
      if c.budget.allows c.tiles.size then c.acquireNewStrict cell else c.acquireReusedStrict cell

def checkinStrict (c : Cache) (id : Nat) (region : Region) (painted : Bool) : Option Cache :=
  match c.tiles[id]? with
  | none => none
  | some tile => (tile.checkinStrict region painted).map (c.setTile id)

def completeStrict (c : Cache) (id : Nat) (region : Region) (succeeded : Bool) : Option Cache :=
  if !c.isOpen then some c
  else if succeeded then do
    let c ← c.checkinStrict id region true
    c.touchStrict id
  else c.noteComputeFailure.checkinStrict id region false

def abandonStrict (c : Cache) (id : Nat) (region : Region) : Option Cache :=
  if !c.isOpen then some c else c.checkinStrict id region false

/-! ## None of them fails -/

variable {c : Cache} {id : Nat} {tile : Tile}

theorem touchStrict_eq (h : c.tiles[id]? = some tile) : c.touchStrict id = some (c.touch id) := by
  rw [touchStrict, h]

theorem startStrict_eq (h : c.tiles[id]? = some tile) : c.startStrict id = some (c.start id) := by
  rw [startStrict, touchStrict_eq h]
  simp only [Option.bind_eq_bind, Option.bind_some, start, getElem?_touch_self h]
  cases Tile.checkout? { tile with lastUsed := c.clock } <;> rfl

theorem acquireIndexedStrict_eq (h : c.tiles[id]? = some tile) (generation : Nat) :
    c.acquireIndexedStrict generation id = some (c.acquireIndexed generation id) := by
  simp only [acquireIndexedStrict, acquireIndexed, h]
  cases tile.state with
  | blank => exact startStrict_eq h
  | computing => simp only [touchStrict_eq h, Option.map_some]
  | painted =>
    dsimp only
    split
    · exact startStrict_eq h
    · have hc : (c.count fun k => { k with hits := k.hits + 1 }).tiles[id]? = some tile := h
      simp only [touchStrict_eq hc, Option.map_some]

theorem acquireNewStrict_eq {cell : Rect} (h : c.index.find? cell.origin = none) :
    c.acquireNewStrict cell = some (c.acquireNew cell) := by
  delta acquireNewStrict acquireNew
  cases Tile.create c.info cell with
  | error e => rfl
  | ok tile =>
    dsimp only
    rw [Recency.insertStrict_eq h]
    exact startStrict_eq (getElem?_add_self c cell.origin tile)

theorem firstFreeStrict_eq : ∀ {ids : List Nat}, (∀ id ∈ ids, id < c.tiles.size) →
    c.firstFreeStrict ids = some (ids.find? fun id =>
      match c.tiles[id]? with
      | some tile => !tile.isComputing
      | none => true)
  | [], _ => rfl
  | id :: ids, h => by
    obtain ⟨tile, ht⟩ : ∃ tile, c.tiles[id]? = some tile :=
      ⟨_, Array.getElem?_eq_getElem (h id List.mem_cons_self)⟩
    rw [firstFreeStrict, ht, List.find?_cons, ht]
    cases hc : tile.isComputing with
    | true =>
      simp only [hc, if_true, Bool.not_true]
      exact firstFreeStrict_eq fun i hi => h i (List.mem_cons_of_mem _ hi)
    | false => simp only [hc, Bool.false_eq_true, if_false, Bool.not_false]

theorem acquireReusedStrict_eq (hi : c.Indexed) {cell : Rect}
    (h : c.index.find? cell.origin = none) :
    c.acquireReusedStrict cell = some (c.acquireReused cell) := by
  have hids : ∀ id ∈ c.index.ids.reverse, id < c.tiles.size := fun id hid =>
    hi.mem_ids_iff.1 (List.mem_reverse.1 hid)
  rw [acquireReusedStrict, firstFreeStrict_eq hids, acquireReused]
  show (match c.victim? with
    | none => some (c.noteExhausted, Acquired.unavailable)
    | some id => c.relocateStrict id cell) = _
  cases hv : c.victim? with
  | none => rfl
  | some id =>
    obtain ⟨t, ht, hfree⟩ := hi.exists_victim hv
    simp only [relocateStrict, ht, Tile.relocateStrict_eq hfree, Option.bind_eq_bind,
      Option.bind_some]
    cases hm : t.moveTo cell with
    | error e => rfl
    | ok moved =>
      dsimp only
      rw [Recency.moveStrict_eq (hi.find? ht) h]
      have hs : (c.relocate id t.area.origin cell.origin moved).tiles[id]? = some moved :=
        getElem?_setTile_self (lt_size ht) moved
      exact startStrict_eq hs

/-- **No request to a well-formed cache fails an assertion.** -/
theorem WellFormed.acquireStrict (h : c.WellFormed) (generation : Nat) (cell : Rect) :
    c.acquireStrict generation cell = some (c.acquire generation cell) := by
  rw [Cache.acquireStrict, Cache.acquire]
  split
  · rfl
  · cases hf : c.index.find? cell.origin with
    | some id =>
      obtain ⟨t, ht, -⟩ := h.exists_tile hf
      exact acquireIndexedStrict_eq ht generation
    | none =>
      dsimp only
      split
      · exact acquireNewStrict_eq hf
      · exact acquireReusedStrict_eq h.toIndexed hf

theorem checkinStrict_eq (ht : c.tiles[id]? = some tile) (hs : tile.state = .computing)
    (region : Region) (painted : Bool) :
    c.checkinStrict id region painted = some (c.checkin id region painted) := by
  simp only [checkinStrict, checkin, ht, Tile.checkinStrict_eq hs, Option.map_some]

/-- **A buffer that comes back to a tile in computation fails no assertion.** -/
theorem completeStrict_eq (ht : c.tiles[id]? = some tile) (hs : tile.state = .computing)
    (region : Region) (succeeded : Bool) :
    c.completeStrict id region succeeded = some (c.complete id region succeeded) := by
  rw [completeStrict, complete]
  split
  · rfl
  · split
    · rw [checkinStrict_eq ht hs]
      have ht' : (c.checkin id region true).tiles[id]? = some (tile.checkin region true) := by
        rw [checkin, ht]
        exact getElem?_setTile_self (lt_size ht) _
      exact touchStrict_eq ht'
    · exact checkinStrict_eq (c := c.noteComputeFailure) ht hs region false

theorem abandonStrict_eq (ht : c.tiles[id]? = some tile) (hs : tile.state = .computing)
    (region : Region) : c.abandonStrict id region = some (c.abandon id region) := by
  rw [abandonStrict, abandon]
  split
  · rfl
  · exact checkinStrict_eq ht hs region false

end Cache

end TileCache
