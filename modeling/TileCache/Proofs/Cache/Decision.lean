import TileCache.Proofs.Cache.Requests

/-!
# What a request decides, and what it leaves alone

A request for a cell decides three things: whether the cell needs a computation at all, which tile
that computation is given, and what becomes of the rest of the cache.  `Decides` says all of it in
terms of the cache as the request finds it, without a word about how the request goes about it.

* `victim?_eq_none_iff`: no tile can be taken over if and only if all of them are being computed.
* `Prepared.besides_eq`, `besides_touch`: getting ready and using a tile change no other entry of
  the index, and the order of the others stays the same.
* `starts_iff`, `exhausts_iff`: when a request leads to a computation, and when it finds all tiles
  in use.
* `Acquisition.others`, `Acquisition.order`, `Acquisition.comesToNothing`: what it leaves alone.
* `decides`: all together, for any well-formed cache.
-/

set_option autoImplicit false

namespace TileCache

/-- The tile that a request is answered with. -/
def Acquired.tile? : Acquired → Option Nat
  | .ready id => some id
  | .compute job => some job.tile
  | .unavailable | .broke _ => none

theorem isOk_iff {ε α : Type} {x : Except ε α} : x.isOk = true ↔ ∃ a, x = .ok a := by
  cases x with
  | error e => exact ⟨fun h => (by cases h), fun ⟨_, h⟩ => (by cases h)⟩
  | ok a => exact ⟨fun _ => ⟨a, rfl⟩, fun _ => rfl⟩

theorem Kind.exhausted_lt_tally_iff (kind : Kind) (k : Counters) :
    k.exhausted < (kind.tally k).exhausted ↔ kind = .exhausted := by
  cases kind <;> simp [Kind.tally]

/-! ## The other entries of the index -/

namespace Recency

/-- The entries of all tiles but this one, in their order. -/
def besides (r : Recency) (tile? : Option Nat) : List (Origin × Nat) :=
  r.entries.filter fun e => tile? != some e.2

variable {r d : Recency} {cell source target : Origin} {id : Nat}

/-- An entry that is put in front is not among those of the other tiles. -/
theorem besides_of_entries_eq {entries : List (Origin × Nat)}
    (h : d.entries = (cell, id) :: entries) :
    d.besides (some id) = entries.filter fun e => some id != some e.2 := by
  rw [besides, h, List.filter_cons_of_neg (by simp)]

/-- To take out the entry of a tile does not change those of the others. -/
theorem filter_erase_entry (hr : r.Distinct) (cell : Origin) (id : Nat) :
    ((r.entries.erase (cell, id)).filter fun e => some id != some e.2) = r.besides (some id) := by
  rw [hr.entries.erase_eq_filter, List.filter_filter, besides]
  refine List.filter_congr fun e _ => ?_
  obtain ⟨c, i⟩ := e
  by_cases hi : i = id
  · simp [hi]
  · simp [hi, Ne.symm hi]

theorem besides_promote (hr : r.Distinct) (h : r.find? cell = some id) :
    (r.promote cell).besides (some id) = r.besides (some id) :=
  (besides_of_entries_eq (entries_promote hr h)).trans (filter_erase_entry hr cell id)

theorem besides_insert (h : r.find? cell = none) (id : Nat) :
    (r.insert cell id).besides (some id) = r.besides (some id) :=
  besides_of_entries_eq (entries_insert h id)

theorem besides_move (hr : r.Distinct) (hs : r.find? source = some id)
    (ht : r.find? target = none) :
    (r.move source target).besides (some id) = r.besides (some id) :=
  (besides_of_entries_eq (entries_move hr hs ht)).trans (filter_erase_entry hr source id)

end Recency

namespace Cache

variable {c d : Cache} {id j : Nat} {tile : Tile} {generation : Nat} {cell : Rect}

theorem besides_touch (h : c.Indexed) (id : Nat) :
    (c.touch id).index.besides (some id) = c.index.besides (some id) := by
  cases ht : c.tiles[id]? with
  | none => rw [touch_eq_self ht]
  | some tile =>
    rw [touch_eq ht]
    exact Recency.besides_promote h.distinct (h.find? ht)

/-- A use changes the order of the index only. -/
theorem perm_touch (h : c.Indexed) (id : Nat) :
    (c.touch id).index.entries.Perm c.index.entries := by
  cases ht : c.tiles[id]? with
  | none => rw [touch_eq_self ht]
  | some tile =>
    rw [touch_eq ht]
    show (c.index.promote tile.area.origin).entries.Perm _
    rw [Recency.entries_promote h.distinct (h.find? ht)]
    exact (List.perm_cons_erase (Recency.mem_of_find? (h.find? ht))).symm

/-- Getting a tile ready changes nothing about the entries of the others. -/
theorem Prepared.besides_eq (hw : c.WellFormed) (hp : Prepared c generation cell d id tile) :
    d.index.besides (some id) = c.index.besides (some id) := by
  cases hp with
  | inPlace _ _ _ _ => rfl
  | added missing _ _ => exact Recency.besides_insert missing _
  | moved missing _ _ stands _ _ => exact Recency.besides_move hw.distinct (hw.find? stands) missing

theorem index_start (ht : d.tiles[id]? = some tile) {region : Region}
    (hr : tile.region? = some region) : (d.start id).1.index = (d.touch id).index := by
  rw [start_eq ht hr]
  rfl

/-! ## When there is nothing to take over -/

/-- No tile can be taken over if and only if all of them are being computed. -/
theorem victim?_eq_none_iff (h : c.Indexed) :
    c.victim? = none ↔ c.All fun t => t.state = .computing := by
  constructor
  · intro hv id t ht
    by_contra hfree
    exact h.victim?_ne_none ht hfree hv
  · intro hall
    cases hv : c.victim? with
    | none => rfl
    | some id =>
      obtain ⟨t, ht, hfree⟩ := h.exists_victim hv
      exact absurd (hall id t ht) hfree

/-- Is there a tile on the cell that is being computed, or has valid pixels? -/
def Attended (c : Cache) (generation : Nat) (cell : Rect) : Prop :=
  ∃ (id : Nat) (t : Tile), c.tiles[id]? = some t ∧ t.area = cell ∧
    (t.state = .computing ∨ t.isValid generation = true)

/-- Can a tile be had for the cell?  It has one, or the budget allows another and there is a buffer
for it, or the oldest tile that nobody computes can be given a buffer for the cell. -/
def Provides (c : Cache) (cell : Rect) : Prop :=
  c.index.find? cell.origin ≠ none ∨
    (c.budget.allows c.tiles.size = true ∧ ∃ t, Tile.create c.info cell = .ok t) ∨
    c.budget.allows c.tiles.size = false ∧
      ∃ (id : Nat) (old moved : Tile), c.victim? = some id ∧ c.tiles[id]? = some old ∧
        old.moveTo cell = .ok moved

/-- Nothing is known of the cell, the budget is used up, and every tile is being computed. -/
def Exhausts (c : Cache) (cell : Rect) : Prop :=
  c.index.find? cell.origin = none ∧ c.budget.allows c.tiles.size = false ∧
    c.All fun t => t.state = .computing

/-- Is a buffer for the cell refused, for a new tile, if the budget allows one, or else for the
tile that would be taken over? -/
def RefusesBuffer (c : Cache) (cell : Rect) : Prop :=
  ∃ error, c.LacksBuffer cell (.refused error)

/-- A cell on which the index has a tile is attended if that tile is. -/
theorem attended_iff_of_find? (hw : c.WellFormed) (hcell : c.size.IsCell cell)
    (hf : c.index.find? cell.origin = some id) (ht : c.tiles[id]? = some tile) :
    c.Attended generation cell ↔ tile.state = .computing ∨ tile.isValid generation = true := by
  constructor
  · rintro ⟨i, t, hi, rfl, h⟩
    obtain rfl : i = id := Option.some.inj ((hw.find? hi).symm.trans hf)
    obtain rfl := Option.some.inj (hi.symm.trans ht)
    exact h
  · exact fun h => ⟨id, tile, ht, hw.area_eq hcell hf ht, h⟩

/-- A cell that the index does not know is not attended. -/
theorem not_attended_of_missing (hw : c.WellFormed) (hn : c.index.find? cell.origin = none) :
    ¬ c.Attended generation cell := by
  rintro ⟨i, t, hi, rfl, -⟩
  rw [hw.find? hi] at hn
  cases hn

/-- A missing cell gets a tile of its own while the budget lasts. -/
theorem provides_iff_of_room (hn : c.index.find? cell.origin = none)
    (hroom : c.budget.allows c.tiles.size = true) :
    c.Provides cell ↔ ∃ t, Tile.create c.info cell = .ok t := by
  rw [Provides, hn, hroom]
  simp

/-- A missing cell gets the tile of another once the budget is used up. -/
theorem provides_iff_of_full (hn : c.index.find? cell.origin = none)
    (hfull : c.budget.allows c.tiles.size = false) :
    c.Provides cell ↔ ∃ (id : Nat) (old moved : Tile), c.victim? = some id ∧
      c.tiles[id]? = some old ∧ old.moveTo cell = .ok moved := by
  rw [Provides, hn, hfull]
  simp

theorem starts_kindOfBuffer {got : Kind} (hgot : got.starts = true)
    (result : Except Setback Tile) :
    (kindOfBuffer got result).starts = true ↔ result.isOk = true := by
  rcases result with (_ | _) | _
  · exact Iff.rfl
  · exact Iff.rfl
  · exact iff_of_true hgot rfl

/-- **A request leads to a computation if and only if the cell is not attended and a tile can be
had for it.** -/
theorem starts_iff (hw : c.WellFormed) (hcell : c.size.IsCell cell) (generation : Nat) :
    (c.kindOf generation cell).starts = true ↔ ¬ c.Attended generation cell ∧ c.Provides cell := by
  cases hf : c.index.find? cell.origin with
  | some id =>
    obtain ⟨t, ht, -⟩ := hw.exists_tile hf
    have hprovides : c.Provides cell := .inl (by rw [hf]; exact Option.some_ne_none _)
    rw [and_iff_left hprovides, attended_iff_of_find? hw hcell hf ht, kindOf_found hf ht, not_or]
    by_cases hs : t.state = .computing
    · rw [if_pos (by simpa [Tile.isComputing] using hs)]
      exact ⟨fun h => (by cases h), fun h => absurd hs h.1⟩
    · rw [if_neg (by simpa [Tile.isComputing] using hs)]
      by_cases hv : t.isValid generation = true
      · rw [if_pos hv]
        exact ⟨fun h => (by cases h), fun h => absurd hv h.2⟩
      · rw [if_neg hv]
        exact ⟨fun _ => ⟨hs, hv⟩, fun _ => rfl⟩
  | none =>
    rw [and_iff_right (not_attended_of_missing hw hf)]
    cases hroom : c.budget.allows c.tiles.size with
    | true =>
      rw [provides_iff_of_room hf hroom, kindOf_room hf hroom, ← isOk_iff]
      exact starts_kindOfBuffer rfl _
    | false =>
      rw [provides_iff_of_full hf hroom, kindOf_full hf hroom]
      cases hv : c.victim? with
      | none =>
        refine iff_of_false (fun h => by cases h) ?_
        rintro ⟨_, _, _, h, -⟩
        cases h
      | some id =>
        obtain ⟨old, ht, -⟩ := hw.toIndexed.exists_victim hv
        rw [Option.bind_some, ht]
        dsimp only
        have hmoved : (old.moveTo cell).isOk = true ↔ ∃ (i : Nat) (o moved : Tile),
            some id = some i ∧ c.tiles[i]? = some o ∧ o.moveTo cell = .ok moved := by
          rw [isOk_iff]
          constructor
          · rintro ⟨moved, hm⟩
            exact ⟨id, old, moved, rfl, ht, hm⟩
          · rintro ⟨i, o, moved, hi, ho, hm⟩
            obtain rfl := Option.some.inj hi
            obtain rfl := Option.some.inj (ht.symm.trans ho)
            exact ⟨moved, hm⟩
        rw [← hmoved]
        exact starts_kindOfBuffer rfl _

/-- **A request finds all tiles in use if and only if its cell is missing, the budget is used up and
every tile is being computed.** -/
theorem exhausts_iff (hw : c.WellFormed) (generation : Nat) :
    c.kindOf generation cell = .exhausted ↔ c.Exhausts cell := by
  rw [Exhausts]
  cases hf : c.index.find? cell.origin with
  | some id =>
    obtain ⟨t, ht, -⟩ := hw.exists_tile hf
    rw [kindOf_found hf ht]
    split
    · simp
    · split <;> simp
  | none =>
    cases hroom : c.budget.allows c.tiles.size with
    | true =>
      rw [kindOf_room hf hroom]
      simpa using kindOfBuffer_ne (by decide) (by decide) (by decide) (Tile.create c.info cell)
    | false =>
      rw [kindOf_full hf hroom, ← victim?_eq_none_iff hw.toIndexed]
      cases hv : c.victim? with
      | none => simp
      | some id =>
        obtain ⟨old, ht, -⟩ := hw.toIndexed.exists_victim hv
        rw [Option.bind_some, ht]
        simpa using kindOfBuffer_ne (by decide) (by decide) (by decide) (old.moveTo cell)

/-! ## The whole decision -/

/-- What a request for `cell` does to the cache `c`, if it leaves `d` and is answered with
`acquired`. -/
structure Decides (c : Cache) (generation : Nat) (cell : Rect) (d : Cache)
    (acquired : Acquired) : Prop where
  /-- A tile is answered as it is if and only if the cell is attended. -/
  answers : (∃ id, acquired = .ready id) ↔ c.Attended generation cell
  /-- A computation is started if and only if the cell is not attended and a tile can be had. -/
  starts : (∃ job, acquired = .compute job) ↔ ¬ c.Attended generation cell ∧ c.Provides cell
  /-- What is started is a computation of this cell, on a tile that nobody computed before. -/
  job : ∀ job, acquired = .compute job → job.area = cell ∧
    (∃ t, d.tiles[job.tile]? = some t ∧ t.state = .computing ∧ t.area = cell) ∧
    ∀ t, c.tiles[job.tile]? = some t → t.state ≠ .computing
  /-- A cell of the cache keeps its tile, and the index keeps its entries. -/
  inPlace : ∀ id, c.index.find? cell.origin = some id →
    acquired.tile? = some id ∧ d.index.entries.Perm c.index.entries
  /-- The request counts that all tiles are in use if and only if they are. -/
  exhausts : c.counters.exhausted < d.counters.exhausted ↔ c.Exhausts cell
  /-- Whatever the end, all tiles but the one that is answered stay as they are. -/
  others : ∀ j : Nat, acquired.tile? ≠ some j → d.tiles[j]? = c.tiles[j]?
  /-- So do their entries in the index, and their order. -/
  order : d.index.besides acquired.tile? = c.index.besides acquired.tile?
  /-- A request that comes to nothing has changed one count: that all tiles are in use, or that a
  buffer was refused for a new tile or for one to be taken over. -/
  comesToNothing : acquired = .unavailable →
    (c.Exhausts cell ∧
        d = { c with counters := { c.counters with exhausted := c.counters.exhausted + 1 } }) ∨
      c.RefusesBuffer cell ∧
        d = { c with counters :=
          { c.counters with allocationFailures := c.counters.allocationFailures + 1 } }
  /-- A request that breaks off has changed nothing.  The bytes of its cell cannot be counted. -/
  breaksOff : ∀ fault, acquired = .broke fault → c.LacksBuffer cell (.faulted fault) ∧ d = c

variable {r : Cache × Acquired}

theorem tile?_start (ht : d.tiles[id]? = some tile) {region : Region}
    (hr : tile.region? = some region) : (d.start id).2.tile? = some id := by
  rw [start_eq ht hr]
  rfl

/-- A tile is answered as it is if and only if the cell is attended. -/
theorem Acquisition.ready_iff (hw : c.WellFormed) (hcell : c.size.IsCell cell)
    (ha : Acquisition c generation cell r) :
    (∃ id, r.2 = .ready id) ↔ c.Attended generation cell := by
  cases ha with
  | hit found stands valid =>
    exact iff_of_true ⟨_, rfl⟩ ((attended_iff_of_find? hw hcell found stands).2 (.inr valid))
  | busy found stands computing =>
    exact iff_of_true ⟨_, rfl⟩ ((attended_iff_of_find? hw hcell found stands).2 (.inl computing))
  | started ready =>
    obtain ⟨region, hr⟩ := ready.exists_region hw
    rw [start_eq ready.stands hr]
    exact iff_of_false nofun ((starts_iff hw hcell generation).1 ready.kindOf.1).1
  | refused missing _ => exact iff_of_false nofun (not_attended_of_missing hw missing)
  | broke missing _ => exact iff_of_false nofun (not_attended_of_missing hw missing)
  | exhausted missing _ _ => exact iff_of_false nofun (not_attended_of_missing hw missing)

/-- All tiles but the one that is answered stay as they are. -/
theorem Acquisition.others (hw : c.WellFormed) (ha : Acquisition c generation cell r)
    (hj : r.2.tile? ≠ some j) : r.1.tiles[j]? = c.tiles[j]? := by
  cases ha with
  | hit _ _ _ => exact getElem?_touch_ne fun h => hj (congrArg some h.symm)
  | busy _ _ _ => exact getElem?_touch_ne fun h => hj (congrArg some h.symm)
  | started ready =>
    obtain ⟨region, hr⟩ := ready.exists_region hw
    rw [tile?_start ready.stands hr, ne_eq, Option.some.injEq, eq_comm] at hj
    exact (getElem?_start_ne ready.stands hr hj).trans (ready.other hj)
  | refused _ _ => rfl
  | broke _ _ => rfl
  | exhausted _ _ _ => rfl

/-- The entries of all tiles but the one that is answered stay as they are, and in their order. -/
theorem Acquisition.order (hw : c.WellFormed) (hcell : c.size.IsCell cell)
    (ha : Acquisition c generation cell r) :
    r.1.index.besides r.2.tile? = c.index.besides r.2.tile? := by
  cases ha with
  | hit _ _ _ => exact besides_touch (hw.count _).toIndexed _
  | busy _ _ _ => exact besides_touch hw.toIndexed _
  | started ready =>
    obtain ⟨region, hr⟩ := ready.exists_region hw
    rw [tile?_start ready.stands hr, index_start ready.stands hr,
      besides_touch (ready.indexed hw hcell)]
    exact ready.besides_eq hw
  | refused _ _ => rfl
  | broke _ _ => rfl
  | exhausted _ _ _ => rfl

/-- A cell of the cache keeps its tile, and the index keeps its entries. -/
theorem Acquisition.inPlace (hw : c.WellFormed) (ha : Acquisition c generation cell r)
    (hf : c.index.find? cell.origin = some id) :
    r.2.tile? = some id ∧ r.1.index.entries.Perm c.index.entries := by
  have absent : c.index.find? cell.origin ≠ none := by
    rw [hf]
    exact nofun
  cases ha with
  | hit found _ _ => exact ⟨found.symm.trans hf, perm_touch (hw.count _).toIndexed _⟩
  | busy found _ _ => exact ⟨found.symm.trans hf, perm_touch hw.toIndexed _⟩
  | started ready =>
    obtain ⟨region, hr⟩ := ready.exists_region hw
    rw [tile?_start ready.stands hr, index_start ready.stands hr]
    cases ready with
    | inPlace found _ _ _ => exact ⟨found.symm.trans hf, perm_touch hw.toIndexed _⟩
    | added missing _ _ => exact absurd missing absent
    | moved missing _ _ _ _ _ => exact absurd missing absent
  | refused missing _ => exact absurd missing absent
  | broke missing _ => exact absurd missing absent
  | exhausted missing _ _ => exact absurd missing absent

/-- A request that comes to nothing has changed one count only. -/
theorem Acquisition.comesToNothing (hw : c.WellFormed) (ha : Acquisition c generation cell r)
    (hr : r.2 = .unavailable) :
    (c.Exhausts cell ∧ r.1 = c.noteExhausted) ∨
      c.RefusesBuffer cell ∧ r.1 = c.noteAllocationFailure := by
  cases ha with
  | hit _ _ _ => cases hr
  | busy _ _ _ => cases hr
  | started ready =>
    obtain ⟨region, hreg⟩ := ready.exists_region hw
    rw [start_eq ready.stands hreg] at hr
    cases hr
  | refused _ lacks => exact .inr ⟨⟨_, lacks⟩, rfl⟩
  | broke _ _ => cases hr
  | exhausted missing full none =>
    exact .inl ⟨⟨missing, full, (victim?_eq_none_iff hw.toIndexed).1 none⟩, rfl⟩

/-- A request that breaks off has changed nothing. -/
theorem Acquisition.breaksOff (hw : c.WellFormed) (ha : Acquisition c generation cell r)
    {fault : Fault} (hr : r.2 = .broke fault) :
    c.LacksBuffer cell (.faulted fault) ∧ r.1 = c := by
  cases ha with
  | hit _ _ _ => cases hr
  | busy _ _ _ => cases hr
  | started ready =>
    obtain ⟨region, hreg⟩ := ready.exists_region hw
    rw [start_eq ready.stands hreg] at hr
    cases hr
  | refused _ _ => cases hr
  | broke _ lacks =>
    obtain rfl := Acquired.broke.inj hr
    exact ⟨lacks, rfl⟩
  | exhausted _ _ _ => cases hr

/-- **What a request decides.** -/
theorem decides (hw : c.WellFormed) (ho : c.isOpen = true) (hcell : c.size.IsCell cell)
    (generation : Nat) :
    c.Decides generation cell (c.acquire generation cell).1 (c.acquire generation cell).2 := by
  have ha := acquisition hw.toIndexed ho generation cell
  obtain ⟨hcounters, -, hstarts⟩ := acquire_kind hw ho generation cell
  exact
    { answers := ha.ready_iff hw hcell
      starts := hstarts.symm.trans (starts_iff hw hcell generation)
      job := fun job hjob =>
        have h := computing_of_compute hw hcell (Prod.ext rfl hjob : c.acquire generation cell =
          ((c.acquire generation cell).1, .compute job))
        ⟨h.1, h.2.1.imp fun t ht => ⟨ht.1, ht.2.1, ht.2.2.trans h.1⟩, h.2.2⟩
      inPlace := fun id hf => ha.inPlace hw hf
      exhausts := by
        rw [hcounters, Kind.exhausted_lt_tally_iff, exhausts_iff hw]
      others := fun j hj => ha.others hw hj
      order := ha.order hw hcell
      comesToNothing := fun hr => ha.comesToNothing hw hr
      breaksOff := fun _ hr => ha.breaksOff hw hr }

end Cache

end TileCache
