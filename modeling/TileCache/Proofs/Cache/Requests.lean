import TileCache.Proofs.Cache.Idle

/-!
# Kinds of requests

A request for a cell is of one of eight kinds, and which of them can be told from the cache as the
request finds it (`Cache.kindOf`).  The kind says all that a request does to the counts, whether the
cache gets another tile, and whether there is a job: `acquire_kind`.  In particular every request
that adds a tile or moves one to another cell hands out exactly one job.
-/

set_option autoImplicit false

namespace TileCache

/-- What a request comes to. -/
inductive Kind
  /-- The tile of the cell has valid pixels. -/
  | hit
  /-- Somebody computes the tile of the cell. -/
  | busy
  /-- The tile of the cell is blank, or stale, and is computed again. -/
  | renewed
  /-- The cell gets a tile of its own. -/
  | added
  /-- The cell takes over the tile of another. -/
  | moved
  /-- A buffer for the cell is refused. -/
  | refused
  /-- The request breaks off for want of a buffer. -/
  | broken
  /-- Every tile is being computed. -/
  | exhausted
deriving DecidableEq

namespace Kind

/-- What a request of this kind adds to the counts. -/
def tally (kind : Kind) (k : Counters) : Counters :=
  match kind with
  | hit => { k with hits := k.hits + 1 }
  | busy | broken => k
  | renewed | added => { k with computes := k.computes + 1 }
  | moved => { k with computes := k.computes + 1, evictions := k.evictions + 1 }
  | refused => { k with allocationFailures := k.allocationFailures + 1 }
  | exhausted => { k with exhausted := k.exhausted + 1 }

/-- Is a computation begun? -/
def starts (kind : Kind) : Bool :=
  match kind with
  | renewed | added | moved => true
  | hit | busy | refused | broken | exhausted => false

/-- Is there nothing to be had, neither now nor later? -/
def isVain (kind : Kind) : Bool :=
  match kind with
  | busy | refused | exhausted => true
  | hit | renewed | added | moved | broken => false

/-- Every request is of one kind. -/
theorem length_eq (kinds : List Kind) :
    kinds.length = kinds.count hit + kinds.count busy + kinds.count renewed + kinds.count added +
      kinds.count moved + kinds.count refused + kinds.count broken + kinds.count exhausted := by
  induction kinds with
  | nil => rfl
  | cons kind kinds ih =>
    cases kind <;> simp only [List.length_cons, List.count_cons, beq_iff_eq, reduceCtorEq, if_true,
      if_false] <;> omega

theorem countP_isVain (kinds : List Kind) :
    kinds.countP isVain = kinds.count busy + kinds.count refused + kinds.count exhausted := by
  induction kinds with
  | nil => rfl
  | cons kind kinds ih =>
    cases kind <;> simp only [List.countP_cons, isVain, List.count_cons, beq_iff_eq, reduceCtorEq,
      if_true, if_false, Bool.false_eq_true] <;> omega

end Kind

namespace Cache

variable {c : Cache} {generation : Nat} {cell : Rect} {id : Nat} {tile : Tile}

/-- The kind of a request that gets a buffer or not; it is `got` with one. -/
def kindOfBuffer (got : Kind) : Except Setback Tile → Kind
  | .ok _ => got
  | .error (.refused _) => .refused
  | .error (.faulted _) => .broken

/-- The kind of a request for `cell` while the image is at `generation`. -/
def kindOf (c : Cache) (generation : Nat) (cell : Rect) : Kind :=
  match c.tileAt? cell.origin with
  | some tile =>
    if tile.isComputing then .busy else if tile.isValid generation then .hit else .renewed
  | none =>
    if c.budget.allows c.tiles.size then
      kindOfBuffer .added (Tile.create c.info cell)
    else
      match c.victim?.bind fun id => c.tiles[id]? with
      | some old => kindOfBuffer .moved (old.moveTo cell)
      | none => .exhausted

theorem kindOfBuffer_ne {got kind : Kind} (hgot : got ≠ kind) (hrefused : .refused ≠ kind)
    (hbroken : .broken ≠ kind) (result : Except Setback Tile) : kindOfBuffer got result ≠ kind := by
  rcases result with (_ | _) | _
  · exact hrefused
  · exact hbroken
  · exact hgot

theorem tileAt?_of_find? (hf : c.index.find? cell.origin = some id)
    (ht : c.tiles[id]? = some tile) : c.tileAt? cell.origin = some tile := by
  rw [tileAt?, hf]
  exact ht

theorem tileAt?_of_missing (hn : c.index.find? cell.origin = none) :
    c.tileAt? cell.origin = none := by
  rw [tileAt?, hn]
  rfl

theorem kindOf_found (hf : c.index.find? cell.origin = some id) (ht : c.tiles[id]? = some tile) :
    c.kindOf generation cell =
      if tile.isComputing then .busy else if tile.isValid generation then .hit else .renewed := by
  rw [kindOf, tileAt?_of_find? hf ht]

theorem kindOf_room (hn : c.index.find? cell.origin = none)
    (hroom : c.budget.allows c.tiles.size = true) :
    c.kindOf generation cell = kindOfBuffer .added (Tile.create c.info cell) := by
  rw [kindOf, tileAt?_of_missing hn]
  exact if_pos hroom

theorem kindOf_full (hn : c.index.find? cell.origin = none)
    (hfull : c.budget.allows c.tiles.size = false) :
    c.kindOf generation cell =
      match c.victim?.bind fun id => c.tiles[id]? with
      | some old => kindOfBuffer .moved (old.moveTo cell)
      | none => .exhausted := by
  rw [kindOf, tileAt?_of_missing hn]
  exact if_neg (by rw [hfull]; exact Bool.false_ne_true)

theorem kindOf_of_valid (hf : c.index.find? cell.origin = some id)
    (ht : c.tiles[id]? = some tile) (hv : tile.isValid generation = true) :
    c.kindOf generation cell = .hit := by
  have hpainted : tile.state = .painted := by
    have hboth := hv
    rw [Tile.isValid, Bool.and_eq_true] at hboth
    exact of_decide_eq_true hboth.1
  rw [kindOf_found hf ht, if_neg (by simp [Tile.isComputing, hpainted]), if_pos hv]

theorem kindOf_of_computing (hf : c.index.find? cell.origin = some id)
    (ht : c.tiles[id]? = some tile) (hs : tile.state = .computing) :
    c.kindOf generation cell = .busy := by
  rw [kindOf_found hf ht, if_pos (by simp [Tile.isComputing, hs])]

theorem kindOf_of_lacksBuffer {setback : Setback} (hn : c.index.find? cell.origin = none)
    (h : c.LacksBuffer cell setback) (got : Kind) :
    c.kindOf generation cell = kindOfBuffer got (.error setback) := by
  have hgot : ∀ got', kindOfBuffer got' (.error setback) = kindOfBuffer got (.error setback) := by
    intro got'
    cases setback <;> rfl
  cases h with
  | new room failed => rw [kindOf_room hn room, failed, hgot]
  | reused full victim stands failed =>
    rw [kindOf_full hn full, victim, Option.bind_some, stands]
    dsimp only
    rw [failed, hgot]

theorem kindOf_of_exhausted (hn : c.index.find? cell.origin = none)
    (hfull : c.budget.allows c.tiles.size = false) (hv : c.victim? = none) :
    c.kindOf generation cell = .exhausted := by
  rw [kindOf_full hn hfull, hv]
  rfl

/-- The kind of a request that leads to a computation, and what it has done when the tile is
ready. -/
theorem Prepared.kindOf {d : Cache} (h : Prepared c generation cell d id tile) :
    (c.kindOf generation cell).starts = true ∧
      { d.counters with computes := d.counters.computes + 1 } =
        (c.kindOf generation cell).tally c.counters ∧
      d.tiles.size = c.tiles.size + [c.kindOf generation cell].count .added := by
  cases h with
  | inPlace found stands free invalid =>
    have hkind : c.kindOf generation cell = .renewed := by
      rw [kindOf_found found stands, if_neg (by simpa [Tile.isComputing] using free), invalid]
      rfl
    rw [hkind]
    exact ⟨rfl, rfl, rfl⟩
  | added missing room made =>
    have hkind : c.kindOf generation cell = .added := by
      rw [kindOf_room missing room, made]
      rfl
    rw [hkind]
    exact ⟨rfl, rfl, Array.size_push _⟩
  | moved missing full victim stands free made =>
    have hkind : c.kindOf generation cell = .moved := by
      rw [kindOf_full missing full, victim, Option.bind_some, stands]
      dsimp only
      rw [made]
      rfl
    rw [hkind]
    exact ⟨rfl, rfl, tiles_size_setTile _ _ _⟩

/-- **The kind of a request says what it does.** -/
theorem acquire_kind (hw : c.WellFormed) (ho : c.isOpen = true) (generation : Nat) (cell : Rect) :
    (c.acquire generation cell).1.counters = (c.kindOf generation cell).tally c.counters ∧
      (c.acquire generation cell).1.tiles.size =
        c.tiles.size + [c.kindOf generation cell].count .added ∧
      ((c.kindOf generation cell).starts = true ↔
        ∃ job, (c.acquire generation cell).2 = .compute job) := by
  have idle : ∀ {kind : Kind} {acquired : Acquired}, kind.starts = false →
      (∀ job, acquired ≠ .compute job) →
      (kind.starts = true ↔ ∃ job, acquired = .compute job) := by
    intro kind acquired hstarts hjob
    rw [hstarts]
    exact ⟨fun h => absurd h Bool.false_ne_true, fun ⟨job, h⟩ => absurd h (hjob job)⟩
  have ha := acquisition hw.toIndexed ho generation cell
  generalize c.acquire generation cell = r at ha ⊢
  cases ha with
  | hit found stands valid =>
    rw [kindOf_of_valid found stands valid]
    exact ⟨counters_touch _ _, tiles_size_touch _ _, idle rfl fun _ h => nomatch h⟩
  | busy found stands computing =>
    rw [kindOf_of_computing found stands computing]
    exact ⟨counters_touch _ _, tiles_size_touch _ _, idle rfl fun _ h => nomatch h⟩
  | started ready =>
    obtain ⟨region, hr⟩ := ready.exists_region hw
    obtain ⟨hstarts, hcounters, hsize⟩ := ready.kindOf
    refine ⟨(counters_start ready.stands hr).trans hcounters, ?_, fun _ => ?_, fun _ => hstarts⟩
    · rw [← hsize, start_eq ready.stands hr]
      exact (tiles_size_setTile _ _ _).trans (tiles_size_touch _ _)
    · rw [start_eq ready.stands hr]
      exact ⟨_, rfl⟩
  | refused missing lacks =>
    rw [kindOf_of_lacksBuffer missing lacks .added]
    exact ⟨rfl, rfl, idle rfl fun _ h => nomatch h⟩
  | broke missing lacks =>
    rw [kindOf_of_lacksBuffer missing lacks .added]
    exact ⟨rfl, rfl, idle rfl fun _ h => nomatch h⟩
  | exhausted missing full none =>
    rw [kindOf_of_exhausted missing full none]
    exact ⟨rfl, rfl, idle rfl fun _ h => nomatch h⟩

/-- A request of the kind that breaks off does so. -/
theorem exists_fault_of_broken (hw : c.WellFormed) (ho : c.isOpen = true)
    (h : c.kindOf generation cell = .broken) :
    ∃ fault, (c.acquire generation cell).2 = .broke fault := by
  have ha := acquisition hw.toIndexed ho generation cell
  generalize c.acquire generation cell = r at ha ⊢
  cases ha with
  | broke _ _ => exact ⟨_, rfl⟩
  | hit found stands valid =>
    rw [kindOf_of_valid found stands valid] at h
    cases h
  | busy found stands computing =>
    rw [kindOf_of_computing found stands computing] at h
    cases h
  | started ready =>
    have hstarts := ready.kindOf.1
    rw [h] at hstarts
    cases hstarts
  | refused missing lacks =>
    rw [kindOf_of_lacksBuffer missing lacks .added] at h
    cases h
  | exhausted missing full none =>
    rw [kindOf_of_exhausted missing full none] at h
    cases h

/-- A request that hands out no job is answered with valid pixels if it is a hit, and with nothing
to copy from if it is in vain. -/
theorem acquire_vain (hw : c.WellFormed) (ho : c.isOpen = true) {d : Cache} {acquired : Acquired}
    (h : c.acquire generation cell = (d, acquired)) :
    (∀ id, acquired = .ready id →
      ((c.kindOf generation cell).isVain = false ∧ ∃ tile region, d.tiles[id]? = some tile ∧
          tile.region? = some region ∧ tile.isValid generation = true) ∨
        (c.kindOf generation cell).isVain = true ∧
          ∀ tile, d.tiles[id]? = some tile → tile.isValid generation = false) ∧
      (acquired = .unavailable → (c.kindOf generation cell).isVain = true) := by
  have ha := acquisition hw.toIndexed ho generation cell
  rw [h] at ha
  generalize hr : (d, acquired) = r at ha
  cases ha with
  | @hit i t found stands valid =>
    obtain ⟨rfl, rfl⟩ := Prod.mk.inj hr
    refine ⟨fun id hid => .inl ?_, fun h => by cases h⟩
    obtain rfl := Acquired.ready.inj hid
    obtain ⟨region, hregion⟩ := hw.exists_region_of_valid stands valid
    rw [kindOf_of_valid found stands valid]
    exact ⟨rfl, _, region, getElem?_hit_self stands, hregion, valid⟩
  | @busy i t found stands computing =>
    obtain ⟨rfl, rfl⟩ := Prod.mk.inj hr
    refine ⟨fun id hid => .inr ?_, fun h => by cases h⟩
    obtain rfl := Acquired.ready.inj hid
    rw [kindOf_of_computing found stands computing]
    refine ⟨rfl, fun tile ht => ?_⟩
    rw [getElem?_touch_self stands] at ht
    obtain rfl := Option.some.inj ht
    show Tile.isValid { t with lastUsed := _ } generation = false
    rw [Tile.isValid, Tile.isPainted, computing]
    rfl
  | started ready =>
    obtain ⟨region, hreg⟩ := ready.exists_region hw
    rw [start_eq ready.stands hreg] at hr
    obtain ⟨-, rfl⟩ := Prod.mk.inj hr
    exact ⟨fun _ h => (by cases h), fun h => (by cases h)⟩
  | refused missing lacks =>
    obtain ⟨-, rfl⟩ := Prod.mk.inj hr
    rw [kindOf_of_lacksBuffer missing lacks .added]
    exact ⟨fun _ h => (by cases h), fun _ => rfl⟩
  | broke missing lacks =>
    obtain ⟨-, rfl⟩ := Prod.mk.inj hr
    exact ⟨fun _ h => (by cases h), fun h => (by cases h)⟩
  | exhausted missing full none =>
    obtain ⟨-, rfl⟩ := Prod.mk.inj hr
    rw [kindOf_of_exhausted missing full none]
    exact ⟨fun _ h => (by cases h), fun _ => rfl⟩

/-- If nobody computes, a request finds nobody computing. -/
theorem kindOf_ne_busy (h : c.IsIdle) (generation : Nat) (cell : Rect) :
    c.kindOf generation cell ≠ .busy := by
  rw [kindOf]
  split
  · rename_i tile ht
    obtain ⟨id, -, hid⟩ := Option.bind_eq_some_iff.1 ht
    have hfree : tile.isComputing = false := decide_eq_false (h id tile hid)
    rw [hfree]
    split <;> [exact absurd ‹_› Bool.false_ne_true; skip]
    split <;> exact nofun
  · split
    · exact kindOfBuffer_ne (by decide) (by decide) (by decide) _
    · split
      · exact kindOfBuffer_ne (by decide) (by decide) (by decide) _
      · exact nofun

/-! ## Hits -/

theorem Kind.hits_tally {kind : Kind} (h : kind ≠ .hit) (k : Counters) :
    (kind.tally k).hits = k.hits := by
  cases kind <;> first | rfl | exact absurd rfl h

/-- A request only hits if valid pixels of the cell are at hand. -/
theorem kindOf_ne_hit (hc : c.isCached generation cell.origin = false) :
    c.kindOf generation cell ≠ .hit := by
  rw [isCached] at hc
  rw [kindOf]
  cases ht : c.tileAt? cell.origin with
  | some tile =>
    rw [ht] at hc
    have hv : tile.isValid generation = false := hc
    dsimp only
    rw [hv]
    split <;> decide
  | none =>
    dsimp only
    split
    · exact kindOfBuffer_ne (by decide) (by decide) (by decide) _
    · split
      · exact kindOfBuffer_ne (by decide) (by decide) (by decide) _
      · decide

/-- A request for a cell whose pixels are not at hand counts no hit. -/
theorem hits_acquire (hw : c.WellFormed) (hc : c.isCached generation cell.origin = false) :
    (c.acquire generation cell).1.counters.hits = c.counters.hits := by
  by_cases ho : c.isOpen = true
  · rw [(acquire_kind hw ho generation cell).1]
    exact Kind.hits_tally (kindOf_ne_hit hc) _
  · rw [acquire_of_closed (by simpa using ho)]

/-! ## Buffers that come back -/

theorem tiles_size_checkin (c : Cache) (id : Nat) (region : Region) (painted : Bool) :
    (c.checkin id region painted).tiles.size = c.tiles.size := by
  rw [checkin]
  split
  · rfl
  · exact tiles_size_setTile _ _ _

theorem tiles_size_complete (c : Cache) (id : Nat) (region : Region) (succeeded : Bool) :
    (c.complete id region succeeded).tiles.size = c.tiles.size := by
  rw [complete]
  split
  · rfl
  · split
    · rw [tiles_size_touch, tiles_size_checkin]
    · exact tiles_size_checkin _ _ _ _

theorem tiles_size_abandon (c : Cache) (id : Nat) (region : Region) :
    (c.abandon id region).tiles.size = c.tiles.size := by
  rw [abandon]
  split
  · rfl
  · exact tiles_size_checkin _ _ _ _

/-- A computation that failed is counted when it ends. -/
theorem counters_complete_false (ho : c.isOpen = true) (id : Nat) (region : Region) :
    (c.complete id region false).counters =
      { c.counters with computeFailures := c.counters.computeFailures + 1 } := by
  rw [complete, ho]
  exact counters_checkin _ _ _ _

theorem hits_complete (c : Cache) (id : Nat) (region : Region) (succeeded : Bool) :
    (c.complete id region succeeded).counters.hits = c.counters.hits := by
  by_cases ho : c.isOpen = true
  · cases succeeded with
    | true => rw [counters_complete]
    | false => rw [counters_complete_false ho]
  · rw [complete_of_closed (by simpa using ho)]

theorem counters_abandon (c : Cache) (id : Nat) (region : Region) :
    (c.abandon id region).counters = c.counters := by
  rw [abandon]
  split
  · rfl
  · exact counters_checkin _ _ _ _

end Cache

end TileCache
