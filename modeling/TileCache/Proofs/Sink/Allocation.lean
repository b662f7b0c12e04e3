import TileCache.Proofs.Cache.Idle
import TileCache.Proofs.Sink.Carries

/-!
# Cells that can have a buffer

Whether a buffer can be had for a cell hangs on the image alone (`Allocatable`), as long as all
regions are regions for that image.  That is a promise of the sources (`KeepImages`), weaker than to
leave frames alone: a source may give a region another buffer, but not turn it into a region of
another image.

While nobody computes, the cache then answers a request in one of two ways (`acquire_of_isIdle`):
for a cell that can have a buffer it has a tile, and for any other it counts a failure and changes
nothing else.  That there is no tile to be had because all are in use does not happen.

* `Suited`, `suited_run`: what is known of the buffers of tiles in such a run.
* `acquire_of_free`: a cell that can have a buffer is served while a tile can be had for it.
* `acquire_of_isIdle`: the two ways in which an idle cache answers.
-/

set_option autoImplicit false

namespace TileCache

/-- Can the image have a buffer for this cell? -/
def Allocatable (info : ImageInfo) (cell : Rect) : Bool := ((Region.empty info).buffer cell).isOk

/-- A region for an image gets the buffers that any other region for that image gets. -/
theorem Region.IsFor.buffer_eq {info : ImageInfo} {r : Region} (h : r.IsFor info) (rect : Rect) :
    r.buffer rect = (Region.empty info).buffer rect := by
  rw [Region.buffer, Region.buffer, Region.byteCount, Region.byteCount, h.1, h.2]
  rfl

theorem Region.IsFor.isOk_buffer {info : ImageInfo} {r : Region} (h : r.IsFor info) (cell : Rect) :
    (r.buffer cell).isOk = Allocatable info cell := by
  rw [Allocatable, h.buffer_eq]

theorem Region.IsFor.exists_buffer_of_allocatable {info : ImageInfo} {r : Region} {rect : Rect}
    (h : r.IsFor info) (hok : Allocatable info rect = true) : ∃ s, r.buffer rect = .ok s := by
  rw [← h.isOk_buffer] at hok
  cases hb : r.buffer rect with
  | ok s => exact ⟨s, rfl⟩
  | error error =>
    rw [hb] at hok
    cases hok

/-- The buffer of the tile, if it has one, is for the image, and is for a cell that can have one. -/
def Suited (info : ImageInfo) (t : Tile) : Prop :=
  ∀ r, t.region? = some r → r.IsFor info ∧ Allocatable info t.area = true

theorem suited_of_buffer {info : ImageInfo} {cell : Rect} {r r' : Region} (h : r.IsFor info)
    (hb : r.buffer cell = .ok r') : r'.IsFor info ∧ Allocatable info cell = true := by
  have hok := h.isOk_buffer cell
  rw [hb] at hok
  obtain ⟨-, -, rfl⟩ := Region.buffer_eq_ok_iff.1 hb
  exact ⟨⟨h.1, h.2⟩, hok.symm⟩

/-- A buffer is for the image, and its cell can have one, from the beginning. -/
theorem inborn_suited (info : ImageInfo) :
    Engine.Inborn info fun cell r => r.IsFor info ∧ Allocatable info cell = true :=
  ⟨fun hb => suited_of_buffer ⟨rfl, rfl⟩ hb, fun h hb => suited_of_buffer h.1 hb⟩

theorem durable_suited (info : ImageInfo) : Cache.Durable info (Suited info) :=
  Engine.durable_buffered (inborn_suited info)

/-! ## Requests -/

theorem allocatable_of_buffer_error {info : ImageInfo} {cell : Rect} {setback : Setback}
    (h : (Region.empty info).buffer cell = .error setback) : Allocatable info cell = false := by
  rw [Allocatable, h]
  rfl

/-- A tile is not made for a cell that cannot have a buffer. -/
theorem buffer_of_create_error {info : ImageInfo} {cell : Rect} {setback : Setback}
    (h : Tile.create info cell = .error setback) :
    (Region.empty info).buffer cell = .error setback := by
  rw [Tile.create] at h
  cases hb : (Region.empty info).buffer cell with
  | error other =>
    rw [hb] at h
    exact congrArg _ (Except.error.inj h)
  | ok region =>
    rw [hb] at h
    cases h

/-- A tile is not moved to a cell that cannot have a buffer. -/
theorem buffer_of_moveTo_error {info : ImageInfo} {cell : Rect} {t : Tile} {setback : Setback}
    (hsuited : Suited info t) (h : t.moveTo cell = .error setback) :
    (Region.empty info).buffer cell = .error setback := by
  rw [Tile.moveTo] at h
  cases hr : t.region? with
  | none =>
    rw [hr] at h
    cases h
  | some r =>
    rw [hr] at h
    dsimp only at h
    rw [← (hsuited r hr).1.buffer_eq]
    cases hb : r.buffer cell with
    | error other =>
      rw [hb] at h
      exact congrArg _ (Except.error.inj h)
    | ok region =>
      rw [hb] at h
      cases h

namespace Cache

variable {c : Cache} {info : ImageInfo} {cell : Rect}

/-- What keeps the cache from a buffer for the cell is the same that keeps anybody from it. -/
theorem LacksBuffer.buffer_eq {setback : Setback} (h : c.LacksBuffer cell setback)
    (hinfo : c.info = info) (hsuited : c.All (Suited info)) :
    (Region.empty info).buffer cell = .error setback := by
  cases h with
  | new room failed => exact buffer_of_create_error (hinfo ▸ failed)
  | reused full victim stands failed => exact buffer_of_moveTo_error (hsuited _ _ stands) failed

/-- **A cell that can have a buffer is served**, as long as there is room for another tile or one
to take over; unless somebody computes it already. -/
theorem acquire_of_free (hw : c.WellFormed) (ho : c.isOpen = true) (hinfo : c.info = info)
    (hsuited : c.All (Suited info)) (hok : Allocatable info cell = true)
    (hfree : c.budget.allows c.tiles.size = false → c.victim? ≠ none) (generation : Nat) :
    Gives c generation cell (c.acquire generation cell) ∨
      ∃ (id : Nat) (t : Tile), c.index.find? cell.origin = some id ∧ c.tiles[id]? = some t ∧
        t.state = .computing ∧ c.acquire generation cell = (c.touch id, .ready id) := by
  have absent : Allocatable info cell ≠ false := by
    rw [hok]
    exact nofun
  have ha := acquisition hw.toIndexed ho generation cell
  generalize c.acquire generation cell = r at ha ⊢
  cases ha with
  | hit found stands valid => exact .inl (.hit found stands valid)
  | busy found stands computing => exact .inr ⟨_, _, found, stands, computing, rfl⟩
  | started ready => exact .inl (.started ready)
  | refused _ lacks =>
    exact absurd (allocatable_of_buffer_error (lacks.buffer_eq hinfo hsuited)) absent
  | broke _ lacks =>
    exact absurd (allocatable_of_buffer_error (lacks.buffer_eq hinfo hsuited)) absent
  | exhausted _ full none => exact absurd none (hfree full)

/-! ### Requests while nobody computes -/

/-- **An idle cache serves a request for every cell that can have a buffer**, and changes nothing
but a count for any other: not even that if the bytes of the cell cannot be counted. -/
theorem acquire_of_isIdle (hw : c.WellFormed) (ho : c.isOpen = true) (hidle : c.IsIdle)
    (hinfo : c.info = info) (hsuited : c.All (Suited info)) (hcell : c.size.IsCell cell)
    (generation : Nat) :
    (Allocatable info cell = true ∧ Gives c generation cell (c.acquire generation cell)) ∨
      ∃ setback, (Region.empty info).buffer cell = .error setback ∧
        c.acquire generation cell = c.withoutBuffer setback := by
  have suits : ∀ {id : Nat} {t : Tile}, c.tiles[id]? = some t →
      Allocatable info t.area = true := by
    intro id t ht
    obtain ⟨r, hr⟩ := hidle.exists_region hw ht
    exact (hsuited id t ht r hr).2
  have ha := acquisition hw.toIndexed ho generation cell
  generalize c.acquire generation cell = r at ha ⊢
  cases ha with
  | hit found stands valid =>
    exact .inl ⟨hw.area_eq hcell found stands ▸ suits stands, .hit found stands valid⟩
  | busy _ stands computing => exact absurd computing (hidle _ _ stands)
  | started ready =>
    refine .inl ⟨?_, .started ready⟩
    obtain ⟨r, hr⟩ := ready.exists_region hw
    have hs := (ready.durable (hinfo ▸ durable_suited _) hsuited r hr).2
    rwa [ready.area hw hcell] at hs
  | refused _ lacks => exact .inr ⟨_, lacks.buffer_eq hinfo hsuited, rfl⟩
  | broke _ lacks => exact .inr ⟨_, lacks.buffer_eq hinfo hsuited, rfl⟩
  | exhausted _ full none => exact absurd none (exists_victim_of_isIdle hw.toIndexed hidle full)

theorem acquire_ne_unavailable (hw : c.WellFormed) (ho : c.isOpen = true) (hidle : c.IsIdle)
    (hinfo : c.info = info) (hsuited : c.All (Suited info)) (hcell : c.size.IsCell cell)
    (hok : Allocatable info cell = true) (generation : Nat) :
    (c.acquire generation cell).2 ≠ .unavailable := by
  rcases acquire_of_isIdle hw ho hidle hinfo hsuited hcell generation with
    ⟨-, hgives⟩ | ⟨setback, hno, -⟩
  · exact hgives.ne_unavailable hw
  · rw [allocatable_of_buffer_error hno] at hok
    cases hok

end Cache

/-! ## Runs -/

/-- Does the source keep a region for an image a region for that image? -/
def Source.KeepsImage (source : Source) : Prop :=
  ∀ (info : ImageInfo) (r : Region), r.IsFor info → (source r).region.IsFor info

theorem Source.KeepsFrame.keepsImage {source : Source} (h : source.KeepsFrame) :
    source.KeepsImage := by
  intro info r hr
  obtain ⟨hb, hp, -⟩ := h r
  exact ⟨hb.trans hr.1, hp.trans hr.2⟩

theorem Source.KeepsImage.stamped {info : ImageInfo} {r : Region} {source : Source}
    (h : source.KeepsImage) (hr : r.IsFor info) (beganAt : Nat) :
    ((source r).stamped beganAt).IsFor info := by
  have hfor := h info r hr
  rw [Answer.stamped]
  split
  · exact ⟨hfor.1, hfor.2⟩
  · exact hfor

namespace Engine

/-- Do all sources that the moves make calls of keep regions for their image? -/
def KeepImages (moves : List Move) : Prop :=
  ∀ n source, Move.finish n source ∈ moves → Source.KeepsImage source

theorem KeepImages.of_append {before after : List Move} (h : KeepImages (before ++ after)) :
    KeepImages before :=
  fun n source hm => h n source (List.mem_append_left _ hm)

/-- In every run whose sources keep regions for their image, all buffers are for the image. -/
theorem suited_run {info : ImageInfo} {config : Config} {hasRuntime withMask : Bool} {s : Sink}
    (hs : Sink.create info config hasRuntime withMask = .ok s) {moves : List Move}
    (hk : KeepImages moves) :
    ((ofSink s hasRuntime).run moves).Carries (Suited info)
      (fun _ c => c.job.region.IsFor info ∧ Allocatable info c.job.area = true) :=
  buffered_run hs (inborn_suited info) fun n source hm _ _ beganAt h =>
    ⟨(hk n source hm).stamped h.1 beganAt, h.2⟩

end Engine

end TileCache
