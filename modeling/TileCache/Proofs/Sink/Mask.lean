import TileCache.Proofs.Pixels.Whole
import TileCache.Proofs.Sink.Freshness

/-!
# What a mask shows

A mask is filled cell by cell, and each cell with one value.  So a pixel of a mask tells of the cell
in which it lies whether there are valid pixels for it, and it tells nothing else (`pullMask_eq`).
Where there is a buffer for it, filling it never breaks off.

* `exists_filled`: cells painted one after the other.
* `pullMask_eq`: the pixels of a mask.
* `maskByte_of_tile`, and `exists_tile_of_maskByte` in `Freshness`: what a mask shows for a cell is
  whether the tile of the cell is valid.
-/

set_option autoImplicit false

namespace TileCache

namespace Sink

/-- **Cells painted one after the other.**  Afterwards each of them has its own value, and all other
pixels are as they were. -/
theorem exists_filled {size : TileSize} (value : Rect → UInt8) (cells : List Rect) {out : Region}
    (hout : out.IsWhole) (hcells : ∀ cell ∈ cells, size.IsCell cell) :
    ∃ m, cells.foldlM (fun out cell => out.paint cell (value cell)) out = .ok m ∧
      m = { out with bytes := m.bytes } ∧ ∀ x y, out.valid.contains x y = true →
        (∀ cell ∈ cells, cell.contains x y = true →
          m.pixel x y = .ok (Bytes.replicate out.pixelSize (value cell))) ∧
        ((∀ cell ∈ cells, cell.contains x y = false) → m.pixel x y = out.pixel x y) := by
  induction cells generalizing out with
  | nil => exact ⟨out, rfl, rfl, fun x y _ => ⟨fun _ hm => (List.not_mem_nil hm).elim,
      fun _ => rfl⟩⟩
  | cons first cells ih =>
    obtain ⟨next, hnext⟩ := Region.exists_paint hout first (value first)
    have hsame := Region.eq_of_paint hnext
    obtain ⟨m, hm, hmsame, hpixels⟩ :=
      ih (hout.paint hnext) fun cell hcell => hcells cell (List.mem_cons_of_mem _ hcell)
    have hv : next.valid = out.valid := by rw [hsame]
    have hp : next.pixelSize = out.pixelSize := by rw [hsame]
    refine ⟨m, ?_, ?_, fun x y hxy => ?_⟩
    · rw [List.foldlM_cons, hnext]
      exact hm
    · rw [hmsame, hsame]
    · obtain ⟨hpainted, hothers⟩ := hpixels x y (hv ▸ hxy)
      have hwritten := Region.pixel_paint hnext hxy
      rw [hp] at hpainted
      refine ⟨fun cell hcell hc => ?_, fun hnone => ?_⟩
      · rcases List.mem_cons.1 hcell with rfl | hcell'
        · by_cases hagain : ∃ other ∈ cells, other.contains x y = true
          · -- a point lies in one cell only, so the value is the same
            obtain ⟨other, hother, ho⟩ := hagain
            have heq := (hcells other (List.mem_cons_of_mem _ hother)).eq_of_contains
              (hcells cell List.mem_cons_self) ho hc
            exact heq ▸ hpainted other hother ho
          · have hnone : ∀ other ∈ cells, other.contains x y = false := fun other hother =>
              Bool.eq_false_iff.2 fun ho => hagain ⟨other, hother, ho⟩
            rw [hothers hnone, hwritten, if_pos hc]
        · exact hpainted cell hcell' hc
      · rw [hothers fun cell hcell => hnone cell (List.mem_cons_of_mem _ hcell), hwritten,
          if_neg (Bool.eq_false_iff.1 (hnone first List.mem_cons_self))]

variable {s : Sink} {info : ImageInfo} {rect : Rect} {out : Region}

/-- **A pixel of a mask tells whether its cell has valid pixels.**  If there is a buffer for it, the
mask is filled. -/
theorem pullMask_eq (s : Sink) (amid : Rect → Nat) (hout : out.IsFor info.mask) {blank : Region}
    (hb : out.buffer rect = .ok blank) :
    ∃ m, s.pullMask rect out amid = .filled m ∧ m.valid = blank.valid ∧
      ∀ x y, m.valid.contains x y = true → s.size.IsCell (s.size.cellAt x y) ∧
        m.pixel x y = .ok (Bytes.replicate 1
          (s.maskByte (amid (s.size.cellAt x y)) (s.size.cellAt x y))) := by
  have hsingle : out.pixelSize = 1 := hout.2
  have hp : blank.pixelSize = 1 := by
    obtain ⟨-, -, rfl⟩ := Region.buffer_eq_ok_iff.1 hb
    exact hsingle
  have hcells : ∀ cell ∈ blank.valid.cells s.size, s.size.IsCell cell :=
    fun cell hcell => Engine.isCell_of_buffer ⟨_, hout⟩ hb hcell
  obtain ⟨m, hm, hsame, hpixels⟩ := exists_filled (fun cell => s.maskByte (amid cell) cell)
    (blank.valid.cells s.size) (Region.isWhole_of_buffer hb) hcells
  have hv : m.valid = blank.valid := by rw [hsame]
  refine ⟨m, ?_, hv, fun x y hxy => ?_⟩
  · -- an equation lemma for `pullMask` would make Lean evaluate `Region.buffer`
    delta pullMask
    rw [hb]
    dsimp only
    rw [hm]
  · rw [hv] at hxy
    obtain ⟨hl, ht⟩ := Engine.rounds_of_buffer ⟨_, hout⟩ hb s.size
    obtain ⟨cell, hcell, hc⟩ := Rect.exists_mem_cells hl ht hxy
    rw [← (hcells cell hcell).eq_cellAt hc]
    refine ⟨hcells cell hcell, ?_⟩
    rw [(hpixels x y hxy).1 cell hcell hc, hp]

/-- A mask that was filled had a buffer. -/
theorem exists_buffer_of_filled {amid : Rect → Nat} {m : Region}
    (h : s.pullMask rect out amid = .filled m) : ∃ blank, out.buffer rect = .ok blank := by
  delta pullMask at h
  cases hb : out.buffer rect with
  | error setback =>
    rw [hb] at h
    cases setback <;> cases h
  | ok blank => exact ⟨blank, rfl⟩

/-- A cell whose tile is valid is shown. -/
theorem maskByte_of_tile (hw : s.cache.WellFormed) {id : Nat} {t : Tile}
    (ht : s.cache.tiles[id]? = some t) {amid : Nat}
    (hv : t.isValid (s.generation + amid) = true) : s.maskByte amid t.area = 255 := by
  rw [maskByte]
  exact if_pos ((hw.isCached_iff (hw.onGrid id t ht)).2 ⟨id, t, ht, rfl, hv⟩)

end Sink

end TileCache
