import TileCache.Proofs.Sink.Alone
import TileCache.Proofs.Sink.Answers

/-!
# Cells that are left blank

No byte of the test pattern is zero.  So a cell of a region cannot both show the pattern and be zero
throughout, and one can count the cells of the latter kind (`Region.blanks`).

* `LaidOut` is what is known of a region that a pull fills, from the buffer that it got.  If all its
  cells show the pattern or are blank, three things are the same: no cell is blank, the region shows
  the pattern, no byte of it is zero (`LaidOut.blanks_eq_zero_iff`, `LaidOut.nonzero_iff`).
* `Pull.blanksWritten` counts the blank cells among those that a pull has written.  A step writes
  one cell, so it adds one to this count or none (`Tidy.blanksWritten_write`).
-/

set_option autoImplicit false

namespace TileCache

/-! ## Points -/

namespace Rect

/-- The points of a rectangle, row by row. -/
def points (r : Rect) : List (Coord × Coord) :=
  (List.range r.height.val.toNat).flatMap fun (j : Nat) =>
    (List.range r.width.val.toNat).map fun (i : Nat) =>
      (.clamp (r.left.val + i), .clamp (r.top.val + j))

theorem mem_points {r : Rect} {x y : Coord} (h : r.contains x y = true) : (x, y) ∈ r.points := by
  rw [contains_iff] at h
  simp only [right, bottom, Coord.val_clamp] at h
  have := x.lower
  have := y.lower
  have hcolumn : (x.val - r.left.val).toNat < r.width.val.toNat := by omega
  have hrow : (y.val - r.top.val).toNat < r.height.val.toNat := by omega
  have hx : Coord.clamp (r.left.val + ((x.val - r.left.val).toNat : Nat)) = x := by
    rw [show r.left.val + ((x.val - r.left.val).toNat : Nat) = x.val by omega, Coord.clamp_val]
  have hy : Coord.clamp (r.top.val + ((y.val - r.top.val).toNat : Nat)) = y := by
    rw [show r.top.val + ((y.val - r.top.val).toNat : Nat) = y.val by omega, Coord.clamp_val]
  exact List.mem_flatMap.2 ⟨_, List.mem_range.2 hrow,
    List.mem_map.2 ⟨_, List.mem_range.2 hcolumn, Prod.ext hx hy⟩⟩

end Rect

namespace Region

variable {r s : Region} {cell rect : Rect} {size : TileSize}

/-- Whether a cell is blank can be found out point by point. -/
instance (r : Region) (cell : Rect) : Decidable (r.BlankIn cell) :=
  -- the library has a second instance, and which one is found depends on what is imported
  letI : DecidableEq ByteArray := ByteArray.instDecidableEq
  decidable_of_iff (∀ p ∈ r.valid.points, cell.contains p.1 p.2 = true →
      r.valid.contains p.1 p.2 = true → r.pixel p.1 p.2 = .ok (Bytes.replicate r.pixelSize 0))
    ⟨fun h x y hc hv => h (x, y) (Rect.mem_points hv) hc hv, fun h p _ => h p.1 p.2⟩

/-- The number of cells that are zero throughout. -/
def blanks (r : Region) (size : TileSize) : Nat :=
  (r.valid.cells size).countP fun cell => r.BlankIn cell

/-- No byte of the part of the region in `cell` is zero. -/
def NonzeroIn (r : Region) (cell : Rect) : Prop :=
  ∀ x y, cell.contains x y = true → r.valid.contains x y = true →
    ∃ bytes, r.pixel x y = .ok bytes ∧ bytes.size = r.pixelSize ∧ ∀ k < bytes.size, bytes[k]! ≠ 0

theorem ShowsIn.nonzeroIn (h : r.ShowsIn Pattern.picture cell) : r.NonzeroIn cell := by
  intro x y hc hv
  refine ⟨_, h x y hc hv, Bytes.size_ofFn _ _, fun k hk => ?_⟩
  rw [Bytes.size_ofFn] at hk
  rw [Bytes.getElem!_ofFn _ hk]
  exact Pattern.value_ne_zero _ _ _

/-! ## Regions that pulls fill -/

/-- A region as it is from the time when it gets its buffer. -/
structure LaidOut (size : TileSize) (r : Region) : Prop where
  isWhole : r.IsWhole
  column : TileSize.Rounds size.width r.valid.left
  row : TileSize.Rounds size.height r.valid.top

theorem laidOut_of_buffer (hr : ∃ info, r.IsFor info) (hb : r.buffer rect = .ok s)
    (size : TileSize) : s.LaidOut size := by
  obtain ⟨hcolumn, hrow⟩ := Engine.rounds_of_buffer hr hb size
  obtain ⟨-, -, rfl⟩ := buffer_eq_ok_iff.1 hb
  exact ⟨isWhole_of_buffer hb, hcolumn, hrow⟩

namespace LaidOut

theorem alike (h : r.LaidOut size) (ha : r.Alike s) : s.LaidOut size := by
  refine ⟨ha.isWhole h.isWhole, ?_, ?_⟩ <;> rw [ha.valid]
  · exact h.column
  · exact h.row

/-- The cells that are listed are cells of the grid. -/
theorem isCell (h : r.LaidOut size) (hc : cell ∈ r.valid.cells size) : size.IsCell cell :=
  Rect.isCell_of_mem_cells h.column h.row hc

/-- Each of them has a pixel in the region. -/
theorem exists_point (h : r.LaidOut size) (hc : cell ∈ r.valid.cells size) :
    ∃ x y, cell.contains x y = true ∧ r.valid.contains x y = true :=
  Rect.exists_common_point h.column h.row (h.isWhole.inside.contains_origin h.isWhole.nonempty) hc

/-- **What shows the pattern is not blank.** -/
theorem not_blankIn (h : r.LaidOut size) (hpixel : 0 < r.pixelSize)
    (hc : cell ∈ r.valid.cells size) (hs : r.ShowsIn Pattern.picture cell) : ¬ r.BlankIn cell := by
  intro hblank
  obtain ⟨x, y, hxy, hv⟩ := h.exists_point hc
  have hbytes := Except.ok.inj ((hs x y hxy hv).symm.trans (hblank x y hxy hv))
  refine Pattern.value_ne_zero x.val y.val 0 ?_
  have hfirst := congrArg (fun bytes : ByteArray => bytes[0]!) hbytes
  rwa [Bytes.getElem!_ofFn _ hpixel, Bytes.getElem!_replicate _ hpixel] at hfirst

section

variable (h : r.LaidOut size) (hpixel : 0 < r.pixelSize)
  (hpieces : ∀ cell ∈ r.valid.cells size, r.ShowsIn Pattern.picture cell ∨ r.BlankIn cell)

include h hpixel hpieces

/-- **No cell is blank if and only if the region shows the pattern.** -/
theorem blanks_eq_zero_iff : r.blanks size = 0 ↔ r.Shows Pattern.picture := by
  rw [blanks, List.countP_eq_zero]
  refine ⟨fun hnone x y hv => ?_, fun hs cell hcell => ?_⟩
  · obtain ⟨cell, hcell, hc⟩ := Rect.exists_mem_cells h.column h.row hv
    have hb : ¬ r.BlankIn cell := fun hb => hnone cell hcell (decide_eq_true hb)
    exact (hpieces cell hcell).resolve_right hb x y hc hv
  · rw [decide_eq_true_eq]
    exact h.not_blankIn hpixel hcell fun x y _ hv => hs x y hv

/-- **No byte is zero if and only if the region shows the pattern.** -/
theorem nonzero_iff : (∀ i < r.bytes.size, r.bytes[i]! ≠ 0) ↔ r.Shows Pattern.picture := by
  refine ⟨fun hnone => (h.blanks_eq_zero_iff hpixel hpieces).1 ?_, fun hs i hi => ?_⟩
  · rw [blanks, List.countP_eq_zero]
    intro cell hcell
    rw [decide_eq_true_eq]
    intro hblank
    -- the first byte of a pixel in the cell
    obtain ⟨x, y, hc, hv⟩ := h.exists_point hcell
    have hpixelAt := hblank x y hc hv
    rw [pixel_eq hv] at hpixelAt
    split at hpixelAt
    · rename_i hle
      refine hnone (r.place x y + 0) (by omega) ?_
      rw [← Bytes.getElem!_extract hle hpixel, Except.ok.inj hpixelAt,
        Bytes.getElem!_replicate _ hpixel]
    · cases hpixelAt
  · obtain ⟨x, y, k, hv, hk, rfl⟩ := exists_place h.isWhole hi
    rw [(shows_iff h.isWhole).1 hs x y hv k hk]
    exact Pattern.value_ne_zero _ _ _

end

end LaidOut

end Region

/-! ## What a pull has written -/

namespace Pull

variable {size : TileSize} {p next : Pull} {cell : Rect} {cells : List Rect} {out : Region}

/-- The cells that the pull has not written yet, the next one first. -/
def due (p : Pull) : List Rect :=
  match p.wait with
  | .nothing => p.cells
  | .computing _ cell | .computed _ cell _ => cell :: p.cells

/-- The number of cells that the pull has written and that are zero throughout. -/
def blanksWritten (p : Pull) (size : TileSize) : Nat :=
  (p.out.valid.cells size).countP fun cell => cell ∉ p.due ∧ p.out.BlankIn cell

theorem due_wake (p : Pull) (painted : Bool) : (p.wake painted).due = p.due := by
  obtain ⟨out, cells, wait⟩ := p
  cases wait <;> rfl

theorem blanksWritten_wake (p : Pull) (painted : Bool) :
    (p.wake painted).blanksWritten size = p.blanksWritten size := by
  rw [blanksWritten, blanksWritten, due_wake, Engine.out_wake]

theorem due_of_isDone (h : p.isDone = true) : p.due = [] := by
  obtain ⟨out, cells, wait⟩ := p
  cases cells with
  | cons cell cells => cases h
  | nil =>
    cases wait with
    | nothing => rfl
    | computing _ _ => cases h
    | computed _ _ _ => cases h

/-- A pull that is done has written all cells. -/
theorem blanksWritten_of_isDone (h : p.isDone = true) :
    p.blanksWritten size = p.out.blanks size := by
  rw [blanksWritten, Region.blanks, due_of_isDone h]
  refine List.countP_congr fun cell _ => ?_
  simp

/-- What is known of a pull under way: it writes the cells of its region one after the other. -/
structure Tidy (size : TileSize) (p : Pull) : Prop where
  laidOut : p.out.LaidOut size
  due : p.due <:+ p.out.valid.cells size

/-- At its beginning a pull has written nothing. -/
theorem blanksWritten_of_due (h : p.due = p.out.valid.cells size) : p.blanksWritten size = 0 := by
  rw [blanksWritten, List.countP_eq_zero]
  intro cell hcell
  rw [decide_eq_true_eq]
  exact fun hn => hn.1 (h ▸ hcell)

/-- A cell that is not touched stays blank, or not. -/
theorem blankIn_iff_of_others {other : Rect} (hsame : out = { p.out with bytes := out.bytes })
    (hothers : ∀ x y, cell.contains x y = false → p.out.valid.contains x y = true →
      out.pixel x y = p.out.pixel x y)
    (hapart : ∀ x y, other.contains x y = true → cell.contains x y = false) :
    out.BlankIn other ↔ p.out.BlankIn other := by
  have hv : out.valid = p.out.valid := by rw [hsame]
  have hp : out.pixelSize = p.out.pixelSize := by rw [hsame]
  rw [Region.BlankIn, Region.BlankIn, hv, hp]
  refine forall₄_congr fun x y hc hxy => ?_
  rw [hothers x y (hapart x y hc) hxy]

/-- **Writing a cell adds one to the count if the cell is then blank.** -/
theorem Tidy.blanksWritten_write (h : p.Tidy size) (hdue : p.due = cell :: cells)
    (hsame : out = { p.out with bytes := out.bytes })
    (hothers : ∀ x y, cell.contains x y = false → p.out.valid.contains x y = true →
      out.pixel x y = p.out.pixel x y) :
    Pull.blanksWritten ⟨out, cells, .nothing⟩ size =
      p.blanksWritten size + if out.BlankIn cell then 1 else 0 := by
  obtain ⟨written, hall⟩ := h.due
  have hv : out.valid = p.out.valid := by rw [hsame]
  have hnodup := Rect.nodup_cells p.out.valid size
  have hgrid : ∀ other ∈ p.out.valid.cells size, size.IsCell other := fun _ => h.laidOut.isCell
  rw [hdue] at hall
  rw [← hall] at hnodup hgrid
  obtain ⟨-, hlater, hapart⟩ := List.nodup_append.1 hnodup
  obtain ⟨hnew, -⟩ := List.nodup_cons.1 hlater
  have hcell := hgrid cell (List.mem_append_right _ List.mem_cons_self)
  rw [blanksWritten, blanksWritten, hv, ← hall, hdue, List.countP_append, List.countP_append]
  -- the cells before are as they were
  have hbefore : written.countP (fun other => decide (other ∉ cells ∧ out.BlankIn other)) =
      written.countP fun other => decide (other ∉ cell :: cells ∧ p.out.BlankIn other) := by
    refine List.countP_congr fun other hm => ?_
    have hne : other ≠ cell := hapart other hm cell List.mem_cons_self
    have hnot : other ∉ cells := fun hc => hapart other hm other (List.mem_cons_of_mem _ hc) rfl
    have hblank := blankIn_iff_of_others hsame hothers fun x y hc => Bool.eq_false_iff.2 fun hxy =>
      hne ((hgrid other (List.mem_append_left _ hm)).eq_of_contains hcell hc hxy)
    rw [decide_eq_true_eq, decide_eq_true_eq, hblank, List.mem_cons, not_or]
    exact ⟨fun hn => ⟨⟨hne, hn.1⟩, hn.2⟩, fun hn => ⟨hn.1.2, hn.2⟩⟩
  -- the cells after are still due
  have hafter : ∀ (due : List Rect) (r : Region), (∀ other ∈ cells, other ∈ due) →
      cells.countP (fun other => decide (other ∉ due ∧ r.BlankIn other)) = 0 := by
    intro due r hmem
    rw [List.countP_eq_zero]
    intro other hm
    rw [decide_eq_true_eq]
    exact fun hn => hn.1 (hmem other hm)
  show written.countP (fun other => decide (other ∉ cells ∧ out.BlankIn other)) +
    (cell :: cells).countP (fun other => decide (other ∉ cells ∧ out.BlankIn other)) = _
  rw [hbefore, List.countP_cons, List.countP_cons, hafter cells out fun _ hm => hm,
    hafter (cell :: cells) p.out fun _ hm => List.mem_cons_of_mem _ hm]
  simp [hnew]

end Pull

end TileCache
