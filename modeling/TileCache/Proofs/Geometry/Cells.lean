import TileCache.Geometry.Grid
import TileCache.Proofs.Geometry.Overlap

/-!
# Cells of the grid as sets of points

`Rect.cells` lists the grid cells that a rectangle touches, and `TileSize.cellAt` computes the cell
of one point.  Here both are compared with what they are about, the points that `Rect.contains`
tells.

* `TileSize.IsCell` — a rectangle of the size of a cell whose origin is a multiple of that size.
  A point lies in one cell only (`IsCell.eq_cellAt`).
* `isCell_of_mem_cells`, `cellAt_mem_cells`, `nodup_cells` — what `Rect.cells` lists are cells, the
  cell of every point of the rectangle is among them, and none is listed twice.
* `cells_eq_singleton` — for a part of a cell it lists that cell.

Rounding down can leave the range of coordinates near its lower end.  `TileSize.Rounds` says that
it does not; a rectangle with an origin that is not negative always rounds.
-/

set_option autoImplicit false

namespace TileCache

/-- A list without duplicates and with one member. -/
theorem eq_singleton_of_nodup {α : Type} {l : List α} {a : α} (hnodup : l.Nodup) (hmem : a ∈ l)
    (hall : ∀ b ∈ l, b = a) : l = [a] := by
  cases l with
  | nil => cases hmem
  | cons first rest =>
    obtain rfl := hall first List.mem_cons_self
    have hrest : rest = [] := List.eq_nil_iff_forall_not_mem.2 fun b hb =>
      (List.nodup_cons.1 hnodup).1 (hall b (List.mem_cons_of_mem _ hb) ▸ hb)
    rw [hrest]

/-! ## Cells -/

namespace TileSize

/-- A cell of the grid. -/
structure IsCell (size : TileSize) (cell : Rect) : Prop where
  width : cell.width = size.width
  height : cell.height = size.height
  left : size.width.val ∣ cell.left.val
  top : size.height.val ∣ cell.top.val

/-- Does `v` rounded down to a multiple of `length` stay among the coordinates? -/
def Rounds (length v : Coord) : Prop := -2147483648 ≤ v.val / length.val * length.val

theorem rounds_of_nonneg {length v : Coord} (hl : 0 < length.val) (hv : 0 ≤ v.val) :
    Rounds length v := by
  have h : 0 ≤ v.val / length.val * length.val :=
    Int.mul_nonneg (Int.ediv_nonneg hv (by omega)) (by omega)
  rw [Rounds]
  omega

theorem val_roundDown {length v : Coord} (hl : 0 < length.val) (h : Rounds length v) :
    (roundDown length v).val = v.val / length.val * length.val := by
  have hle := Int.ediv_mul_le v.val (by omega : length.val ≠ 0)
  have hu := v.upper
  exact Coord.val_wrap_of_mem h (by omega)

/-- A multiple of `length` from which `v` is less than `length` away is `v` rounded down. -/
theorem eq_roundDown {length v m : Coord} (hl : 0 < length.val) (hm : length.val ∣ m.val)
    (hle : m.val ≤ v.val) (hlt : v.val < m.val + length.val) : m = roundDown length v := by
  have hq : v.val / length.val * length.val = m.val := by
    obtain ⟨q, hq⟩ := hm
    have hd : v.val / length.val = q := by
      rw [Int.ediv_eq_iff_of_pos hl]
      rw [hq, Int.mul_comm] at hle hlt
      omega
    rw [hd, hq, Int.mul_comm]
  have hr : Rounds length v := by rw [Rounds, hq]; exact m.lower
  exact Coord.ext (by rw [val_roundDown hl hr, hq])

/-- Is the point within the size of a cell from the origin of `cell`?  The end of the plane does not
matter here, while a rectangle that reaches it is cut short. -/
def Covers (size : TileSize) (cell : Rect) (x y : Coord) : Prop :=
  cell.left.val ≤ x.val ∧ x.val < cell.left.val + size.width.val ∧
    cell.top.val ≤ y.val ∧ y.val < cell.top.val + size.height.val

theorem IsCell.covers_of_contains {size : TileSize} {cell : Rect} (h : size.IsCell cell)
    {x y : Coord} (hxy : cell.contains x y = true) : size.Covers cell x y := by
  rw [Rect.contains_iff] at hxy
  simp only [Rect.right, Rect.bottom, Coord.val_clamp, h.width, h.height] at hxy
  have := x.lower
  have := y.lower
  refine ⟨?_, ?_, ?_, ?_⟩ <;> omega

theorem IsCell.eq_cellAt_of_covers {size : TileSize} {cell : Rect} (h : size.IsCell cell)
    {x y : Coord} (hxy : size.Covers cell x y) : cell = size.cellAt x y := by
  obtain ⟨hx, hx', hy, hy'⟩ := hxy
  have hl : cell.left = roundDown size.width x := eq_roundDown size.width_pos h.left hx hx'
  have ht : cell.top = roundDown size.height y := eq_roundDown size.height_pos h.top hy hy'
  calc cell = ⟨cell.left, cell.top, cell.width, cell.height⟩ := rfl
    _ = size.cellAt x y := by rw [hl, ht, h.width, h.height, cellAt]

/-- **A point lies in one cell only**, the one that `cellAt` computes. -/
theorem IsCell.eq_cellAt {size : TileSize} {cell : Rect} (h : size.IsCell cell) {x y : Coord}
    (hxy : cell.contains x y = true) : cell = size.cellAt x y :=
  h.eq_cellAt_of_covers (h.covers_of_contains hxy)

/-- A point that a cell covers can be rounded down, to the origin of this cell. -/
theorem IsCell.rounds_of_covers {size : TileSize} {cell : Rect} (h : size.IsCell cell) {x y : Coord}
    (hxy : size.Covers cell x y) : Rounds size.width x ∧ Rounds size.height y := by
  have rounds : ∀ {length m v : Coord}, 0 < length.val → length.val ∣ m.val → m.val ≤ v.val →
      Rounds length v := by
    intro length m v hl hm hle
    have hmono := Int.mul_le_mul_of_nonneg_right (Int.ediv_le_ediv hl hle) (Int.le_of_lt hl)
    rw [Int.ediv_mul_cancel hm] at hmono
    exact Int.le_trans m.lower hmono
  exact ⟨rounds size.width_pos h.left hxy.1, rounds size.height_pos h.top hxy.2.2.1⟩

/-- Where points can be rounded down, `cellAt` computes a cell that covers the point. -/
theorem isCell_cellAt {size : TileSize} {x y : Coord} (hx : Rounds size.width x)
    (hy : Rounds size.height y) :
    size.IsCell (size.cellAt x y) ∧ size.Covers (size.cellAt x y) x y := by
  have hl : (size.cellAt x y).left.val = _ := val_roundDown size.width_pos hx
  have ht : (size.cellAt x y).top.val = _ := val_roundDown size.height_pos hy
  refine ⟨⟨rfl, rfl, hl ▸ Int.dvd_mul_left _ _, ht ▸ Int.dvd_mul_left _ _⟩, ?_⟩
  have hcolumn := Int.lt_ediv_add_one_mul_self x.val size.width_pos
  have hrow := Int.lt_ediv_add_one_mul_self y.val size.height_pos
  rw [Int.add_mul, Int.one_mul] at hcolumn hrow
  rw [Covers, hl, ht]
  exact ⟨Int.ediv_mul_le _ (Int.ne_of_gt size.width_pos), hcolumn,
    Int.ediv_mul_le _ (Int.ne_of_gt size.height_pos), hrow⟩

theorem IsCell.eq_of_contains {size : TileSize} {a b : Rect} (ha : size.IsCell a)
    (hb : size.IsCell b) {x y : Coord} (hax : a.contains x y = true)
    (hbx : b.contains x y = true) : a = b :=
  (ha.eq_cellAt hax).trans (hb.eq_cellAt hbx).symm

/-- All cells have one size, so a cell is known by its origin. -/
theorem IsCell.eq_of_origin {size : TileSize} {a b : Rect} (ha : size.IsCell a)
    (hb : size.IsCell b) (h : a.origin = b.origin) : a = b := by
  have hl : a.left = b.left := congrArg Origin.left h
  have ht : a.top = b.top := congrArg Origin.top h
  calc a = ⟨a.left, a.top, a.width, a.height⟩ := rfl
    _ = ⟨b.left, b.top, b.width, b.height⟩ := by
      rw [hl, ht, ha.width, ha.height, hb.width, hb.height]
    _ = b := rfl

end TileSize

/-! ## The cells that a rectangle touches -/

/-- Steps of `length` from `first` on begin before `last` as long as their number is below
`stepsBefore`. -/
theorem lt_stepsBefore_iff {first last length : Coord} (hl : 0 < length.val) {k : Nat} :
    k < stepsBefore first last length ↔ first.val + k * length.val < last.val := by
  have h : k < stepsBefore first last length ↔
      (k : Int) + 1 ≤ (last.val - first.val + length.val - 1) / length.val := by
    rw [stepsBefore]
    omega
  rw [h, Int.le_ediv_iff_mul_le hl, Int.add_mul]
  omega

namespace Rect

/-- The columns that a rectangle touches: the first one, and those that begin before its far
edge. -/
theorem lt_columns_iff {r : Rect} {size : TileSize} {k : Nat} :
    k < (r.cover size).columns ↔
      k = 0 ∨ (r.cover size).first.left.val + k * size.width.val < r.right.val := by
  have h : (r.cover size).columns
      = max 1 (stepsBefore (r.cover size).first.left r.right size.width) := rfl
  rw [← lt_stepsBefore_iff size.width_pos, h]
  omega

theorem lt_rows_iff {r : Rect} (he : r.isEmpty = false) {size : TileSize} {k : Nat} :
    k < (r.cover size).rows ↔
      (r.cover size).first.top.val + k * size.height.val < r.bottom.val := by
  rw [← lt_stepsBefore_iff size.height_pos]
  show k < (if r.isEmpty then 0 else stepsBefore _ _ _) ↔ _
  rw [he]
  rfl

theorem left_first_cover {r : Rect} {size : TileSize} (h : TileSize.Rounds size.width r.left) :
    (r.cover size).first.left.val = r.left.val / size.width.val * size.width.val :=
  TileSize.val_roundDown size.width_pos h

theorem top_first_cover {r : Rect} {size : TileSize} (h : TileSize.Rounds size.height r.top) :
    (r.cover size).first.top.val = r.top.val / size.height.val * size.height.val :=
  TileSize.val_roundDown size.height_pos h

theorem mem_cells_iff_lt {r : Rect} {size : TileSize} {cell : Rect} :
    cell ∈ r.cells size ↔ ∃ i, i < (r.cover size).count ∧ (r.cover size).cell i = cell := by
  simp [cells, Cover.toList]

theorem columns_pos (r : Rect) (size : TileSize) : 0 < (r.cover size).columns :=
  lt_columns_iff.2 (.inl rfl)

/-- Only a rectangle that is not empty has cells. -/
theorem isEmpty_of_lt_count {r : Rect} {size : TileSize} {i : Nat}
    (hi : i < (r.cover size).count) : r.isEmpty = false := by
  cases he : r.isEmpty with
  | false => rfl
  | true => simp [Cover.count, cover, he] at hi

/-- The row of a cell. -/
theorem div_lt_rows {r : Rect} {size : TileSize} {i : Nat} (hi : i < (r.cover size).count) :
    i / (r.cover size).columns < (r.cover size).rows := by
  rw [Cover.count, Nat.mul_comm] at hi
  exact Nat.div_lt_of_lt_mul hi

/-- Cells begin inside the range of coordinates, so nothing is cut short. -/
theorem left_cell (r : Rect) (size : TileSize) (i : Nat) :
    ((r.cover size).cell i).left.val = (r.cover size).first.left.val
      + (i % (r.cover size).columns : Nat) * size.width.val := by
  have hk := lt_columns_iff.1 (Nat.mod_lt i (columns_pos r size))
  have hlow := (r.cover size).first.left.lower
  have hup := (r.cover size).first.left.upper
  have hr := r.right.upper
  have hpos : (0 : Int) ≤ (i % (r.cover size).columns : Nat) * size.width.val :=
    Int.mul_nonneg (by omega) (by have := size.width_pos; omega)
  refine Coord.val_clamp_of_mem ?_ ?_
  · show _ ≤ _ + _ * size.width.val
    omega
  · show _ + _ * size.width.val ≤ _
    rcases hk with hk | hk
    · rw [hk]; omega
    · omega

theorem top_cell {r : Rect} {size : TileSize} {i : Nat} (hi : i < (r.cover size).count) :
    ((r.cover size).cell i).top.val = (r.cover size).first.top.val
      + (i / (r.cover size).columns : Nat) * size.height.val := by
  have hk := (lt_rows_iff (isEmpty_of_lt_count hi)).1 (div_lt_rows hi)
  have hlow := (r.cover size).first.top.lower
  have hb := r.bottom.upper
  have hpos : (0 : Int) ≤ (i / (r.cover size).columns : Nat) * size.height.val :=
    Int.mul_nonneg (Int.natCast_nonneg _) (by have := size.height_pos; omega)
  refine Coord.val_clamp_of_mem ?_ ?_
  · show _ ≤ _ + _ * size.height.val
    omega
  · show _ + _ * size.height.val ≤ _
    omega

theorem isCell_of_mem_cells {r : Rect} {size : TileSize}
    (hl : TileSize.Rounds size.width r.left) (ht : TileSize.Rounds size.height r.top)
    {cell : Rect} (h : cell ∈ r.cells size) : size.IsCell cell := by
  obtain ⟨i, hi, rfl⟩ := mem_cells_iff_lt.1 h
  refine ⟨rfl, rfl, ?_, ?_⟩
  · rw [left_cell, left_first_cover hl]
    exact Int.dvd_add (Int.dvd_mul_left _ _) (Int.dvd_mul_left _ _)
  · rw [top_cell hi, top_first_cover ht]
    exact Int.dvd_add (Int.dvd_mul_left _ _) (Int.dvd_mul_left _ _)

/-- **No cell is listed twice.** -/
theorem nodup_cells (r : Rect) (size : TileSize) : (r.cells size).Nodup := by
  refine List.pairwise_map.2 (List.nodup_range.imp_of_mem fun {i j} hi hj hne h => hne ?_)
  have hcolumn := left_cell r size i
  have hrow := top_cell (List.mem_range.1 hi)
  rw [h, left_cell] at hcolumn
  rw [h, top_cell (List.mem_range.1 hj)] at hrow
  have hcolumns : j % (r.cover size).columns = i % (r.cover size).columns :=
    Int.natCast_inj.1 (Int.eq_of_mul_eq_mul_right (Int.ne_of_gt size.width_pos)
      (Int.add_left_cancel hcolumn))
  have hrows : j / (r.cover size).columns = i / (r.cover size).columns :=
    Int.natCast_inj.1 (Int.eq_of_mul_eq_mul_right (Int.ne_of_gt size.height_pos)
      (Int.add_left_cancel hrow))
  rw [← Nat.mod_add_div i (r.cover size).columns, ← Nat.mod_add_div j (r.cover size).columns,
    hcolumns, hrows]

/-- The step from the first multiple of `length` below `first` to that below `v`. -/
theorem exists_step {length first v : Coord} (hl : 0 < length.val) (h : first.val ≤ v.val) :
    ∃ k : Nat, v.val / length.val * length.val
      = first.val / length.val * length.val + k * length.val := by
  have hle : first.val / length.val ≤ v.val / length.val := Int.ediv_le_ediv hl h
  refine ⟨(v.val / length.val - first.val / length.val).toNat, ?_⟩
  rw [Int.toNat_of_nonneg (by omega), Int.sub_mul]
  omega

/-- Every point of a rectangle lies in a cell that is listed. -/
theorem exists_mem_cells {r : Rect} {size : TileSize}
    (hl : TileSize.Rounds size.width r.left) (ht : TileSize.Rounds size.height r.top)
    {x y : Coord} (hxy : r.contains x y = true) :
    ∃ cell ∈ r.cells size, cell.contains x y = true := by
  have he := isEmpty_of_contains hxy
  rw [contains_iff] at hxy
  obtain ⟨hx, hx', hy, hy'⟩ := hxy
  obtain ⟨k, hk⟩ := exists_step size.width_pos hx
  obtain ⟨j, hj⟩ := exists_step size.height_pos hy
  have hxle := Int.ediv_mul_le x.val (by have := size.width_pos; omega : size.width.val ≠ 0)
  have hyle := Int.ediv_mul_le y.val (by have := size.height_pos; omega : size.height.val ≠ 0)
  have hk' : k < (r.cover size).columns := by
    rw [lt_columns_iff, left_first_cover hl]
    omega
  have hj' : j < (r.cover size).rows := by
    rw [lt_rows_iff he, top_first_cover ht]
    omega
  -- cells are numbered row by row
  have hmod : (k + (r.cover size).columns * j) % (r.cover size).columns = k := by
    rw [Nat.add_mul_mod_self_left, Nat.mod_eq_of_lt hk']
  have hdiv : (k + (r.cover size).columns * j) / (r.cover size).columns = j := by
    rw [Nat.add_mul_div_left _ _ (by omega), Nat.div_eq_of_lt hk', Nat.zero_add]
  have hi : k + (r.cover size).columns * j < (r.cover size).count := by
    have h := Nat.mul_le_mul_left (r.cover size).columns (Nat.succ_le_of_lt hj')
    rw [Nat.mul_succ] at h
    rw [Cover.count, Nat.mul_comm (r.cover size).rows]
    omega
  have hleft := left_cell r size (k + (r.cover size).columns * j)
  have htop := top_cell hi
  rw [hmod, left_first_cover hl, ← hk] at hleft
  rw [hdiv, top_first_cover ht, ← hj] at htop
  refine ⟨_, mem_cells_iff_lt.2 ⟨_, hi, rfl⟩, ?_⟩
  have hxlt := Int.lt_ediv_add_one_mul_self x.val size.width_pos
  have hylt := Int.lt_ediv_add_one_mul_self y.val size.height_pos
  have hr := r.right.upper
  have hb := r.bottom.upper
  have hcell := isCell_of_mem_cells hl ht (mem_cells_iff_lt.2 ⟨_, hi, rfl⟩)
  rw [Int.add_mul] at hxlt hylt
  rw [contains_iff, hleft, htop]
  simp only [right, bottom, Coord.val_clamp, hcell.width, hcell.height, hleft, htop]
  simp only [right, bottom, Coord.val_clamp] at hx' hy' hr hb
  omega

/-- **The cell of every point of a rectangle is listed.** -/
theorem cellAt_mem_cells {r : Rect} {size : TileSize}
    (hl : TileSize.Rounds size.width r.left) (ht : TileSize.Rounds size.height r.top)
    {x y : Coord} (hxy : r.contains x y = true) : size.cellAt x y ∈ r.cells size := by
  obtain ⟨cell, hmem, hin⟩ := exists_mem_cells hl ht hxy
  rw [← (isCell_of_mem_cells hl ht hmem).eq_cellAt hin]
  exact hmem

/-- On one axis: the first step that is listed begins at `first` or before and ends after it, and
all others begin in between. -/
theorem max_lt_of_step {length first last : Int} {k : Nat} (hl : 0 < length) (hlast : first < last)
    (hk : k = 0 ∨ first / length * length + k * length < last) :
    max (first / length * length + k * length) first < last ∧
      max (first / length * length + k * length) first <
        first / length * length + k * length + length := by
  have hle := Int.ediv_mul_le first (by omega : length ≠ 0)
  have hlt := Int.lt_ediv_add_one_mul_self first hl
  rw [Int.add_mul] at hlt
  have hpos : (0 : Int) ≤ k * length := Int.mul_nonneg (by omega) (by omega)
  rcases hk with rfl | hk
  · omega
  · omega

/-- **A rectangle has a point in every cell that is listed**, if it has a point at all. -/
theorem exists_common_point {r : Rect} {size : TileSize}
    (hl : TileSize.Rounds size.width r.left) (ht : TileSize.Rounds size.height r.top)
    (hr : r.contains r.left r.top = true) {cell : Rect} (h : cell ∈ r.cells size) :
    ∃ x y, cell.contains x y = true ∧ r.contains x y = true := by
  have hcell := isCell_of_mem_cells hl ht h
  obtain ⟨i, hi, rfl⟩ := mem_cells_iff_lt.1 h
  have he := isEmpty_of_contains hr
  rw [contains_iff] at hr
  have hx := lt_columns_iff.1 (Nat.mod_lt i (columns_pos r size))
  have hy := (lt_rows_iff he).1 (div_lt_rows hi)
  have hleft := left_cell r size i
  have htop := top_cell hi
  rw [left_first_cover hl] at hx hleft
  rw [top_first_cover ht] at hy htop
  obtain ⟨hx₁, hx₂⟩ := max_lt_of_step size.width_pos hr.2.1 hx
  obtain ⟨hy₁, hy₂⟩ := max_lt_of_step size.height_pos hr.2.2.2 (.inr hy)
  rw [← hleft] at hx₁ hx₂
  rw [← htop] at hy₁ hy₂
  have hxu := r.right.upper
  have hyu := r.bottom.upper
  have hxl := r.left.lower
  have hyl := r.top.lower
  refine ⟨max ((r.cover size).cell i).left r.left, max ((r.cover size).cell i).top r.top, ?_, ?_⟩
  · rw [contains_iff, Coord.val_max, Coord.val_max]
    simp only [right, bottom, Coord.val_clamp, hcell.width, hcell.height]
    simp only [right, bottom, Coord.val_clamp] at hx₁ hy₁ hxu hyu
    omega
  · rw [contains_iff, Coord.val_max, Coord.val_max]
    omega

/-- **A part of a cell touches that cell only.** -/
theorem cells_eq_singleton {r : Rect} {size : TileSize}
    (hl : TileSize.Rounds size.width r.left) (ht : TileSize.Rounds size.height r.top)
    (hr : r.contains r.left r.top = true) {cell : Rect} (hcell : size.IsCell cell)
    (hin : ∀ x y, r.contains x y = true → cell.contains x y = true) : r.cells size = [cell] := by
  have hall : ∀ other ∈ r.cells size, other = cell := by
    intro other hother
    obtain ⟨x, y, hxy, hrxy⟩ := exists_common_point hl ht hr hother
    exact (isCell_of_mem_cells hl ht hother).eq_of_contains hcell hxy (hin x y hrxy)
  have hsome := cellAt_mem_cells hl ht hr
  rw [hall _ hsome] at hsome
  exact eq_singleton_of_nodup (nodup_cells r size) hsome hall

end Rect

end TileCache
