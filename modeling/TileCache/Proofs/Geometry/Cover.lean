import TileCache.Proofs.Geometry.Cells

/-!
# Cells that come one after another

`Rect.cells` lists the cells that a rectangle touches by numbering them.  A `Cursor` goes through
them without numbers.  It knows only the origin of the next cell: it goes to the right as long as
the column after this one is among the coordinates and begins before the far edge, and otherwise
back to the first column and down, where it stops at the largest coordinate.  When the next row does
not begin before the lower edge, the cursor has come to its end.

* `yields_cells`: a cursor comes to its end, and gives the cells of the list on the way, whatever
  the rectangle is.
* `pairwise_precedes_cells`: they come row by row and from left to right.
* `mem_cells_iff`: they are the cells of the grid that share a point with the rectangle.
* `filter_cells`: each point of the rectangle lies in just one of them.

`exact_cover` puts this together.
-/

set_option autoImplicit false

namespace TileCache

/-! ## Cursors -/

/-- A way through the cells that `bounds` touches: where its rows begin, and the origin of the next
cell. -/
structure Cursor where
  bounds : Rect
  size : TileSize
  first : Coord
  next : Origin

namespace Cursor

/-- Back to the first column and down, at most to the largest coordinate. -/
def below (c : Cursor) : Origin := ⟨c.first, .clamp (c.next.top.val + c.size.height.val)⟩

/-- The origin of the cell after the next one. -/
def after (c : Cursor) : Origin :=
  match Coord.ofInt? (c.next.left.val + c.size.width.val) with
  | some left => if left < c.bounds.right then ⟨left, c.next.top⟩ else c.below
  | none => c.below

theorem after_of_lt {c : Cursor} {left : Coord}
    (hl : left.val = c.next.left.val + c.size.width.val) (hlt : left < c.bounds.right) :
    c.after = ⟨left, c.next.top⟩ := by
  rw [after, Coord.ofInt?_eq_some_iff.2 hl]
  exact if_pos hlt

/-- At the far edge the cursor goes down, also where there is no coordinate to go right to. -/
theorem after_of_le {c : Cursor}
    (h : c.bounds.right.val ≤ c.next.left.val + c.size.width.val) : c.after = c.below := by
  rw [after]
  split
  · rename_i left hl
    rw [← Coord.ofInt?_eq_some_iff.1 hl] at h
    exact if_neg (Int.not_lt.2 h)
  · rfl

/-- The next cell, and the cursor behind it. -/
def next? (c : Cursor) : Option (Rect × Cursor) :=
  if c.bounds.isEmpty = true ∨ c.bounds.bottom ≤ c.next.top then none
  else
    some (⟨c.next.left, c.next.top, c.size.width, c.size.height⟩, { c with next := c.after })

/-- `c.Yields cells`: the cursor comes to an end, and gives `cells` on the way. -/
inductive Yields : Cursor → List Rect → Prop
  | done {c : Cursor} (h : c.next? = none) : Yields c []
  | more {c d : Cursor} {cell : Rect} {cells : List Rect} (h : c.next? = some (cell, d))
      (rest : Yields d cells) : Yields c (cell :: cells)

/-- There is one way only. -/
theorem Yields.unique {c : Cursor} {cells others : List Rect} (h : c.Yields cells)
    (h' : c.Yields others) : others = cells := by
  induction h generalizing others with
  | done h =>
    cases h' with
    | done _ => rfl
    | more h' _ => cases h.symm.trans h'
  | more h _ ih =>
    cases h' with
    | done h' => cases h.symm.trans h'
    | more h' rest =>
      obtain ⟨rfl, rfl⟩ := Prod.mk.inj (Option.some.inj (h.symm.trans h'))
      rw [ih rest]

end Cursor

namespace Rect

variable {r : Rect} {size : TileSize} {i j : Nat}

/-- The cursor before the first cell. -/
def cursor (r : Rect) (size : TileSize) : Cursor :=
  let cell := size.cellAt r.left r.top
  { bounds := r, size, first := cell.left, next := cell.origin }

/-- The cursor before cell number `i`. -/
def cursorAt (r : Rect) (size : TileSize) (i : Nat) : Cursor :=
  { r.cursor size with next := ((r.cover size).cell i).origin }

theorem cursorAt_zero (r : Rect) (size : TileSize) : r.cursorAt size 0 = r.cursor size := by
  have hcell : ((r.cover size).cell 0).origin = (r.cover size).first := by
    simp [Cover.cell, origin]
  rw [cursorAt, hcell]
  rfl

/-- After a cell that is not the last of its row comes the one to the right of it. -/
theorem after_cursorAt_of_lt (h : i % (r.cover size).columns + 1 < (r.cover size).columns) :
    (r.cursorAt size i).after = ((r.cover size).cell (i + 1)).origin := by
  have hsplit := Nat.mod_add_div i (r.cover size).columns
  obtain ⟨hdiv, hmod⟩ := (Nat.div_mod_unique (columns_pos r size)).2
    ⟨(by omega : i % (r.cover size).columns + 1
        + (r.cover size).columns * (i / (r.cover size).columns) = i + 1), h⟩
  have hleft := left_cell r size i
  have hnext := left_cell r size (i + 1)
  have hbefore := (lt_columns_iff.1 h).resolve_left (Nat.succ_ne_zero _)
  rw [hmod] at hnext
  rw [Int.natCast_succ, Int.add_mul, Int.one_mul] at hnext hbefore
  have htop : ((r.cover size).cell (i + 1)).top = ((r.cover size).cell i).top := by
    rw [Cover.cell, Cover.cell, hdiv]
  rw [origin, htop]
  refine Cursor.after_of_lt (?_ : _ = ((r.cover size).cell i).left.val + size.width.val)
    (?_ : _ < r.right.val)
  · omega
  · omega

/-- After the last cell of a row comes the first one of the next row. -/
theorem after_cursorAt_of_eq (hi : i < (r.cover size).count)
    (h : i % (r.cover size).columns + 1 = (r.cover size).columns) :
    (r.cursorAt size i).after = ((r.cover size).cell (i + 1)).origin := by
  have hsplit := Nat.mod_add_div i (r.cover size).columns
  obtain ⟨hdiv, hmod⟩ := (Nat.div_mod_unique (columns_pos r size)).2
    ⟨(by rw [Nat.mul_succ]; omega : 0 + (r.cover size).columns * (i / (r.cover size).columns + 1)
        = i + 1), columns_pos r size⟩
  have hleft := left_cell r size i
  have hbeyond := mt (@lt_columns_iff r size _).2 (Nat.lt_irrefl _)
  rw [not_or, ← h, Int.natCast_succ, Int.add_mul, Int.one_mul] at hbeyond
  have hfirst : ((r.cover size).cell (i + 1)).left = (r.cover size).first.left := by
    rw [Cover.cell, hmod]
    simp
  have hdown : ((r.cover size).cell (i + 1)).top
      = .clamp (((r.cover size).cell i).top.val + size.height.val) := by
    rw [top_cell hi, Cover.cell, hdiv]
    simp only [Int.natCast_succ, Int.add_mul, Int.one_mul, Int.add_assoc]
    rfl
  have hbelow : (r.cursorAt size i).below = ((r.cover size).cell (i + 1)).origin := by
    rw [origin, hfirst, hdown]
    rfl
  refine Eq.trans (Cursor.after_of_le ?_) hbelow
  show r.right.val ≤ ((r.cover size).cell i).left.val + size.width.val
  omega

/-- Before a cell that is listed the cursor gives this cell, and is then before the next one. -/
theorem next?_cursorAt (hi : i < (r.cover size).count) :
    (r.cursorAt size i).next? = some ((r.cover size).cell i, r.cursorAt size (i + 1)) := by
  have hafter : (r.cursorAt size i).after = ((r.cover size).cell (i + 1)).origin := by
    rcases Nat.lt_or_eq_of_le (Nat.succ_le_of_lt (Nat.mod_lt i (columns_pos r size))) with h | h
    · exact after_cursorAt_of_lt h
    · exact after_cursorAt_of_eq hi h
  have hgoes : ¬ (r.isEmpty = true ∨ r.bottom ≤ ((r.cover size).cell i).top) := by
    have he := isEmpty_of_lt_count hi
    have hrow := (lt_rows_iff he).1 (div_lt_rows hi)
    rw [he, Coord.le_iff, top_cell hi]
    simp only [Bool.false_eq_true, false_or]
    omega
  rw [Cursor.next?, hafter]
  exact if_neg hgoes

/-- After the last cell the cursor has come to its end. -/
theorem next?_cursorAt_count (r : Rect) (size : TileSize) :
    (r.cursorAt size (r.cover size).count).next? = none := by
  rw [Cursor.next?]
  refine if_pos ?_
  cases he : r.isEmpty with
  | true => exact .inl he
  | false =>
    have hbeyond := mt (@lt_rows_iff r he size _).2 (Nat.lt_irrefl _)
    have hdiv : (r.cover size).count / (r.cover size).columns = (r.cover size).rows :=
      Nat.mul_div_cancel _ (columns_pos r size)
    refine .inr ?_
    show r.bottom.val ≤ ((r.cover size).cell (r.cover size).count).top.val
    rw [Cover.cell, hdiv, Coord.val_clamp]
    have := r.bottom.upper
    show _ ≤ max _ (min ((r.cover size).first.top.val + _ * size.height.val) _)
    omega

theorem yields_cursorAt (n : Nat) (hn : i + n = (r.cover size).count) :
    (r.cursorAt size i).Yields ((List.range' i n).map (r.cover size).cell) := by
  induction n generalizing i with
  | zero =>
    obtain rfl : i = (r.cover size).count := hn
    exact .done (next?_cursorAt_count r size)
  | succ n ih => exact .more (next?_cursorAt (by omega)) (ih (by omega))

/-- **The cursor comes to its end, and gives the cells that are listed on the way**, whatever the
rectangle is. -/
theorem yields_cells (r : Rect) (size : TileSize) : (r.cursor size).Yields (r.cells size) := by
  have h := @yields_cursorAt r size 0 (r.cover size).count (Nat.zero_add _)
  rwa [cursorAt_zero, ← List.range_eq_range'] at h

/-! ## Cells and points -/

/-- Does the rectangle begin above the other one, or as far down and to the left of it? -/
def Precedes (a b : Rect) : Prop :=
  a.top.val < b.top.val ∨ a.top = b.top ∧ a.left.val < b.left.val

/-- **Cells are listed row by row, and from left to right.** -/
theorem pairwise_precedes_cells (r : Rect) (size : TileSize) :
    (r.cells size).Pairwise Precedes := by
  refine List.pairwise_map.2 (List.pairwise_lt_range.imp_of_mem fun {i j} hi hj hlt => ?_)
  have hrow := top_cell (List.mem_range.1 hi)
  have hrow' := top_cell (List.mem_range.1 hj)
  rcases Nat.lt_or_eq_of_le (Nat.div_le_div_right (c := (r.cover size).columns)
    (Nat.le_of_lt hlt)) with h | h
  · left
    have := Int.mul_lt_mul_of_pos_right (Int.ofNat_lt.2 h) size.height_pos
    omega
  · right
    have hcolumn : i % (r.cover size).columns < j % (r.cover size).columns := by
      have hsplit := Nat.mod_add_div i (r.cover size).columns
      have hsplit' := Nat.mod_add_div j (r.cover size).columns
      rw [← h] at hsplit'
      omega
    have := Int.mul_lt_mul_of_pos_right (Int.ofNat_lt.2 hcolumn) size.width_pos
    have hleft := left_cell r size i
    have hleft' := left_cell r size j
    exact ⟨Coord.ext (by rw [hrow, hrow', h]), by omega⟩

/-- **The cells that are listed are those of the grid that share a point with the rectangle.** -/
theorem mem_cells_iff (hl : TileSize.Rounds size.width r.left)
    (ht : TileSize.Rounds size.height r.top) (horigin : r.contains r.left r.top = true)
    {cell : Rect} :
    cell ∈ r.cells size ↔ size.IsCell cell ∧
      ∃ x y, cell.contains x y = true ∧ r.contains x y = true := by
  constructor
  · intro h
    exact ⟨isCell_of_mem_cells hl ht h, exists_common_point hl ht horigin h⟩
  · rintro ⟨hcell, x, y, hxy, hr⟩
    rw [hcell.eq_cellAt hxy]
    exact cellAt_mem_cells hl ht hr

/-- **Each point of the rectangle lies in one of the cells only**, the one that `cellAt`
computes. -/
theorem filter_cells (hl : TileSize.Rounds size.width r.left)
    (ht : TileSize.Rounds size.height r.top) {x y : Coord} (hxy : r.contains x y = true) :
    (r.cells size).filter (fun cell => cell.contains x y) = [size.cellAt x y] := by
  obtain ⟨cell, hmem, hin⟩ := exists_mem_cells hl ht hxy
  rw [← (isCell_of_mem_cells hl ht hmem).eq_cellAt hin]
  refine eq_singleton_of_nodup ((nodup_cells r size).filter _) (List.mem_filter.2 ⟨hmem, hin⟩) ?_
  intro other hother
  obtain ⟨hmem', hin'⟩ := List.mem_filter.1 hother
  exact (isCell_of_mem_cells hl ht hmem').eq_of_contains (isCell_of_mem_cells hl ht hmem) hin' hin

/-- **The cells of a rectangle cover it exactly.**  For every rectangle and every size of cells the
cursor comes to its end, having given the cells of the list and nothing else.  There are none for an
empty rectangle.  Otherwise, if the rectangle begins before the largest coordinates and its origin
can be rounded down, they are the cells of the grid that have a point of the rectangle in them, each
once, row by row and from left to right, and each point of the rectangle lies in one of them. -/
theorem exact_cover (r : Rect) (size : TileSize) :
    (∀ cells, (r.cursor size).Yields cells ↔ cells = r.cells size) ∧
    (r.isEmpty = true → r.cells size = []) ∧
    (r.isEmpty = false → r.left < .greatest → r.top < .greatest →
      TileSize.Rounds size.width r.left → TileSize.Rounds size.height r.top →
      (∀ cell, cell ∈ r.cells size ↔ size.IsCell cell ∧
        ∃ x y, cell.contains x y = true ∧ r.contains x y = true) ∧
      (r.cells size).Nodup ∧ (r.cells size).Pairwise Precedes ∧
      ∀ x y, r.contains x y = true →
        (r.cells size).filter (fun cell => cell.contains x y) = [size.cellAt x y]) := by
  refine ⟨fun cells => ⟨(yields_cells r size).unique, fun h => h ▸ yields_cells r size⟩,
    fun he => cells_of_isEmpty he size, fun he hleft htop hl ht => ⟨fun cell => ?_, ?_, ?_, ?_⟩⟩
  · exact mem_cells_iff hl ht (contains_origin he hleft htop)
  · exact nodup_cells r size
  · exact pairwise_precedes_cells r size
  · exact fun x y hxy => filter_cells hl ht hxy

/-- A rectangle that is cut short at the end of the plane and begins above it.  To the right of its
column there is no coordinate for another one. -/
theorem exact_cover_narrow :
    let r : Rect := ⟨2147483600, -3, 100, 6⟩
    let size : TileSize := ⟨64, 4, by decide, by decide⟩
    (r.isEmpty = false ∧ r.left < .greatest ∧ r.top < .greatest ∧
      TileSize.Rounds size.width r.left ∧ TileSize.Rounds size.height r.top) ∧
    (r.cursor size).Yields [⟨2147483584, -4, 64, 4⟩, ⟨2147483584, 0, 64, 4⟩] ∧
    ∃ x y, Rect.contains ⟨2147483584, 0, 64, 4⟩ x y = true ∧ r.contains x y = true := by
  obtain ⟨hyields, -, hcells⟩ :=
    exact_cover ⟨2147483600, -3, 100, 6⟩ ⟨64, 4, by decide, by decide⟩
  have hrounds : TileSize.Rounds 64 2147483600 ∧ TileSize.Rounds 4 (-3) :=
    ⟨by unfold TileSize.Rounds; decide, by unfold TileSize.Rounds; decide⟩
  obtain ⟨hmem, -⟩ := hcells rfl (by decide) (by decide) hrounds.1 hrounds.2
  refine ⟨⟨rfl, by decide, by decide, hrounds.1, hrounds.2⟩, (hyields _).2 (by decide), ?_⟩
  exact ((hmem ⟨2147483584, 0, 64, 4⟩).1 (by decide)).2

end Rect

end TileCache
