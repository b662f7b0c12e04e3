import TileCache.Proofs.Pixels.Addressing

/-!
# Reading and writing rows

`Region.row` and `Region.setRow` are about `width` pixels of row `y` from column `x` on.  Both look
at the first pixel and at the end of the buffer, and at nothing in between.  So the pixels are
counted row by row, and where a row ends the next one goes on: `inRun` are the pixels that are
reached in this way, and `HasRun` says that there are enough of them.

* `IsExact.run_eq`, `IsExact.exists_run_eq_error` — an access fails if and only if the pixels run
  out before the last one.
* `IsExact.exists_row`, `IsExact.exists_setRow` — otherwise the bytes are those of the pixels of the
  run, one pixel after the other, and no other pixel is written.
* `eq_row_of_inRun`, `exists_below_of_lt` — all pixels of a run are in its row if it ends there, and
  otherwise one of them is below.

An access that is to stay in its row therefore has to be asked for in this way.  The narrowest
region for which it matters has two rows (`setRow_of_next_row`).
-/

set_option autoImplicit false

namespace TileCache

namespace Region

variable {info : ImageInfo} {r : Region} {x y width x' y' : Coord}

/-! ## Runs of pixels -/

/-- The region has `width` pixels from `(x, y)` on, counted row by row. -/
structure HasRun (r : Region) (x y width : Coord) : Prop where
  start : r.valid.contains x y = true
  nonneg : 0 ≤ width.val
  enough : r.slot x y + width.val.toNat ≤ r.valid.area

/-- Is `(x', y')` one of the `width` pixels from `(x, y)` on, counted row by row? -/
def inRun (r : Region) (x y width x' y' : Coord) : Bool :=
  decide (r.slot x y ≤ r.slot x' y') && decide (r.slot x' y' < r.slot x y + width.val.toNat)

theorem inRun_iff : r.inRun x y width x' y' = true ↔
    r.slot x y ≤ r.slot x' y' ∧ r.slot x' y' < r.slot x y + width.val.toNat := by
  rw [inRun, Bool.and_eq_true, decide_eq_true_eq, decide_eq_true_eq]

/-- No pixel of a row comes before its beginning. -/
theorem row_le_slot (r : Region) (x y : Coord) :
    (y.val - r.valid.top.val).toNat * r.valid.width.val.toNat ≤ r.slot x y :=
  Nat.le_add_right _ _

/-- Pixels above a row come before all pixels of this row. -/
theorem slot_lt_of_above (h : r.valid.contains x' y' = true) (hlt : y'.val < y.val) :
    r.slot x' y' < (y.val - r.valid.top.val).toNat * r.valid.width.val.toNat := by
  have hcolumn := toNat_column_lt h
  rw [Rect.contains_iff] at h
  calc r.slot x' y'
      < ((y'.val - r.valid.top.val).toNat + 1) * r.valid.width.val.toNat := by
        rw [slot, Nat.succ_mul]
        omega
    _ ≤ _ := Nat.mul_le_mul_right _ (by omega)

/-- **A run that ends in its row has no pixel of another one.** -/
theorem eq_row_of_inRun (h : r.valid.contains x y = true)
    (hend : x.val + width.val ≤ r.valid.right.val) (hc : r.valid.contains x' y' = true)
    (hin : r.inRun x y width x' y' = true) : y' = y := by
  rw [inRun_iff] at hin
  have hcolumn : (x.val - r.valid.left.val).toNat + width.val.toNat ≤
      r.valid.width.val.toNat := by
    have hlt := toNat_column_lt h
    have hright := Coord.val_clamp (r.valid.left.val + r.valid.width.val)
    rw [Rect.right] at hend
    rw [Rect.contains_iff] at h
    have := r.valid.left.lower
    omega
  refine Coord.ext (Int.le_antisymm (Int.not_lt.1 fun hbelow => ?_) (Int.not_lt.1 fun habove => ?_))
  · -- the row below begins where the row of the run ends
    have hnext : ((y.val - r.valid.top.val).toNat + 1) * r.valid.width.val.toNat ≤
        (y'.val - r.valid.top.val).toNat * r.valid.width.val.toNat :=
      Nat.mul_le_mul_right _ (by rw [Rect.contains_iff] at h; omega)
    rw [Nat.succ_mul] at hnext
    rw [slot, slot] at hin
    omega
  · have hbefore := slot_lt_of_above hc habove
    have hstart := row_le_slot r x y
    omega

/-- The pixel `i` places after `(x, y)` is in the same row, or the row has ended before. -/
theorem IsExact.exists_pixel_of_run (h : r.IsExact) (hrun : r.HasRun x y width) {i : Nat}
    (hi : i < width.val.toNat) :
    ∃ x' y', r.valid.contains x' y' = true ∧ r.slot x' y' = r.slot x y + i ∧
      (x'.val = x.val + i ∧ y' = y ∨ r.valid.right.val ≤ x.val + i ∧ y.val < y'.val) := by
  have hstart := hrun.start
  obtain ⟨x', y', hc, hslot⟩ :=
    h.isAddressed.exists_slot (r.slot x y + i) (by have := hrun.enough; omega)
  refine ⟨x', y', hc, hslot, ?_⟩
  have hrow : ¬ y'.val < y.val := fun habove => by
    have hbefore := slot_lt_of_above hc habove
    have hle := row_le_slot r x y
    omega
  have hleft := (Rect.contains_iff.1 hstart).1
  have hleft' := Rect.contains_iff.1 hc
  rcases Int.lt_or_eq_of_le (Int.not_lt.1 hrow) with hbelow | hsame
  · refine .inr ⟨Int.not_lt.1 fun hlt => ?_, hbelow⟩
    obtain ⟨upTo, hupTo⟩ : ∃ upTo : Coord, upTo.val = i + 1 :=
      ⟨_, Coord.val_clamp_of_mem (by omega) (by have := width.upper; omega)⟩
    -- the run up to this pixel would still end in the row
    have hin : r.inRun x y upTo x' y' = true := inRun_iff.2 (by omega)
    have hsame := eq_row_of_inRun hstart (by omega) hc hin
    rw [hsame] at hbelow
    exact Int.lt_irrefl _ hbelow
  · refine .inl ⟨?_, (Coord.ext hsame).symm⟩
    rw [slot, slot, hsame] at hslot
    omega

/-- **A run that ends past its row has a pixel of a row below.** -/
theorem IsExact.exists_below_of_lt (h : r.IsExact) (hrun : r.HasRun x y width)
    (hend : r.valid.right.val < x.val + width.val) :
    ∃ x' y', r.valid.contains x' y' = true ∧ r.inRun x y width x' y' = true ∧ y.val < y'.val := by
  have hright := (Rect.contains_iff.1 hrun.start).2.1
  obtain ⟨x', y', hc, hslot, hplace⟩ :=
    h.exists_pixel_of_run hrun (i := (r.valid.right.val - x.val).toNat) (by omega)
  refine ⟨x', y', hc, inRun_iff.2 (by omega), ?_⟩
  rcases hplace with ⟨hx', -⟩ | ⟨-, hbelow⟩
  · have := (Rect.contains_iff.1 hc).2.1
    omega
  · exact hbelow

/-- The pixels of a run are those of its row just if it ends there. -/
theorem IsExact.run_in_row_iff (h : r.IsExact) (hrun : r.HasRun x y width) :
    x.val + width.val ≤ r.valid.right.val ↔
      ∀ x' y', r.valid.contains x' y' = true → r.inRun x y width x' y' = true → y' = y := by
  refine ⟨fun hend x' y' hc hin => eq_row_of_inRun hrun.start hend hc hin, fun hsame => ?_⟩
  refine Int.not_lt.1 fun hend => ?_
  obtain ⟨x', y', hc, hin, hbelow⟩ := h.exists_below_of_lt hrun hend
  rw [hsame x' y' hc hin] at hbelow
  exact Int.lt_irrefl _ hbelow

/-! ## The bytes of a run -/

/-- Byte `k` of item `i`, where `n` items of `size` bytes follow one another. -/
theorem item_add_lt {i n k size : Nat} (hi : i < n) (hk : k < size) :
    i * size + k < n * size := by
  have := Nat.mul_le_mul_right size hi
  rw [Nat.succ_mul] at this
  omega

/-- The place of a pixel, from the beginning of a run before it. -/
theorem slot_mul_eq_add (hle : r.slot x y ≤ r.slot x' y') (k : Nat) :
    r.slot x' y' * r.pixelSize + k =
      r.slot x y * r.pixelSize + ((r.slot x' y' - r.slot x y) * r.pixelSize + k) := by
  rw [← Nat.add_assoc, ← Nat.add_mul, Nat.add_sub_cancel' hle]

/-- A run for which there are enough pixels ends in the buffer. -/
theorem IsExact.run_le_size (h : r.IsExact) (hrun : r.HasRun x y width) :
    r.slot x y * r.pixelSize + width.val.toNat * r.pixelSize ≤ r.bytes.size := by
  rw [← Nat.add_mul, h.isAddressed.size]
  exact Nat.mul_le_mul_right _ hrun.enough

/-- Where a run lies, if there are enough pixels for it. -/
theorem IsExact.run_eq (h : r.IsExact) (hrun : r.HasRun x y width) :
    r.run x y width = .ok (r.slot x y * r.pixelSize, width.val.toNat * r.pixelSize) := by
  have hlength : width.val * (r.pixelSize : Int) = (width.val.toNat * r.pixelSize : Nat) := by
    rw [Int.natCast_mul, Int.toNat_of_nonneg hrun.nonneg]
  have hend := h.run_le_size hrun
  rw [run, h.isAddressed.offset x y hrun.start]
  show (if 0 ≤ width.val * (r.pixelSize : Int) ∧ _ then Except.ok (_, _) else _) = _
  rw [hlength, if_pos ⟨Int.natCast_nonneg _, by exact_mod_cast hend⟩, Int.toNat_natCast]

/-- If there are not, it is refused. -/
theorem IsExact.exists_run_eq_error (h : r.IsExact) (hsize : 0 < r.pixelSize)
    (hrun : ¬ r.HasRun x y width) : ∃ fault, r.run x y width = .error fault := by
  cases hc : r.valid.contains x y with
  | false => exact ⟨.pixelOutside x y r.valid, by rw [run, offset, hc]; rfl⟩
  | true =>
    refine ⟨.rowOutside, ?_⟩
    rw [run, h.isAddressed.offset x y hc]
    refine if_neg fun hends => hrun ?_
    obtain ⟨hnonneg, hend⟩ := hends
    have hwidth : 0 ≤ width.val := Int.nonneg_of_mul_nonneg_left hnonneg (by omega)
    rw [h.isAddressed.size, ← Int.toNat_of_nonneg hwidth, ← Int.natCast_mul, ← Int.natCast_add,
      Int.ofNat_le, ← Nat.add_mul] at hend
    exact ⟨hc, hwidth, Nat.le_of_mul_le_mul_right hend hsize⟩

/-- **A row that is read are the pixels of a run**, one after the other. -/
theorem IsExact.exists_row (h : r.IsExact) (hrun : r.HasRun x y width) :
    ∃ bytes, r.row x y width = .ok bytes ∧ bytes.size = width.val.toNat * r.pixelSize ∧
      ∀ x' y', r.inRun x y width x' y' = true → ∀ k, k < r.pixelSize →
        bytes[(r.slot x' y' - r.slot x y) * r.pixelSize + k]! =
          r.bytes[r.slot x' y' * r.pixelSize + k]! := by
  have hend := h.run_le_size hrun
  refine ⟨_, by rw [row, h.run_eq hrun]; rfl, ?_, fun x' y' hin k hk => ?_⟩
  · rw [ByteArray.size_extract]
    omega
  · rw [inRun_iff] at hin
    rw [slot_mul_eq_add hin.1]
    exact Bytes.getElem!_extract hend (item_add_lt (by omega) hk)

/-- **Writing a row writes the pixels of a run**, one after the other, and no other pixel. -/
theorem IsExact.exists_setRow (h : r.IsExact) (hrun : r.HasRun x y width) (f : Nat → UInt8) :
    ∃ s, r.setRow x y width f = .ok s ∧ r.Rewritten s (r.inRun x y width)
      fun x' y' k => f ((r.slot x' y' - r.slot x y) * r.pixelSize + k) := by
  have hend := h.run_le_size hrun
  have hset : r.setRow x y width f = .ok { r with
      bytes := Bytes.writeFrom f (r.slot x y * r.pixelSize) (width.val.toNat * r.pixelSize) 0
        r.bytes } := by
    rw [setRow, h.run_eq hrun]
    rfl
  refine ⟨_, hset, (eq_of_setRow hset).1, (eq_of_setRow hset).2, fun x' y' _ k hk => ?_⟩
  cases hin : r.inRun x y width x' y' with
  | true =>
    rw [inRun_iff] at hin
    rw [slot_mul_eq_add hin.1]
    exact Bytes.getElem!_writeFrom _ _ _ _ _ (by omega) (Nat.zero_le _)
      (by rw [Nat.zero_add]; exact item_add_lt (by omega) hk)
  | false =>
    rw [if_neg Bool.false_ne_true]
    refine Bytes.getElem!_writeFrom_of_ne _ _ _ _ _ fun b _ hb he => ?_
    -- a byte of the run at this place would make its pixel one of the run
    rw [← Bool.not_eq_true, inRun_iff] at hin
    rcases Nat.lt_or_ge (r.slot x' y') (r.slot x y) with hbefore | hle
    · have := item_add_lt hbefore hk
      omega
    · have hafter := Nat.mul_le_mul_right r.pixelSize
        (show r.slot x y + width.val.toNat ≤ r.slot x' y' by omega)
      rw [Nat.add_mul] at hafter
      omega

/-- **Rows are read and written pixel by pixel.**  For every region that comes out of a new one by
getting buffers, painting, writing rows and copying, whose pixels have at least one byte, and for
every start and every width:

* reading and writing both fail if the region does not have so many pixels from the start on,
  counted row by row;
* otherwise each pixel of the run is one of the region, the one after the other in the same row, or
  in a row below where this row has ended;
* what is read are the bytes of these pixels, and what is written are these pixels and no other;
* all of them are in the row of the start just if the width ends in this row. -/
theorem row_along_run (h : Reached info r) (hsize : 0 < r.pixelSize) (x y width : Coord) :
    (¬ r.HasRun x y width →
      (∃ fault, r.row x y width = .error fault) ∧
        ∀ f, ∃ fault, r.setRow x y width f = .error fault) ∧
    (r.HasRun x y width →
      (∀ i, i < width.val.toNat → ∃ x' y', r.valid.contains x' y' = true ∧
        r.slot x' y' = r.slot x y + i ∧
        (x'.val = x.val + i ∧ y' = y ∨ r.valid.right.val ≤ x.val + i ∧ y.val < y'.val)) ∧
      (∃ bytes, r.row x y width = .ok bytes ∧ bytes.size = width.val.toNat * r.pixelSize ∧
        ∀ x' y', r.inRun x y width x' y' = true → ∀ k, k < r.pixelSize →
          bytes[(r.slot x' y' - r.slot x y) * r.pixelSize + k]! =
            r.bytes[r.slot x' y' * r.pixelSize + k]!) ∧
      (∀ f, ∃ s, r.setRow x y width f = .ok s ∧ r.Rewritten s (r.inRun x y width)
        fun x' y' k => f ((r.slot x' y' - r.slot x y) * r.pixelSize + k)) ∧
      (x.val + width.val ≤ r.valid.right.val ↔
        ∀ x' y', r.valid.contains x' y' = true → r.inRun x y width x' y' = true → y' = y)) := by
  have hexact := h.isExact
  refine ⟨fun hrun => ?_, fun hrun => ⟨fun i hi => hexact.exists_pixel_of_run hrun hi,
    hexact.exists_row hrun, hexact.exists_setRow hrun, hexact.run_in_row_iff hrun⟩⟩
  obtain ⟨fault, hfault⟩ := hexact.exists_run_eq_error hsize hrun
  exact ⟨⟨fault, by rw [row, hfault]; rfl⟩, fun f => ⟨fault, by rw [setRow, hfault]; rfl⟩⟩

/-- A region has a buffer for two columns of an image.  Its second row is read and written as asked
for, and from the last pixel on there is no second one. -/
theorem row_along_run_narrow :
    ∃ r s bytes fault, (Region.empty ⟨3, 2, 1, .uchar⟩).buffer ⟨1, 0, 2, 2⟩ = .ok r ∧
      r.row 1 1 2 = .ok bytes ∧ bytes.size = 2 ∧ bytes[1]! = 0 ∧
      r.setRow 1 1 2 (fun k => 7 + k.toUInt8) = .ok s ∧
      s.bytes[1]! = 0 ∧ s.bytes[2]! = 7 ∧ s.bytes[3]! = 8 ∧ r.row 2 1 2 = .error fault := by
  have hreached := @Reached.buffer ⟨3, 2, 1, .uchar⟩ _ _ ⟨1, 0, 2, 2⟩ .new rfl
  obtain ⟨-, hread⟩ := row_along_run hreached Nat.zero_lt_one 1 1 2
  obtain ⟨-, ⟨bytes, hrow, hbytes, hbyte⟩, hwrite, -⟩ := hread ⟨rfl, by decide, by decide⟩
  obtain ⟨s, hs, hwritten⟩ := hwrite fun k => 7 + k.toUInt8
  obtain ⟨⟨fault, hfault⟩, -⟩ := (row_along_run hreached Nat.zero_lt_one 2 1 2).1
    fun hrun => absurd hrun.enough (by decide)
  exact ⟨_, s, bytes, fault, rfl, hrow, hbytes, hbyte 2 1 rfl 0 Nat.zero_lt_one, hs,
    hwritten.byte 2 0 rfl 0 Nat.zero_lt_one, hwritten.byte 1 1 rfl 0 Nat.zero_lt_one,
    hwritten.byte 2 1 rfl 0 Nat.zero_lt_one, hfault⟩

/-- In a region of two columns, two pixels from the second column on are asked for, where the row
has only one.  What is read is not all of row zero, and what is written goes into row one. -/
theorem setRow_of_next_row :
    ∃ r s, (Region.empty ⟨2, 2, 1, .uchar⟩).buffer ⟨0, 0, 2, 2⟩ = .ok r ∧
      r.valid = ⟨0, 0, 2, 2⟩ ∧ r.valid.contains 2 0 = false ∧
      r.row 1 0 2 = .ok ⟨#[0, 0]⟩ ∧ r.setRow 1 0 2 (fun _ => 7) = .ok s ∧
      r.pixel 0 1 = .ok ⟨#[0]⟩ ∧ s.pixel 0 1 = .ok ⟨#[7]⟩ :=
  ⟨_, _, rfl, rfl, rfl, rfl, rfl, rfl, rfl⟩

end Region

end TileCache
