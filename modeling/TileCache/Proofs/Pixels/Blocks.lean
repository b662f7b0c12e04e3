import TileCache.Proofs.Geometry.Cells
import TileCache.Pixels.Region

/-!
# What a region holds after it was written

Everything that writes into a region puts bytes into a block of rows (`Bytes.writeRows`).  Here
that is worked out place by place, and then carried over to pixels: `Region.pixel` is the only
view of a region that anything after this file looks through.

* `getElem!_writeRows`, `getElem!_writeRows_of_ne` — the bytes of a block, and all others.
* `slot_injective` — in a buffer whose rows have `columns` pixels of `width` bytes without a gap,
  a byte belongs to one row, one column and one place in the pixel.
* `pixel_paint`, `pixel_copyFrom` — after painting or copying, a pixel of the rectangle is as
  asked for and every other pixel is as it was.

Nothing is assumed of the size of a buffer.  A region may be too short for its rectangle, and then
both sides of these equations may be the same fault.
-/

set_option autoImplicit false

namespace TileCache

/-! ## Blocks of bytes -/

namespace Bytes

theorem getElem!_writeFrom_of_ne (f : Nat → UInt8) (start : Nat) {i : Nat} :
    ∀ (n k : Nat) (bytes : ByteArray), (∀ b, k ≤ b → b < k + n → start + b ≠ i) →
      (writeFrom f start n k bytes)[i]! = bytes[i]!
  | 0, _, _, _ => rfl
  | n + 1, k, bytes, h => by
    rw [writeFrom, getElem!_writeFrom_of_ne f start n (k + 1) _
      (fun b hb hb' => h b (by omega) (by omega))]
    exact ByteArray.getElem!_set!_ne _ _ _ _ (h k (by omega) (by omega))

theorem getElem!_writeFrom (f : Nat → UInt8) (start : Nat) {b : Nat} :
    ∀ (n k : Nat) (bytes : ByteArray), start + k + n ≤ bytes.size → k ≤ b → b < k + n →
      (writeFrom f start n k bytes)[start + b]! = f b
  | 0, k, _, _, hb, hb' => by omega
  | n + 1, k, bytes, hs, hb, hb' => by
    rw [writeFrom]
    rcases Nat.eq_or_lt_of_le hb with rfl | hlt
    · rw [getElem!_writeFrom_of_ne f start n (k + 1) _ (fun b' h₁ h₂ => by omega)]
      exact ByteArray.getElem!_set!_self _ _ _ (by omega)
    · exact getElem!_writeFrom f start n (k + 1) _ (by rw [ByteArray.size_set!]; omega) hlt
        (by omega)

theorem getElem!_writeRows_of_ne (f : Nat → Nat → UInt8) (start stride length : Nat) {i : Nat} :
    ∀ (n j : Nat) (bytes : ByteArray),
      (∀ a b, j ≤ a → a < j + n → b < length → start + a * stride + b ≠ i) →
      (writeRows f start stride length n j bytes)[i]! = bytes[i]!
  | 0, _, _, _ => rfl
  | n + 1, j, bytes, h => by
    rw [writeRows, getElem!_writeRows_of_ne f start stride length n (j + 1) _
      (fun a b ha ha' hb => h a b (by omega) (by omega) hb)]
    exact getElem!_writeFrom_of_ne _ _ _ _ _
      (fun b _ hb' => h j b (Nat.le_refl j) (by omega) (by omega))

/-- Byte `b` of row `a` of a block.  Rows do not overlap and all of them lie in the buffer. -/
theorem getElem!_writeRows (f : Nat → Nat → UInt8) (start stride length : Nat)
    (hl : length ≤ stride) {a b : Nat} (hb : b < length) :
    ∀ (n j : Nat) (bytes : ByteArray),
      (∀ r, j ≤ r → r < j + n → start + r * stride + length ≤ bytes.size) → j ≤ a → a < j + n →
      (writeRows f start stride length n j bytes)[start + a * stride + b]! = f a b
  | 0, j, _, _, ha, ha' => by omega
  | n + 1, j, bytes, hs, ha, ha' => by
    rw [writeRows]
    rcases Nat.eq_or_lt_of_le ha with rfl | hlt
    · rw [getElem!_writeRows_of_ne]
      · exact getElem!_writeFrom _ _ _ _ _ (hs j (Nat.le_refl j) (by omega)) (Nat.zero_le b)
          (by omega)
      · intro r c hr _ _
        have : (j + 1) * stride ≤ r * stride := Nat.mul_le_mul_right stride hr
        rw [Nat.succ_mul] at this
        omega
    · refine getElem!_writeRows f start stride length hl hb n (j + 1) _ ?_ hlt (by omega)
      intro r hr hr'
      rw [size_writeFrom]
      exact hs r (by omega) (by omega)

/-- Core has two ways to read a byte that may not be there. -/
theorem get!_eq_getElem! (bytes : ByteArray) (i : Nat) : bytes.get! i = bytes[i]! := by
  show bytes.data[i]! = _
  by_cases h : i < bytes.size
  · rw [getElem!_pos bytes i h, getElem!_pos bytes.data i h]
    rfl
  · rw [getElem!_neg bytes i h, getElem!_neg bytes.data i h]

/-- A buffer of `n` bytes that are all `value`. -/
def replicate (n : Nat) (value : UInt8) : ByteArray := ⟨Array.replicate n value⟩

@[simp]
theorem size_replicate (n : Nat) (value : UInt8) : (replicate n value).size = n :=
  Array.size_replicate

theorem getElem!_replicate {n i : Nat} (value : UInt8) (h : i < n) :
    (replicate n value)[i]! = value := by
  rw [getElem!_pos _ i (by rwa [size_replicate])]
  exact Array.getElem_replicate _

theorem zeros_eq_replicate (n : Nat) : zeros n = replicate n 0 := by
  have h : ∀ c m : Nat, m.fold (fun _ _ bytes => bytes.push 0) (ByteArray.emptyWithCapacity c)
      = replicate m 0 := by
    intro c m
    induction m with
    | zero => rfl
    | succ m ih =>
      rw [Nat.fold_succ, ih, replicate, replicate, Array.replicate_succ]
      rfl
  exact h n n

theorem getElem!_zeros {n i : Nat} (h : i < n) : (zeros n)[i]! = 0 := by
  rw [zeros_eq_replicate, getElem!_replicate 0 h]

theorem extract_congr {a b : ByteArray} {i j n : Nat} (hi : i + n ≤ a.size) (hj : j + n ≤ b.size)
    (h : ∀ k, k < n → a[i + k]! = b[j + k]!) : a.extract i (i + n) = b.extract j (j + n) := by
  rw [ByteArray.extract_eq_extract_iff_getElem hi hj]
  intro k hk
  have := h k hk
  rwa [getElem!_pos a (i + k) (by omega), getElem!_pos b (j + k) (by omega)] at this

theorem extract_eq {a b : ByteArray} {i n : Nat} (hi : i + n ≤ a.size) (hb : b.size = n)
    (h : ∀ k, k < n → a[i + k]! = b[k]!) : a.extract i (i + n) = b := by
  have hall : b.extract 0 (0 + n) = b := by rw [Nat.zero_add, ← hb, ByteArray.extract_zero_size]
  rw [← hall]
  refine extract_congr hi (by omega) fun k hk => ?_
  rw [h k hk, Nat.zero_add]

theorem extract_eq_replicate {a : ByteArray} {i n : Nat} {value : UInt8} (hi : i + n ≤ a.size)
    (h : ∀ k, k < n → a[i + k]! = value) : a.extract i (i + n) = replicate n value :=
  extract_eq hi (size_replicate n value) fun k hk => by rw [h k hk, getElem!_replicate value hk]

end Bytes

/-- In rows of `columns` pixels of `width` bytes each, a byte has one place. -/
theorem slot_injective {columns width : Nat} {j k b j' k' b' : Nat}
    (hk : k < columns) (hk' : k' < columns) (hb : b < width) (hb' : b' < width)
    (h : j * (columns * width) + k * width + b = j' * (columns * width) + k' * width + b') :
    j = j' ∧ k = k' ∧ b = b' := by
  have hpos : 0 < width := by omega
  have flat : ∀ u v : Nat, u * (columns * width) + v * width = (u * columns + v) * width := by
    intro u v
    rw [Nat.add_mul, Nat.mul_assoc]
  rw [flat, flat] at h
  have hbb : b = b' := by
    have := congrArg (· % width) h
    simpa [Nat.mul_add_mod_of_lt, Nat.mod_eq_of_lt, hb, hb', Nat.add_mod, Nat.mul_mod] using this
  subst hbb
  have hflat : j * columns + k = j' * columns + k' :=
    Nat.eq_of_mul_eq_mul_right hpos (Nat.add_right_cancel h)
  have hkk : k = k' := by
    have := congrArg (· % columns) hflat
    simpa [Nat.add_mod, Nat.mul_mod, Nat.mod_eq_of_lt, hk, hk'] using this
  subst hkk
  exact ⟨Nat.eq_of_mul_eq_mul_right (by omega) (Nat.add_right_cancel hflat), rfl, rfl⟩

/-! ## Rectangles inside others -/

namespace Rect

/-- Does `a` lie in `r`, with far edges that are not cut short? -/
structure Inside (a r : Rect) : Prop where
  left : r.left.val ≤ a.left.val
  top : r.top.val ≤ a.top.val
  right : a.left.val + a.width.val ≤ r.right.val
  bottom : a.top.val + a.height.val ≤ r.bottom.val

theorem Inside.contains_iff {a r : Rect} (h : a.Inside r) {x y : Coord} :
    a.contains x y = true ↔
      a.left.val ≤ x.val ∧ x.val < a.left.val + a.width.val ∧
        a.top.val ≤ y.val ∧ y.val < a.top.val + a.height.val := by
  have hr := h.right
  have hb := h.bottom
  have := r.right.upper
  have := r.bottom.upper
  have := a.left.lower
  have := a.top.lower
  rw [Rect.contains_iff]
  simp only [Rect.right, Rect.bottom, Coord.val_clamp]
  omega

theorem Inside.trans {a b r : Rect} (hab : a.Inside b) (hbr : b.Inside r) : a.Inside r := by
  have hr : b.right.val ≤ r.right.val := by
    have := hbr.right
    have := r.right.upper
    have := r.right.lower
    rw [show b.right.val = _ from Coord.val_clamp _]
    omega
  have hb : b.bottom.val ≤ r.bottom.val := by
    have := hbr.bottom
    have := r.bottom.upper
    have := r.bottom.lower
    rw [show b.bottom.val = _ from Coord.val_clamp _]
    omega
  exact ⟨Int.le_trans hbr.left hab.left, Int.le_trans hbr.top hab.top,
    Int.le_trans hab.right hr, Int.le_trans hab.bottom hb⟩

theorem Inside.isEmpty {a r : Rect} (h : a.Inside r) (ha : a.isEmpty = false) :
    r.isEmpty = false := by
  rw [← Bool.not_eq_true, isEmpty_iff] at ha ⊢
  obtain ⟨hl, ht, hr, hb⟩ := h
  have := r.left.lower
  have := r.top.lower
  simp only [Rect.right, Rect.bottom, Coord.val_clamp] at hr hb
  omega

theorem intersect_inside_right {a b : Rect} (h : (a.intersect b).isEmpty = false) :
    (a.intersect b).Inside b := by
  rw [← Bool.not_eq_true, isEmpty_iff, val_width_intersect, val_height_intersect] at h
  refine ⟨?_, ?_, ?_, ?_⟩
  · rw [val_left_intersect]
    omega
  · rw [val_top_intersect]
    omega
  · rw [val_left_intersect, val_width_intersect]
    omega
  · rw [val_top_intersect, val_height_intersect]
    omega

theorem intersect_inside_left {a b : Rect} (h : (a.intersect b).isEmpty = false) :
    (a.intersect b).Inside a := by
  rw [intersect_comm] at h ⊢
  exact intersect_inside_right h

end Rect

/-! ## Pixels -/

namespace Region

theorem run_one {r : Region} {x y : Coord} (h : r.valid.contains x y = true) :
    r.run x y 1 =
      if r.place x y + r.pixelSize ≤ r.bytes.size then .ok (r.place x y, r.pixelSize)
      else .error .rowOutside := by
  have h1 : (1 : Coord).val * (r.pixelSize : Int) = r.pixelSize := Int.one_mul _
  rw [run, offset, if_pos h]
  show (if 0 ≤ (1 : Coord).val * (r.pixelSize : Int) ∧ _ then Except.ok (_, _) else _) = _
  rw [h1]
  by_cases hs : r.place x y + r.pixelSize ≤ r.bytes.size
  · rw [if_pos hs, if_pos (by omega), Int.toNat_natCast]
  · rw [if_neg hs, if_neg (by omega)]

theorem pixel_eq {r : Region} {x y : Coord} (h : r.valid.contains x y = true) :
    r.pixel x y =
      if r.place x y + r.pixelSize ≤ r.bytes.size then
        .ok (r.bytes.extract (r.place x y) (r.place x y + r.pixelSize))
      else .error .rowOutside := by
  rw [pixel, row, run_one h]
  split <;> rfl

/-- Pixels whose bytes agree are equal. -/
theorem pixel_congr {r s : Region} {x y : Coord} (hr : r.valid.contains x y = true)
    (hv : s.valid = r.valid) (hp : s.pixelSize = r.pixelSize)
    (hs : s.bytes.size = r.bytes.size)
    (hb : ∀ k, k < r.pixelSize → s.bytes[r.place x y + k]! = r.bytes[r.place x y + k]!) :
    s.pixel x y = r.pixel x y := by
  have hplace : s.place x y = r.place x y := by rw [place, place, stride, stride, hv, hp]
  rw [pixel_eq hr, pixel_eq (hv ▸ hr), hp, hs, hplace]
  split
  · rename_i hin
    rw [Bytes.extract_congr (hs ▸ hin) hin hb]
  · rfl

/-! ### Blocks of pixels -/

/-- The column of a pixel, counted from the first one of the region. -/
theorem toNat_column_lt {r : Region} {x y : Coord} (h : r.valid.contains x y = true) :
    (x.val - r.valid.left.val).toNat < r.valid.width.val.toNat := by
  rw [Rect.contains_iff] at h
  simp only [Rect.right, Coord.val_clamp] at h
  have := r.valid.left.lower
  have := x.lower
  omega

/-- The place of a pixel of a block, counted from the first pixel of the block. -/
theorem place_eq_add {r : Region} {area : Rect} (hin : area.Inside r.valid) {x y : Coord}
    (hc : area.contains x y = true) :
    r.place x y = r.place area.left area.top + (y.val - area.top.val).toNat * r.stride
      + (x.val - area.left.val).toNat * r.pixelSize := by
  rw [hin.contains_iff] at hc
  have hl := hin.left
  have ht := hin.top
  have hy : (y.val - r.valid.top.val).toNat
      = (area.top.val - r.valid.top.val).toNat + (y.val - area.top.val).toNat := by omega
  have hx : (x.val - r.valid.left.val).toNat
      = (area.left.val - r.valid.left.val).toNat + (x.val - area.left.val).toNat := by omega
  rw [place, place, hy, hx, Nat.add_mul, Nat.add_mul]
  omega

/-- A buffer that holds a block holds its rows. -/
theorem row_le_of_holds {r : Region} {area : Rect} (hh : r.holds area = true) {j : Nat}
    (hj : j < area.height.val.toNat) :
    r.place area.left area.top + j * r.stride + area.width.val.toNat * r.pixelSize
      ≤ r.bytes.size := by
  rw [holds, decide_eq_true_eq] at hh
  have := Nat.mul_le_mul_right r.stride (Nat.le_sub_one_of_lt hj)
  omega

/-- A buffer that holds a block holds its pixels. -/
theorem place_add_le_of_holds {r : Region} {area : Rect} (hin : area.Inside r.valid)
    (hh : r.holds area = true) {x y : Coord} (hc : area.contains x y = true) :
    r.place x y + r.pixelSize ≤ r.bytes.size := by
  rw [place_eq_add hin hc]
  rw [hin.contains_iff] at hc
  have hrow := row_le_of_holds hh (show (y.val - area.top.val).toNat < _ by omega)
  have hcol : (x.val - area.left.val).toNat + 1 ≤ area.width.val.toNat := by omega
  have := Nat.mul_le_mul_right r.pixelSize hcol
  rw [Nat.succ_mul] at this
  omega

/-- The bytes of a pixel of a block that was written. -/
theorem getElem!_setBlock {r : Region} {area : Rect} (f : Nat → Nat → UInt8)
    (hin : area.Inside r.valid) (hh : r.holds area = true) {x y : Coord}
    (hc : area.contains x y = true) {k : Nat} (hk : k < r.pixelSize) :
    (r.setBlock area f).bytes[r.place x y + k]!
      = f (y.val - area.top.val).toNat ((x.val - area.left.val).toNat * r.pixelSize + k) := by
  have hplace := place_eq_add hin hc
  rw [hin.contains_iff] at hc
  have hcol : (x.val - area.left.val).toNat + 1 ≤ area.width.val.toNat := by omega
  have hb := Nat.mul_le_mul_right r.pixelSize hcol
  rw [Nat.succ_mul] at hb
  have hwidth : area.width.val.toNat ≤ r.valid.width.val.toNat := by
    have hl := hin.left
    have hr := hin.right
    rw [show r.valid.right.val = _ from Coord.val_clamp _] at hr
    have := area.left.lower
    omega
  rw [hplace, Nat.add_assoc, setBlock]
  refine Bytes.getElem!_writeRows f _ r.stride _ (Nat.mul_le_mul_right _ hwidth) (by omega) _ 0 _
    (fun j _ hj => row_le_of_holds hh (by omega)) (Nat.zero_le _) (by omega)

/-- A block that was written leaves all other pixels alone. -/
theorem pixel_setBlock_of_not_contains {r : Region} {area : Rect} (f : Nat → Nat → UInt8)
    (hin : area.Inside r.valid) {x y : Coord} (hr : r.valid.contains x y = true)
    (hn : area.contains x y = false) : (r.setBlock area f).pixel x y = r.pixel x y := by
  refine pixel_congr hr rfl rfl (size_bytes_setBlock r area f) fun k hk => ?_
  rw [setBlock]
  refine Bytes.getElem!_writeRows_of_ne _ _ _ _ _ _ _ fun j b _ hj hb he => ?_
  have hl := hin.left
  have ht := hin.top
  have hright := hin.right
  have hpos : 0 < r.pixelSize := by omega
  have hdx := toNat_column_lt hr
  -- byte `b` of the row belongs to column `b / r.pixelSize`
  obtain ⟨c, hcdef⟩ : ∃ c, c = b / r.pixelSize := ⟨_, rfl⟩
  have hcol : c < area.width.val.toNat := by
    rw [Nat.mul_comm] at hb
    exact hcdef ▸ Nat.div_lt_of_lt_mul hb
  have hbyte : b % r.pixelSize + c * r.pixelSize = b := hcdef ▸ Nat.mod_add_div' b r.pixelSize
  have hcol' : (area.left.val - r.valid.left.val).toNat + c < r.valid.width.val.toNat := by
    rw [show r.valid.right.val = _ from Coord.val_clamp _] at hright
    have := area.left.lower
    omega
  have hflat : ((area.top.val - r.valid.top.val).toNat + j) * r.stride
      + ((area.left.val - r.valid.left.val).toNat + c) * r.pixelSize + b % r.pixelSize
      = (y.val - r.valid.top.val).toNat * r.stride
      + (x.val - r.valid.left.val).toNat * r.pixelSize + k := by
    rw [Nat.add_mul, Nat.add_mul]
    rw [place, place] at he
    omega
  obtain ⟨hrow, hcolumn, -⟩ := slot_injective hcol' hdx (Nat.mod_lt b hpos) hk hflat
  have hc : area.contains x y = true := by
    rw [Rect.contains_iff] at hr
    rw [hin.contains_iff]
    omega
  rw [hn] at hc
  exact absurd hc Bool.false_ne_true

/-! ### Painting and copying -/

/-- What painting comes to: nothing, where nothing is held, or else a block. -/
theorem paint_cases {r s : Region} {rect : Rect} {value : UInt8}
    (h : r.paint rect value = .ok s) :
    ((rect.intersect r.valid).isEmpty = true ∧ s = r) ∨
      ((rect.intersect r.valid).isEmpty = false ∧ r.holds (rect.intersect r.valid) = true ∧
        s = r.setBlock (rect.intersect r.valid) fun _ _ => value) := by
  simp only [paint] at h
  split at h
  · rename_i he
    exact .inl ⟨he, (Except.ok.inj h).symm⟩
  · rename_i he
    split at h
    · rename_i hh
      exact .inr ⟨by simpa using he, hh, (Except.ok.inj h).symm⟩
    · cases h

/-- What copying comes to: nothing, where one of both holds nothing, or else a block. -/
theorem copyFrom_cases {r s source : Region} {rect : Rect} (h : r.copyFrom source rect = .ok s) :
    (((rect.intersect r.valid).intersect source.valid).isEmpty = true ∧ s = r) ∨
      ∃ area, area = (rect.intersect r.valid).intersect source.valid ∧ area.isEmpty = false ∧
        r.pixelSize = source.pixelSize ∧ r.holds area = true ∧ source.holds area = true ∧
        s = r.setBlock area fun j k => source.bytes.get!
          (source.place area.left area.top + j * source.stride + k) := by
  simp only [copyFrom] at h
  split at h
  · rename_i he
    exact .inl ⟨he, (Except.ok.inj h).symm⟩
  · rename_i he
    split at h
    · cases h
    · rename_i hp
      split at h
      · rename_i hh
        rw [Bool.and_eq_true] at hh
        exact .inr ⟨_, rfl, by simpa using he, by simpa using hp, hh.1, hh.2,
          (Except.ok.inj h).symm⟩
      · cases h

/-- Painting changes nothing but bytes. -/
theorem eq_of_paint {r s : Region} {rect : Rect} {value : UInt8} (h : r.paint rect value = .ok s) :
    s = { r with bytes := s.bytes } := by
  rcases paint_cases h with ⟨-, rfl⟩ | ⟨-, -, rfl⟩ <;> rfl

/-- Copying changes nothing but bytes. -/
theorem eq_of_copyFrom {r s source : Region} {rect : Rect} (h : r.copyFrom source rect = .ok s) :
    s = { r with bytes := s.bytes } := by
  rcases copyFrom_cases h with ⟨-, rfl⟩ | ⟨-, -, -, -, -, -, rfl⟩ <;> rfl

theorem size_bytes_paint {r s : Region} {rect : Rect} {value : UInt8}
    (h : r.paint rect value = .ok s) : s.bytes.size = r.bytes.size := by
  rcases paint_cases h with ⟨-, rfl⟩ | ⟨-, -, rfl⟩
  · rfl
  · exact size_bytes_setBlock _ _ _

theorem size_bytes_copyFrom {r s source : Region} {rect : Rect}
    (h : r.copyFrom source rect = .ok s) : s.bytes.size = r.bytes.size := by
  rcases copyFrom_cases h with ⟨-, rfl⟩ | ⟨-, -, -, -, -, -, rfl⟩
  · rfl
  · exact size_bytes_setBlock _ _ _

/-- **Painted pixels have the value, all others are as they were.** -/
theorem pixel_paint {r s : Region} {rect : Rect} {value : UInt8} (h : r.paint rect value = .ok s)
    {x y : Coord} (hr : r.valid.contains x y = true) :
    s.pixel x y =
      if rect.contains x y = true then .ok (Bytes.replicate r.pixelSize value)
      else r.pixel x y := by
  have hc : (rect.intersect r.valid).contains x y = rect.contains x y := by
    rw [Rect.contains_intersect, hr, Bool.and_true]
  rcases paint_cases h with ⟨he, rfl⟩ | ⟨he, hh, rfl⟩
  · split
    · rename_i hxy
      rw [Rect.isEmpty_of_contains (hc.trans hxy)] at he
      cases he
    · rfl
  · have hin := Rect.intersect_inside_right he
    split
    · rename_i hxy
      have harea := hc.trans hxy
      have hle := place_add_le_of_holds hin hh harea
      rw [pixel_eq (show (r.setBlock _ _).valid.contains x y = true from hr), if_pos]
      · refine congrArg Except.ok (Bytes.extract_eq_replicate ?_ ?_)
        · rw [size_bytes_setBlock]; exact hle
        · exact fun k hk => getElem!_setBlock _ hin hh harea hk
      · rw [size_bytes_setBlock]; exact hle
    · rename_i hxy
      exact pixel_setBlock_of_not_contains _ hin hr (hc.trans (by simpa using hxy))

/-- **Copied pixels are those of the source, all others are as they were.** -/
theorem pixel_copyFrom {r s source : Region} {rect : Rect} (h : r.copyFrom source rect = .ok s)
    {x y : Coord} (hr : r.valid.contains x y = true) :
    s.pixel x y =
      if rect.contains x y = true ∧ source.valid.contains x y = true then source.pixel x y
      else r.pixel x y := by
  have hc : ((rect.intersect r.valid).intersect source.valid).contains x y
      = (rect.contains x y && source.valid.contains x y) := by
    rw [Rect.contains_intersect, Rect.contains_intersect, hr, Bool.and_true]
  rcases copyFrom_cases h with ⟨he, rfl⟩ | ⟨area, harea, he, hp, hh, hh', rfl⟩
  · split
    · rename_i hxy
      rw [Rect.isEmpty_of_contains (hc.trans (by simpa using hxy))] at he
      cases he
    · rfl
  · rw [← harea] at hc
    have hsrc : area.Inside source.valid := harea ▸ Rect.intersect_inside_right (harea ▸ he)
    have hl : area.Inside (rect.intersect r.valid) :=
      harea ▸ Rect.intersect_inside_left (harea ▸ he)
    have hin : area.Inside r.valid := hl.trans (Rect.intersect_inside_right (hl.isEmpty he))
    split
    · rename_i hxy
      have hxy' := hc.trans (Bool.and_eq_true_iff.2 hxy)
      have hle := place_add_le_of_holds hin hh hxy'
      have hle' := place_add_le_of_holds hsrc hh' hxy'
      rw [pixel_eq (show (r.setBlock _ _).valid.contains x y = true from hr), pixel_eq hxy.2,
        if_pos hle', if_pos (by rw [size_bytes_setBlock]; exact hle)]
      refine congrArg Except.ok ?_
      rw [← hp]
      refine Bytes.extract_congr (by rw [size_bytes_setBlock]; exact hle) (hp ▸ hle') ?_
      intro k hk
      rw [show (r.setBlock area _).place x y = r.place x y from rfl,
        getElem!_setBlock _ hin hh hxy' hk, place_eq_add hsrc hxy', hp, ← Nat.add_assoc,
        Bytes.get!_eq_getElem!]
    · rename_i hxy
      exact pixel_setBlock_of_not_contains _ hin hr (hc.trans (by simpa using hxy))

/-- Pixels that were copied are not past the end of a buffer. -/
theorem exists_pixel_of_copyFrom {r s source : Region} {rect : Rect}
    (h : r.copyFrom source rect = .ok s) {x y : Coord} (hr : r.valid.contains x y = true)
    (hrect : rect.contains x y = true) (hsource : source.valid.contains x y = true) :
    ∃ bytes, source.pixel x y = .ok bytes := by
  have hc : ((rect.intersect r.valid).intersect source.valid).contains x y = true := by
    rw [Rect.contains_intersect, Rect.contains_intersect, hr, hrect, hsource]
    rfl
  rcases copyFrom_cases h with ⟨he, -⟩ | ⟨area, rfl, he, -, -, hh, -⟩
  · rw [Rect.isEmpty_of_contains hc] at he
    cases he
  · have hle := place_add_le_of_holds (Rect.intersect_inside_right he) hh hc
    rw [pixel_eq hsource, if_pos hle]
    exact ⟨_, rfl⟩

end Region

end TileCache
