import TileCache.Proofs.Pixels.Whole

/-!
# Where pixels are, and what writing does to them

`Region.Reached info` are the regions that come out of a new one for images like `info`, by getting
buffers, painting, writing rows and copying, in any order.  Such a region is whole, or it has never
had a buffer and has no pixel at all (`Reached.isExact`).

For these regions three things are worked out here.

* `IsExact.isAddressed`: pixels are numbered row by row, each number below their count is that of
  one pixel, and the bytes of pixel `n` are those from `n * pixelSize` on.  So they fill the buffer,
  without a gap and without an overlap.
* `IsExact.exists_painted`: painting never fails, whatever the rectangle.  The pixels of the
  rectangle have the value, byte by byte, and all other bytes are as they were.
* `IsExact.exists_copied`: so it is with copying, from every other such region with pixels of the
  same size.

Rectangles may be anything here: empty, reversed, or cut short at the end of the plane.
-/

set_option autoImplicit false

namespace TileCache

namespace Region

variable {info : ImageInfo} {r s source : Region} {rect : Rect} {value : UInt8} {x y : Coord}

/-! ## Regions in use -/

/-- The regions that come out of a new one for images like `info`.  What is written into a row may
be anything, and so may what is copied. -/
inductive Reached (info : ImageInfo) : Region → Prop
  | new : Reached info (.empty info)
  | buffer {r s : Region} {rect : Rect} (h : Reached info r) (hb : r.buffer rect = .ok s) :
      Reached info s
  | paint {r s : Region} {rect : Rect} {value : UInt8} (h : Reached info r)
      (hp : r.paint rect value = .ok s) : Reached info s
  | setRow {r s : Region} {x y width : Coord} {f : Nat → UInt8} (h : Reached info r)
      (hs : r.setRow x y width f = .ok s) : Reached info s
  | copyFrom {r s source : Region} {rect : Rect} (h : Reached info r)
      (hc : r.copyFrom source rect = .ok s) : Reached info s

/-- The region is whole, or it has never had a buffer. -/
def IsExact (r : Region) : Prop := r.IsWhole ∨ r.valid = ⟨0, 0, 0, 0⟩ ∧ r.bytes.size = 0

/-- Whether a region is exact does not hang on what its bytes are. -/
theorem IsExact.of_same (h : r.IsExact) (hsame : s = { r with bytes := s.bytes })
    (hsize : s.bytes.size = r.bytes.size) : s.IsExact := by
  rcases h with hwhole | ⟨hv, hz⟩
  · exact .inl (hwhole.congr (by rw [hsame]) (by rw [hsame]) (by rw [hsame]) hsize)
  · exact .inr ⟨by rw [hsame, hv], hsize.trans hz⟩

/-- Writing a row changes nothing but bytes. -/
theorem eq_of_setRow {width : Coord} {f : Nat → UInt8} (h : r.setRow x y width f = .ok s) :
    s = { r with bytes := s.bytes } ∧ s.bytes.size = r.bytes.size := by
  rw [setRow] at h
  cases hr : r.run x y width with
  | error fault =>
    rw [hr] at h
    cases h
  | ok place =>
    rw [hr] at h
    cases h
    exact ⟨rfl, Bytes.size_writeFrom _ _ _ _ _⟩

theorem Reached.isExact (h : Reached info r) : r.IsExact := by
  induction h with
  | new => exact .inr ⟨rfl, rfl⟩
  | buffer h hb ih => exact .inl (isWhole_of_buffer hb)
  | paint h hp ih => exact ih.of_same (eq_of_paint hp) (size_bytes_paint hp)
  | setRow h hs ih => exact ih.of_same (eq_of_setRow hs).1 (eq_of_setRow hs).2
  | copyFrom h hc ih => exact ih.of_same (eq_of_copyFrom hc) (size_bytes_copyFrom hc)

/-! ## Addresses -/

/-- Where the pixels of a region are.  They are numbered row by row, and the bytes of each come
after those of the one before. -/
structure IsAddressed (r : Region) : Prop where
  offset : ∀ x y, r.valid.contains x y = true → r.offset x y = .ok (r.slot x y * r.pixelSize)
  slot_lt : ∀ x y, r.valid.contains x y = true → r.slot x y < r.valid.area
  slot_injective : ∀ x y x' y', r.valid.contains x y = true → r.valid.contains x' y' = true →
    r.slot x y = r.slot x' y' → x = x' ∧ y = y'
  exists_slot : ∀ n, n < r.valid.area → ∃ x y, r.valid.contains x y = true ∧ r.slot x y = n
  size : r.bytes.size = r.valid.area * r.pixelSize
  exists_byte : ∀ i, i < r.bytes.size → ∃ x y k, r.valid.contains x y = true ∧
    k < r.pixelSize ∧ i = r.slot x y * r.pixelSize + k

/-- The row of a pixel, counted from the first one of the region. -/
theorem toNat_row_lt (h : r.valid.contains x y = true) :
    (y.val - r.valid.top.val).toNat < r.valid.height.val.toNat := by
  rw [Rect.contains_iff] at h
  simp only [Rect.bottom, Coord.val_clamp] at h
  have := r.valid.top.lower
  have := y.lower
  omega

theorem slot_lt_area (h : r.valid.contains x y = true) : r.slot x y < r.valid.area := by
  have hrow := toNat_row_lt h
  have hcolumn := toNat_column_lt h
  rw [Rect.area_of_nonempty (Rect.isEmpty_of_contains h), slot]
  calc (y.val - r.valid.top.val).toNat * r.valid.width.val.toNat
        + (x.val - r.valid.left.val).toNat
      < ((y.val - r.valid.top.val).toNat + 1) * r.valid.width.val.toNat := by
        rw [Nat.succ_mul]
        omega
    _ ≤ r.valid.height.val.toNat * r.valid.width.val.toNat := Nat.mul_le_mul_right _ hrow
    _ = r.valid.width.val.toNat * r.valid.height.val.toNat := Nat.mul_comm _ _

/-- Different pixels have different numbers. -/
theorem eq_of_slot_eq {x' y' : Coord} (h : r.valid.contains x y = true)
    (h' : r.valid.contains x' y' = true) (he : r.slot x y = r.slot x' y') : x = x' ∧ y = y' := by
  obtain ⟨hrow, hcolumn, -⟩ := slot_injective (toNat_column_lt h) (toNat_column_lt h')
    Nat.zero_lt_one Nat.zero_lt_one (by simpa [slot] using he)
  rw [Rect.contains_iff] at h h'
  exact ⟨Coord.ext (by omega), Coord.ext (by omega)⟩

/-- **The pixels fill the buffer, each with bytes of its own.** -/
theorem IsExact.isAddressed (h : r.IsExact) : r.IsAddressed where
  offset x y hc := by rw [Region.offset, if_pos hc, place_eq]
  slot_lt x y hc := slot_lt_area hc
  slot_injective x y x' y' hc hc' he := eq_of_slot_eq hc hc' he
  exists_slot n hn := Region.exists_slot (h.resolve_right fun hnone => by
    rw [hnone.1] at hn
    exact Nat.not_lt_zero n hn) hn
  size := by
    rcases h with hwhole | ⟨hv, hz⟩
    · exact hwhole.size
    · rw [hz, hv]
      exact (Nat.zero_mul _).symm
  exists_byte i hi := by
    have hwhole : r.IsWhole := h.resolve_right fun hnone => by
      rw [hnone.2] at hi
      exact Nat.not_lt_zero i hi
    obtain ⟨x, y, k, hc, hk, hplace⟩ := exists_place hwhole hi
    exact ⟨x, y, k, hc, hk, by rw [hplace, place_eq]⟩

/-! ## Writing -/

/-- `s` is `r` with the pixels of `chosen` replaced: byte `k` of such a pixel is as `f` tells.  All
others are as they were. -/
structure Rewritten (r s : Region) (chosen : Coord → Coord → Bool)
    (f : Coord → Coord → Nat → UInt8) : Prop where
  same : s = { r with bytes := s.bytes }
  size : s.bytes.size = r.bytes.size
  byte : ∀ x y, r.valid.contains x y = true → ∀ k, k < r.pixelSize →
    s.bytes[r.slot x y * r.pixelSize + k]! =
      if chosen x y = true then f x y k else r.bytes[r.slot x y * r.pixelSize + k]!

/-- Nothing is changed where nothing is chosen. -/
theorem rewritten_self {chosen : Coord → Coord → Bool} {f : Coord → Coord → Nat → UInt8}
    (h : ∀ x y, r.valid.contains x y = true → chosen x y = false) : r.Rewritten r chosen f where
  same := rfl
  size := rfl
  byte x y hc k _ := by rw [h x y hc, if_neg Bool.false_ne_true]

/-- The bytes of a pixel. -/
theorem getElem!_of_pixel {bytes : ByteArray} (hc : r.valid.contains x y = true)
    (hp : r.pixel x y = .ok bytes) {k : Nat} (hk : k < r.pixelSize) :
    r.bytes[r.slot x y * r.pixelSize + k]! = bytes[k]! := by
  rw [pixel_eq hc] at hp
  split at hp
  · rename_i hle
    cases hp
    rw [← place_eq, Bytes.getElem!_extract hle hk]
  · cases hp

/-- A whole region has all its pixels. -/
theorem IsWhole.exists_pixel (h : r.IsWhole) (hc : r.valid.contains x y = true) :
    ∃ bytes, r.pixel x y = .ok bytes := by
  have hin := h.inside.self
  rw [pixel_eq hc, if_pos (place_add_le_of_holds hin (holds_of_inside h hin h.nonempty) hc)]
  exact ⟨_, rfl⟩

/-- A region that was written is known byte by byte if it is known pixel by pixel. -/
theorem IsWhole.rewritten (h : r.IsWhole) {chosen : Coord → Coord → Bool}
    {f : Coord → Coord → Nat → UInt8} (hsame : s = { r with bytes := s.bytes })
    (hsize : s.bytes.size = r.bytes.size)
    (hchosen : ∀ x y, r.valid.contains x y = true → chosen x y = true →
      ∃ bytes, s.pixel x y = .ok bytes ∧ ∀ k, k < r.pixelSize → bytes[k]! = f x y k)
    (hothers : ∀ x y, r.valid.contains x y = true → chosen x y = false →
      s.pixel x y = r.pixel x y) : r.Rewritten s chosen f := by
  refine ⟨hsame, hsize, fun x y hc k hk => ?_⟩
  obtain ⟨written, rfl⟩ : ∃ written, s = { r with bytes := written } := ⟨_, hsame⟩
  cases hxy : chosen x y with
  | true =>
    obtain ⟨bytes, hb, hf⟩ := hchosen x y hc hxy
    exact (getElem!_of_pixel (r := { r with bytes := written }) hc hb hk).trans (hf k hk)
  | false =>
    obtain ⟨bytes, hb⟩ := h.exists_pixel hc
    have hs := (hothers x y hc hxy).trans hb
    rw [if_neg Bool.false_ne_true, getElem!_of_pixel hc hb hk]
    exact getElem!_of_pixel (r := { r with bytes := written }) hc hs hk

/-- The overlap with a rectangle without pixels has none. -/
theorem intersect_isEmpty {a b : Rect} (h : b.isEmpty = true) : (a.intersect b).isEmpty = true := by
  cases he : (a.intersect b).isEmpty with
  | true => rfl
  | false =>
    have hb := (Rect.intersect_inside_right he).isEmpty he
    rw [h] at hb
    cases hb

theorem IsExact.isWhole_of_overlap (h : r.IsExact)
    (hne : (rect.intersect r.valid).isEmpty = false) : r.IsWhole :=
  h.resolve_right fun hnone => by
    rw [intersect_isEmpty (by rw [hnone.1]; rfl)] at hne
    cases hne

/-- **Painting never fails.**  It writes all bytes of the pixels of the rectangle, and no other. -/
theorem IsExact.exists_painted (h : r.IsExact) (rect : Rect) (value : UInt8) :
    ∃ s, r.paint rect value = .ok s ∧ r.Rewritten s rect.contains fun _ _ _ => value := by
  cases he : (rect.intersect r.valid).isEmpty with
  | true =>
    refine ⟨r, by rw [Region.paint]; exact if_pos he, rewritten_self fun x y hc => ?_⟩
    cases hin : rect.contains x y with
    | false => rfl
    | true =>
      rw [Rect.isEmpty_of_contains (by rw [Rect.contains_intersect, hin, hc]; rfl)] at he
      cases he
  | false =>
    have hwhole := h.isWhole_of_overlap he
    obtain ⟨s, hs⟩ := exists_paint hwhole rect value
    refine ⟨s, hs, hwhole.rewritten (eq_of_paint hs) (size_bytes_paint hs)
      (fun x y hc hin => ⟨_, ?_, fun k hk => Bytes.getElem!_replicate value hk⟩)
      fun x y hc hout => ?_⟩
    · rw [pixel_paint hs hc, if_pos hin]
    · rw [pixel_paint hs hc, hout, if_neg Bool.false_ne_true]

/-- **Copying never fails.**  It writes all bytes of the pixels of the rectangle that both regions
have, and no other. -/
theorem IsExact.exists_copied (h : r.IsExact) (hsource : source.IsExact)
    (hp : source.pixelSize = r.pixelSize) (rect : Rect) :
    ∃ s, r.copyFrom source rect = .ok s ∧
      r.Rewritten s (fun x y => rect.contains x y && source.valid.contains x y)
        fun x y k => source.bytes[source.slot x y * source.pixelSize + k]! := by
  cases he : ((rect.intersect r.valid).intersect source.valid).isEmpty with
  | true =>
    refine ⟨r, by rw [Region.copyFrom]; exact if_pos he, rewritten_self fun x y hc => ?_⟩
    cases hin : rect.contains x y && source.valid.contains x y with
    | false => rfl
    | true =>
      rw [Bool.and_eq_true] at hin
      rw [Rect.isEmpty_of_contains (by
        rw [Rect.contains_intersect, Rect.contains_intersect, hin.1, hin.2, hc]; rfl)] at he
      cases he
  | false =>
    have hwhole := h.isWhole_of_overlap ((Rect.intersect_inside_left he).isEmpty he)
    have hwhole' := hsource.isWhole_of_overlap he
    obtain ⟨s, hs⟩ := exists_copyFrom hwhole hwhole' hp.symm rect
    refine ⟨s, hs, hwhole.rewritten (eq_of_copyFrom hs) (size_bytes_copyFrom hs)
      (fun x y hc hin => ?_) fun x y hc hout => ?_⟩
    · rw [Bool.and_eq_true] at hin
      obtain ⟨bytes, hb⟩ := hwhole'.exists_pixel hin.2
      refine ⟨bytes, ?_, fun k hk => (getElem!_of_pixel hin.2 hb (hp.symm ▸ hk)).symm⟩
      rw [pixel_copyFrom hs hc, if_pos hin, hb]
    · rw [pixel_copyFrom hs hc, if_neg fun hin => ?_]
      rw [Bool.and_eq_false_iff] at hout
      rcases hout with hout | hout <;> rw [hout] at hin <;> simp at hin

/-- **Addressing, painting and copying.**  For every region that comes out of a new one by getting
buffers, painting, writing rows and copying:

* its pixels are numbered row by row, and their bytes fill the buffer in this order;
* painting never fails, writes exactly the bytes of its pixels in the rectangle, and keeps `valid`;
* copying from every other such region with pixels of the same size never fails, gives exactly the
  pixels in the rectangle that both have the bytes they have there, and keeps `valid`. -/
theorem exact_of_reached (h : Reached info r) :
    r.IsAddressed ∧
      (∀ rect value, ∃ s, r.paint rect value = .ok s ∧ s.valid = r.valid ∧
        r.Rewritten s rect.contains fun _ _ _ => value) ∧
      ∀ other source rect, Reached other source → source.pixelSize = r.pixelSize →
        ∃ s, r.copyFrom source rect = .ok s ∧ s.valid = r.valid ∧
          r.Rewritten s (fun x y => rect.contains x y && source.valid.contains x y)
            fun x y k => source.bytes[source.slot x y * source.pixelSize + k]! := by
  refine ⟨h.isExact.isAddressed, fun rect value => ?_, fun other source rect hsource hp => ?_⟩
  · obtain ⟨s, hs, hrewritten⟩ := h.isExact.exists_painted rect value
    exact ⟨s, hs, valid_paint hs, hrewritten⟩
  · obtain ⟨s, hs, hrewritten⟩ := h.isExact.exists_copied hsource.isExact hp rect
    exact ⟨s, hs, valid_copyFrom hs, hrewritten⟩

/-- A region has a buffer for the last two columns of an image.  Its last column is painted, with a
rectangle that begins above the image and is far too high. -/
theorem exact_of_reached_narrow :
    ∃ r s, (Region.empty ⟨3, 2, 1, .uchar⟩).buffer ⟨1, -5, 9, 9⟩ = .ok r ∧ r.valid = ⟨1, 0, 2, 2⟩ ∧
      r.offset 2 1 = .ok 3 ∧ r.paint ⟨2, -1, 9, 2147483647⟩ 7 = .ok s ∧
      s.bytes[0]! = 0 ∧ s.bytes[1]! = 7 ∧ s.bytes[2]! = 0 ∧ s.bytes[3]! = 7 := by
  obtain ⟨haddressed, hpaint, -⟩ :=
    exact_of_reached (@Reached.buffer ⟨3, 2, 1, .uchar⟩ _ _ ⟨1, -5, 9, 9⟩ .new rfl)
  obtain ⟨s, hs, -, hwritten⟩ := hpaint ⟨2, -1, 9, 2147483647⟩ 7
  exact ⟨_, s, rfl, rfl, haddressed.offset 2 1 rfl, hs,
    hwritten.byte 1 0 rfl 0 Nat.zero_lt_one, hwritten.byte 2 0 rfl 0 Nat.zero_lt_one,
    hwritten.byte 1 1 rfl 0 Nat.zero_lt_one, hwritten.byte 2 1 rfl 0 Nat.zero_lt_one⟩

end Region

end TileCache
