import TileCache.Proofs.Pixels.Blocks

/-!
# Whole regions

A region is whole if it has a rectangle inside the image and exactly the bytes that this rectangle
needs.  A new region is not, for it has no pixel, but whatever `Region.buffer` gives is
(`isWhole_of_buffer`).

On whole regions no operation fails (`exists_copyFrom`, `exists_paint`), and their bytes are
known if their pixels are: `Shows r f` says that each pixel of `r` is the one that `f` tells for its
position, and regions for one rectangle that show the same are equal byte for byte
(`bytes_eq_of_shows`).
-/

set_option autoImplicit false

namespace TileCache

namespace Rect

theorem Inside.self {a r : Rect} (h : a.Inside r) : a.Inside a := by
  have hr := Int.le_trans h.right r.right.upper
  have hb := Int.le_trans h.bottom r.bottom.upper
  refine ⟨Int.le_refl _, Int.le_refl _, ?_, ?_⟩
  · rw [Rect.right, Coord.val_clamp]
    omega
  · rw [Rect.bottom, Coord.val_clamp]
    omega

theorem Inside.contains {a r : Rect} (h : a.Inside r) {x y : Coord}
    (hxy : a.contains x y = true) : r.contains x y = true := by
  rw [h.contains_iff] at hxy
  obtain ⟨hl, ht, hr, hb⟩ := h
  rw [Rect.contains_iff]
  omega

/-- A rectangle that is not cut short contains its origin. -/
theorem Inside.contains_origin {a r : Rect} (h : a.Inside r) (ha : a.isEmpty = false) :
    a.contains a.left a.top = true := by
  rw [← Bool.not_eq_true, isEmpty_iff] at ha
  rw [h.contains_iff]
  omega

/-- What lies before a part and the part itself are within the lengths of the whole. -/
theorem Inside.extent_le {a r : Rect} (h : a.Inside r) (ha : a.isEmpty = false) :
    (a.left.val - r.left.val).toNat + a.width.val.toNat ≤ r.width.val.toNat ∧
      (a.top.val - r.top.val).toNat + a.height.val.toNat ≤ r.height.val.toNat := by
  rw [← Bool.not_eq_true, isEmpty_iff] at ha
  obtain ⟨hl, ht, hright, hbottom⟩ := h
  rw [Rect.right, Coord.val_clamp] at hright
  rw [Rect.bottom, Coord.val_clamp] at hbottom
  have hlower := a.left.lower
  have htop := a.top.lower
  have hr : a.left.val + a.width.val ≤ r.left.val + r.width.val := by omega
  have hb : a.top.val + a.height.val ≤ r.top.val + r.height.val := by omega
  omega

theorem area_of_nonempty {r : Rect} (h : r.isEmpty = false) :
    r.area = r.width.val.toNat * r.height.val.toNat := by
  rw [area, h]
  rfl

/-- An overlap has at most as many pixels as each of both. -/
theorem area_intersect_le (a b : Rect) : (a.intersect b).area ≤ b.area := by
  cases he : (a.intersect b).isEmpty with
  | true =>
    rw [area, he]
    exact Nat.zero_le _
  | false =>
    have hin := intersect_inside_right he
    obtain ⟨hwidth, hheight⟩ := hin.extent_le he
    rw [area_of_nonempty he, area_of_nonempty (hin.isEmpty he)]
    exact Nat.mul_le_mul (by omega) (by omega)

end Rect

namespace Bytes

/-- The bytes `f 0`, `f 1`, … up to `n` of them. -/
def ofFn (n : Nat) (f : Nat → UInt8) : ByteArray := ⟨Array.ofFn fun i : Fin n => f i⟩

@[simp]
theorem size_ofFn (n : Nat) (f : Nat → UInt8) : (ofFn n f).size = n := Array.size_ofFn

theorem getElem!_ofFn {n i : Nat} (f : Nat → UInt8) (h : i < n) : (ofFn n f)[i]! = f i := by
  rw [getElem!_pos _ i (by rwa [size_ofFn])]
  exact Array.getElem_ofFn _

theorem ofFn_const (n : Nat) (value : UInt8) : ofFn n (fun _ => value) = replicate n value :=
  congrArg ByteArray.mk (Array.ext (by simp) fun _ _ _ => by simp)

theorem getElem!_extract {a : ByteArray} {i n k : Nat} (hi : i + n ≤ a.size) (hk : k < n) :
    (a.extract i (i + n))[k]! = a[i + k]! := by
  have hsize : k < (a.extract i (i + n)).size := by
    rw [ByteArray.size_extract]
    omega
  rw [getElem!_pos _ k hsize, ByteArray.getElem_extract, getElem!_pos a (i + k) (by omega)]

theorem extract_eq_ofFn {a : ByteArray} {i n : Nat} {f : Nat → UInt8} (hi : i + n ≤ a.size)
    (h : ∀ k, k < n → a[i + k]! = f k) : a.extract i (i + n) = ofFn n f :=
  extract_eq hi (size_ofFn n f) fun k hk => by rw [h k hk, getElem!_ofFn f hk]

end Bytes

namespace Region

/-- The region has a rectangle inside the image, and just the bytes for it. -/
structure IsWhole (r : Region) : Prop where
  nonempty : r.valid.isEmpty = false
  inside : r.valid.Inside r.bounds
  size : r.bytes.size = r.valid.area * r.pixelSize

variable {r s : Region} {rect : Rect} {f : Coord → Coord → Nat → UInt8}

theorem IsWhole.congr (h : r.IsWhole) (hb : s.bounds = r.bounds) (hp : s.pixelSize = r.pixelSize)
    (hv : s.valid = r.valid) (hs : s.bytes.size = r.bytes.size) : s.IsWhole := by
  refine ⟨hv ▸ h.nonempty, ?_, ?_⟩
  · rw [hv, hb]
    exact h.inside
  · rw [hs, hv, hp]
    exact h.size

theorem IsWhole.setBlock (h : r.IsWhole) (area : Rect) (f : Nat → Nat → UInt8) :
    (r.setBlock area f).IsWhole :=
  h.congr rfl rfl rfl (size_bytes_setBlock r area f)

/-- A region is whole as soon as it has a buffer. -/
theorem isWhole_of_buffer (hb : r.buffer rect = .ok s) : s.IsWhole := by
  obtain ⟨hne, -, rfl⟩ := buffer_eq_ok_iff.1 hb
  exact ⟨hne, Rect.intersect_inside_right hne, Bytes.size_zeros _⟩

/-- A whole region holds all parts of its rectangle. -/
theorem holds_of_inside (h : r.IsWhole) {area : Rect} (ha : area.Inside r.valid)
    (hne : area.isEmpty = false) : r.holds area = true := by
  obtain ⟨hcolumns, hrows⟩ := ha.extent_le hne
  rw [← Bool.not_eq_true, Rect.isEmpty_iff] at hne
  have hlast : (area.top.val - r.valid.top.val).toNat + (area.height.val.toNat - 1) + 1 ≤
      r.valid.height.val.toNat := by omega
  have hbefore := Nat.mul_le_mul_right r.stride hlast
  have hwithin := Nat.mul_le_mul_right r.pixelSize hcolumns
  rw [Nat.succ_mul, Nat.add_mul] at hbefore
  rw [Nat.add_mul] at hwithin
  have hsize : r.bytes.size = r.valid.height.val.toNat * r.stride := by
    rw [h.size, Rect.area_of_nonempty h.nonempty, stride, Nat.mul_comm r.valid.width.val.toNat,
      Nat.mul_assoc]
  have hstride : r.stride = r.valid.width.val.toNat * r.pixelSize := rfl
  rw [holds, decide_eq_true_eq, hsize, place]
  omega

/-! ## Copying -/

/-- Copying between whole regions never fails. -/
theorem exists_copyFrom (hr : r.IsWhole) (hs : s.IsWhole) (hp : r.pixelSize = s.pixelSize)
    (rect : Rect) : ∃ out, r.copyFrom s rect = .ok out := by
  rw [copyFrom]
  dsimp only
  split
  · exact ⟨r, rfl⟩
  · rename_i hne
    rw [Bool.not_eq_true] at hne
    have hinner := Rect.intersect_inside_left hne
    have hr' := holds_of_inside hr
      (hinner.trans (Rect.intersect_inside_right (hinner.isEmpty hne))) hne
    have hs' := holds_of_inside hs (Rect.intersect_inside_right hne) hne
    rw [if_neg fun hn => hn hp, hr', hs']
    exact ⟨_, rfl⟩

theorem IsWhole.copyFrom (h : r.IsWhole) {out : Region} (hc : r.copyFrom s rect = .ok out) :
    out.IsWhole := by
  rcases copyFrom_cases hc with ⟨-, rfl⟩ | ⟨area, -, -, -, -, -, rfl⟩
  · exact h
  · exact h.setBlock area _

/-! ## Painting -/

/-- Painting a whole region never fails. -/
theorem exists_paint (hr : r.IsWhole) (rect : Rect) (value : UInt8) :
    ∃ out, r.paint rect value = .ok out := by
  rw [paint]
  split
  · exact ⟨r, rfl⟩
  · rename_i hne
    rw [Bool.not_eq_true] at hne
    rw [holds_of_inside hr (Rect.intersect_inside_right hne) hne]
    exact ⟨_, rfl⟩

theorem IsWhole.paint (h : r.IsWhole) {value : UInt8} {out : Region}
    (hp : r.paint rect value = .ok out) : out.IsWhole := by
  rcases paint_cases hp with ⟨-, rfl⟩ | ⟨-, -, rfl⟩
  · exact h
  · exact h.setBlock _ _

/-! ## What a region shows -/

/-- The pixel of the region at `(x, y)` is the one that `f` tells: its byte `k` is `f x y k`. -/
def ShowsAt (r : Region) (f : Coord → Coord → Nat → UInt8) (x y : Coord) : Prop :=
  r.pixel x y = .ok (Bytes.ofFn r.pixelSize (f x y))

/-- All pixels of the region are those that `f` tells. -/
def Shows (r : Region) (f : Coord → Coord → Nat → UInt8) : Prop :=
  ∀ x y, r.valid.contains x y = true → r.ShowsAt f x y

/-- Where something was copied that shows `f`, and where `f` was shown before, `f` is shown now. -/
theorem showsAt_copyFrom {out : Region} (hc : r.copyFrom s rect = .ok out)
    (hp : s.pixelSize = r.pixelSize) (hs : s.Shows f) {x y : Coord}
    (hr : r.valid.contains x y = true)
    (h : (rect.contains x y = true ∧ s.valid.contains x y = true) ∨ r.ShowsAt f x y) :
    out.ShowsAt f x y := by
  have hsize : out.pixelSize = r.pixelSize := by rw [eq_of_copyFrom hc]
  rw [ShowsAt, pixel_copyFrom hc hr, hsize]
  split
  · rename_i hin
    rw [← hp]
    exact hs x y hin.2
  · rename_i hout
    exact h.resolve_left hout

/-- What a region shows that holds all its pixels, byte by byte. -/
theorem shows_iff_of_holds (hin : r.valid.Inside r.valid) (hh : r.holds r.valid = true) :
    r.Shows f ↔ ∀ x y, r.valid.contains x y = true → ∀ k, k < r.pixelSize →
      r.bytes[r.place x y + k]! = f x y k := by
  refine forall₂_congr fun x y => ⟨fun hs hc k hk => ?_, fun hs hc => ?_⟩
  · have hle := place_add_le_of_holds hin hh hc
    have hpixel := hs hc
    rw [ShowsAt, pixel_eq hc, if_pos hle] at hpixel
    rw [← Bytes.getElem!_extract hle hk, Except.ok.inj hpixel, Bytes.getElem!_ofFn _ hk]
  · have hle := place_add_le_of_holds hin hh hc
    rw [ShowsAt, pixel_eq hc, if_pos hle]
    exact congrArg Except.ok (Bytes.extract_eq_ofFn hle (hs hc))

theorem shows_iff (h : r.IsWhole) :
    r.Shows f ↔ ∀ x y, r.valid.contains x y = true → ∀ k, k < r.pixelSize →
      r.bytes[r.place x y + k]! = f x y k :=
  shows_iff_of_holds h.inside.self (holds_of_inside h h.inside.self h.nonempty)

/-! ## All bytes of a region -/

/-- The number of a pixel, counted row by row from zero. -/
def slot (r : Region) (x y : Coord) : Nat :=
  (y.val - r.valid.top.val).toNat * r.valid.width.val.toNat + (x.val - r.valid.left.val).toNat

theorem place_eq (r : Region) (x y : Coord) : r.place x y = r.slot x y * r.pixelSize := by
  rw [place, slot, stride, Nat.add_mul, Nat.mul_assoc]

/-- A pixel has each number below their count. -/
theorem exists_slot (h : r.IsWhole) {n : Nat} (hn : n < r.valid.area) :
    ∃ x y, r.valid.contains x y = true ∧ r.slot x y = n := by
  have hin := h.inside.self
  have hright := Int.le_trans hin.right r.valid.right.upper
  have hbottom := Int.le_trans hin.bottom r.valid.bottom.upper
  have hleft := r.valid.left.lower
  have htop := r.valid.top.lower
  have hne := h.nonempty
  rw [← Bool.not_eq_true, Rect.isEmpty_iff] at hne
  rw [Rect.area_of_nonempty h.nonempty] at hn
  obtain ⟨row, hrow⟩ : ∃ row, row = n / r.valid.width.val.toNat := ⟨_, rfl⟩
  obtain ⟨column, hcolumn⟩ : ∃ column, column = n % r.valid.width.val.toNat := ⟨_, rfl⟩
  have hrows : row < r.valid.height.val.toNat := hrow ▸ Nat.div_lt_of_lt_mul hn
  have hcolumns : column < r.valid.width.val.toNat := hcolumn ▸ Nat.mod_lt n (by omega)
  have hx : (Coord.clamp (r.valid.left.val + column)).val = r.valid.left.val + column :=
    Coord.val_clamp_of_mem (by omega) (by omega)
  have hy : (Coord.clamp (r.valid.top.val + row)).val = r.valid.top.val + row :=
    Coord.val_clamp_of_mem (by omega) (by omega)
  refine ⟨.clamp (r.valid.left.val + column), .clamp (r.valid.top.val + row), ?_, ?_⟩
  · rw [hin.contains_iff, hx, hy]
    omega
  · have cancel : ∀ (a : Int) (k : Nat), (a + k - a).toNat = k := fun a k => by omega
    rw [slot, hx, hy, cancel, cancel, hrow, hcolumn]
    exact Nat.div_add_mod' n _

/-- Every byte of a whole region belongs to a pixel. -/
theorem exists_place (h : r.IsWhole) {i : Nat} (hi : i < r.bytes.size) :
    ∃ x y k, r.valid.contains x y = true ∧ k < r.pixelSize ∧ i = r.place x y + k := by
  rw [h.size] at hi
  have hsize : 0 < r.pixelSize := Nat.pos_of_ne_zero fun hz => by
    rw [hz] at hi
    exact Nat.not_lt_zero i hi
  obtain ⟨x, y, hc, hslot⟩ := exists_slot h (Nat.div_lt_of_lt_mul (by rwa [Nat.mul_comm]))
  refine ⟨x, y, i % r.pixelSize, hc, Nat.mod_lt i hsize, ?_⟩
  rw [place_eq, hslot]
  exact (Nat.div_add_mod' i r.pixelSize).symm

/-- **Regions that show the same are equal byte for byte.** -/
theorem bytes_eq_of_shows (hr : r.IsWhole) (hs : s.IsWhole) (hv : s.valid = r.valid)
    (hp : s.pixelSize = r.pixelSize) (hrf : r.Shows f) (hsf : s.Shows f) : s.bytes = r.bytes := by
  have hsize : s.bytes.size = r.bytes.size := by rw [hs.size, hr.size, hv, hp]
  refine ByteArray.ext_getElem hsize fun i hi hi' => ?_
  obtain ⟨x, y, k, hc, hk, rfl⟩ := exists_place hr hi'
  have hplace : s.place x y = r.place x y := by rw [place, place, stride, stride, hv, hp]
  have hsk := (shows_iff hs).1 hsf x y (hv ▸ hc) k (hp ▸ hk)
  rw [hplace] at hsk
  rw [← getElem!_pos s.bytes _ hi, ← getElem!_pos r.bytes _ hi', hsk,
    (shows_iff hr).1 hrf x y hc k hk]

theorem bytes_eq_of_pixel (hr : r.IsWhole) (hs : s.IsWhole) (hv : s.valid = r.valid)
    (hp : s.pixelSize = r.pixelSize)
    (h : ∀ x y, r.valid.contains x y = true → s.pixel x y = r.pixel x y) : s.bytes = r.bytes := by
  -- every whole region shows its own bytes
  have hshows : r.Shows fun x y k => r.bytes[r.place x y + k]! :=
    (shows_iff hr).2 fun _ _ _ _ _ => rfl
  refine bytes_eq_of_shows hr hs hv hp hshows fun x y hxy => ?_
  rw [hv] at hxy
  rw [ShowsAt, h x y hxy, hp]
  exact hshows x y hxy

end Region

end TileCache
