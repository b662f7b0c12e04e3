import TileCache.Geometry.Rect

/-!
# Overlap and inclusion as laws of point sets

`Rect.intersect` and `Rect.includes` compute with edges.  Edges stop at the end of the plane, and a
length that comes out the wrong way round becomes zero, on each axis for itself.  Here both are
compared with the points that `Rect.contains` tells, for all rectangles: also for those with a
negative size, and for those whose far edge would lie beyond the largest coordinate.

* `val_width_intersect`, `val_height_intersect` — the size of an overlap, counted in whole numbers
  without bound: no overlap is so large that it would have to be cut short.
* `intersect_assoc` — with `intersect_comm`, an overlap does not depend on the order in which it is
  taken.  Equality is that of rectangles, so it is about empty overlaps too.
* `contains_intersect` — a point lies in an overlap when it lies in both rectangles.
* `includes_iff` — a rectangle includes another one when it has all its points.  The other one has
  to begin before the end of the plane.
* `includes_intersect` — a rectangle includes each of its overlaps.

An overlap tells its true size.  So intersecting a rectangle with itself changes it when it is cut
short at the end of the plane, or when it is empty because of a negative size.
-/

set_option autoImplicit false

namespace TileCache

namespace Rect

/-- A rectangle is known by the values of its fields. -/
theorem ext_val {a b : Rect} (hl : a.left.val = b.left.val) (ht : a.top.val = b.top.val)
    (hw : a.width.val = b.width.val) (hh : a.height.val = b.height.val) : a = b := by
  calc a = ⟨a.left, a.top, a.width, a.height⟩ := rfl
    _ = ⟨b.left, b.top, b.width, b.height⟩ := by
      rw [Coord.ext hl, Coord.ext ht, Coord.ext hw, Coord.ext hh]
    _ = b := rfl

/-! ## On one axis -/

/-- A span of at most the largest length is not cut short. -/
theorem val_span {first last : Coord} (h : last.val ≤ first.val + 2147483647) :
    (span first last).val = max 0 (last.val - first.val) := by
  rw [span, Coord.val_clamp]
  omega

/-- What spans from one coordinate to another ends there, or where it starts if that comes later. -/
theorem val_end_span {first last : Coord} (h : last.val ≤ first.val + 2147483647) :
    (Coord.clamp (first.val + (span first last).val)).val = max first.val last.val := by
  have hlower := first.lower
  have hupper := first.upper
  have hlast := last.upper
  rw [val_span h, Coord.val_clamp]
  omega

/-- A length that starts at a coordinate does not end further away than the largest length, even if
it is cut short. -/
theorem val_end_le (first length : Coord) :
    (Coord.clamp (first.val + length.val)).val ≤ first.val + 2147483647 := by
  have hlower := first.lower
  have hlength := length.upper
  rw [Coord.val_clamp]
  omega

/-- Nor does what it has in common with anything else. -/
theorem val_overlap_le (first length other last : Coord) :
    (min (.clamp (first.val + length.val)) last).val ≤ (max first other).val + 2147483647 := by
  have hend := val_end_le first length
  rw [Coord.val_min, Coord.val_max]
  omega

/-- A positive length that starts before the end of the plane ends further on. -/
theorem lt_val_end {first length : Coord} (hlength : 0 < length.val) (hfirst : first < .greatest) :
    first.val < (Coord.clamp (first.val + length.val)).val := by
  have hlower := first.lower
  have hupper : first.val < 2147483647 := hfirst
  rw [Coord.val_clamp]
  omega

/-! ## Edges and sizes of overlaps -/

theorem val_left_intersect (a b : Rect) :
    (a.intersect b).left.val = max a.left.val b.left.val :=
  Coord.val_max _ _

theorem val_top_intersect (a b : Rect) : (a.intersect b).top.val = max a.top.val b.top.val :=
  Coord.val_max _ _

/-- **The width of an overlap is the distance of its edges**, without a bound on whole numbers. -/
theorem val_width_intersect (a b : Rect) :
    (a.intersect b).width.val
      = max 0 (min a.right.val b.right.val - max a.left.val b.left.val) := by
  rw [← Coord.val_min, ← Coord.val_max]
  exact val_span (val_overlap_le a.left a.width b.left b.right)

theorem val_height_intersect (a b : Rect) :
    (a.intersect b).height.val
      = max 0 (min a.bottom.val b.bottom.val - max a.top.val b.top.val) := by
  rw [← Coord.val_min, ← Coord.val_max]
  exact val_span (val_overlap_le a.top a.height b.top b.bottom)

/-- The far edge of an overlap on one axis.  Two lengths are never so large that the overlap of
what they cover would have to be cut short. -/
theorem val_right_intersect (a b : Rect) :
    (a.intersect b).right.val
      = max (max a.left.val b.left.val) (min a.right.val b.right.val) := by
  rw [← Coord.val_min, ← Coord.val_max]
  exact val_end_span (val_overlap_le a.left a.width b.left b.right)

theorem val_bottom_intersect (a b : Rect) :
    (a.intersect b).bottom.val
      = max (max a.top.val b.top.val) (min a.bottom.val b.bottom.val) := by
  rw [← Coord.val_min, ← Coord.val_max]
  exact val_end_span (val_overlap_le a.top a.height b.top b.bottom)

/-- Of an overlap that is empty on this axis, the far edge is not that of either rectangle but the
near one.  For what it has in common with a third one this makes no difference. -/
theorem max_zero_overlap (first last other further : Int) :
    max 0 (min (max first last) further - max first other)
      = max 0 (min last further - max first other) := by
  rcases Int.le_total first last with h | h
  · rw [Int.max_eq_right h]
  · -- nothing is left either way
    rw [Int.max_eq_left h]
    have hfirst := Int.le_max_left first other
    rw [Int.max_eq_left (by omega), Int.max_eq_left (by omega)]

/-- The width of an overlap of three is told by the edges of all three. -/
theorem val_width_intersect_intersect (a b c : Rect) :
    ((a.intersect b).intersect c).width.val
      = max 0 (min (min a.right.val b.right.val) c.right.val
          - max (max a.left.val b.left.val) c.left.val) := by
  rw [val_width_intersect, val_right_intersect, val_left_intersect, max_zero_overlap]

theorem val_height_intersect_intersect (a b c : Rect) :
    ((a.intersect b).intersect c).height.val
      = max 0 (min (min a.bottom.val b.bottom.val) c.bottom.val
          - max (max a.top.val b.top.val) c.top.val) := by
  rw [val_height_intersect, val_bottom_intersect, val_top_intersect, max_zero_overlap]

/-- **Overlaps are associative.** -/
theorem intersect_assoc (a b c : Rect) :
    (a.intersect b).intersect c = a.intersect (b.intersect c) := by
  rw [intersect_comm a (b.intersect c)]
  refine ext_val ?_ ?_ ?_ ?_
  · simp only [val_left_intersect]
    rw [Int.max_assoc, Int.max_comm]
  · simp only [val_top_intersect]
    rw [Int.max_assoc, Int.max_comm]
  · rw [val_width_intersect_intersect, val_width_intersect_intersect, Int.min_assoc,
      Int.min_comm a.right.val, Int.max_assoc, Int.max_comm a.left.val]
  · rw [val_height_intersect_intersect, val_height_intersect_intersect, Int.min_assoc,
      Int.min_comm a.bottom.val, Int.max_assoc, Int.max_comm a.top.val]

/-! ## Points -/

/-- **Intersection is intersection of point sets.** -/
theorem contains_intersect (a b : Rect) (x y : Coord) :
    (a.intersect b).contains x y = (a.contains x y && b.contains x y) := by
  rw [Bool.eq_iff_iff, Bool.and_eq_true, contains_iff, contains_iff, contains_iff,
    val_left_intersect, val_top_intersect, val_right_intersect, val_bottom_intersect]
  omega

/-- A rectangle with a point in it is not empty. -/
theorem isEmpty_of_contains {r : Rect} {x y : Coord} (h : r.contains x y = true) :
    r.isEmpty = false := by
  rw [contains_iff] at h
  rw [← Bool.not_eq_true, isEmpty_iff]
  simp only [right, bottom, Coord.val_clamp] at h
  have := r.left.lower
  have := r.top.lower
  have := x.lower
  omega

variable {a b r : Rect}

/-- A rectangle that is not empty contains its origin, unless that is at the end of the plane. -/
theorem contains_origin (he : r.isEmpty = false) (hl : r.left < .greatest)
    (ht : r.top < .greatest) : r.contains r.left r.top = true := by
  rw [← Bool.not_eq_true, isEmpty_iff] at he
  exact contains_iff.2 ⟨Int.le_refl _, lt_val_end (by omega) hl, Int.le_refl _,
    lt_val_end (by omega) ht⟩

/-- It contains the point across from the origin as well. -/
theorem exists_last_point (he : r.isEmpty = false) (hl : r.left < .greatest)
    (ht : r.top < .greatest) :
    ∃ x y, r.contains x y = true ∧ r.right.val = x.val + 1 ∧ r.bottom.val = y.val + 1 := by
  obtain ⟨-, hright, -, hbottom⟩ := contains_iff.1 (contains_origin he hl ht)
  have hleft := r.left.lower
  have htop := r.top.lower
  have hlast := r.right.upper
  have hlowest := r.bottom.upper
  refine ⟨⟨r.right.val - 1, by omega, by omega⟩, ⟨r.bottom.val - 1, by omega, by omega⟩,
    contains_iff.2 ?_, (Int.sub_add_cancel _ 1).symm, (Int.sub_add_cancel _ 1).symm⟩
  show r.left.val ≤ r.right.val - 1 ∧ r.right.val - 1 < r.right.val ∧
    r.top.val ≤ r.bottom.val - 1 ∧ r.bottom.val - 1 < r.bottom.val
  omega

/-! ## Inclusion -/

theorem includes_iff_edges :
    a.includes b = true ↔ b.isEmpty = true ∨
      a.left.val ≤ b.left.val ∧ a.top.val ≤ b.top.val ∧
        b.right.val ≤ a.right.val ∧ b.bottom.val ≤ a.bottom.val := by
  simp [includes, Coord.le_iff, and_assoc]

/-- What is included has no points of its own, wherever it begins. -/
theorem contains_of_includes (h : a.includes b = true) {x y : Coord}
    (hxy : b.contains x y = true) : a.contains x y = true := by
  rcases includes_iff_edges.1 h with he | hedges
  · rw [isEmpty_of_contains hxy] at he
    cases he
  · rw [contains_iff] at hxy ⊢
    omega

/-- Two points of a rectangle tell all its edges: its origin, and the point across from it. -/
theorem includes_of_contains (hl : b.left < .greatest) (ht : b.top < .greatest)
    (h : ∀ x y, b.contains x y = true → a.contains x y = true) : a.includes b = true := by
  rw [includes_iff_edges]
  cases he : b.isEmpty with
  | true => exact .inl rfl
  | false =>
    have hfirst := contains_iff.1 (h _ _ (contains_origin he hl ht))
    obtain ⟨x, y, hxy, hright, hbottom⟩ := exists_last_point he hl ht
    have hlast := contains_iff.1 (h x y hxy)
    omega

/-- **Inclusion is inclusion of point sets**, for what begins before the end of the plane. -/
theorem includes_iff (hl : b.left < .greatest) (ht : b.top < .greatest) :
    a.includes b = true ↔ ∀ x y, b.contains x y = true → a.contains x y = true :=
  ⟨fun h _ _ hxy => contains_of_includes h hxy, includes_of_contains hl ht⟩

/-- What begins at the end of the plane has no points, but a positive size it can have. -/
example : (⟨0, 0, 4, 4⟩ : Rect).includes ⟨.greatest, 0, 1, 1⟩ = false := by decide

/-- An overlap with a positive size begins before the end of the plane. -/
theorem origin_intersect_lt (he : (a.intersect b).isEmpty = false) :
    (a.intersect b).left < .greatest ∧ (a.intersect b).top < .greatest := by
  rw [← Bool.not_eq_true, isEmpty_iff, val_width_intersect, val_height_intersect] at he
  have hright := a.right.upper
  have hbottom := a.bottom.upper
  rw [Coord.lt_iff, Coord.lt_iff, val_left_intersect, val_top_intersect]
  show _ < (2147483647 : Int) ∧ _ < (2147483647 : Int)
  omega

/-- **A rectangle includes what it has in common with another one.** -/
theorem includes_intersect (a b : Rect) : a.includes (a.intersect b) = true := by
  cases he : (a.intersect b).isEmpty with
  | true => exact includes_iff_edges.2 (.inl he)
  | false =>
    obtain ⟨hl, ht⟩ := origin_intersect_lt he
    refine includes_of_contains hl ht fun x y hxy => ?_
    rw [contains_intersect, Bool.and_eq_true] at hxy
    exact hxy.1

/-- **Intersection and inclusion of rectangles are those of their point sets.**  For all rectangles,
whatever their fields are: a point lies in an overlap exactly when it lies in both of them; overlaps
are commutative and associative; the size of an overlap is never negative, and it is the distance of
its edges in whole numbers without bound, so that no point is lost where lengths are cut short; one
rectangle includes another, if this begins before the end of the plane, exactly when it contains all
its points; and it includes each of its overlaps, wherever these begin. -/
theorem point_set_laws (a b c : Rect) :
    (∀ x y, (a.intersect b).contains x y = true ↔
      a.contains x y = true ∧ b.contains x y = true) ∧
    a.intersect b = b.intersect a ∧
    (a.intersect b).intersect c = a.intersect (b.intersect c) ∧
    (0 ≤ (a.intersect b).width.val ∧ 0 ≤ (a.intersect b).height.val) ∧
    ((a.intersect b).width.val
        = max 0 (min a.right.val b.right.val - max a.left.val b.left.val) ∧
      (a.intersect b).height.val
        = max 0 (min a.bottom.val b.bottom.val - max a.top.val b.top.val)) ∧
    (b.left < .greatest → b.top < .greatest →
      (a.includes b = true ↔ ∀ x y, b.contains x y = true → a.contains x y = true)) ∧
    a.includes (a.intersect b) = true := by
  have hwidth := val_width_intersect a b
  have hheight := val_height_intersect a b
  refine ⟨fun x y => ?_, intersect_comm a b, intersect_assoc a b c, ?_, ⟨hwidth, hheight⟩,
    includes_iff, includes_intersect a b⟩
  · rw [contains_intersect, Bool.and_eq_true]
  · omega

/-- A rectangle that is cut short in the corner of the plane, and one of the largest size that does
not reach as far: it misses a point. -/
theorem point_set_laws_at_end :
    let a : Rect := ⟨-10, -10, 2147483647, 2147483647⟩
    let b : Rect := ⟨2147483600, 2147483600, 100, 100⟩
    (b.left < .greatest ∧ b.top < .greatest) ∧ a.intersect b = ⟨2147483600, 2147483600, 37, 37⟩ ∧
      ∃ x y, b.contains x y = true ∧ a.contains x y = false := by
  obtain ⟨-, -, -, -, -, hincludes, -⟩ :=
    point_set_laws ⟨-10, -10, 2147483647, 2147483647⟩ ⟨2147483600, 2147483600, 100, 100⟩ default
  have hbegins : (2147483600 : Coord) < .greatest := by decide
  refine ⟨⟨hbegins, hbegins⟩, by decide, ?_⟩
  have hmisses := mt (hincludes hbegins hbegins).2 (by decide)
  simpa using hmisses

end Rect

end TileCache
