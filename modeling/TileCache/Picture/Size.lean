import TileCache.Picture.Jpeg

/-!
# Sizes of files

Whether a picture becomes a file of more than so many bytes is known before the file is complete,
since what has been written stays: `exceeds_iff` says that `exceeds` nevertheless tells the truth
about the whole file.
-/

set_option autoImplicit false

namespace TileCache.Picture.Jpeg

/-- Does the file have more than `limit` bytes? -/
def exceeds (limit : Nat) (out : Region) (quality : Nat) : Bool :=
  limit < (encodeUpTo (some limit) out quality).size

/-! ## What has been written stays -/

theorem size_le_pushNumber (p : Packed) (v : Int) :
    p.bytes.size ≤ (pushNumber p v).bytes.size :=
  p.size_le_push ..

theorem size_le_pushWord (words : Array (UInt64 × Nat)) (p : Packed) (symbol : Nat) :
    p.bytes.size ≤ (pushWord words p symbol).bytes.size :=
  p.size_le_push ..

theorem size_le_repeat {f : Packed → Packed} (h : ∀ p, p.bytes.size ≤ (f p).bytes.size)
    (count : Nat) (p : Packed) : p.bytes.size ≤ (count.repeat f p).bytes.size := by
  induction count with
  | zero => exact Nat.le_refl _
  | succ count ih => exact Nat.le_trans ih (h _)

theorem size_le_pushDetails (words : Array (UInt64 × Nat)) (run : Nat) (details : List Int)
    (p : Packed) : p.bytes.size ≤ (pushDetails words run details p).bytes.size := by
  fun_induction pushDetails words run details p with
  | case1 => exact Nat.le_refl _
  | case2 => exact size_le_pushWord ..
  | case3 run rest p ih => exact ih
  | case4 run v rest p hv p₁ p₂ ih =>
    have h₁ : p.bytes.size ≤ p₁.bytes.size :=
      size_le_repeat (fun p => size_le_pushWord words p zeros16) _ p
    have h₂ : p₁.bytes.size ≤ p₂.bytes.size := size_le_pushWord ..
    have h₃ : p₂.bytes.size ≤ (pushNumber p₂ v).bytes.size := size_le_pushNumber ..
    omega

theorem size_le_pushBlock (tables : Tables) (last : Int) (p : Packed) (block : List Int) :
    p.bytes.size ≤ (pushBlock tables last p block).1.bytes.size := by
  cases block with
  | nil => exact Nat.le_refl _
  | cons average details =>
    exact Nat.le_trans (size_le_pushWord ..)
      (Nat.le_trans (size_le_pushNumber ..) (size_le_pushDetails ..))

theorem size_le_pushPlace (out : Region) (width height left top : Nat) (tables : Nat → Tables)
    (i : Nat) (lasts : List Int) (p : Packed) :
    p.bytes.size ≤ (pushPlace out width height left top tables i lasts p).2.bytes.size := by
  induction lasts generalizing i p with
  | nil => exact Nat.le_refl _
  | cons last lasts ih => exact Nat.le_trans (size_le_pushBlock ..) (ih ..)

theorem size_le_pushPlaces (out : Region) (width height : Nat) (tables : Nat → Tables)
    (enough? : Option Nat) (left place : Nat) (lasts : List Int) (p : Packed) :
    p.bytes.size ≤
      (pushPlaces out width height tables enough? left place lasts p).bytes.size := by
  induction left generalizing place lasts p with
  | zero => exact Nat.le_refl _
  | succ left ih =>
    rw [pushPlaces]
    split
    · exact Nat.le_refl _
    · exact Nat.le_trans (size_le_pushPlace ..) (ih ..)

/-! ## Early ends -/

/-- Either all blocks have been written, or there are already too many bytes. -/
theorem pushPlaces_eq_or_lt (out : Region) (width height : Nat) (tables : Nat → Tables)
    (limit left place : Nat) (lasts : List Int) (p : Packed) :
    pushPlaces out width height tables (some limit) left place lasts p =
        pushPlaces out width height tables none left place lasts p ∨
      limit < (pushPlaces out width height tables (some limit) left place lasts p).bytes.size ∧
        limit < (pushPlaces out width height tables none left place lasts p).bytes.size := by
  induction left generalizing place lasts p with
  | zero => exact .inl rfl
  | succ left ih =>
    by_cases hp : limit < p.bytes.size
    · exact .inr ⟨Nat.lt_of_lt_of_le hp (size_le_pushPlaces ..),
        Nat.lt_of_lt_of_le hp (size_le_pushPlaces ..)⟩
    · have hgoes : ¬ ((some limit).any (fun n => decide (n < p.bytes.size)) = true) := by
        simpa using hp
      have hnone : ¬ (Option.any (fun n => decide (n < p.bytes.size)) none = true) :=
        Bool.false_ne_true
      rw [pushPlaces, pushPlaces, if_neg hgoes, if_neg hnone]
      exact ih ..

theorem scan_eq_or_lt (out : Region) (width height : Nat) (tables : Nat → Tables) (limit : Nat) :
    scan out width height tables (some limit) = scan out width height tables none ∨
      limit < (scan out width height tables (some limit)).size ∧
        limit < (scan out width height tables none).size := by
  rcases pushPlaces_eq_or_lt out width height tables limit
    ((width + 7) / 8 * ((height + 7) / 8)) 0 (List.replicate out.pixelSize 0) ⟨.empty, 0, 0⟩ with
    h | ⟨h₁, h₂⟩
  · exact .inl (congrArg Packed.finished h)
  · exact .inr ⟨Nat.lt_of_lt_of_le h₁ (Packed.size_le_finished _),
      Nat.lt_of_lt_of_le h₂ (Packed.size_le_finished _)⟩

theorem exceeds_iff {limit : Nat} {out : Region} {quality : Nat} :
    exceeds limit out quality = true ↔ limit < (encode out quality).size := by
  have hscan := scan_eq_or_lt out out.valid.width.val.toNat out.valid.height.val.toNat
    (fun i => if i = 0 then brightTables quality else colourTables quality) limit
  rw [exceeds, decide_eq_true_iff]
  rcases hscan with h | ⟨h₁, h₂⟩
  · rw [encode, encodeUpTo, encodeUpTo, h]
  · simp only [encode, encodeUpTo, ByteArray.size_append]
    omega

end TileCache.Picture.Jpeg
