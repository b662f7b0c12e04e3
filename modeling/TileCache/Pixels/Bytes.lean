/-!
# Writing blocks of bytes

All writing into a pixel buffer, be it a constant, a test picture or a copy from another buffer,
is one operation: `writeRows` puts a given byte into every place of a block of rows that lie a
fixed stride apart.  What a buffer holds afterwards therefore needs to be worked out only once.
-/

set_option autoImplicit false

namespace TileCache.Bytes

/-- A buffer of `n` zero bytes. -/
def zeros (n : Nat) : ByteArray :=
  n.fold (fun _ _ bytes => bytes.push 0) (.emptyWithCapacity n)

/-- Puts `f k`, `f (k + 1)`, … into the `n` places from `start + k` on. -/
@[specialize]
def writeFrom (f : Nat → UInt8) (start : Nat) : (n k : Nat) → ByteArray → ByteArray
  | 0, _, bytes => bytes
  | n + 1, k, bytes => writeFrom f start n (k + 1) (bytes.set! (start + k) (f k))

/-- Puts `f j k` into place `k` of row `j`, for `n` rows from row `j` on of `length` bytes each.
Row zero begins at `start`, and rows lie `stride` bytes apart. -/
@[specialize]
def writeRows (f : Nat → Nat → UInt8) (start stride length : Nat) :
    (n j : Nat) → ByteArray → ByteArray
  | 0, _, bytes => bytes
  | n + 1, j, bytes =>
    writeRows f start stride length n (j + 1)
      (writeFrom (f j) (start + j * stride) length 0 bytes)

@[simp]
theorem size_zeros (n : Nat) : (zeros n).size = n := by
  have h : ∀ (c m : Nat), (m.fold (fun _ _ bytes => bytes.push 0)
      (ByteArray.emptyWithCapacity c)).size = m := by
    intro c m
    induction m with
    | zero => rfl
    | succ m ih => rw [Nat.fold_succ, ByteArray.size_push, ih]
  exact h n n

@[simp]
theorem size_writeFrom (f : Nat → UInt8) (start n k : Nat) (bytes : ByteArray) :
    (writeFrom f start n k bytes).size = bytes.size := by
  induction n generalizing k bytes with
  | zero => rfl
  | succ n ih => rw [writeFrom, ih, ByteArray.size_set!]

@[simp]
theorem size_writeRows (f : Nat → Nat → UInt8) (start stride length n j : Nat)
    (bytes : ByteArray) : (writeRows f start stride length n j bytes).size = bytes.size := by
  induction n generalizing j bytes with
  | zero => rfl
  | succ n ih => rw [writeRows, ih, size_writeFrom]

end TileCache.Bytes
