/-!
# Packed bits and prefix codes

`Packed` is a row of bits of which the whole bytes are written out, the first bit of a byte being
the highest.  A byte 255 begins a marker in the files written here, so that one among the data is
followed by a zero byte.

`Code` gives symbols their code words.  It is known from the symbols by growing length and the
number of words of each length: words of one length are consecutive numbers, and the next length
goes on behind them.
-/

set_option autoImplicit false

namespace TileCache.Picture

/-- Whole bytes, and behind them the lowest `count` bits of `pending`. -/
structure Packed where
  bytes : ByteArray
  pending : UInt64
  count : Nat

namespace Packed

/-- Writes out whole bytes until less than eight bits are left. -/
def drained (bytes : ByteArray) (pending : UInt64) (count : Nat) : Packed :=
  if count < 8 then ⟨bytes, pending, count⟩
  else
    let byte := (pending >>> (count - 8).toUInt64).toUInt8
    let bytes := bytes.push byte
    drained (if byte = 255 then bytes.push 0 else bytes) pending (count - 8)
termination_by count

/-- Adds the lowest `width` bits of `value`, at most 32, the highest of them first. -/
def push (p : Packed) (value : UInt64) (width : Nat) : Packed :=
  let width' := width.toUInt64
  drained p.bytes (p.pending <<< width' ||| (value &&& ((1 <<< width') - 1))) (p.count + width)

/-- The bytes, the last one filled up with ones. -/
def finished (p : Packed) : ByteArray := (p.push 127 7).bytes

theorem count_drained_lt (bytes : ByteArray) (pending : UInt64) (count : Nat) :
    (drained bytes pending count).count < 8 := by
  fun_induction drained bytes pending count with
  | case1 => assumption
  | case2 _ _ _ _ _ ih => exact ih

theorem count_push_lt (p : Packed) (value : UInt64) (width : Nat) :
    (p.push value width).count < 8 :=
  count_drained_lt ..

theorem size_le_drained (bytes : ByteArray) (pending : UInt64) (count : Nat) :
    bytes.size ≤ (drained bytes pending count).bytes.size := by
  fun_induction drained bytes pending count with
  | case1 => exact Nat.le_refl _
  | case2 _ _ _ _ _ ih =>
    refine Nat.le_trans ?_ ih
    split
    · rw [ByteArray.size_push, ByteArray.size_push]; omega
    · rw [ByteArray.size_push]; omega

/-- What has been written stays. -/
theorem size_le_push (p : Packed) (value : UInt64) (width : Nat) :
    p.bytes.size ≤ (p.push value width).bytes.size :=
  size_le_drained ..

theorem size_le_finished (p : Packed) : p.bytes.size ≤ p.finished.size := p.size_le_push 127 7

end Packed

/-- A prefix code for bytes. -/
structure Code where
  /-- How many words there are of length one, two, … -/
  counts : List Nat
  /-- The symbols, those with short words first. -/
  symbols : List Nat

namespace Code

/-- Each symbol with its word and the word's length. -/
def words : (counts : List Nat) → (width next : Nat) → (symbols : List Nat) →
    List (Nat × UInt64 × Nat)
  | [], _, _, _ => []
  | n :: counts, width, next, symbols =>
    ((symbols.take n).zipIdx next).map (fun (symbol, word) => (symbol, word.toUInt64, width)) ++
      words counts (width + 1) ((next + n) * 2) (symbols.drop n)

/-- The words and their lengths by symbol. -/
def table (code : Code) : Array (UInt64 × Nat) :=
  (words code.counts 1 0 code.symbols).foldl
    (fun table (symbol, word) => table.setIfInBounds symbol word) (Array.replicate 256 (0, 0))

/-- The code in the form in which files carry it. -/
def toBytes (code : Code) : List Nat := code.counts ++ code.symbols

end Code

end TileCache.Picture
