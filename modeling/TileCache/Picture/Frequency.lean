/-!
# Frequencies of a block

A block of eight by eight samples is turned into as many frequencies by the discrete cosine
transform.  The transform of a block is that of its rows and then that of its columns; `turned`
does one of the two and swaps rows and columns, so that doing it twice is the whole transform.

All numbers are whole.  Between rows and columns they keep two binary digits behind the point, and
three in the end; the cosines are known to thirteen.
-/

set_option autoImplicit false

namespace TileCache.Picture

/-- Eight rows of eight numbers. -/
abbrev Block := Array (Array Int)

namespace Block

def get (b : Block) (row column : Nat) : Int := (b.getD row #[]).getD column 0

/-- The cosine transform of a row, in units of `2 ^ (-13)` and larger by the root of eight.  Row and
reversed row are added for the even frequencies and subtracted for the odd ones, since cosines are
even or odd about the middle.  The factors are those of a transform with few products, in which
each is a sum of rounded ones. -/
def line (row : Array Int) : Array Int :=
  let x := fun i => row.getD i 0
  let s0 := x 0 + x 7
  let s1 := x 1 + x 6
  let s2 := x 2 + x 5
  let s3 := x 3 + x 4
  let d0 := x 0 - x 7
  let d1 := x 1 - x 6
  let d2 := x 2 - x 5
  let d3 := x 3 - x 4
  #[8192 * (s0 + s1 + s2 + s3),
    11363 * d0 + 9633 * d1 + 6437 * d2 + 2260 * d3,
    10703 * (s0 - s3) + 4433 * (s1 - s2),
    9633 * d0 - 2259 * d1 - 11362 * d2 - 6436 * d3,
    8192 * (s0 - s1 - s2 + s3),
    6437 * d0 - 11362 * d1 + 2261 * d2 + 9633 * d3,
    4433 * (s0 - s3) - 10704 * (s1 - s2),
    2260 * d0 - 6436 * d1 + 9633 * d2 - 11363 * d3]

/-- The transformed rows in units of `unit`, rounded, each of them as a column. -/
def turned (unit : Int) (b : Block) : Block :=
  let rows := b.map line
  let half := unit / 2
  Array.ofFn fun column : Fin 8 => rows.map fun row => (row.getD column 0 + half) / unit

/-- The frequencies of a block of samples, in eighths. -/
def frequencies (samples : Block) : Block := (samples.turned 2048).turned 32768

end Block

/-- The places of a block by growing frequency: along the diagonals, in turns upwards and
downwards. -/
def diagonals : List (Nat × Nat) :=
  (List.range 15).flatMap fun d =>
    let cells := ((List.range 8).filter fun row => row ≤ d ∧ d - row < 8).map fun row =>
      (row, d - row)
    if d % 2 = 0 then cells.reverse else cells

/-- No place is left out and none comes twice. -/
theorem diagonals_perm :
    diagonals.Perm ((List.range 8).flatMap fun row => (List.range 8).map fun column =>
      (row, column)) := by
  decide

end TileCache.Picture
