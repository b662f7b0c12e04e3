import TileCache.Picture.Code
import TileCache.Picture.Frequency
import TileCache.Pixels.Region

/-!
# Pictures as JPEG files

`Jpeg.encode` writes a grey or a coloured picture as a baseline JPEG file.  Colours become
brightness and two differences, without leaving out any of them; blocks become frequencies, which
are divided by steps that grow as the quality falls; and what is left is written with the usual
prefix codes.
-/

set_option autoImplicit false

namespace TileCache.Picture.Jpeg

/-! ## Tables -/

/-- The steps for brightness, row by row. -/
def brightSteps : Array Nat :=
  #[16, 11, 10, 16, 24, 40, 51, 61, 12, 12, 14, 19, 26, 58, 60, 55,
    14, 13, 16, 24, 40, 57, 69, 56, 14, 17, 22, 29, 51, 87, 80, 62,
    18, 22, 37, 56, 68, 109, 103, 77, 24, 35, 55, 64, 81, 104, 113, 92,
    49, 64, 78, 87, 103, 121, 120, 101, 72, 92, 95, 98, 112, 100, 103, 99]

/-- The steps for colour, row by row. -/
def colourSteps : Array Nat :=
  #[17, 18, 24, 47, 99, 99, 99, 99, 18, 21, 26, 66, 99, 99, 99, 99,
    24, 26, 56, 99, 99, 99, 99, 99, 47, 66, 99, 99, 99, 99, 99, 99,
    99, 99, 99, 99, 99, 99, 99, 99, 99, 99, 99, 99, 99, 99, 99, 99,
    99, 99, 99, 99, 99, 99, 99, 99, 99, 99, 99, 99, 99, 99, 99, 99]

/-- The steps for a quality between 1 and 100, by growing frequency.  They are doubled at quality
25, halved at 75, and one at 100. -/
def stepsAt (quality : Nat) (steps : Array Nat) : List Nat :=
  let percent := if quality < 50 then 5000 / quality else 200 - 2 * quality
  diagonals.map fun (row, column) =>
    max 1 (min 255 ((steps.getD (row * 8 + column) 1 * percent + 50) / 100))

/-- The code for the sizes of averages of brightness. -/
def brightAverages : Code :=
  { counts := [0, 1, 5, 1, 1, 1, 1, 1, 1, 0, 0, 0, 0, 0, 0, 0]
    symbols := List.range 12 }

/-- The code for the sizes of averages of colour. -/
def colourAverages : Code :=
  { counts := [0, 3, 1, 1, 1, 1, 1, 1, 1, 1, 1, 0, 0, 0, 0, 0]
    symbols := List.range 12 }

/-- The code for the sizes of all other frequencies of brightness, with the number of zeros
ahead. -/
def brightDetails : Code :=
  { counts := [0, 2, 1, 3, 3, 2, 4, 3, 5, 5, 4, 4, 0, 0, 1, 125]
    symbols :=
      [0x01, 0x02, 0x03, 0x00, 0x04, 0x11, 0x05, 0x12, 0x21, 0x31, 0x41, 0x06, 0x13, 0x51, 0x61,
        0x07, 0x22, 0x71, 0x14, 0x32, 0x81, 0x91, 0xa1, 0x08, 0x23, 0x42, 0xb1, 0xc1, 0x15, 0x52,
        0xd1, 0xf0, 0x24, 0x33, 0x62, 0x72, 0x82, 0x09, 0x0a, 0x16, 0x17, 0x18, 0x19, 0x1a, 0x25,
        0x26, 0x27, 0x28, 0x29, 0x2a, 0x34, 0x35, 0x36, 0x37, 0x38, 0x39, 0x3a, 0x43, 0x44, 0x45,
        0x46, 0x47, 0x48, 0x49, 0x4a, 0x53, 0x54, 0x55, 0x56, 0x57, 0x58, 0x59, 0x5a, 0x63, 0x64,
        0x65, 0x66, 0x67, 0x68, 0x69, 0x6a, 0x73, 0x74, 0x75, 0x76, 0x77, 0x78, 0x79, 0x7a, 0x83,
        0x84, 0x85, 0x86, 0x87, 0x88, 0x89, 0x8a, 0x92, 0x93, 0x94, 0x95, 0x96, 0x97, 0x98, 0x99,
        0x9a, 0xa2, 0xa3, 0xa4, 0xa5, 0xa6, 0xa7, 0xa8, 0xa9, 0xaa, 0xb2, 0xb3, 0xb4, 0xb5, 0xb6,
        0xb7, 0xb8, 0xb9, 0xba, 0xc2, 0xc3, 0xc4, 0xc5, 0xc6, 0xc7, 0xc8, 0xc9, 0xca, 0xd2, 0xd3,
        0xd4, 0xd5, 0xd6, 0xd7, 0xd8, 0xd9, 0xda, 0xe1, 0xe2, 0xe3, 0xe4, 0xe5, 0xe6, 0xe7, 0xe8,
        0xe9, 0xea, 0xf1, 0xf2, 0xf3, 0xf4, 0xf5, 0xf6, 0xf7, 0xf8, 0xf9, 0xfa] }

/-- The code for the sizes of all other frequencies of colour, with the number of zeros ahead. -/
def colourDetails : Code :=
  { counts := [0, 2, 1, 2, 4, 4, 3, 4, 7, 5, 4, 4, 0, 1, 2, 119]
    symbols :=
      [0x00, 0x01, 0x02, 0x03, 0x11, 0x04, 0x05, 0x21, 0x31, 0x06, 0x12, 0x41, 0x51, 0x07, 0x61,
        0x71, 0x13, 0x22, 0x32, 0x81, 0x08, 0x14, 0x42, 0x91, 0xa1, 0xb1, 0xc1, 0x09, 0x23, 0x33,
        0x52, 0xf0, 0x15, 0x62, 0x72, 0xd1, 0x0a, 0x16, 0x24, 0x34, 0xe1, 0x25, 0xf1, 0x17, 0x18,
        0x19, 0x1a, 0x26, 0x27, 0x28, 0x29, 0x2a, 0x35, 0x36, 0x37, 0x38, 0x39, 0x3a, 0x43, 0x44,
        0x45, 0x46, 0x47, 0x48, 0x49, 0x4a, 0x53, 0x54, 0x55, 0x56, 0x57, 0x58, 0x59, 0x5a, 0x63,
        0x64, 0x65, 0x66, 0x67, 0x68, 0x69, 0x6a, 0x73, 0x74, 0x75, 0x76, 0x77, 0x78, 0x79, 0x7a,
        0x82, 0x83, 0x84, 0x85, 0x86, 0x87, 0x88, 0x89, 0x8a, 0x92, 0x93, 0x94, 0x95, 0x96, 0x97,
        0x98, 0x99, 0x9a, 0xa2, 0xa3, 0xa4, 0xa5, 0xa6, 0xa7, 0xa8, 0xa9, 0xaa, 0xb2, 0xb3, 0xb4,
        0xb5, 0xb6, 0xb7, 0xb8, 0xb9, 0xba, 0xc2, 0xc3, 0xc4, 0xc5, 0xc6, 0xc7, 0xc8, 0xc9, 0xca,
        0xd2, 0xd3, 0xd4, 0xd5, 0xd6, 0xd7, 0xd8, 0xd9, 0xda, 0xe2, 0xe3, 0xe4, 0xe5, 0xe6, 0xe7,
        0xe8, 0xe9, 0xea, 0xf2, 0xf3, 0xf4, 0xf5, 0xf6, 0xf7, 0xf8, 0xf9, 0xfa] }

/-- What a component is written with: the steps of its frequencies, and the words for the sizes of
averages and of all others. -/
structure Tables where
  steps : List Nat
  averages : Array (UInt64 × Nat)
  details : Array (UInt64 × Nat)

def brightTables (quality : Nat) : Tables :=
  { steps := stepsAt quality brightSteps
    averages := brightAverages.table
    details := brightDetails.table }

def colourTables (quality : Nat) : Tables :=
  { steps := stepsAt quality colourSteps
    averages := colourAverages.table
    details := colourDetails.table }

/-! ## Samples -/

/-- The weights of red, green and blue in a component, in units of `2 ^ (-16)`: in brightness, and
in the differences of blue and of red from it. -/
def weights : (component : Nat) → Int × Int × Int
  | 0 => (19595, 38470, 7471)
  | 1 => (-11059, -21709, 32768)
  | _ => (32768, -27439, -5329)

/-- The value about which a component lies. -/
def middle (component : Nat) : Int := if component = 0 then 128 else 0

/-- A component of the pixel whose bytes begin at `start`.  A half is rounded down. -/
def sample (out : Region) (component start : Nat) : Int :=
  if out.pixelSize = 1 then (out.bytes.get! start).toNat - 128
  else
    let red : Int := (out.bytes.get! start).toNat
    let green : Int := (out.bytes.get! (start + 1)).toNat
    let blue : Int := (out.bytes.get! (start + 2)).toNat
    let (r, g, b) := weights component
    (r * red + g * green + b * blue + 32767) / 65536 - middle component

/-- The block of component `i` with its first pixel at `(left, top)`.  What reaches over the edge
of the picture repeats the edge. -/
def block (out : Region) (width height left top i : Nat) : Block :=
  Array.ofFn fun row : Fin 8 =>
    let start := min (top + row) (height - 1) * (width * out.pixelSize)
    Array.ofFn fun column : Fin 8 =>
      sample out i (start + min (left + column) (width - 1) * out.pixelSize)

/-- The nearest whole number of steps.  A half counts as a whole step. -/
def inSteps (step : Nat) (v : Int) : Int := v.sign * ((2 * v.natAbs + step) / (2 * step) : Nat)

/-- The frequencies of a block in steps, by growing frequency.  What is behind the point is cut
off first. -/
def quantised (steps : List Nat) (samples : Block) : List Int :=
  let frequencies := samples.frequencies
  List.zipWith (fun (row, column) step => inSteps step ((frequencies.get row column).tdiv 8))
    diagonals steps

/-! ## Bits -/

/-- The number of binary digits of `v` without its sign. -/
def digits (v : Int) : Nat := if v = 0 then 0 else v.natAbs.log2 + 1

/-- Writes a number whose size is known.  A negative one is written as the number before it, so that
its highest bit is zero. -/
def pushNumber (p : Packed) (v : Int) : Packed :=
  p.push (if 0 < v then v else v - 1).toInt64.toUInt64 (digits v)

def pushWord (words : Array (UInt64 × Nat)) (p : Packed) (symbol : Nat) : Packed :=
  let (word, width) := words.getD symbol (0, 0)
  p.push word width

/-- The symbol for sixteen zeros. -/
def zeros16 : Nat := 0xf0

/-- The symbol for zeros up to the end of the block. -/
def zerosToEnd : Nat := 0x00

/-- Writes the frequencies behind the average, with `run` zeros ahead of them. -/
def pushDetails (words : Array (UInt64 × Nat)) : (run : Nat) → List Int → Packed → Packed
  | 0, [], p => p
  | _ + 1, [], p => pushWord words p zerosToEnd
  | run, v :: rest, p =>
    if v = 0 then pushDetails words (run + 1) rest p
    else
      let p := (run / 16).repeat (pushWord words · zeros16) p
      let p := pushWord words p (run % 16 * 16 + digits v)
      pushDetails words 0 rest (pushNumber p v)

/-- Writes a block: the step of its average from `last`, and the details. -/
def pushBlock (tables : Tables) (last : Int) (p : Packed) : List Int → Packed × Int
  | [] => (p, last)
  | average :: details =>
    let change := average - last
    let p := pushNumber (pushWord tables.averages p (digits change)) change
    (pushDetails tables.details 0 details p, average)

/-- Writes the blocks at one place, one of each component.  `lasts` are the averages of the blocks
before them. -/
def pushPlace (out : Region) (width height left top : Nat) (tables : Nat → Tables) :
    (i : Nat) → List Int → Packed → List Int × Packed
  | _, [], p => ([], p)
  | i, last :: lasts, p =>
    let (p, average) := pushBlock (tables i) last p
      (quantised (tables i).steps (block out width height left top i))
    let (averages, p) := pushPlace out width height left top tables (i + 1) lasts p
    (average :: averages, p)

/-- Writes the blocks at the `left` places from `place` on, row by row.  Once more than `enough`
bytes are written, the rest is left out. -/
def pushPlaces (out : Region) (width height : Nat) (tables : Nat → Tables) (enough? : Option Nat) :
    (left place : Nat) → List Int → Packed → Packed
  | 0, _, _, p => p
  | left + 1, place, lasts, p =>
    if enough?.any (· < p.bytes.size) then p
    else
      let across := (width + 7) / 8
      let (lasts, p) :=
        pushPlace out width height (place % across * 8) (place / across * 8) tables 0 lasts p
      pushPlaces out width height tables enough? left (place + 1) lasts p

/-- All blocks of the picture, or as many of them as are `enough`. -/
def scan (out : Region) (width height : Nat) (tables : Nat → Tables) (enough? : Option Nat) :
    ByteArray :=
  let places := (width + 7) / 8 * ((height + 7) / 8)
  (pushPlaces out width height tables enough? places 0 (List.replicate out.pixelSize 0)
    ⟨.empty, 0, 0⟩).finished

/-! ## The file -/

/-- A marker with what belongs to it, which has its length ahead. -/
def segment (marker : Nat) (content : List Nat) : List Nat :=
  let length := content.length + 2
  [255, marker, length / 256, length % 256] ++ content

/-- A code, with the number that it is known by. -/
def codeSegment (number : Nat) (code : Code) : List Nat := segment 0xc4 (number :: code.toBytes)

/-- All that stands ahead of the blocks: the size of the picture, its components with the numbers
of their steps, the steps, and the codes. -/
def head (width height components : Nat) (bright colour : List Nat) : List Nat :=
  let ids := List.range components
  [255, 0xd8] ++
    segment 0xe0 [0x4a, 0x46, 0x49, 0x46, 0, 1, 2, 0, 0, 1, 0, 1, 0, 0] ++
    segment 0xc0 ([8, height / 256, height % 256, width / 256, width % 256, components] ++
      ids.flatMap fun i => [i + 1, 0x11, min i 1]) ++
    segment 0xdb (0 :: bright) ++
    (if components = 1 then [] else segment 0xdb (1 :: colour)) ++
    codeSegment 0x00 brightAverages ++ codeSegment 0x10 brightDetails ++
    (if components = 1 then []
      else codeSegment 0x01 colourAverages ++ codeSegment 0x11 colourDetails) ++
    segment 0xda (components :: ids.flatMap (fun i => [i + 1, min i 1 * 0x11]) ++ [0, 63, 0])

/-- The valid pixels of a region, of one byte (grey) or three (red, green, blue), as a file.  No
side is longer than 65535 pixels.  Of a file with more bytes than `enough` there may be only as
much as shows that. -/
def encodeUpTo (enough? : Option Nat) (out : Region) (quality : Nat) : ByteArray :=
  let width := out.valid.width.val.toNat
  let height := out.valid.height.val.toNat
  let bright := brightTables quality
  let colour := colourTables quality
  let ahead := head width height out.pixelSize bright.steps colour.steps
  let blocks := scan out width height (fun i => if i = 0 then bright else colour) enough?
  ⟨(ahead.map UInt8.ofNat).toArray⟩ ++ blocks ++ ⟨#[255, 0xd9]⟩

/-- The whole file. -/
def encode (out : Region) (quality : Nat) : ByteArray := encodeUpTo none out quality

end TileCache.Picture.Jpeg
