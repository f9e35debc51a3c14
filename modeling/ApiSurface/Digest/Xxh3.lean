/-!
# The digest XXH3

XXH3 maps a run of bytes to a word of 64 bits. It reads the run as words of eight bytes,
least byte first, mixes each with a word of a fixed key, and folds the products together.
Short runs are mixed in a few steps that cover all of them; longer ones go stripe by stripe
into eight lanes.

## Main definitions

* `xxh3`: the digest of a run of bytes, with seed zero.
* `hexText`: a digest as it is written.
-/

namespace ApiSurface.Digest

/-! ### Words -/

/-- The byte at a position, zero beyond the end. -/
def byteAt (b : Array UInt8) (i : Nat) : UInt64 := (b.getD i 0).toUInt64

/-- The word of four bytes from a position on. -/
def word32At (b : Array UInt8) (i : Nat) : UInt64 :=
  byteAt b i ||| byteAt b (i + 1) <<< 8 ||| byteAt b (i + 2) <<< 16 ||| byteAt b (i + 3) <<< 24

/-- The word of eight bytes from a position on. -/
def word64At (b : Array UInt8) (i : Nat) : UInt64 := word32At b i ||| word32At b (i + 4) <<< 32

/-- A word rotated to the left. -/
def rotateLeft (w : UInt64) (n : UInt64) : UInt64 := w <<< n ||| w >>> (64 - n)

/-- A word with its bytes in the opposite order. -/
def swapBytes (w : UInt64) : UInt64 :=
  (List.range 8).foldl (fun swapped i => swapped <<< 8 ||| (w >>> (8 * i).toUInt64 &&& 0xFF)) 0

/-- The exclusive or of the two halves of a product. -/
def foldedProduct (a b : UInt64) : UInt64 :=
  let product := a.toNat * b.toNat
  product.toUInt64 ^^^ (product >>> 64).toUInt64

/-! ### Constants -/

/-- The three primes of 32 bits. -/
def prime32 : Nat → UInt64
  | 0 => 0x9E3779B1
  | 1 => 0x85EBCA77
  | _ => 0xC2B2AE3D

/-- The five primes of 64 bits. -/
def prime64 : Nat → UInt64
  | 0 => 0x9E3779B185EBCA87
  | 1 => 0xC2B2AE3D27D4EB4F
  | 2 => 0x165667B19E3779F9
  | 3 => 0x85EBCA77C2B2AE63
  | _ => 0x27D4EB2F165667C5

/-- The key: 192 bytes without a pattern. -/
def key : Array UInt8 := #[
  0xb8, 0xfe, 0x6c, 0x39, 0x23, 0xa4, 0x4b, 0xbe, 0x7c, 0x01, 0x81, 0x2c, 0xf7, 0x21,
  0xad, 0x1c, 0xde, 0xd4, 0x6d, 0xe9, 0x83, 0x90, 0x97, 0xdb, 0x72, 0x40, 0xa4, 0xa4, 0xb7,
  0xb3, 0x67, 0x1f, 0xcb, 0x79, 0xe6, 0x4e, 0xcc, 0xc0, 0xe5, 0x78, 0x82, 0x5a, 0xd0, 0x7d,
  0xcc, 0xff, 0x72, 0x21, 0xb8, 0x08, 0x46, 0x74, 0xf7, 0x43, 0x24, 0x8e, 0xe0, 0x35, 0x90,
  0xe6, 0x81, 0x3a, 0x26, 0x4c, 0x3c, 0x28, 0x52, 0xbb, 0x91, 0xc3, 0x00, 0xcb, 0x88, 0xd0,
  0x65, 0x8b, 0x1b, 0x53, 0x2e, 0xa3, 0x71, 0x64, 0x48, 0x97, 0xa2, 0x0d, 0xf9, 0x4e, 0x38,
  0x19, 0xef, 0x46, 0xa9, 0xde, 0xac, 0xd8, 0xa8, 0xfa, 0x76, 0x3f, 0xe3, 0x9c, 0x34, 0x3f,
  0xf9, 0xdc, 0xbb, 0xc7, 0xc7, 0x0b, 0x4f, 0x1d, 0x8a, 0x51, 0xe0, 0x4b, 0xcd, 0xb4, 0x59,
  0x31, 0xc8, 0x9f, 0x7e, 0xc9, 0xd9, 0x78, 0x73, 0x64, 0xea, 0xc5, 0xac, 0x83, 0x34, 0xd3,
  0xeb, 0xc3, 0xc5, 0x81, 0xa0, 0xff, 0xfa, 0x13, 0x63, 0xeb, 0x17, 0x0d, 0xdd, 0x51, 0xb7,
  0xf0, 0xda, 0x49, 0xd3, 0x16, 0x55, 0x26, 0x29, 0xd4, 0x68, 0x9e, 0x2b, 0x16, 0xbe, 0x58,
  0x7d, 0x47, 0xa1, 0xfc, 0x8f, 0xf8, 0xb8, 0xd1, 0x7a, 0xd0, 0x31, 0xce, 0x45, 0xcb, 0x3a,
  0x8f, 0x95, 0x16, 0x04, 0x28, 0xaf, 0xd7, 0xfb, 0xca, 0xbb, 0x4b, 0x40, 0x7e]

/-! ### Final mixing -/

/-- Spreads every bit of a word over the whole word. -/
def spread (w : UInt64) : UInt64 :=
  let w := (w ^^^ w >>> 37) * 0x165667919E3779F9
  w ^^^ w >>> 32

/-- Spreads the bits of a word more strongly, for very short runs. -/
def spreadStrongly (w : UInt64) : UInt64 :=
  let w := (w ^^^ w >>> 33) * prime64 1
  let w := (w ^^^ w >>> 29) * prime64 2
  w ^^^ w >>> 32

/-! ### Short runs -/

/-- The digest of no bytes. -/
def digestEmpty : UInt64 := spreadStrongly (word64At key 56 ^^^ word64At key 64)

/-- The digest of one to three bytes. -/
def digest1to3 (b : Array UInt8) : UInt64 :=
  let length := b.size
  let combined :=
    byteAt b 0 <<< 16 ||| byteAt b (length / 2) <<< 24 ||| byteAt b (length - 1) |||
    length.toUInt64 <<< 8
  spreadStrongly (combined ^^^ (word32At key 0 ^^^ word32At key 4))

/-- The digest of four to eight bytes. -/
def digest4to8 (b : Array UInt8) : UInt64 :=
  let length := b.size
  let input := word32At b (length - 4) + word32At b 0 <<< 32
  let w := input ^^^ (word64At key 8 ^^^ word64At key 16)
  let w := (w ^^^ rotateLeft w 49 ^^^ rotateLeft w 24) * 0x9FB21C651E98DF25
  let w := (w ^^^ (w >>> 35 + length.toUInt64)) * 0x9FB21C651E98DF25
  w ^^^ w >>> 28

/-- The digest of nine to sixteen bytes. -/
def digest9to16 (b : Array UInt8) : UInt64 :=
  let length := b.size
  let low := word64At b 0 ^^^ (word64At key 24 ^^^ word64At key 32)
  let high := word64At b (length - 8) ^^^ (word64At key 40 ^^^ word64At key 48)
  spread (length.toUInt64 + swapBytes low + high + foldedProduct low high)

/-- Sixteen bytes of a run mixed with sixteen bytes of the key. -/
def mix16 (b : Array UInt8) (i k : Nat) : UInt64 :=
  foldedProduct (word64At b i ^^^ word64At key k) (word64At b (i + 8) ^^^ word64At key (k + 8))

/-- The sum of words. -/
def sum (ws : List UInt64) : UInt64 := ws.foldl (· + ·) 0

/-- The digest of 17 to 128 bytes: pairs of sixteen bytes from both ends towards the middle. -/
def digest17to128 (b : Array UInt8) : UInt64 :=
  let length := b.size
  let pairs := (length - 1) / 32 + 1
  let mixed := (List.range pairs).map fun i =>
    mix16 b (16 * i) (32 * i) + mix16 b (length - 16 * (i + 1)) (32 * i + 16)
  spread (length.toUInt64 * prime64 0 + sum mixed)

/-- The digest of 129 to 240 bytes: sixteen bytes at a time, of which the first eight are
spread before the others are added. -/
def digest129to240 (b : Array UInt8) : UInt64 :=
  let length := b.size
  let first := (List.range 8).map fun i => mix16 b (16 * i) (16 * i)
  let later := (List.range (length / 16 - 8)).map fun i => mix16 b (16 * (i + 8)) (16 * i + 3)
  spread (spread (length.toUInt64 * prime64 0 + sum first) + sum later +
    mix16 b (length - 16) 119)

/-! ### Long runs -/

/-- The eight lanes that a long run goes into. -/
abbrev Lanes := Vector UInt64 8

/-- The lanes before the first stripe. -/
def Lanes.start : Lanes :=
  #v[prime32 2, prime64 0, prime64 1, prime64 2, prime64 3, prime32 1, prime64 4, prime32 0]

/-- Adds a stripe of 64 bytes to the lanes. Each lane takes the product of the two halves of
its keyed word, and the plain word of its neighbour. -/
def Lanes.addStripe (b : Array UInt8) (i k : Nat) (lanes : Lanes) : Lanes :=
  Vector.ofFn fun lane =>
    let keyed := word64At b (i + 8 * lane.val) ^^^ word64At key (k + 8 * lane.val)
    let neighbour := word64At b (i + 8 * (lane.val ^^^ 1))
    let low : UInt64 := keyed &&& 0xFFFFFFFF
    let high : UInt64 := keyed >>> 32
    lanes[lane] + neighbour + low * high

/-- Scrambles the lanes at the end of a block. -/
def Lanes.scramble (lanes : Lanes) : Lanes :=
  Vector.ofFn fun lane =>
    let w := lanes[lane]
    (w ^^^ w >>> 47 ^^^ word64At key (128 + 8 * lane.val)) * prime32 0

/-- Adds consecutive stripes to the lanes. -/
def Lanes.addStripes (b : Array UInt8) (i count : Nat) (lanes : Lanes) : Lanes :=
  (List.range count).foldl (fun lanes n => lanes.addStripe b (i + 64 * n) (8 * n)) lanes

/-- The word that the lanes end in. -/
def Lanes.merge (lanes : Lanes) (start : UInt64) : UInt64 :=
  let fold (i j : Fin 8) : UInt64 :=
    foldedProduct (lanes[i] ^^^ word64At key (11 + 8 * i.val))
      (lanes[j] ^^^ word64At key (11 + 8 * j.val))
  spread (start + fold 0 1 + fold 2 3 + fold 4 5 + fold 6 7)

/-- The digest of more than 240 bytes: blocks of sixteen stripes, the stripes of the last
block, and the last 64 bytes once more. -/
def digestLong (b : Array UInt8) : UInt64 :=
  let length := b.size
  let blocks := (length - 1) / 1024
  let lanes := (List.range blocks).foldl
    (fun lanes n => (lanes.addStripes b (1024 * n) 16).scramble) Lanes.start
  let lanes := lanes.addStripes b (1024 * blocks) ((length - 1 - 1024 * blocks) / 64)
  let lanes := lanes.addStripe b (length - 64) 121
  lanes.merge (length.toUInt64 * prime64 0)

/-- The digest of a run of bytes. -/
def xxh3 (bytes : List UInt8) : UInt64 :=
  let b := bytes.toArray
  if b.size = 0 then digestEmpty
  else if b.size ≤ 3 then digest1to3 b
  else if b.size ≤ 8 then digest4to8 b
  else if b.size ≤ 16 then digest9to16 b
  else if b.size ≤ 128 then digest17to128 b
  else if b.size ≤ 240 then digest129to240 b
  else digestLong b

/-- A digest as it is written: sixteen digits in base sixteen. -/
def hexText (w : UInt64) : String :=
  let digits := Nat.toDigits 16 w.toNat
  String.ofList (List.replicate (16 - digits.length) '0' ++ digits)

end ApiSurface.Digest
